/-
Replica.Proofs.Request.PageReading — which page a slice of a response is read as.

A list result is an object, which may lack each of its members, or an array, which has all three
in order. `Page.Lists` says which values are list results and what they list (`lists_iff`).

`Page.Reads` says which page a slice gives: the page of all its items, or the empty page if the
slice is no list result or if one of its items is no record. Every slice is read as such a page
(`reads_ofJson`), never as one of a part of its items.
-/
import Mathlib.Data.List.Forall2
import Replica.Proofs.Record.Wire
import Replica.Request.Page

namespace Replica

/-! ## Members of objects and of arrays -/

namespace Json.Shape

variable {α β : Type}

theorem bind_apply (x : Shape α) (f : α → Shape β) (source : Members) :
    (x >>= f) source = (x source).bind fun p => f p.1 p.2 := rfl

theorem defaulted_named (name : String) (default : α) (read : Json → Option α)
    (entries : Dict Json) :
    defaulted name default read (.named entries)
      = (((entries.get? name).map read).getD (some default)).map (·, .named entries) := by
  simp only [defaulted, bind_apply, next, Option.bind_some]
  cases entries.get? name with
  | none => rfl
  | some v => cases hv : read v <;> simp [StateT.lift, hv]

theorem defaulted_listed (name : String) (default : α) (read : Json → Option α) (v : Json)
    (rest : List Json) :
    defaulted name default read (.listed (v :: rest)) = (read v).map (·, .listed rest) := by
  simp only [defaulted, bind_apply, next, Option.bind_some]
  cases read v <;> simp [StateT.lift]

/-- A member that may be `null` or absent is read as if it were `null` where it is absent. -/
theorem optional_named (name : String) (read : Json → Option α) (entries : Dict Json) :
    optional name (nullable? read) (.named entries)
      = (nullable? read ((entries.get? name).getD .null)).map (·, .named entries) := by
  simp only [optional, next]
  cases entries.get? name with
  | none => rfl
  | some v =>
    rw [Option.getD_some]
    cases hv : nullable? read v <;> simp [hv]

theorem optional_listed (name : String) (read : Json → Option (Option α)) (v : Json)
    (rest : List Json) :
    optional name read (.listed (v :: rest)) = (read v).map (·, .listed rest) := by
  cases hv : read v <;> simp [optional, next, hv]

theorem optional_listed_nil (name : String) (read : Json → Option (Option α)) :
    optional name read (.listed []) = none := rfl

end Json.Shape

namespace Page

/-! ## List results -/

/-- A value is a list result of some items, a token and a start. As an object it may lack each
of them, and the token and the start may be `null`; as an array it has all three. -/
inductive Lists : Json → List Json → Option String → Option Nat → Prop
  | named {entries : List (String × Json)} {values : List Json} {token : Option String}
      {started : Option Nat}
      (items : ((Dict.ofEntries entries).get? "items").getD (.arr []) = .arr values)
      (next : ((Dict.ofEntries entries).get? "nextToken").getD .null = .ofText? token)
      (start : ((Dict.ofEntries entries).get? "startedAt").getD .null
        = started.elim .null fun n => .int n)
      (range : ∀ n, started = some n → n ≤ Text.maxUnsigned64) :
      Lists (.obj entries) values token started
  | inOrder {values : List Json} {token : Option String} {started : Option Nat}
      (range : ∀ n, started = some n → n ≤ Text.maxUnsigned64) :
      Lists (.arr [.arr values, .ofText? token, started.elim .null fun n => .int n])
        values token started

theorem asArray?_iff {v : Json} {values : List Json} :
    v.asArray? = some values ↔ v = .arr values := by
  cases v <;> simp [Json.asArray?]

theorem nullable?_asText?_iff {v : Json} {token : Option String} :
    Json.nullable? Json.asText? v = some token ↔ v = .ofText? token := by
  constructor
  · intro h
    cases v <;> cases h <;> rfl
  · rintro rfl
    cases token <;> rfl

theorem nullable?_asUnsigned64?_iff {v : Json} {started : Option Nat} :
    Json.nullable? Json.asUnsigned64? v = some started
      ↔ v = started.elim .null (fun n => .int n)
        ∧ ∀ n, started = some n → n ≤ Text.maxUnsigned64 := by
  constructor
  · intro h
    cases v with
    | null =>
      cases h
      exact ⟨rfl, by simp⟩
    | int k =>
      obtain ⟨n, hn, rfl⟩ := Option.map_eq_some_iff.1 h
      simp only [Json.asUnsigned64?, Json.asNatUpTo?] at hn
      split at hn
      · cases hn
        refine ⟨?_, fun m hm => ?_⟩
        · simp only [Option.elim_some, Json.int.injEq]
          omega
        · cases hm
          omega
      · cases hn
    | bool | real | str | arr | obj => cases h
  · rintro ⟨rfl, hrange⟩
    cases started with
    | none => rfl
    | some n =>
      have hn : (0 : Int) ≤ n ∧ (n : Int) ≤ (Text.maxUnsigned64 : Nat) :=
        ⟨Int.natCast_nonneg _, Int.ofNat_le.2 (hrange n rfl)⟩
      simp [Json.nullable?, Json.asUnsigned64?, Json.asNatUpTo?, hn]

/-- Three members that are read one after another. -/
def ofMembers? (items next start : Json) : Option ListResult :=
  items.asArray?.bind fun values => (Json.nullable? Json.asText? next).bind fun token =>
    (Json.nullable? Json.asUnsigned64? start).bind fun started => some ⟨values, token, started⟩

theorem ofMembers?_iff {items next start : Json} {values : List Json} {token : Option String}
    {started : Option Nat} :
    ofMembers? items next start = some ⟨values, token, started⟩
      ↔ items = .arr values ∧ next = .ofText? token ∧ start = started.elim .null (fun n => .int n)
        ∧ ∀ n, started = some n → n ≤ Text.maxUnsigned64 := by
  simp only [ofMembers?, Option.bind_eq_some_iff, Option.some.injEq, asArray?_iff,
    nullable?_asText?_iff, nullable?_asUnsigned64?_iff, ListResult.mk.injEq]
  constructor
  · rintro ⟨_, hitems, _, hnext, _, ⟨hstart, hrange⟩, rfl, rfl, rfl⟩
    exact ⟨hitems, hnext, hstart, hrange⟩
  · rintro ⟨hitems, hnext, hstart, hrange⟩
    exact ⟨_, hitems, _, hnext, _, ⟨hstart, hrange⟩, rfl, rfl, rfl⟩

/-- From an object the members are read by name. -/
theorem shape_named (entries : Dict Json) :
    ListResult.shape (.named entries)
      = (ofMembers? ((entries.get? "items").getD (.arr []))
          ((entries.get? "nextToken").getD .null)
          ((entries.get? "startedAt").getD .null)).map (·, .named entries) := by
  have hitems : ((entries.get? "items").map Json.asArray?).getD (some [])
      = ((entries.get? "items").getD (.arr [])).asArray? := by
    cases entries.get? "items" <;> rfl
  simp only [ListResult.shape, Json.Shape.bind_apply, Json.Shape.defaulted_named, hitems,
    Json.Shape.optional_named, ofMembers?, Option.bind_map, Option.map_bind, Function.comp_def]
  rfl

/-- From an array the members are read in order. -/
theorem shape_listed (items next start : Json) (rest : List Json) :
    ListResult.shape (.listed (items :: next :: start :: rest))
      = (ofMembers? items next start).map (·, .listed rest) := by
  simp only [ListResult.shape, Json.Shape.bind_apply, Json.Shape.defaulted_listed,
    Json.Shape.optional_listed, ofMembers?, Option.bind_map, Option.map_bind, Function.comp_def]
  rfl

/-- None of the members of an array may be missing. -/
theorem shape_short {members : List Json} (h : members.length < 3) :
    ListResult.shape (.listed members) = none := by
  rcases members with _ | ⟨items, _ | ⟨next, _ | ⟨start, rest⟩⟩⟩
  case nil => rfl
  case cons.cons.cons =>
    simp only [List.length_cons] at h
    omega
  all_goals
    simp only [ListResult.shape, Json.Shape.bind_apply, Json.Shape.defaulted_listed,
      Json.Shape.optional_listed, Json.Shape.optional_listed_nil, Option.bind_map,
      Function.comp_def, Option.bind_none, Option.bind_fun_none]

theorem decode?_obj (entries : List (String × Json)) :
    ListResult.decode? (.obj entries)
      = ofMembers? (((Dict.ofEntries entries).get? "items").getD (.arr []))
          (((Dict.ofEntries entries).get? "nextToken").getD .null)
          (((Dict.ofEntries entries).get? "startedAt").getD .null) := by
  rw [ListResult.decode?, Json.Shape.read, shape_named, Option.map_map]
  exact congrFun Option.map_id _

/-- An array lists nothing but its three members. -/
theorem decode?_arr_iff {members : List Json} {list : ListResult} :
    ListResult.decode? (.arr members) = some list
      ↔ ∃ items next start, members = [items, next, start]
        ∧ ofMembers? items next start = some list := by
  constructor
  · intro h
    rw [ListResult.decode?, Json.Shape.read] at h
    rcases members with _ | ⟨items, _ | ⟨next, _ | ⟨start, rest⟩⟩⟩
    case cons.cons.cons =>
      rw [shape_listed] at h
      cases hmembers : ofMembers? items next start with
      | none =>
        rw [hmembers] at h
        cases h
      | some found =>
        rw [hmembers] at h
        cases rest with
        | nil =>
          cases h
          exact ⟨items, next, start, rfl, hmembers⟩
        | cons extra rest => cases h
    all_goals
      rw [shape_short (by simp)] at h
      cases h
  · rintro ⟨items, next, start, rfl, hmembers⟩
    rw [ListResult.decode?, Json.Shape.read, shape_listed, hmembers]
    rfl

theorem lists_iff {j : Json} {values : List Json} {token : Option String} {started : Option Nat} :
    ListResult.decode? j = some ⟨values, token, started⟩ ↔ Lists j values token started := by
  constructor
  · intro h
    cases j with
    | obj entries =>
      rw [decode?_obj, ofMembers?_iff] at h
      obtain ⟨hitems, hnext, hstart, hrange⟩ := h
      exact .named hitems hnext hstart hrange
    | arr members =>
      obtain ⟨items, next, start, rfl, hmembers⟩ := decode?_arr_iff.1 h
      obtain ⟨rfl, rfl, rfl, hrange⟩ := ofMembers?_iff.1 hmembers
      exact .inOrder hrange
    | null | bool | int | real | str => cases h
  · intro h
    cases h with
    | named hitems hnext hstart hrange =>
      rw [decode?_obj, ofMembers?_iff]
      exact ⟨hitems, hnext, hstart, hrange⟩
    | inOrder hrange =>
      exact decode?_arr_iff.2 ⟨_, _, _, rfl, ofMembers?_iff.2 ⟨rfl, rfl, rfl, hrange⟩⟩

/-! ## Pages -/

theorem readItems_eq_some_iff {model : String} {values : List Json} {items : List Item} :
    readItems model values = some items
      ↔ List.Forall₂ (fun v i => Item.ofWire model v = .ok i) values items := by
  induction values generalizing items with
  | nil => cases items <;> simp [readItems]
  | cons v rest ih =>
    rw [readItems]
    cases hv : Item.ofWire model v with
    | error fault => cases items <;> simp [hv]
    | ok i => cases items <;> simp [hv, ih, and_comm]

theorem exists_fault_of_readItems {model : String} {values : List Json}
    (h : readItems model values = none) :
    ∃ v ∈ values, ∃ fault, Item.ofWire model v = .error fault := by
  induction values with
  | nil => cases h
  | cons v rest ih =>
    rw [readItems] at h
    split at h
    case h_1 fault hfault => exact ⟨v, List.mem_cons_self .., fault, hfault⟩
    case h_2 =>
      obtain ⟨w, hw, hfault⟩ := ih (Option.map_eq_none_iff.1 h)
      exact ⟨w, List.mem_cons_of_mem _ hw, hfault⟩

/-- The page that a slice gives a model. -/
inductive Reads (model : String) (slice : Json) : Page → Prop
  /-- All items that are not `null`, in order; an empty token is none. -/
  | whole {values : List Json} {token : Option String} {started : Option Nat} {items : List Item}
      (lists : Lists slice values token started)
      (read : List.Forall₂ (fun v i => Item.ofWire model v = .ok i)
        (values.filter fun v => !v.isNull) items) :
      Reads model slice ⟨model, items, token.filter (· ≠ ""), started.map Timestamp.mk⟩
  /-- Nothing, of no list result and of one with an item that is no record. -/
  | nothing (unreadable : ∀ values token started, Lists slice values token started →
        ∃ v ∈ values, v.isNull = false ∧ ∃ fault, Item.ofWire model v = .error fault) :
      Reads model slice (empty model)

theorem reads_ofJson (model : String) (slice : Json) : Reads model slice (ofJson model slice) := by
  unfold ofJson
  split
  case h_1 hnone =>
    refine .nothing fun values token started hlists => ?_
    rw [lists_iff.2 hlists] at hnone
    cases hnone
  case h_2 list hlist =>
    split
    case h_1 hnone =>
      refine .nothing fun values token started hlists => ?_
      cases hlist.symm.trans (lists_iff.2 hlists)
      obtain ⟨v, hv, hfault⟩ := exists_fault_of_readItems hnone
      obtain ⟨hv, hnull⟩ := List.mem_filter.1 hv
      exact ⟨v, hv, by simpa using hnull, hfault⟩
    case h_2 items hitems => exact .whole (lists_iff.1 hlist) (readItems_eq_some_iff.1 hitems)

theorem model_of_read {model : String} {values : List Json} {items : List Item}
    (h : List.Forall₂ (fun v i => Item.ofWire model v = .ok i) values items) :
    ∀ i ∈ items, i.record.model = model := by
  induction h with
  | nil => simp
  | cons hv _ ih =>
    intro i hi
    rcases List.mem_cons.1 hi with rfl | hi
    · exact Item.ofWire_model hv
    · exact ih i hi

/-- A page and its items bear the name of the model. -/
theorem Reads.labelled {model : String} {slice : Json} {page : Page} (h : Reads model slice page) :
    page.model = model ∧ ∀ i ∈ page.items, i.record.model = model := by
  cases h with
  | whole hlists hread => exact ⟨rfl, model_of_read hread⟩
  | nothing hunreadable => exact ⟨rfl, by simp [empty]⟩

end Page

end Replica
