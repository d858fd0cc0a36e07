/-
Replica.Proofs.Request.ComposedResponse — splitting a response undoes composing it.

A backend composes a response of portions, one for each query: under the key of the query an
object with the wire forms of the items, the token of the next page and the time at which the
page started. `Composed` says which values are such responses: the keys of every object stand in
any order, a token or time that is `null` may be missing, and there may be any number of `null`s
between the items. There always is such a response (`exists_composed`), and all of them are split
into the same pages, those of the portions (`split_composed`).
-/
import Mathlib.Data.List.Nodup
import Mathlib.Data.List.Perm.Subperm
import Replica.Proofs.Record.Survival
import Replica.Proofs.Request.PageWire
import Replica.Proofs.Request.Slices

namespace Replica

/-! ## Entries with different keys -/

namespace Dict

variable {α : Type u}

theorem get?_insertAll_of_not_mem {key : String} : ∀ {entries : List (String × α)} (d : Dict α),
    key ∉ entries.map (·.1) → (d.insertAll entries).get? key = d.get? key
  | [], _, _ => rfl
  | e :: rest, d, h => by
    rw [List.map_cons, List.mem_cons, not_or] at h
    show ((d.insert e.1 e.2).insertAll rest).get? key = _
    rw [get?_insertAll_of_not_mem _ h.2, get?_insert, if_neg (Ne.symm h.1)]

theorem get?_insertAll_of_mem {key : String} {v : α} : ∀ {entries : List (String × α)} (d : Dict α),
    (entries.map (·.1)).Nodup → (key, v) ∈ entries → (d.insertAll entries).get? key = some v
  | e :: rest, d, hnd, h => by
    rw [List.map_cons, List.nodup_cons] at hnd
    show ((d.insert e.1 e.2).insertAll rest).get? key = _
    rcases List.mem_cons.1 h with rfl | h
    · rw [get?_insertAll_of_not_mem _ hnd.1, get?_insert, if_pos rfl]
    · exact get?_insertAll_of_mem _ hnd.2 h

/-- Entries with different keys may stand in any order. One that is there counts, and the key of
one that is left out has no value. -/
theorem get?_ofEntries_of_subperm {entries listed : List (String × α)}
    (hsub : entries.Subperm listed) (hnd : (listed.map (·.1)).Nodup) {e : String × α}
    (h : e ∈ listed) :
    e ∈ entries ∧ (ofEntries entries).get? e.1 = some e.2
      ∨ e ∉ entries ∧ (ofEntries entries).get? e.1 = none := by
  obtain ⟨kept, hperm, hkept⟩ := hsub
  have hkeys : (entries.map (·.1)).Nodup :=
    (hperm.map _).nodup_iff.1 ((hkept.map _).nodup hnd)
  by_cases hmem : e ∈ entries
  · exact .inl ⟨hmem, get?_insertAll_of_mem _ hkeys hmem⟩
  · refine .inr ⟨hmem, get?_insertAll_of_not_mem _ fun hkey => hmem ?_⟩
    obtain ⟨other, hother, heq⟩ := List.mem_map.1 hkey
    have hlisted : other ∈ listed := hkept.subset (hperm.mem_iff.2 hother)
    rwa [← List.inj_on_of_nodup_map hnd hlisted h heq]

end Dict

/-! ## Portions -/

/-- What a backend answers to one query. -/
structure Portion where
  child : ChildQuery
  items : List Item
  token : Option String
  started : Option Timestamp

namespace Portion

/-- The items are records of the model that the wire keeps, the token is not empty, and the
time fits 64 bits. -/
structure Sendable (p : Portion) : Prop where
  model : ∀ i ∈ p.items, i.record.model = p.child.model
  items : ∀ i ∈ p.items, i.WireSafe
  token : p.token ≠ some ""
  started : ∀ t, p.started = some t → t.millis ≤ Timestamp.maxMillis

/-- The page of a portion. -/
def page (p : Portion) : Page := ⟨p.child.model, p.items, p.token, p.started⟩

/-- The members of a portion's slice, for a list of items and `null`s. -/
def members (p : Portion) (values : List Json) : List (String × Json) :=
  [("items", .arr values), ("nextToken", .ofText? p.token),
    ("startedAt", p.started.elim .null fun t => .int t.millis)]

/-- A value is a slice with what a portion says: its members in any order, where those that are
`null` may be missing, and its items in their order among any number of `null`s. -/
def Slice (p : Portion) (slice : Json) : Prop :=
  ∃ entries values, slice = .obj entries ∧ entries.Subperm (p.members values)
    ∧ (∀ e ∈ p.members values, e ∈ entries ∨ e.2 = .null)
    ∧ values.filter (fun v => !v.isNull) = p.items.map Item.toWire

theorem slice_members (p : Portion) : p.Slice (.obj (p.members (p.items.map Item.toWire))) := by
  refine ⟨_, _, rfl, List.Subperm.refl _, fun e he => .inl he, List.filter_eq_self.2 fun v hv => ?_⟩
  obtain ⟨i, -, rfl⟩ := List.mem_map.1 hv
  rw [Item.toWire_not_isNull]
  rfl

theorem Slice.ofJson_eq {p : Portion} {slice : Json} (h : p.Slice slice) (hp : p.Sendable) :
    Page.ofJson p.child.model slice = p.page := by
  obtain ⟨entries, values, rfl, hsub, hall, hvalues⟩ := h
  have hkeys : ((p.members values).map (·.1)).Nodup := by
    show ["items", "nextToken", "startedAt"].Nodup
    decide
  have hmember : ∀ e ∈ p.members values,
      ((Dict.ofEntries entries).get? e.1).getD .null = e.2 := by
    intro e he
    rcases Dict.get?_ofEntries_of_subperm hsub hkeys he with ⟨-, hget⟩ | ⟨hmissing, hget⟩
    · rw [hget, Option.getD_some]
    · rw [hget, Option.getD_none, (hall e he).resolve_left hmissing]
  have hitems : (Dict.ofEntries entries).get? "items" = some (.arr values) := by
    have hget := hmember ("items", .arr values) (List.mem_cons_self ..)
    cases hv : (Dict.ofEntries entries).get? "items" with
    | none => simp [hv] at hget
    | some v => simpa [hv] using hget
  have hwire : Page.OnWire (.ofEntries entries) p.items p.token (p.started.map (·.millis)) :=
    { values := ⟨values, hitems, hvalues⟩
      next := hmember ("nextToken", .ofText? p.token) (by simp [members])
      named := hp.token
      start := by
        rw [hmember ("startedAt", p.started.elim .null fun t => .int t.millis) (by simp [members])]
        cases p.started <;> rfl
      range := by
        intro n hn
        obtain ⟨t, ht, rfl⟩ := Option.map_eq_some_iff.1 hn
        exact hp.started t ht }
  rw [Page.ofJson_obj hwire fun i hi => ⟨hp.model i hi, hp.items i hi⟩, page]
  cases p.started <;> rfl

end Portion

/-! ## Responses -/

namespace Response

/-- A value is a response composed of portions: its data have the slice of each portion under
the key of its query, in any order, and nothing else. -/
def Composed (portions : List Portion) (j : Json) : Prop :=
  ∃ slices data : List (String × Json),
    List.Forall₂ (fun p e => e.1 = p.child.resultKey ∧ p.Slice e.2) portions slices
      ∧ data.Perm slices ∧ j = .obj [("data", .obj data)]

/-- Every list of portions composes to a response. -/
theorem exists_composed (portions : List Portion) : ∃ j, Composed portions j := by
  refine ⟨_, portions.map fun p => (p.child.resultKey, .obj (p.members (p.items.map Item.toWire))),
    _, ?_, List.Perm.refl _, rfl⟩
  rw [List.forall₂_map_right_iff, List.forall₂_same]
  exact fun p _ => ⟨rfl, p.slice_members⟩

theorem keys_of_slices {portions : List Portion} {slices : List (String × Json)}
    (h : List.Forall₂ (fun p e => e.1 = p.child.resultKey ∧ p.Slice e.2) portions slices) :
    slices.map (·.1) = portions.map (·.child.resultKey) := by
  induction h with
  | nil => rfl
  | cons hslice _ ih => rw [List.map_cons, List.map_cons, hslice.1, ih]

theorem exists_slice {portions : List Portion} {slices : List (String × Json)}
    (h : List.Forall₂ (fun p e => e.1 = p.child.resultKey ∧ p.Slice e.2) portions slices) :
    ∀ p ∈ portions, ∃ slice, (p.child.resultKey, slice) ∈ slices ∧ p.Slice slice := by
  induction h with
  | nil => simp
  | @cons p e _ _ hslice _ ih =>
    intro q hq
    rcases List.mem_cons.1 hq with rfl | hq
    · exact ⟨e.2, hslice.1 ▸ List.mem_cons_self .., hslice.2⟩
    · obtain ⟨slice, hmem, hslice⟩ := ih q hq
      exact ⟨slice, List.mem_cons_of_mem _ hmem, hslice⟩

/-- **Splitting undoes composing.** Portions for queries with different keys compose to a
response, and every response composed of them is complete, reports no errors, and is split into
exactly their pages in the order of the queries. -/
theorem split_composed (portions : List Portion)
    (hkeys : (portions.map (·.child.resultKey)).Nodup) (hsendable : ∀ p ∈ portions, p.Sendable) :
    (∃ j, Composed portions j)
      ∧ ∀ j, Composed portions j →
        split j (portions.map (·.child)) = ⟨portions.map Portion.page, [], true⟩ := by
  refine ⟨exists_composed portions, ?_⟩
  rintro j ⟨slices, data, hslices, hperm, rfl⟩
  have hpage : ∀ p ∈ portions, pageOf? (Dict.ofEntries data) p.child = some p.page := by
    intro p hp
    obtain ⟨slice, hmem, hslice⟩ := exists_slice hslices p hp
    have hget : (Dict.ofEntries data).get? p.child.resultKey = some slice := by
      rcases Dict.get?_ofEntries_of_subperm hperm.subperm (keys_of_slices hslices ▸ hkeys) hmem with
        ⟨-, hget⟩ | ⟨hmissing, -⟩
      · exact hget
      · exact absurd (hperm.mem_iff.2 hmem) hmissing
    rw [pageOf?, hget, Option.map_some, hslice.ofJson_eq (hsendable p hp)]
  have hdata : ((Json.obj [("data", .obj data)]).get? "data").bind Json.asObject?
      = some (Dict.ofEntries data) := rfl
  have herrors : errorsOf (.obj [("data", .obj data)]) = [] := rfl
  have hpages : (portions.map (·.child)).filterMap (pageOf? (Dict.ofEntries data))
      = portions.map Portion.page := by
    rw [List.filterMap_map, ← List.filterMap_eq_map]
    exact List.filterMap_congr hpage
  rw [split, hdata, herrors]
  simp only [hpages]

/-! ### Stickers and fonts -/

/-- A gone sticker with metadata at the ends of their ranges. -/
def goneSticker : Item := .atTheEnds [("name", .str "Cat")]

theorem goneSticker_wireSafe : goneSticker.WireSafe :=
  ⟨by decide, Fields.proper_of_keys (by decide +kernel), Item.atTheEnds_inRange _⟩

/-- One sticker with a further page, and no fonts since a time. -/
def stickersAndFonts : List Portion :=
  [⟨⟨"Sticker", "listSticker"⟩, [goneSticker], some "more", none⟩,
    ⟨⟨"Font", "listFont"⟩, [], none, some ⟨5⟩⟩]

theorem stickersAndFonts_sendable : ∀ p ∈ stickersAndFonts, p.Sendable := by
  simp only [stickersAndFonts, List.forall_mem_cons, List.not_mem_nil, false_implies,
    implies_true, and_true]
  constructor
  · refine ⟨?_, ?_, by decide, by simp⟩
    · rintro i (_ | ⟨_, ⟨⟩⟩)
      rfl
    · rintro i (_ | ⟨_, ⟨⟩⟩)
      exact goneSticker_wireSafe
  · refine ⟨by simp, by simp, by decide, ?_⟩
    rintro t ⟨⟩
    decide

/-- A slice of stickers, its members in another order and `null`s around the item. -/
def stickersSlice : Json :=
  .obj [("nextToken", .str "more"), ("startedAt", .null),
    ("items", .arr [.null, goneSticker.toWire, .null])]

/-- A slice of fonts, with a `null` alone and without a token. -/
def fontsSlice : Json := .obj [("startedAt", .int 5), ("items", .arr [.null])]

/-- The fonts come before the stickers. -/
def fontsFirst : Json :=
  .obj [("data", .obj [("listFont", fontsSlice), ("listSticker", stickersSlice)])]

theorem fontsFirst_composed : Composed stickersAndFonts fontsFirst := by
  refine ⟨[("listSticker", stickersSlice), ("listFont", fontsSlice)], _,
    .cons ⟨rfl, _, [.null, goneSticker.toWire, .null], rfl, ?_, ?_, ?_⟩
      (.cons ⟨rfl, _, [.null], rfl, ?_, ?_, ?_⟩ .nil), List.Perm.swap .., rfl⟩
  all_goals decide +kernel

/-- The fonts and stickers of the response are the pages of the portions, stickers first. -/
theorem fontsFirst_split :
    Composed stickersAndFonts fontsFirst
      ∧ split fontsFirst [⟨"Sticker", "listSticker"⟩, ⟨"Font", "listFont"⟩]
        = ⟨[⟨"Sticker", [goneSticker], some "more", none⟩, ⟨"Font", [], none, some ⟨5⟩⟩], [],
            true⟩ :=
  ⟨fontsFirst_composed, (split_composed stickersAndFonts (by decide) stickersAndFonts_sendable).2
    fontsFirst fontsFirst_composed⟩

end Response

end Replica
