/-
Replica.Proofs.Request.UnionOutcome — which queries have a union, and what its header says.

A union is built from left to right and stops at the first query that does not go with those
before it. `Drafted` is what a draft knows of these: their models, each of them once, and one
type for every name that they declare. A query that is refused contradicts this, and the fault
says where (`Drafted.refused`); a query that is accepted leaves a draft of one query more
(`Drafted.added`). So a refusal is a conflict somewhere in the list (`union_refused`), and a
list with a union has none, because a draft keeps one type for each name.

Main statement: `union_outcome` — queries have a union unless there are none or two of them are
in conflict, and its header lists the declared names in the order of their bytes.
-/
import Replica.Proofs.Request.Composition

namespace Replica

/-- What a request keeps of a query beside its text and its values. -/
def ModelQuery.child (q : ModelQuery) : ChildQuery := ⟨q.model, q.resultKey⟩

namespace Request

/-! ## Conflicts -/

/-- Some query declares a variable of this type that a request calls by this name. -/
def Declares (queries : List ModelQuery) (name type : String) : Prop :=
  ∃ q ∈ queries, ∃ d ∈ q.declarations, Variable.namespaced d.name q.model = name ∧ d.type = type

/-- Two queries about one model, or two declarations of one name with different types. -/
inductive Conflicting (queries : List ModelQuery) : Prop where
  | models (h : ¬ (queries.map ModelQuery.model).Nodup)
  | types (name first second : String) (hne : first ≠ second)
      (hfirst : Declares queries name first) (hsecond : Declares queries name second)

/-- What a fault says about the queries that it is found in. -/
def Blames (queries : List ModelQuery) : ProtocolFault → Prop
  | .modelTwice model => 2 ≤ (queries.map ModelQuery.model).count model
  | .typeConflict name first second =>
    first ≠ second ∧ Declares queries name first ∧ Declares queries name second
  | _ => False

theorem declares_append {queries more : List ModelQuery} {name type : String} :
    Declares (queries ++ more) name type ↔
      Declares queries name type ∨ Declares more name type := by
  simp [Declares, or_and_right, exists_or]

theorem declares_singleton {q : ModelQuery} {name type : String} :
    Declares [q] name type ↔
      ∃ d ∈ q.declarations, Variable.namespaced d.name q.model = name ∧ d.type = type := by
  simp [Declares]

/-- Further queries take nothing away from a fault. -/
theorem Blames.append {queries : List ModelQuery} {fault : ProtocolFault}
    (h : Blames queries fault) (more : List ModelQuery) : Blames (queries ++ more) fault := by
  cases fault with
  | modelTwice model =>
    have htwice : 2 ≤ (queries.map ModelQuery.model).count model := h
    show 2 ≤ ((queries ++ more).map ModelQuery.model).count model
    rw [List.map_append, List.count_append]
    omega
  | typeConflict name first second =>
    obtain ⟨hne, hfirst, hsecond⟩ := h
    exact ⟨hne, declares_append.2 (.inl hfirst), declares_append.2 (.inl hsecond)⟩
  | notJson => exact h
  | reported reason => exact h

/-- A fault is found only where there is a conflict. -/
theorem Blames.conflicting {queries : List ModelQuery} {fault : ProtocolFault}
    (h : Blames queries fault) : Conflicting queries := by
  cases fault with
  | modelTwice model =>
    have htwice : 2 ≤ (queries.map ModelQuery.model).count model := h
    refine .models fun hnodup => ?_
    have honce := List.nodup_iff_count.1 hnodup model
    omega
  | typeConflict name first second =>
    obtain ⟨hne, hfirst, hsecond⟩ := h
    exact .types name first second hne hfirst hsecond
  | notJson => exact h.elim
  | reported reason => exact h.elim

/-! ## Drafts -/

/-- What a draft knows of the queries that it was built from. -/
structure Drafted (done : List ModelQuery) (draft : Draft) : Prop where
  children : draft.children = done.map ModelQuery.child
  models : (done.map ModelQuery.model).Nodup
  declared : ∀ name type, draft.declared.get? name = some type ↔ Declares done name type

theorem drafted_nil : Drafted [] ⟨Dict.empty, Dict.empty, [], []⟩ where
  children := rfl
  models := List.nodup_nil
  declared := by simp [Declares]

namespace Drafted

variable {done : List ModelQuery} {draft : Draft}

/-- The check for a query's model finds it among the queries before. -/
theorem any_child (h : Drafted done draft) (q : ModelQuery) :
    draft.children.any (fun c => c.model = q.model) = true ↔
      q.model ∈ done.map ModelQuery.model := by
  rw [h.children, List.any_map, List.any_eq_true, List.mem_map]
  constructor
  · rintro ⟨own, hown, hsame⟩
    exact ⟨own, hown, of_decide_eq_true hsame⟩
  · rintro ⟨own, hown, hsame⟩
    exact ⟨own, hown, decide_eq_true hsame⟩

/-- A name has one type. -/
theorem type_unique (h : Drafted done draft) {name first second : String}
    (hfirst : Declares done name first) (hsecond : Declares done name second) :
    first = second := by
  have hone := (h.declared name first).2 hfirst
  have hother := (h.declared name second).2 hsecond
  exact Option.some.inj (hone.symm.trans hother)

/-- There is no conflict among the queries of a draft. -/
theorem not_conflicting (h : Drafted done draft) : ¬ Conflicting done := by
  intro hconflict
  cases hconflict with
  | models hmodels => exact hmodels h.models
  | types name first second hne hfirst hsecond => exact hne (h.type_unique hfirst hsecond)

/-- An accepted query leaves a draft of one query more. -/
theorem added (h : Drafted done draft) {q : ModelQuery} {draft' : Draft}
    (hadd : addQuery draft q = .ok draft') : Drafted (done ++ [q]) draft' := by
  obtain ⟨-, hdeclared⟩ := addQuery_ok hadd
  rw [addQuery] at hadd
  split at hadd
  · cases hadd
  · rename_i hother
    rw [h.any_child q] at hother
    split at hadd
    · cases hadd
    · cases hadd
      constructor
      · simp [h.children, ModelQuery.child]
      · simpa [List.nodup_append, h.models] using hother
      · intro name type
        rw [hdeclared, h.declared, declares_append, declares_singleton]

end Drafted

/-- Declarations are refused where a name is declared with another type before. -/
theorem declare_refused {model : String} {e : SyncError} : ∀ {ds : List VariableDecl}
    {declared : Dict String} {body : String}, declare model ds declared body = .error e →
    ∃ name first second, e = .protocol (.typeConflict name first second) ∧ first ≠ second ∧
      (declared.get? name = some first ∨
        ∃ d ∈ ds, Variable.namespaced d.name model = name ∧ d.type = first) ∧
      ∃ d ∈ ds, Variable.namespaced d.name model = name ∧ d.type = second
  | [], declared, body, h => by
    rw [declare] at h
    cases h
  | d :: rest, declared, body, h => by
    rw [declare] at h
    split at h
    · rename_i type hold
      split at h
      · obtain ⟨name, first, second, he, hne, hfirst, c, hc, hsecond⟩ := declare_refused h
        refine ⟨name, first, second, he, hne, ?_, c, List.mem_cons_of_mem d hc, hsecond⟩
        rcases hfirst with hfirst | ⟨b, hb, hfirst⟩
        · exact .inl hfirst
        · exact .inr ⟨b, List.mem_cons_of_mem d hb, hfirst⟩
      · rename_i hne
        cases h
        exact ⟨_, type, d.type, rfl, hne, .inl hold, d, List.mem_cons_self .., rfl, rfl⟩
    · obtain ⟨name, first, second, he, hne, hfirst, c, hc, hsecond⟩ := declare_refused h
      refine ⟨name, first, second, he, hne, ?_, c, List.mem_cons_of_mem d hc, hsecond⟩
      rcases hfirst with hfirst | ⟨b, hb, hfirst⟩
      · -- What stands under the name is the declaration just made or one from before.
        rw [Dict.get?_insert] at hfirst
        split at hfirst
        · rename_i hname
          exact .inr ⟨d, List.mem_cons_self .., hname, Option.some.inj hfirst⟩
        · exact .inl hfirst
      · exact .inr ⟨b, List.mem_cons_of_mem d hb, hfirst⟩

/-- A query is refused for a conflict with itself or with the queries before. -/
theorem Drafted.refused {done : List ModelQuery} {draft : Draft} (h : Drafted done draft)
    {q : ModelQuery} {e : SyncError} (hadd : addQuery draft q = .error e) :
    ∃ fault, e = .protocol fault ∧ Blames (done ++ [q]) fault := by
  rw [addQuery] at hadd
  split at hadd
  · rename_i hsame
    cases hadd
    refine ⟨_, rfl, ?_⟩
    have hbefore := List.count_pos_iff.2 ((h.any_child q).1 hsame)
    show 2 ≤ ((done ++ [q]).map ModelQuery.model).count q.model
    rw [List.map_append, List.count_append, List.map_singleton, List.count_singleton_self]
    omega
  · split at hadd
    · rename_i hdeclare
      cases hadd
      obtain ⟨name, first, second, he, hne, hfirst, hsecond⟩ := declare_refused hdeclare
      refine ⟨_, he, hne, ?_, declares_append.2 (.inr (declares_singleton.2 hsecond))⟩
      rw [declares_append, declares_singleton]
      exact hfirst.imp_left (h.declared name first).1
    · cases hadd

theorem Drafted.addQueries_ok : ∀ {queries done : List ModelQuery} {draft draft' : Draft},
    Drafted done draft → addQueries draft queries = .ok draft' →
    Drafted (done ++ queries) draft'
  | [], done, draft, draft', h, hadd => by
    rw [addQueries] at hadd
    cases hadd
    rwa [List.append_nil]
  | q :: rest, done, draft, draft', h, hadd => by
    rw [addQueries] at hadd
    split at hadd
    · rename_i next hnext
      have hrest := (h.added hnext).addQueries_ok hadd
      rwa [List.append_assoc, List.singleton_append] at hrest
    · cases hadd

theorem Drafted.addQueries_refused {e : SyncError} : ∀ {queries done : List ModelQuery}
    {draft : Draft}, Drafted done draft → addQueries draft queries = .error e →
    ∃ fault, e = .protocol fault ∧ Blames (done ++ queries) fault
  | [], done, draft, h, hadd => by
    rw [addQueries] at hadd
    cases hadd
  | q :: rest, done, draft, h, hadd => by
    have happend : done ++ q :: rest = (done ++ [q]) ++ rest := by simp
    rw [addQueries] at hadd
    split at hadd
    · rename_i next hnext
      rw [happend]
      exact (h.added hnext).addQueries_refused hadd
    · rename_i hrefused
      cases hadd
      obtain ⟨fault, he, hblames⟩ := h.refused hrefused
      rw [happend]
      exact ⟨fault, he, hblames.append rest⟩

/-! ## The union -/

/-- A union is what a draft of all queries comes to. -/
theorem union_drafted {queries : List ModelQuery} {q : Request} (h : union queries = .ok q) :
    ∃ draft, addQueries ⟨Dict.empty, Dict.empty, [], []⟩ queries = .ok draft ∧
      q = ofDraft draft ∧ Drafted queries draft := by
  rw [union] at h
  split at h
  · cases h
  · cases hadd : addQueries ⟨Dict.empty, Dict.empty, [], []⟩ queries with
    | error e =>
      rw [hadd] at h
      cases h
    | ok draft =>
      rw [hadd] at h
      cases h
      exact ⟨draft, rfl, rfl, drafted_nil.addQueries_ok hadd⟩

/-- Queries without a union are none at all, or the fault says which of them are in conflict. -/
theorem union_refused {queries : List ModelQuery} {e : SyncError} (h : union queries = .error e) :
    (queries = [] ∧ e = .emptyRequest) ∨ ∃ fault, e = .protocol fault ∧ Blames queries fault := by
  rw [union] at h
  split at h
  · rename_i hempty
    cases h
    exact .inl ⟨List.isEmpty_iff.1 hempty, rfl⟩
  · cases hadd : addQueries ⟨Dict.empty, Dict.empty, [], []⟩ queries with
    | error e' =>
      rw [hadd] at h
      cases h
      exact .inr (drafted_nil.addQueries_refused hadd)
    | ok draft =>
      rw [hadd] at h
      cases h

theorem union_nil : union [] = .error .emptyRequest := rfl

/-- The header of a request declares exactly the names of these queries, each of them once with
its type, in the order of their bytes. -/
def HeaderDeclares (queries : List ModelQuery) (q : Request) : Prop :=
  ∃ header : List (String × String),
    q.document = "query ListAllModel(" ++ headerText header ++ ") \x7b\n"
      ++ String.join (queries.map fun own => "  " ++ renamedText own ++ "\n") ++ "\x7d\n" ∧
    (header.map fun d => Text.bytes d.1).Pairwise (· < ·) ∧
    ∀ name type, (name, type) ∈ header ↔ Declares queries name type

theorem header_union {queries : List ModelQuery} {q : Request} (h : union queries = .ok q) :
    HeaderDeclares queries q := by
  obtain ⟨declared, hdocument, hdeclared⟩ := union_document h
  refine ⟨declared.entries, ?_, ?_, ?_⟩
  · rw [hdocument, documentOf, List.map_map]
    rfl
  · have hsorted := Text.keys_bytes_increase declared
    rwa [Dict.keys, List.map_map] at hsorted
  · intro name type
    exact Dict.mem_entries.trans (hdeclared name type)

/-- No query is an empty request, two queries in conflict are a protocol error, and all other
queries have a union, whose children and header are theirs. -/
theorem union_outcome (queries : List ModelQuery) :
    (union queries = .error .emptyRequest ↔ queries = []) ∧
    ((∃ fault, union queries = .error (.protocol fault)) ↔ Conflicting queries) ∧
    (queries ≠ [] → ¬ Conflicting queries → ∃ q, union queries = .ok q ∧
      q.children = queries.map (fun own => ⟨own.model, own.resultKey⟩) ∧
      HeaderDeclares queries q) := by
  refine ⟨?_, ?_, ?_⟩
  · constructor
    · intro h
      rcases union_refused h with ⟨hnil, -⟩ | ⟨fault, he, -⟩
      · exact hnil
      · cases he
    · rintro rfl
      exact union_nil
  · constructor
    · rintro ⟨fault, h⟩
      rcases union_refused h with ⟨-, he⟩ | ⟨fault', -, hblames⟩
      · cases he
      · exact hblames.conflicting
    · intro hconflict
      cases hunion : union queries with
      | ok q =>
        obtain ⟨draft, -, -, hdrafted⟩ := union_drafted hunion
        exact absurd hconflict hdrafted.not_conflicting
      | error e =>
        rcases union_refused hunion with ⟨rfl, -⟩ | ⟨fault, rfl, -⟩
        · cases hconflict with
          | models h => exact absurd List.nodup_nil h
          | types name first second hne hfirst hsecond => simp [Declares] at hfirst
        · exact ⟨fault, rfl⟩
  · intro hne hnone
    cases hunion : union queries with
    | error e =>
      rcases union_refused hunion with ⟨hnil, -⟩ | ⟨fault, -, hblames⟩
      · exact absurd hnil hne
      · exact absurd hblames.conflicting hnone
    | ok q =>
      obtain ⟨draft, -, rfl, hdrafted⟩ := union_drafted hunion
      exact ⟨_, rfl, hdrafted.children, header_union hunion⟩

/-- A query with a tag of its own and the limit that all queries share. -/
def tagged (model : String) : ModelQuery where
  model := model
  resultKey := resultKeyFor model
  body := resultKeyFor model ++ "(tag: $tag, limit: $limit)"
  declarations := [⟨"tag", "String"⟩, ⟨"limit", "Int"⟩]
  values := Dict.empty
  predicate := .all

/-- The limit is declared by both queries, under one name and with one type. -/
theorem taggedStickersAndFonts_declared :
    [tagged "Sticker", tagged "Font"] ≠ [] ∧ ¬ Conflicting [tagged "Sticker", tagged "Font"] ∧
    ∃ q, union [tagged "Sticker", tagged "Font"] = .ok q ∧
      q.children = [⟨"Sticker", "listSticker"⟩, ⟨"Font", "listFont"⟩] ∧
      HeaderDeclares [tagged "Sticker", tagged "Font"] q := by
  have hne : [tagged "Sticker", tagged "Font"] ≠ [] := by simp
  have hnone : ¬ Conflicting [tagged "Sticker", tagged "Font"] := by
    intro hconflict
    cases hconflict with
    | models h => exact h (by decide)
    | types name first second hdiffer hfirst hsecond =>
      simp [Declares, tagged, Variable.namespaced, Variable.isShared, Variable.shared]
        at hfirst hsecond
      grind
  exact ⟨hne, hnone, (union_outcome _).2.2 hne hnone⟩

end Request

end Replica
