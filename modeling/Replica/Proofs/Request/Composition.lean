/-
Replica.Proofs.Request.Composition — what the request for many models says.

The union of queries names each model's variables in three places: in the header, in
the values it sends, and in the text of each query. `Composes` says that the three agree:
the header declares exactly the names that have values, sorted and each of them once; the
text of a model is its own text with `filter` and `nextToken` replaced by the names with
the model behind them; and every name that the text refers to has the value of the
model's own query.

`union_document` says what the document of any union is. `composite_request` is the
statement about the queries of registered models, for their first pages and for later
ones.
-/
import Replica.Proofs.Request.References
import Replica.Proofs.Request.Union
import Replica.Proofs.Text.ByteOrder

namespace Replica

namespace Request

/-! ## The document of a union -/

/-- A text with one declared variable named as a request names it. -/
def renameDeclared (model : String) (body : String) (d : VariableDecl) : String :=
  let name := Variable.namespaced d.name model
  if name = d.name then body else Variable.rename body d.name name

/-- A query's text with all its declared variables named as a request names them. -/
def renamedText (q : ModelQuery) : String := q.declarations.foldl (renameDeclared q.model) q.body

/-- What accepted declarations add, and what becomes of the text. -/
theorem declare_ok {model : String} : ∀ {ds : List VariableDecl} {declared declared' : Dict String}
    {body body' : String}, declare model ds declared body = .ok (declared', body') →
    body' = ds.foldl (renameDeclared model) body ∧
    ∀ name type, declared'.get? name = some type ↔ declared.get? name = some type ∨
      ∃ d ∈ ds, Variable.namespaced d.name model = name ∧ d.type = type
  | [], declared, declared', body, body', h => by
    rw [declare] at h
    cases h
    simp
  | d :: rest, declared, declared', body, body', h => by
    rw [declare] at h
    split at h
    · rename_i type hold
      split at h
      · rename_i htype
        obtain ⟨hbody, hdeclared⟩ := declare_ok h
        refine ⟨hbody, fun name t => (hdeclared name t).trans ?_⟩
        -- A name that is declared already keeps its type, which is the one asked for.
        have hsame : Variable.namespaced d.name model = name ∧ d.type = t →
            declared.get? name = some t := by
          rintro ⟨rfl, rfl⟩
          rw [hold, htype]
        simp only [List.mem_cons, exists_eq_or_imp]
        rw [← or_assoc, or_iff_left_of_imp hsame]
      · cases h
    · rename_i hnew
      obtain ⟨hbody, hdeclared⟩ := declare_ok h
      refine ⟨hbody, fun name t => (hdeclared name t).trans ?_⟩
      have hinsert : (declared.insert (Variable.namespaced d.name model) d.type).get? name = some t
          ↔ (Variable.namespaced d.name model = name ∧ d.type = t) ∨
            declared.get? name = some t := by
        rw [Dict.get?_insert]
        by_cases hname : Variable.namespaced d.name model = name
        · subst hname
          simp [hnew]
        · simp [hname]
      simp only [hinsert, List.mem_cons, exists_eq_or_imp]
      rw [or_assoc, or_left_comm]

/-- What an added query leaves in a draft. -/
theorem addQuery_ok {draft draft' : Draft} {q : ModelQuery} (h : addQuery draft q = .ok draft') :
    draft'.bodies = draft.bodies ++ [renamedText q] ∧
    ∀ name type, draft'.declared.get? name = some type ↔ draft.declared.get? name = some type ∨
      ∃ d ∈ q.declarations, Variable.namespaced d.name q.model = name ∧ d.type = type := by
  rw [addQuery] at h
  split at h
  · cases h
  · split at h
    · cases h
    · rename_i declared body hdeclare
      obtain ⟨hbody, hdeclared⟩ := declare_ok hdeclare
      cases h
      exact ⟨by rw [hbody, renamedText], hdeclared⟩

theorem addQueries_ok : ∀ {queries : List ModelQuery} {draft draft' : Draft},
    addQueries draft queries = .ok draft' →
    draft'.bodies = draft.bodies ++ queries.map renamedText ∧
    ∀ name type, draft'.declared.get? name = some type ↔ draft.declared.get? name = some type ∨
      ∃ q ∈ queries, ∃ d ∈ q.declarations,
        Variable.namespaced d.name q.model = name ∧ d.type = type
  | [], draft, draft', h => by
    rw [addQueries] at h
    cases h
    simp
  | q :: rest, draft, draft', h => by
    rw [addQueries] at h
    split at h
    · rename_i next hadd
      obtain ⟨hbodies, hdeclared⟩ := addQuery_ok hadd
      obtain ⟨hrest, hmore⟩ := addQueries_ok h
      refine ⟨by rw [hrest, hbodies, List.map_cons, List.append_assoc, List.singleton_append], ?_⟩
      intro name type
      rw [hmore, hdeclared, or_assoc]
      simp only [List.mem_cons, exists_eq_or_imp]
    · cases h

/-- The document of a union: one line for each query, under a header with the declarations
of all of them. -/
theorem union_document {queries : List ModelQuery} {q : Request} (h : union queries = .ok q) :
    ∃ declared : Dict String, q.document = documentOf declared (queries.map renamedText) ∧
      ∀ name type, declared.get? name = some type ↔ ∃ own ∈ queries, ∃ d ∈ own.declarations,
        Variable.namespaced d.name own.model = name ∧ d.type = type := by
  rw [union] at h
  split at h
  · cases h
  · cases hadd : addQueries ⟨Dict.empty, Dict.empty, [], []⟩ queries with
    | error e =>
      rw [hadd] at h
      cases h
    | ok draft =>
      rw [hadd] at h
      cases h
      obtain ⟨hbodies, hdeclared⟩ := addQueries_ok hadd
      rw [List.nil_append] at hbodies
      refine ⟨draft.declared, by rw [ofDraft, hbodies], fun name type => ?_⟩
      rw [hdeclared]
      simp

end Request

/-! ## The text of one model -/

/-- What a request calls a variable of a model's own query. -/
def ownName (model name : String) : String :=
  if name = "filter" ∨ name = "nextToken" then name ++ model else name

theorem isWord_append {a b : String} (ha : isWord a = true) (hb : isWord b = true) :
    isWord (a ++ b) = true := by
  rw [isWord] at ha hb ⊢
  rw [String.toList_append, List.all_append, ha, hb]
  rfl

theorem isWord_ownName {model : String} (hmodel : isWord model = true) (name : String)
    (hname : isWord name = true) : isWord (ownName model name) = true := by
  rw [ownName]
  split
  · exact isWord_append hname hmodel
  · exact hname

/-- A registry whose texts can hold no reference. -/
def Registry.Plain (r : Registry) : Prop :=
  ∀ m ∈ r.models, '$' ∉ m.plural.toList ∧ ∀ f ∈ m.fields, '$' ∉ f.name.toList

instance (r : Registry) : Decidable r.Plain :=
  inferInstanceAs (Decidable (∀ m ∈ r.models, _ ∧ ∀ f ∈ m.fields, _))

theorem word_plain {s : String} (h : isWord s = true) : '$' ∉ s.toList := by
  intro hmem
  have := List.all_eq_true.1 h _ hmem
  rw [Variable.dollar_not_word] at this
  cases this

namespace ModelQuery

theorem mem_selection {m : ModelSchema} {name : String} (h : name ∈ selection m) :
    name ∈ metadataKeys ∨ name ∈ m.fieldNames := by
  have hfold : ∀ (keys names : List String),
      name ∈ keys.foldl (fun names k => if names.contains k then names else names ++ [k]) names →
        name ∈ keys ∨ name ∈ names := by
    intro keys
    induction keys with
    | nil => exact fun _ h => .inr h
    | cons k keys ih =>
      intro names h
      rw [List.foldl_cons] at h
      rcases ih _ h with h | h
      · exact .inl (List.mem_cons_of_mem k h)
      · split at h
        · exact .inr h
        · rcases List.mem_append.1 h with h | h
          · exact .inr h
          · rw [List.mem_singleton.1 h]
            exact .inl (List.mem_cons_self ..)
  exact hfold metadataKeys m.fieldNames h

theorem selection_plain {m : ModelSchema} (hfields : ∀ f ∈ m.fields, '$' ∉ f.name.toList)
    {name : String} (h : name ∈ selection m) : '$' ∉ name.toList := by
  rcases mem_selection h with h | h
  · have hkeys : ∀ k ∈ metadataKeys, '$' ∉ k.toList := by decide
    exact hkeys name h
  · obtain ⟨f, hf, rfl⟩ := List.mem_map.1 h
    exact hfields f hf

theorem intercalate_plain {c : Char} (hc : c ≠ ' ') : ∀ {names : List String},
    (∀ name ∈ names, c ∉ name.toList) → c ∉ (String.intercalate " " names).toList
  | [], _ => by simp
  | [a], h => by simpa using h a (List.mem_singleton_self a)
  | a :: b :: rest, h => by
    have ha := h a (List.mem_cons_self ..)
    have ih := intercalate_plain hc fun name hn => h name (List.mem_cons_of_mem a hn)
    rw [String.intercalate_cons_cons]
    simp only [String.toList_append, List.mem_append, not_or]
    exact ⟨⟨ha, by simpa using hc⟩, ih⟩

/-- The query of a model refers to its three variables and to nothing else. -/
theorem mentions_bodyFor {m : ModelSchema} (hname : isWord m.name = true)
    (hplural : '$' ∉ m.plural.toList) (hfields : ∀ f ∈ m.fields, '$' ∉ f.name.toList) :
    Variable.mentions (bodyFor m) = ["filter", "limit", "nextToken"] := by
  have hbody : bodyFor m = ("list" ++ m.name ++ ": list" ++ m.plural ++ "(filter: ")
      ++ ("$" ++ "filter" ++ (", limit: " ++ ("$" ++ "limit" ++ (", nextToken: "
      ++ ("$" ++ "nextToken" ++ (") \x7b items \x7b " ++ String.intercalate " " (selection m)
      ++ " \x7d nextToken startedAt \x7d")))))) := by
    apply String.toList_injective
    simp [bodyFor, resultKeyFor]
  have hstart : '$' ∉ ("list" ++ m.name ++ ": list" ++ m.plural ++ "(filter: ").toList := by
    simp [word_plain hname, hplural]
  have hselection := intercalate_plain (by decide) fun name h => selection_plain hfields h
  have hend : '$' ∉ (") \x7b items \x7b " ++ String.intercalate " " (selection m)
      ++ " \x7d nextToken startedAt \x7d").toList := by
    generalize String.intercalate " " (selection m) = names at hselection
    simp [hselection]
  rw [hbody, Variable.mentions_plain_append hstart,
    Variable.mentions_reference_append (by decide) (by simp [Variable.continuesName]; decide),
    Variable.mentions_plain_append (by decide),
    Variable.mentions_reference_append (by decide) (by simp [Variable.continuesName]; decide),
    Variable.mentions_plain_append (by decide),
    Variable.mentions_reference_append (by decide) (by simp [Variable.continuesName]; decide),
    Variable.mentions_plain hend]

end ModelQuery

/-- In a request, the text of a model's query has the model's own two names. -/
theorem Request.renamedText_query (limit : Nat) {a : PageAsk} (hne : a.model ≠ "")
    (hname : isWord a.model = true) : Request.renamedText (a.query limit)
      = Variable.renameReferences (ownName a.model) (a.query limit).body := by
  have hfilter : "filter" ++ a.model ≠ "filter" := by simpa using hne
  have hnext : "nextToken" ++ a.model ≠ "nextToken" := by simpa using hne
  have hother : "filter" ++ a.model ≠ "nextToken" := by
    intro h
    have := congrArg String.toList h
    simp at this
  have hfold : Request.renamedText (a.query limit) = Variable.rename
      (Variable.rename (a.query limit).body "filter" ("filter" ++ a.model))
      "nextToken" ("nextToken" ++ a.model) := by
    show (if "nextToken" ++ a.model = "nextToken" then _ else
      Variable.rename (if "filter" ++ a.model = "filter" then _ else _) _ _) = _
    rw [if_neg hnext, if_neg hfilter]
    rfl
  have hword : ∀ w, isWord w = true →
      isWord (if w = "filter" then "filter" ++ a.model else w) = true := by
    intro w hw
    split
    · exact isWord_append (by decide) hname
    · exact hw
  rw [hfold, Variable.rename_eq (by decide), Variable.rename_eq (by decide),
    Variable.renameReferences_comp hword]
  congr 1
  funext w
  rw [ownName]
  by_cases hf : w = "filter"
  · simp [hf, hother]
  · by_cases hn : w = "nextToken"
    · simp [hn]
    · simp [hf, hn]

/-! ## The composite request -/

/-- A page of a model that is asked for by its first query and then by continuations. -/
structure PageOrder where
  first : PageAsk
  later : List String

namespace PageOrder

def model (o : PageOrder) : String := o.first.model

/-- The query of a registered model, moved to later pages. -/
def query (r : Registry) (limit : Nat) (o : PageOrder) : Except SchemaError ModelQuery :=
  (ModelQuery.forModel r o.model o.first.predicate limit o.first.token).map fun q =>
    o.later.foldl ModelQuery.continuation q

/-- The token of the page that is asked for in the end. -/
def token (o : PageOrder) : Option String := o.later.getLast?.or o.first.token

/-- The page that is asked for in the end. -/
def ask (o : PageOrder) : PageAsk := { o.first with token := o.token }

theorem foldl_continuation (limit : Nat) : ∀ (later : List String) (a : PageAsk),
    later.foldl ModelQuery.continuation (a.query limit)
      = ({ a with token := later.getLast?.or a.token } : PageAsk).query limit
  | [], a => rfl
  | token :: later, a => by
    rw [List.foldl_cons, Request.continuation_query, foldl_continuation limit later]
    cases hlast : later.getLast? <;> simp [List.getLast?_cons, hlast]

theorem query_of_mem {r : Registry} (limit : Nat) {o : PageOrder}
    (hmem : o.first.schema ∈ r.models) : o.query r limit = .ok (o.ask.query limit) := by
  have hget : r.get o.model = .ok o.first.schema := Registry.get_of_mem hmem
  rw [query, ModelQuery.forModel, hget]
  show Except.ok (o.later.foldl ModelQuery.continuation (o.first.query limit)) = _
  rw [foldl_continuation]
  rfl

theorem mapM_query {r : Registry} (limit : Nat) : ∀ {orders : List PageOrder},
    (∀ o ∈ orders, o.first.schema ∈ r.models) →
      orders.mapM (query r limit) = .ok (orders.map fun o => o.ask.query limit)
  | [], _ => rfl
  | o :: orders, h => by
    rw [List.mapM_cons, query_of_mem limit (h o (List.mem_cons_self ..)),
      mapM_query limit fun x hx => h x (List.mem_cons_of_mem o hx)]
    rfl

end PageOrder

/-- The line of a model's query in a request. -/
def ModelQuery.line (own : ModelQuery) : String :=
  Variable.renameReferences (ownName own.model) own.body

/-- A request is the composition of these queries, which ask for these pages. -/
structure Composes (limit : Nat) (asks : List PageAsk) (queries : List ModelQuery)
    (q : Request) : Prop where
  children : q.children = asks.map fun a => ⟨a.model, "list" ++ a.model⟩
  keys : ∀ name, q.values.contains name = true ↔
    name = "limit" ∨ ∃ a ∈ asks, name = "filter" ++ a.model ∨ name = "nextToken" ++ a.model
  limit : q.values.get? "limit" = some (.int limit)
  filter : ∀ a ∈ asks, q.values.get? ("filter" ++ a.model) = some a.predicate.toFilter
  token : ∀ a ∈ asks, q.values.get? ("nextToken" ++ a.model) = some (.ofText? a.token)
  document : ∃ declared : List (String × String),
    q.document = "query ListAllModel(" ++ headerText declared ++ ") \x7b\n"
      ++ String.join (queries.map fun own => "  " ++ own.line ++ "\n") ++ "\x7d\n" ∧
    (declared.map fun d => Text.bytes d.1).Pairwise (· < ·) ∧
    (∀ name, name ∈ declared.map (·.1) ↔ q.values.contains name = true) ∧
    ∀ name type, (name, type) ∈ declared ↔
      ∃ own ∈ queries, ∃ d ∈ own.declarations, ownName own.model d.name = name ∧ d.type = type
  resolves : ∀ own ∈ queries, Variable.mentions own.body = ["filter", "limit", "nextToken"] ∧
    Variable.mentions own.line = (Variable.mentions own.body).map (ownName own.model) ∧
    ∀ name ∈ Variable.mentions own.body, ∃ v, own.values.get? name = some v ∧
      q.values.get? (ownName own.model name) = some v

/-! ### The values -/

/-- The values of a model's own query. -/
theorem query_values (limit : Nat) (a : PageAsk) :
    (a.query limit).values.get? "filter" = some a.predicate.toFilter ∧
    (a.query limit).values.get? "limit" = some (.int limit) ∧
    (a.query limit).values.get? "nextToken" = some (.ofText? a.token) := by
  refine ⟨?_, ?_, ?_⟩ <;> rw [Dict.get?, Request.query_entries] <;> rfl

namespace Request.Asks

variable {limit : Nat} {asks : List PageAsk} {q : Request}

/-- The names that have a value in a request. -/
theorem contains_iff (h : Asks limit asks q) (name : String) : q.values.contains name = true ↔
    name = "limit" ∨ ∃ a ∈ asks, name = "filter" ++ a.model ∨ name = "nextToken" ++ a.model := by
  constructor
  · exact h.known name
  · rw [Dict.contains]
    rintro (rfl | ⟨a, ha, rfl | rfl⟩)
    · exact Option.isSome_iff_exists.2 ⟨_, h.limit⟩
    · exact Option.isSome_iff_exists.2 ⟨_, h.filter a ha⟩
    · exact Option.isSome_iff_exists.2 ⟨_, h.token a ha⟩

/-- Every variable of a model's own query has the same value in the request. -/
theorem resolves (h : Asks limit asks q) {a : PageAsk} (ha : a ∈ asks) {name : String}
    (hname : name ∈ ["filter", "limit", "nextToken"]) :
    ∃ v, (a.query limit).values.get? name = some v ∧
      q.values.get? (ownName a.model name) = some v := by
  obtain ⟨hfilter, hlimit, hnext⟩ := query_values limit a
  simp only [List.mem_cons, List.not_mem_nil, or_false] at hname
  rcases hname with rfl | rfl | rfl
  · exact ⟨_, hfilter, h.filter a ha⟩
  · exact ⟨_, hlimit, h.limit⟩
  · exact ⟨_, hnext, h.token a ha⟩

end Request.Asks

/-! ### The header -/

/-- The declarations of a model's own query, under the names of a request. -/
theorem declared_iff (limit : Nat) (a : PageAsk) (name type : String) :
    (∃ d ∈ (a.query limit).declarations, ownName a.model d.name = name ∧ d.type = type) ↔
      (name = "filter" ++ a.model ∧ type = "Model" ++ a.model ++ "FilterInput") ∨
      (name = "limit" ∧ type = "Int") ∨ (name = "nextToken" ++ a.model ∧ type = "String") := by
  have hds : (a.query limit).declarations = [⟨"filter", "Model" ++ a.model ++ "FilterInput"⟩,
      ⟨"limit", "Int"⟩, ⟨"nextToken", "String"⟩] := rfl
  have hfilter : ownName a.model "filter" = "filter" ++ a.model := rfl
  have hlimit : ownName a.model "limit" = "limit" := rfl
  have hnext : ownName a.model "nextToken" = "nextToken" ++ a.model := rfl
  rw [hds]
  constructor
  · rintro ⟨d, hd, hname, htype⟩
    simp only [List.mem_cons, List.not_mem_nil, or_false] at hd
    rcases hd with rfl | rfl | rfl
    · exact .inl ⟨hname.symm.trans hfilter, htype.symm⟩
    · exact .inr (.inl ⟨hname.symm.trans hlimit, htype.symm⟩)
    · exact .inr (.inr ⟨hname.symm.trans hnext, htype.symm⟩)
  · rintro (⟨rfl, rfl⟩ | ⟨rfl, rfl⟩ | ⟨rfl, rfl⟩)
    · exact ⟨⟨"filter", _⟩, by simp, hfilter, rfl⟩
    · exact ⟨⟨"limit", "Int"⟩, by simp, hlimit, rfl⟩
    · exact ⟨⟨"nextToken", "String"⟩, by simp, hnext, rfl⟩

theorem namespaced_declared (limit : Nat) (a : PageAsk) {d : VariableDecl}
    (hd : d ∈ (a.query limit).declarations) :
    Variable.namespaced d.name a.model = ownName a.model d.name := by
  have hds : (a.query limit).declarations = [⟨"filter", "Model" ++ a.model ++ "FilterInput"⟩,
      ⟨"limit", "Int"⟩, ⟨"nextToken", "String"⟩] := rfl
  rw [hds] at hd
  simp only [List.mem_cons, List.not_mem_nil, or_false] at hd
  rcases hd with rfl | rfl | rfl <;> rfl

/-- The names declared for some pages are those that have values. -/
theorem declared_names (limit : Nat) {asks : List PageAsk} (hne : asks ≠ []) (name : String) :
    (∃ type, ∃ own ∈ asks.map (PageAsk.query limit), ∃ d ∈ own.declarations,
      ownName own.model d.name = name ∧ d.type = type) ↔
    name = "limit" ∨ ∃ a ∈ asks, name = "filter" ++ a.model ∨ name = "nextToken" ++ a.model := by
  constructor
  · rintro ⟨type, own, hown, hd⟩
    obtain ⟨a, ha, rfl⟩ := List.mem_map.1 hown
    rcases (declared_iff limit a name type).1 hd with ⟨h, -⟩ | ⟨h, -⟩ | ⟨h, -⟩
    · exact .inr ⟨a, ha, .inl h⟩
    · exact .inl h
    · exact .inr ⟨a, ha, .inr h⟩
  · rintro (h | ⟨a, ha, h | h⟩)
    · -- Every query declares the limit, and there is one.
      obtain ⟨a, ha⟩ := List.exists_mem_of_ne_nil asks hne
      exact ⟨_, _, List.mem_map_of_mem ha, (declared_iff limit a name _).2 (.inr (.inl ⟨h, rfl⟩))⟩
    · exact ⟨_, _, List.mem_map_of_mem ha, (declared_iff limit a name _).2 (.inl ⟨h, rfl⟩)⟩
    · exact ⟨_, _, List.mem_map_of_mem ha, (declared_iff limit a name _).2 (.inr (.inr ⟨h, rfl⟩))⟩

/-- The document of a union of page queries. -/
theorem union_lines {limit : Nat} {asks : List PageAsk} {q : Request}
    (hword : ∀ a ∈ asks, a.model ≠ "" ∧ isWord a.model = true)
    (h : Request.union (asks.map (PageAsk.query limit)) = .ok q) :
    ∃ declared : Dict String,
      q.document = Request.documentOf declared
        ((asks.map (PageAsk.query limit)).map ModelQuery.line) ∧
      ∀ name type, declared.get? name = some type ↔ ∃ own ∈ asks.map (PageAsk.query limit),
        ∃ d ∈ own.declarations, ownName own.model d.name = name ∧ d.type = type := by
  obtain ⟨declared, hdocument, hdeclared⟩ := Request.union_document h
  refine ⟨declared, ?_, fun name type => (hdeclared name type).trans ?_⟩
  · have hlines : asks.map (Request.renamedText ∘ PageAsk.query limit)
        = asks.map (ModelQuery.line ∘ PageAsk.query limit) :=
      List.map_congr_left fun a ha =>
        Request.renamedText_query limit (hword a ha).1 (hword a ha).2
    rw [hdocument, List.map_map, List.map_map, hlines]
  · refine exists_congr fun own => and_congr_right fun hown => exists_congr fun d =>
      and_congr_right fun hd => ?_
    obtain ⟨a, -, rfl⟩ := List.mem_map.1 hown
    have hmodel : (a.query limit).model = a.model := rfl
    rw [hmodel, namespaced_declared limit a hd]

/-! ### All of it -/

/-- The union of the queries for pages of distinct registered models is their composition. -/
theorem composes_union {r : Registry} (hplain : r.Plain) (limit : Nat) {asks : List PageAsk}
    (hne : asks ≠ []) (hmem : ∀ a ∈ asks, a.schema ∈ r.models)
    (hnd : (asks.map PageAsk.model).Nodup) :
    ∃ q, Request.union (asks.map (PageAsk.query limit)) = .ok q ∧
      Composes limit asks (asks.map (PageAsk.query limit)) q := by
  -- A registered name is a word, which is what keeps the new names whole.
  have hword : ∀ a ∈ asks, a.model ≠ "" ∧ isWord a.model = true := fun a ha =>
    ⟨(r.words _ (hmem a ha)).1, (r.words _ (hmem a ha)).2.2⟩
  obtain ⟨q, hunion, hasks⟩ := Request.union_asks limit hne hnd
  obtain ⟨declared, hdocument, hdeclared⟩ := union_lines hword hunion
  have hentries : ∀ name type, (name, type) ∈ declared.entries ↔
      ∃ own ∈ asks.map (PageAsk.query limit), ∃ d ∈ own.declarations,
        ownName own.model d.name = name ∧ d.type = type :=
    fun name type => Dict.mem_entries.trans (hdeclared name type)
  refine ⟨q, hunion, ⟨hasks.children, hasks.contains_iff, hasks.limit, hasks.filter, hasks.token,
    ⟨declared.entries, ?_, ?_, ?_, hentries⟩, ?_⟩⟩
  · rw [hdocument, Request.documentOf, List.map_map]
    rfl
  · have hsorted := Text.keys_bytes_increase declared
    rwa [Dict.keys, List.map_map] at hsorted
  · intro name
    rw [hasks.contains_iff, ← declared_names limit hne, List.mem_map]
    simp only [← hentries, Prod.exists, exists_and_right, exists_eq_right]
  · intro own hown
    obtain ⟨a, ha, rfl⟩ := List.mem_map.1 hown
    have hmentions : Variable.mentions (a.query limit).body = ["filter", "limit", "nextToken"] :=
      ModelQuery.mentions_bodyFor (hword a ha).2 (hplain _ (hmem a ha)).1 (hplain _ (hmem a ha)).2
    refine ⟨hmentions, ?_, ?_⟩
    · exact Variable.mentions_renameReferences (fun w => isWord_ownName (hword a ha).2 w) _
    · rw [hmentions]
      exact fun name hname => hasks.resolves ha hname

/-- The queries of distinct registered models, for first pages or later ones, have a union,
and it is their composition. -/
theorem composite_request {r : Registry} (hplain : r.Plain) (limit : Nat)
    {orders : List PageOrder} (hne : orders ≠ []) (hmem : ∀ o ∈ orders, o.first.schema ∈ r.models)
    (hnd : (orders.map PageOrder.model).Nodup) :
    ∃ queries q, orders.mapM (PageOrder.query r limit) = .ok queries ∧
      Request.union queries = .ok q ∧
      Composes limit (orders.map PageOrder.ask) queries q := by
  have hmodels : (orders.map PageOrder.ask).map PageAsk.model = orders.map PageOrder.model := by
    rw [List.map_map]
    rfl
  have hschemas : ∀ a ∈ orders.map PageOrder.ask, a.schema ∈ r.models := by
    intro a ha
    obtain ⟨o, ho, rfl⟩ := List.mem_map.1 ha
    exact hmem o ho
  obtain ⟨q, hunion, hcomposes⟩ :=
    composes_union hplain limit (by simpa using hne) hschemas (hmodels ▸ hnd)
  refine ⟨_, q, ?_, hunion, hcomposes⟩
  rw [PageOrder.mapM_query limit hmem, List.map_map]
  rfl

/-- Two models of which one name starts the other and looks like a variable. -/
def filters : Registry where
  version := "v1"
  models := [.named "Filter", .named "FilternextToken"]
  words := by decide
  distinct := by decide

/-- The second page of the first model and the first page of the second. -/
def twoPagesOfFilters : List PageOrder :=
  [⟨⟨.named "Filter", .compare "id" .eq (.str "f1"), none⟩, ["p2"]⟩,
    ⟨⟨.named "FilternextToken", .all, none⟩, []⟩]

theorem twoPagesOfFilters_composed :
    filters.Plain ∧ ∃ queries q, twoPagesOfFilters.mapM (PageOrder.query filters 10) = .ok queries ∧
      Request.union queries = .ok q ∧
      Composes 10 (twoPagesOfFilters.map PageOrder.ask) queries q :=
  ⟨by decide, composite_request (by decide) 10 (by simp [twoPagesOfFilters]) (by decide)
    (by decide)⟩

end Replica
