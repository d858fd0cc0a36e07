/-
Replica.Proofs.Request.Union — what the union of page queries asks for.

A `PageAsk` is one page of one model: the model, the predicate of its records and the
token of the page. Its query has three variables, of which the limit is shared. The
union of the queries of distinct models always exists, and its values are exactly the
limit and, for each model, its filter and its token (`union_asks`).

The variables of two models never meet, because the names `filter`, `limit` and
`nextToken` are no prefixes of each other.
-/
import Replica.Request.Query

namespace Replica

/-- One page of the records of a model. -/
structure PageAsk where
  schema : ModelSchema
  predicate : Predicate
  token : Option String

namespace PageAsk

/-- The model that is asked for. -/
def model (a : PageAsk) : String := a.schema.name

/-- The query for the page. -/
def query (limit : Nat) (a : PageAsk) : ModelQuery :=
  .ofSchema a.schema a.predicate limit a.token

/-- The child of a request that stands for the page. -/
def child (a : PageAsk) : ChildQuery := ⟨a.model, resultKeyFor a.model⟩

end PageAsk

namespace Request

/-- The filter that a request sends for a model. -/
def filterOf (q : Request) (model : String) : Option Json := q.values.get? ("filter" ++ model)

/-- The page token that a request sends for a model. -/
def tokenOf (q : Request) (model : String) : Option Json := q.values.get? ("nextToken" ++ model)

/-- The page limit that a request sends. -/
def limitOf (q : Request) : Option Json := q.values.get? "limit"

/-- A request asks for these pages and nothing else. -/
structure Asks (limit : Nat) (asks : List PageAsk) (q : Request) : Prop where
  children : q.children = asks.map PageAsk.child
  limit : q.limitOf = some (.int limit)
  filter : ∀ a ∈ asks, q.filterOf a.model = some a.predicate.toFilter
  token : ∀ a ∈ asks, q.tokenOf a.model = some (.ofText? a.token)
  known : ∀ k, (q.values.get? k).isSome →
    k = "limit" ∨ ∃ a ∈ asks, k = "filter" ++ a.model ∨ k = "nextToken" ++ a.model

/-! ## Names of variables -/

theorem filter_ne_limit (model : String) : "filter" ++ model ≠ "limit" := by
  intro h
  have := congrArg String.toList h
  simp at this

theorem nextToken_ne_limit (model : String) : "nextToken" ++ model ≠ "limit" := by
  intro h
  have := congrArg String.toList h
  simp at this

theorem filter_ne_nextToken (a b : String) : "filter" ++ a ≠ "nextToken" ++ b := by
  intro h
  have := congrArg String.toList h
  simp at this

theorem namespaced_filter (model : String) :
    Variable.namespaced "filter" model = "filter" ++ model := rfl

theorem namespaced_limit (model : String) : Variable.namespaced "limit" model = "limit" := rfl

theorem namespaced_nextToken (model : String) :
    Variable.namespaced "nextToken" model = "nextToken" ++ model := rfl

/-! ## Values of one query -/

theorem Dict.insertEntry_of_lt {α : Type} {k k' : String} (h : k' < k) (v v' : α)
    (rest : List (String × α)) :
    Dict.insertEntry k v ((k', v') :: rest) = (k', v') :: Dict.insertEntry k v rest := by
  rw [Dict.insertEntry, if_neg (String.lt_asymm h), if_pos h]

theorem query_entries (limit : Nat) (a : PageAsk) :
    (a.query limit).values.entries
      = [("filter", a.predicate.toFilter), ("limit", .int limit),
          ("nextToken", .ofText? a.token)] := by
  have hlimit : ("filter" : String) < "limit" := by decide
  have hfilter : ("filter" : String) < "nextToken" := by decide
  have hnext : ("limit" : String) < "nextToken" := by decide
  simp only [PageAsk.query, ModelQuery.ofSchema, Dict.ofEntries, Dict.insertAll, Dict.insert,
    List.foldl_cons, List.foldl_nil]
  rw [Dict.empty, Dict.insertEntry, Dict.insertEntry_of_lt hlimit, Dict.insertEntry,
    Dict.insertEntry_of_lt hfilter, Dict.insertEntry_of_lt hnext, Dict.insertEntry]

theorem continuation_query (limit : Nat) (a : PageAsk) (token : String) :
    (a.query limit).continuation token = ({ a with token := some token } : PageAsk).query limit := by
  have hvalues : ((a.query limit).values.insert "nextToken" (.str token))
      = (({ a with token := some token } : PageAsk).query limit).values := by
    apply Dict.ext_get?
    intro k
    simp only [PageAsk.query, ModelQuery.ofSchema, Dict.ofEntries, Dict.insertAll,
      List.foldl_cons, List.foldl_nil, Dict.get?_insert, Json.ofText?]
    split <;> rfl
  rw [ModelQuery.continuation, hvalues]
  rfl

/-- What adding a page query does to the values. -/
theorem get?_addValues (limit : Nat) (a : PageAsk) (values : Dict Json) (k : String) :
    (addValues a.model (a.query limit).values.entries values).get? k
      = if k = "nextToken" ++ a.model then some (.ofText? a.token)
        else if k = "limit" then (values.get? "limit").or (some (.int limit))
        else if k = "filter" ++ a.model then some a.predicate.toFilter
        else values.get? k := by
  rw [query_entries]
  have hf : Variable.isShared "filter" = false := rfl
  have hl : Variable.isShared "limit" = true := rfl
  have hn : Variable.isShared "nextToken" = false := rfl
  simp only [addValues, List.foldl_cons, List.foldl_nil, namespaced_filter, namespaced_limit,
    namespaced_nextToken, hf, hl, hn, Bool.false_and, Bool.true_and, Bool.false_eq_true,
    if_false]
  have hlimit : (values.insert ("filter" ++ a.model) a.predicate.toFilter).get? "limit"
      = values.get? "limit" := by
    rw [Dict.get?_insert, if_neg (filter_ne_limit a.model)]
  have hname := nextToken_ne_limit a.model
  cases hv : values.get? "limit" with
  | none =>
    have hc : (values.insert ("filter" ++ a.model) a.predicate.toFilter).contains "limit"
        = false := by simp [Dict.contains, hlimit, hv]
    simp only [hc, Bool.false_eq_true, if_false, Dict.get?_insert, Option.none_or]
    grind
  | some v =>
    have hc : (values.insert ("filter" ++ a.model) a.predicate.toFilter).contains "limit"
        = true := by simp [Dict.contains, hlimit, hv]
    simp only [hc, if_true, Dict.get?_insert, Option.some_or]
    grind [filter_ne_limit]

/-! ## Declarations of one query -/

/-- A declaration that agrees with what is declared under its name is accepted. -/
theorem declare_cons (model : String) (d : VariableDecl) (declared : Dict String)
    (h : ∀ type, declared.get? (Variable.namespaced d.name model) = some type → type = d.type)
    (rest : List VariableDecl) (body : String) :
    ∃ body', declare model (d :: rest) declared body
      = declare model rest (declared.insert (Variable.namespaced d.name model) d.type) body' := by
  rw [declare]
  cases hd : declared.get? (Variable.namespaced d.name model) with
  | none => exact ⟨_, rfl⟩
  | some type =>
    have htype := h type hd
    have hsame : declared.insert (Variable.namespaced d.name model) d.type = declared := by
      apply Dict.ext_get?
      intro k
      rw [Dict.get?_insert]
      split
      · rename_i hk
        rw [← hk, hd, htype]
      · rfl
    simp only [htype, if_true, hsame]
    exact ⟨_, rfl⟩

/-- A variable of a union of page queries, with its type. -/
def PageVariable (asks : List PageAsk) (name type : String) : Prop :=
  (name = "limit" ∧ type = "Int") ∨ ∃ a ∈ asks,
    (name = "filter" ++ a.model ∧ type = "Model" ++ a.model ++ "FilterInput")
      ∨ (name = "nextToken" ++ a.model ∧ type = "String")

namespace PageVariable

variable {asks : List PageAsk} {name type type' : String}

theorem append (h : PageVariable asks name type) (more : List PageAsk) :
    PageVariable (asks ++ more) name type := by
  rcases h with hlimit | ⟨a, ha, hown⟩
  · exact .inl hlimit
  · exact .inr ⟨a, List.mem_append_left _ ha, hown⟩

/-- The name of a variable determines its type. -/
theorem type_unique (h : PageVariable asks name type) (h' : PageVariable asks name type') :
    type = type' := by
  rcases h with ⟨rfl, rfl⟩ | ⟨a, -, ⟨rfl, rfl⟩ | ⟨rfl, rfl⟩⟩
  · rcases h' with ⟨-, rfl⟩ | ⟨b, -, ⟨hname, -⟩ | ⟨hname, -⟩⟩
    · rfl
    · exact absurd hname.symm (filter_ne_limit _)
    · exact absurd hname.symm (nextToken_ne_limit _)
  · rcases h' with ⟨hname, -⟩ | ⟨b, -, ⟨hname, rfl⟩ | ⟨hname, -⟩⟩
    · exact absurd hname (filter_ne_limit _)
    · rw [(String.append_right_inj "filter").1 hname]
    · exact absurd hname (filter_ne_nextToken _ _)
  · rcases h' with ⟨hname, -⟩ | ⟨b, -, ⟨hname, -⟩ | ⟨-, rfl⟩⟩
    · exact absurd hname (nextToken_ne_limit _)
    · exact absurd hname.symm (filter_ne_nextToken _ _)
    · rfl

end PageVariable

theorem declare_pageVariables {asks : List PageAsk} (model : String) :
    ∀ (ds : List VariableDecl) (declared : Dict String) (body : String),
      (∀ d ∈ ds, PageVariable asks (Variable.namespaced d.name model) d.type) →
      (∀ name type, declared.get? name = some type → PageVariable asks name type) →
      ∃ declared' body', declare model ds declared body = .ok (declared', body')
        ∧ ∀ name type, declared'.get? name = some type → PageVariable asks name type
  | [], declared, body, _, h => ⟨declared, body, rfl, h⟩
  | d :: rest, declared, body, hds, h => by
    have hd := hds d (List.mem_cons_self ..)
    obtain ⟨body', hcons⟩ := declare_cons model d declared
      (fun type ht => (h _ _ ht).type_unique hd) rest body
    have hinsert : ∀ name type,
        (declared.insert (Variable.namespaced d.name model) d.type).get? name = some type →
          PageVariable asks name type := by
      intro name type ht
      rw [Dict.get?_insert] at ht
      split at ht
      · rename_i hname
        cases ht
        exact hname ▸ hd
      · exact h name type ht
    obtain ⟨declared', body'', hrest, hvars⟩ := declare_pageVariables model rest _ body'
      (fun x hx => hds x (List.mem_cons_of_mem _ hx)) hinsert
    exact ⟨declared', body'', hcons.trans hrest, hvars⟩

/-- The variables of a further page query are declared without a conflict. -/
theorem declare_query {asks : List PageAsk} {declared : Dict String} (limit : Nat) (a : PageAsk)
    (h : ∀ name type, declared.get? name = some type → PageVariable asks name type)
    (body : String) :
    ∃ declared' body', declare a.model (a.query limit).declarations declared body
        = .ok (declared', body')
      ∧ ∀ name type, declared'.get? name = some type → PageVariable (asks ++ [a]) name type := by
  have last : a ∈ asks ++ [a] := by simp
  have hds : (a.query limit).declarations = [⟨"filter", "Model" ++ a.model ++ "FilterInput"⟩,
      ⟨"limit", "Int"⟩, ⟨"nextToken", "String"⟩] := rfl
  refine declare_pageVariables a.model _ declared body ?_ fun name type ht =>
    (h name type ht).append [a]
  intro d hd
  rw [hds] at hd
  simp only [List.mem_cons, List.not_mem_nil, or_false] at hd
  rcases hd with rfl | rfl | rfl
  · exact .inr ⟨a, last, .inl ⟨namespaced_filter _, rfl⟩⟩
  · exact .inl ⟨namespaced_limit _, rfl⟩
  · exact .inr ⟨a, last, .inr ⟨namespaced_nextToken _, rfl⟩⟩

/-! ## The union -/

/-- A draft that holds the queries for these pages. -/
structure DraftAsks (limit : Nat) (asks : List PageAsk) (draft : Draft) : Prop where
  declared : ∀ name type, draft.declared.get? name = some type → PageVariable asks name type
  children : draft.children = asks.map PageAsk.child
  limit : draft.values.get? "limit" = if asks = [] then none else some (.int limit)
  filter : ∀ a ∈ asks, draft.values.get? ("filter" ++ a.model) = some a.predicate.toFilter
  token : ∀ a ∈ asks, draft.values.get? ("nextToken" ++ a.model) = some (.ofText? a.token)
  known : ∀ k, (draft.values.get? k).isSome →
    k = "limit" ∨ ∃ a ∈ asks, k = "filter" ++ a.model ∨ k = "nextToken" ++ a.model

theorem draftAsks_nil (limit : Nat) : DraftAsks limit [] ⟨Dict.empty, Dict.empty, [], []⟩ where
  declared := by simp
  children := rfl
  limit := rfl
  filter := by simp
  token := by simp
  known := by simp

/-- A page of a further model can always be added. -/
theorem addQuery_asks {limit : Nat} {asks : List PageAsk} {draft : Draft}
    (h : DraftAsks limit asks draft) {a : PageAsk} (hnew : a.model ∉ asks.map PageAsk.model) :
    ∃ draft', addQuery draft (a.query limit) = .ok draft' ∧ DraftAsks limit (asks ++ [a]) draft' := by
  have hother : draft.children.any (fun c => c.model = (a.query limit).model) = false := by
    rw [h.children, List.any_eq_false]
    rintro c hc
    obtain ⟨b, hb, rfl⟩ := List.mem_map.1 hc
    have hne : b.model ≠ a.model := fun e => hnew (e ▸ List.mem_map_of_mem hb)
    exact fun e => hne (of_decide_eq_true e)
  obtain ⟨declared, body, hdecl, hvars⟩ :=
    declare_query limit a h.declared (a.query limit).body
  have hmodel : (a.query limit).model = a.model := rfl
  refine ⟨_, by rw [addQuery, if_neg (by simp [hother]), hmodel, hdecl], ?_⟩
  have hval := get?_addValues limit a draft.values
  have hdistinct : ∀ b ∈ asks, b.model ≠ a.model :=
    fun b hb e => hnew (e ▸ List.mem_map_of_mem hb)
  constructor
  · exact hvars
  · simp [h.children, PageAsk.child, PageAsk.query, ModelQuery.ofSchema, PageAsk.model]
  · simp only [hval, if_neg (nextToken_ne_limit a.model).symm, if_true, h.limit]
    by_cases hnil : asks = [] <;> simp [hnil]
  · intro b hb
    simp only [hval, if_neg (filter_ne_nextToken _ _), if_neg (filter_ne_limit _)]
    rcases List.mem_append.1 hb with hb | hb
    · have hne : "filter" ++ b.model ≠ "filter" ++ a.model := by
        simpa using hdistinct b hb
      rw [if_neg hne, h.filter b hb]
    · rw [List.mem_singleton.1 hb, if_pos rfl]
  · intro b hb
    simp only [hval]
    rcases List.mem_append.1 hb with hb | hb
    · have hne : "nextToken" ++ b.model ≠ "nextToken" ++ a.model := by
        simpa using hdistinct b hb
      rw [if_neg hne, if_neg (nextToken_ne_limit _), if_neg (filter_ne_nextToken _ _).symm,
        h.token b hb]
    · rw [List.mem_singleton.1 hb, if_pos rfl]
  · intro k hk
    have last : a ∈ asks ++ [a] := by simp
    simp only [hval] at hk
    split at hk
    · rename_i e
      exact .inr ⟨a, last, .inr e⟩
    · split at hk
      · exact .inl ‹_›
      · split at hk
        · rename_i e
          exact .inr ⟨a, last, .inl e⟩
        · rcases h.known k hk with e | ⟨b, hb, e⟩
          · exact .inl e
          · exact .inr ⟨b, List.mem_append_left _ hb, e⟩

theorem addQueries_asks {limit : Nat} : ∀ (more done : List PageAsk) (draft : Draft),
    DraftAsks limit done draft → ((done ++ more).map PageAsk.model).Nodup →
    ∃ draft', addQueries draft (more.map (PageAsk.query limit)) = .ok draft'
      ∧ DraftAsks limit (done ++ more) draft'
  | [], done, draft, h, _ => ⟨draft, rfl, by simpa using h⟩
  | a :: more, done, draft, h, hnd => by
    have hnew : a.model ∉ done.map PageAsk.model := by
      rw [List.map_append, List.nodup_append] at hnd
      intro hmem
      exact hnd.2.2 _ hmem a.model (by simp) rfl
    obtain ⟨draft₁, hadd, h₁⟩ := addQuery_asks h hnew
    obtain ⟨draft₂, hrest, h₂⟩ :=
      addQueries_asks more (done ++ [a]) draft₁ h₁ (by simpa using hnd)
    refine ⟨draft₂, ?_, by simpa using h₂⟩
    rw [List.map_cons, addQueries, hadd]
    exact hrest

/-- The pages of distinct models have a union, and it asks for exactly these pages. -/
theorem union_asks (limit : Nat) {asks : List PageAsk} (hne : asks ≠ [])
    (hnd : (asks.map PageAsk.model).Nodup) :
    ∃ q, union (asks.map (PageAsk.query limit)) = .ok q ∧ Asks limit asks q := by
  obtain ⟨draft, hdraft, h⟩ :=
    addQueries_asks asks [] _ (draftAsks_nil limit) (by simpa using hnd)
  rw [List.nil_append] at h
  refine ⟨ofDraft draft, ?_, ⟨h.children, ?_, h.filter, h.token, h.known⟩⟩
  · rw [union, if_neg (by simpa using hne), hdraft]
    rfl
  · exact h.limit.trans (if_neg hne)

end Request

end Replica
