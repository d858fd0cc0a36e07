/-
Replica.Proofs.Cycle.Rounds — a fetch as a sequence of rounds.

One round sends one request and hears one response. `Rounds` says which request comes
after which responses: the first asks for the first page of every model, and a response
that names further pages leads to the request for these pages. A fetch is such a
sequence, which ends in one of four ways (`loop_ends`, `all_ends`): the transport fails,
the response has no data, no model has a further page, or the number of requests is used
up.

Everything that is said about a fetch elsewhere is an induction over `Rounds` and a case
analysis over `Ends`.
-/
import Replica.Cycle.Fetch
import Replica.Proofs.Request.Union

namespace Replica

namespace Page

@[simp] theorem ofJson_model (model : String) (j : Json) : (ofJson model j).model = model := by
  unfold ofJson
  split
  · rfl
  · split <;> rfl

theorem ofJson_nextToken_ne {model : String} {j : Json} {token : String}
    (h : (ofJson model j).nextToken = some token) : token ≠ "" := by
  unfold ofJson at h
  split at h
  · simp [empty] at h
  · split at h
    · simp [empty] at h
    · obtain ⟨-, h⟩ := Option.filter_eq_some_iff.1 h
      simpa using h

end Page

namespace Response

/-- Each page belongs to a query, and pages stand in the order of their queries. -/
theorem split_models_sublist (j : Json) (children : List ChildQuery) :
    ((split j children).pages.map (·.model)).Sublist (children.map (·.model)) := by
  unfold split
  split
  · simp
  · rename_i data _
    induction children with
    | nil => simp
    | cons c rest ih =>
      simp only [List.filterMap_cons, pageOf?]
      cases data.get? c.resultKey with
      | none => exact ih.cons _
      | some v =>
        simp only [Option.map_some, List.map_cons, Page.ofJson_model]
        exact ih.cons_cons _

theorem split_nextToken_ne {j : Json} {children : List ChildQuery} {page : Page}
    (hpage : page ∈ (split j children).pages) {token : String}
    (h : page.nextToken = some token) : token ≠ "" := by
  unfold split at hpage
  split at hpage
  · simp at hpage
  · obtain ⟨c, -, hc⟩ := List.mem_filterMap.1 hpage
    obtain ⟨v, -, rfl⟩ := Option.map_eq_some_iff.1 hc
    exact Page.ofJson_nextToken_ne h

end Response

namespace Fetch

/-! ## What is asked for -/

/-- The first page of every model. -/
def firstAsks (r : Registry) (config : SyncConfig) (inputs : SelectionInputs) : List PageAsk :=
  r.models.map fun m => ⟨m, (Selection.ofSchema config.syncExpressions inputs m).predicate, none⟩

/-- The further pages that a response names. -/
def nextAsks (asks : List PageAsk) (response : Response) : List PageAsk :=
  response.pages.filterMap fun page =>
    match page.nextToken with
    | none => none
    | some token =>
      (asks.find? (fun a => a.model = page.model)).map fun a => { a with token := some token }

theorem firstAsks_model (r : Registry) (config : SyncConfig) (inputs : SelectionInputs) :
    (firstAsks r config inputs).map PageAsk.model = r.modelNames := by
  simp [firstAsks, Registry.modelNames, PageAsk.model]

theorem nodup_firstAsks (r : Registry) (config : SyncConfig) (inputs : SelectionInputs) :
    ((firstAsks r config inputs).map PageAsk.model).Nodup := by
  rw [firstAsks_model]
  exact r.distinct

/-- The first queries of a fetch are those for the first pages. -/
theorem mapM_firstQuery (r : Registry) (config : SyncConfig) (inputs : SelectionInputs) :
    (Selection.every r config.syncExpressions inputs).mapM (firstQuery r config.pageLimit)
      = .ok ((firstAsks r config inputs).map (PageAsk.query config.pageLimit)) := by
  have hone : ∀ m ∈ r.models, firstQuery r config.pageLimit
      (Selection.ofSchema config.syncExpressions inputs m)
        = .ok (PageAsk.query config.pageLimit
            ⟨m, (Selection.ofSchema config.syncExpressions inputs m).predicate, none⟩) := by
    intro m hm
    have hname : (Selection.ofSchema config.syncExpressions inputs m).model = m.name := rfl
    rw [firstQuery, ModelQuery.forModel, hname, Registry.get_of_mem hm]
    rfl
  have hall : ∀ ms : List ModelSchema, (∀ m ∈ ms, m ∈ r.models) →
      (ms.map (Selection.ofSchema config.syncExpressions inputs)).mapM
          (firstQuery r config.pageLimit)
        = .ok (ms.map fun m => PageAsk.query config.pageLimit
            ⟨m, (Selection.ofSchema config.syncExpressions inputs m).predicate, none⟩) := by
    intro ms
    induction ms with
    | nil => intro _; rfl
    | cons m ms ih =>
      intro hms
      rw [List.map_cons, List.mapM_cons, hone m (hms m (by simp)),
        ih fun x hx => hms x (by simp [hx])]
      rfl
  rw [Selection.every, hall r.models fun m hm => hm, firstAsks, List.map_map]
  rfl

/-- The queries that a response leads to are those for the pages that it names. -/
theorem filterMap_nextQuery (limit : Nat) (asks : List PageAsk) (response : Response) :
    response.pages.filterMap (nextQuery? (asks.map (PageAsk.query limit)))
      = (nextAsks asks response).map (PageAsk.query limit) := by
  rw [nextAsks, List.map_filterMap]
  congr 1
  funext page
  rw [nextQuery?]
  cases page.nextToken with
  | none => rfl
  | some token =>
    have hfind : (asks.map (PageAsk.query limit)).find? (fun q => q.model = page.model)
        = (asks.find? (fun a => a.model = page.model)).map (PageAsk.query limit) :=
      List.find?_map ..
    simp only [hfind, Option.map_map]
    congr 1
    funext a
    exact Request.continuation_query limit a token

/-! ## Rounds -/

/-- The request that asks for some pages follows on requests that were all answered. -/
inductive Rounds (transport : Transport) (limit : Nat) (start : List PageAsk) :
    List Request → Request → List PageAsk → Prop
  /-- The first request asks for the first pages. -/
  | first {q : Request} (hne : start ≠ [])
      (hq : Request.union (start.map (PageAsk.query limit)) = .ok q) :
      Rounds transport limit start [] q start
  /-- A response that names further pages leads to the request for these. -/
  | next {before : List Request} {q q' : Request} {asks : List PageAsk} {raw : Json}
      (h : Rounds transport limit start before q asks)
      (hraw : transport (before ++ [q]) = .ok raw)
      (hcomplete : (Response.split raw q.children).complete = true)
      (hne : nextAsks asks (Response.split raw q.children) ≠ [])
      (hq : Request.union ((nextAsks asks (Response.split raw q.children)).map
        (PageAsk.query limit)) = .ok q') :
      Rounds transport limit start (before ++ [q]) q'
        (nextAsks asks (Response.split raw q.children))

/-- The response to a request of a list, if the transport answered it. -/
def responseTo (transport : Transport) (sent : List Request) (k : Nat) : Option Response :=
  match sent[k]?, transport (sent.take (k + 1)) with
  | some q, .ok raw => some (Response.split raw q.children)
  | _, _ => none

/-- All pages that were received, in the order of the requests. -/
def received (transport : Transport) (sent : List Request) : List Page :=
  (List.range sent.length).flatMap fun k =>
    ((responseTo transport sent k).map (·.pages)).getD []

/-- How a fetch ends after its last request. -/
inductive Ends (transport : Transport) (maxPages : Nat) (groups : List ModelGroup)
    (before : List Request) (q : Request) (asks : List PageAsk) : FetchRun → Prop
  /-- The transport fails. -/
  | refused {e : SyncError} (h : transport (before ++ [q]) = .error e) :
      Ends transport maxPages groups before q asks ⟨before ++ [q], .error e⟩
  /-- The response has no data. -/
  | incomplete {raw : Json} (h : transport (before ++ [q]) = .ok raw)
      (hcomplete : (Response.split raw q.children).complete = false) :
      Ends transport maxPages groups before q asks
        ⟨before ++ [q],
          .error (.incompleteResponse (Response.split raw q.children).errorSummary)⟩
  /-- There are further pages, but no requests are left. -/
  | limited {raw : Json} (h : transport (before ++ [q]) = .ok raw)
      (hcomplete : (Response.split raw q.children).complete = true)
      (hmore : nextAsks asks (Response.split raw q.children) ≠ [])
      (hused : before.length + 1 = maxPages) :
      Ends transport maxPages groups before q asks
        ⟨before ++ [q], .error (.paginationLimit maxPages)⟩
  /-- No model has a further page. -/
  | finished {raw : Json} (h : transport (before ++ [q]) = .ok raw)
      (hcomplete : (Response.split raw q.children).complete = true)
      (hmore : nextAsks asks (Response.split raw q.children) = []) :
      Ends transport maxPages groups before q asks
        ⟨before ++ [q],
          .ok ⟨(received transport (before ++ [q])).foldl addPage groups, before.length + 1⟩⟩

/-! ## Responses to a longer list -/

theorem responseTo_append {transport : Transport} {sent : List Request} {k : Nat}
    (hk : k < sent.length) (more : List Request) :
    responseTo transport (sent ++ more) k = responseTo transport sent k := by
  rw [responseTo, responseTo, List.getElem?_append_left hk, List.take_append_of_le_length (by omega)]

theorem responseTo_last {transport : Transport} {before : List Request} {q : Request} {raw : Json}
    (h : transport (before ++ [q]) = .ok raw) :
    responseTo transport (before ++ [q]) before.length
      = some (Response.split raw q.children) := by
  have htake : (before ++ [q]).take (before.length + 1) = before ++ [q] :=
    List.take_of_length_le (by simp)
  simp [responseTo, htake, h]

theorem received_append (transport : Transport) (before : List Request) (q : Request) :
    received transport (before ++ [q]) = received transport before
      ++ ((responseTo transport (before ++ [q]) before.length).map (·.pages)).getD [] := by
  have hearlier : ((List.range before.length).flatMap fun k =>
        ((responseTo transport (before ++ [q]) k).map (·.pages)).getD [])
      = received transport before := by
    rw [received, List.flatMap_def, List.flatMap_def]
    congr 1
    refine List.map_congr_left fun k hk => ?_
    rw [responseTo_append (List.mem_range.1 hk)]
  rw [← hearlier, received, List.length_append, List.length_singleton, List.range_succ,
    List.flatMap_append, List.flatMap_singleton]

theorem received_last {transport : Transport} {before : List Request} {q : Request} {raw : Json}
    (h : transport (before ++ [q]) = .ok raw) :
    received transport (before ++ [q])
      = received transport before ++ (Response.split raw q.children).pages := by
  rw [received_append, responseTo_last h]
  rfl

/-! ## Next pages -/

theorem mem_nextAsks {asks : List PageAsk} {response : Response} {a : PageAsk}
    (h : a ∈ nextAsks asks response) :
    ∃ page ∈ response.pages, ∃ token, page.nextToken = some token ∧
      ∃ b ∈ asks, b.model = page.model ∧ a = { b with token := some token } := by
  obtain ⟨page, hpage, ha⟩ := List.mem_filterMap.1 h
  split at ha
  · simp at ha
  · rename_i token htoken
    obtain ⟨b, hb, rfl⟩ := Option.map_eq_some_iff.1 ha
    exact ⟨page, hpage, token, htoken, b, List.mem_of_find?_eq_some hb,
      by simpa using List.find?_some hb, rfl⟩

theorem nextAsks_of_page {asks : List PageAsk} {response : Response} {page : Page}
    (hpage : page ∈ response.pages) (hmodel : page.model ∈ asks.map PageAsk.model)
    {token : String} (htoken : page.nextToken = some token) :
    ∃ a ∈ nextAsks asks response, a.model = page.model ∧ a.token = some token := by
  obtain ⟨b, hb, hbm⟩ := List.mem_map.1 hmodel
  cases hfind : asks.find? (fun a => a.model = page.model) with
  | none => exact absurd hbm (by simpa using List.find?_eq_none.1 hfind b hb)
  | some a =>
    refine ⟨{ a with token := some token }, List.mem_filterMap.2 ⟨page, hpage, ?_⟩, ?_, rfl⟩
    · simp [htoken, hfind]
    · have ha : a.model = page.model := by simpa using List.find?_some hfind
      exact ha

/-- The models asked for next are those of the pages that name a further one. -/
theorem nextAsks_model {asks : List PageAsk} {response : Response}
    (h : ∀ page ∈ response.pages, page.model ∈ asks.map PageAsk.model) :
    (nextAsks asks response).map PageAsk.model
      = (response.pages.filter (·.nextToken.isSome)).map (·.model) := by
  obtain ⟨pages, errors, complete⟩ := response
  simp only [nextAsks] at h ⊢
  induction pages with
  | nil => rfl
  | cons page rest ih =>
    have hrest := ih fun p hp => h p (List.mem_cons_of_mem _ hp)
    cases htoken : page.nextToken with
    | none => simpa [htoken] using hrest
    | some token =>
      obtain ⟨b, hb, hbm⟩ := List.mem_map.1 (h page (List.mem_cons_self ..))
      cases hfind : asks.find? (fun a => a.model = page.model) with
      | none => exact absurd hbm (by simpa using List.find?_eq_none.1 hfind b hb)
      | some a =>
        have ha : a.model = page.model := by simpa using List.find?_some hfind
        have hmodel : ({ a with token := some token } : PageAsk).model = page.model := ha
        simp only [List.filterMap_cons, List.filter_cons, htoken, hfind, Option.map_some,
          Option.isSome_some, if_true, List.map_cons, hmodel, hrest]

/-- The pages that are asked for: some of the models of the start, in their order, each
with its own predicate. -/
structure PagesOf (start asks : List PageAsk) : Prop where
  nonempty : asks ≠ []
  order : (asks.map PageAsk.model).Sublist (start.map PageAsk.model)
  same : ∀ a ∈ asks, ∃ s ∈ start, a = { s with token := a.token }

theorem page_model_mem {limit : Nat} {asks : List PageAsk} {q : Request}
    (h : Request.Asks limit asks q) (raw : Json) {page : Page}
    (hpage : page ∈ (Response.split raw q.children).pages) :
    page.model ∈ asks.map PageAsk.model := by
  have hsub := Response.split_models_sublist raw q.children
  have hmem := hsub.subset (List.mem_map_of_mem hpage)
  rw [h.children, List.map_map] at hmem
  exact hmem

theorem pagesOf_nextAsks {limit : Nat} {start asks : List PageAsk} {q : Request}
    (h : PagesOf start asks) (hq : Request.Asks limit asks q) {raw : Json}
    (hne : nextAsks asks (Response.split raw q.children) ≠ []) :
    PagesOf start (nextAsks asks (Response.split raw q.children)) where
  nonempty := hne
  order := by
    rw [nextAsks_model fun page hpage => page_model_mem hq raw hpage]
    have hchildren : q.children.map (·.model) = asks.map PageAsk.model := by
      rw [hq.children, List.map_map]
      rfl
    have hpages := Response.split_models_sublist raw q.children
    rw [hchildren] at hpages
    exact ((List.filter_sublist.map _).trans hpages).trans h.order
  same := by
    intro a ha
    obtain ⟨page, -, token, -, b, hb, -, rfl⟩ := mem_nextAsks ha
    obtain ⟨s, hs, hbs⟩ := h.same b hb
    exact ⟨s, hs, by rw [hbs]⟩

/-- In every round the request asks for the pages of some models of the start. -/
theorem Rounds.asks {transport : Transport} {limit : Nat} {start : List PageAsk}
    (hnd : (start.map PageAsk.model).Nodup) {before : List Request} {q : Request}
    {asks : List PageAsk} (h : Rounds transport limit start before q asks) :
    PagesOf start asks ∧ Request.Asks limit asks q := by
  induction h with
  | first hne hq =>
    obtain ⟨q', hq', hasks⟩ := Request.union_asks limit hne hnd
    cases hq'.symm.trans hq
    exact ⟨⟨hne, List.Sublist.refl _, fun a ha => ⟨a, ha, rfl⟩⟩, hasks⟩
  | @next before q q' asks raw _ hraw hcomplete hne hq ih =>
    have hpages := pagesOf_nextAsks ih.1 ih.2 hne
    obtain ⟨q'', hq'', hasks⟩ :=
      Request.union_asks limit hne (hpages.order.nodup hnd)
    cases hq''.symm.trans hq
    exact ⟨hpages, hasks⟩

theorem Rounds.received_models {transport : Transport} {limit : Nat} {start : List PageAsk}
    (hnd : (start.map PageAsk.model).Nodup) {before : List Request} {q : Request}
    {asks : List PageAsk} (h : Rounds transport limit start before q asks) :
    ∀ page ∈ received transport (before ++ [q]), page.model ∈ start.map PageAsk.model := by
  -- The pages of the last response, whatever the rounds before it brought.
  have hlast : ∀ {before q asks}, Rounds transport limit start before q asks →
      ∀ page ∈ ((responseTo transport (before ++ [q]) before.length).map (·.pages)).getD [],
        page.model ∈ start.map PageAsk.model := by
    intro before q asks hround page hpage
    obtain ⟨hpages, hasks⟩ := hround.asks hnd
    cases hraw : transport (before ++ [q]) with
    | error e =>
      have htake : (before ++ [q]).take (before.length + 1) = before ++ [q] :=
        List.take_of_length_le (by simp)
      simp [responseTo, htake, hraw] at hpage
    | ok raw =>
      rw [responseTo_last hraw] at hpage
      exact hpages.order.subset (page_model_mem hasks raw hpage)
  induction h with
  | @first q hne hq =>
    intro page hpage
    rw [received_append] at hpage
    exact hlast (.first hne hq) page (by simpa [received] using hpage)
  | @next before q q' asks raw hround hraw hcomplete hne hq ih =>
    intro page hpage
    rw [received_append] at hpage
    rcases List.mem_append.1 hpage with hpage | hpage
    · exact ih page hpage
    · exact hlast (.next hround hraw hcomplete hne hq) page hpage

/-! ## A fetch is a sequence of rounds -/

theorem loop_round {transport : Transport} {limit maxPages left : Nat} {asks : List PageAsk}
    (hne : asks ≠ []) {q : Request}
    (hunion : Request.union (asks.map (PageAsk.query limit)) = .ok q)
    (groups : List ModelGroup) (before : List Request) :
    loop transport maxPages (left + 1) (asks.map (PageAsk.query limit)) groups before
      = match transport (before ++ [q]) with
        | .error e => ⟨before ++ [q], .error e⟩
        | .ok raw =>
          if (Response.split raw q.children).complete then
            loop transport maxPages left
              ((nextAsks asks (Response.split raw q.children)).map (PageAsk.query limit))
              ((Response.split raw q.children).pages.foldl addPage groups) (before ++ [q])
          else ⟨before ++ [q],
            .error (.incompleteResponse (Response.split raw q.children).errorSummary)⟩ := by
  obtain ⟨a, rest, rfl⟩ := List.exists_cons_of_ne_nil hne
  rw [List.map_cons] at hunion
  rw [List.map_cons, loop, hunion]
  dsimp only
  rw [← List.map_cons]
  cases transport (before ++ [q]) with
  | error e => rfl
  | ok raw =>
    dsimp only
    rw [filterMap_nextQuery]

/-- The loop goes on from a round to one of the four ends. The recursion is on the
requests that are left after the one that is about to be sent. -/
theorem loop_ends {transport : Transport} {limit maxPages : Nat} {start : List PageAsk}
    (hnd : (start.map PageAsk.model).Nodup) (groups : List ModelGroup) (left : Nat)
    (before : List Request) (q : Request) (asks : List PageAsk)
    (hround : Rounds transport limit start before q asks)
    (hunion : Request.union (asks.map (PageAsk.query limit)) = .ok q)
    (hleft : before.length + left + 1 = maxPages) :
    ∃ before' q' asks', Rounds transport limit start before' q' asks' ∧
      before'.length < maxPages ∧
      Ends transport maxPages groups before' q' asks'
        (loop transport maxPages (left + 1) (asks.map (PageAsk.query limit))
          ((received transport before).foldl addPage groups) before) := by
  obtain ⟨hpages, hasks⟩ := hround.asks hnd
  rw [loop_round hpages.nonempty hunion]
  cases hraw : transport (before ++ [q]) with
  | error e => exact ⟨before, q, asks, hround, by omega, .refused hraw⟩
  | ok raw =>
    cases hcomplete : (Response.split raw q.children).complete with
    | false =>
      refine ⟨before, q, asks, hround, by omega, ?_⟩
      simpa [hcomplete] using Ends.incomplete hraw hcomplete
    | true =>
      simp only [hcomplete, if_true, ← List.foldl_append, ← received_last hraw]
      by_cases hmore : nextAsks asks (Response.split raw q.children) = []
      · refine ⟨before, q, asks, hround, by omega, ?_⟩
        rw [hmore, List.map_nil, loop, List.length_append, List.length_singleton]
        exact .finished hraw hcomplete hmore
      · have hpages' := pagesOf_nextAsks hpages hasks hmore
        obtain ⟨q', hq', -⟩ :=
          Request.union_asks limit hmore (hpages'.order.nodup hnd)
        cases left with
        | zero =>
          obtain ⟨b, more, hcons⟩ := List.exists_cons_of_ne_nil hmore
          refine ⟨before, q, asks, hround, by omega, ?_⟩
          rw [hcons, List.map_cons, loop]
          exact .limited hraw hcomplete hmore (by omega)
        | succ left =>
          exact loop_ends hnd groups left (before ++ [q]) q' _
            (.next hround hraw hcomplete hmore hq') hq'
            (by rw [List.length_append, List.length_singleton]; omega)

/-- The groups of a fetch before anything was received. -/
def emptyGroups (r : Registry) : List ModelGroup := r.modelNames.map fun name => ⟨name, []⟩

/-- A fetch of at least one model sends nothing if no request is allowed; otherwise it is
a sequence of rounds with an end. -/
theorem all_ends (transport : Transport) {r : Registry} (config : SyncConfig)
    (inputs : SelectionInputs) (hne : r.models ≠ []) :
    (config.maxPages = 0 ∧ all transport r config inputs = ⟨[], .error (.paginationLimit 0)⟩) ∨
      ∃ before q asks,
        Rounds transport config.pageLimit (firstAsks r config inputs) before q asks ∧
        before.length < config.maxPages ∧
        Ends transport config.maxPages (emptyGroups r) before q asks
          (all transport r config inputs) := by
  have hstart : firstAsks r config inputs ≠ [] := by simpa [firstAsks] using hne
  have hgroups : ((Selection.every r config.syncExpressions inputs).map fun s => (⟨s.model, []⟩ : ModelGroup))
      = emptyGroups r := by
    simp [Selection.every, emptyGroups, Registry.modelNames, Selection.ofSchema]
  have hall : all transport r config inputs
      = loop transport config.maxPages config.maxPages
          ((firstAsks r config inputs).map (PageAsk.query config.pageLimit)) (emptyGroups r) [] := by
    rw [all, mapM_firstQuery]
    simp only [List.isEmpty_iff, List.map_eq_nil_iff, hstart, if_false, hgroups]
  have hnd := nodup_firstAsks r config inputs
  obtain ⟨q, hq, -⟩ := Request.union_asks config.pageLimit hstart hnd
  rw [hall]
  cases hmax : config.maxPages with
  | zero =>
    obtain ⟨a, rest, hcons⟩ := List.exists_cons_of_ne_nil hstart
    exact .inl ⟨rfl, by rw [hcons, List.map_cons, loop]⟩
  | succ left =>
    exact .inr (loop_ends hnd (emptyGroups r) left [] q _ (.first hstart hq) hq
      (by simp))

end Fetch

end Replica
