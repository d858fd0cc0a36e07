/-
Replica.Proofs.Cycle.Pagination — page tokens go through a fetch unchanged.

The main statement is `all_paginated`: whatever the transport answers, a fetch sends no
more requests than it may, asks for the first page of every model, and afterwards for
exactly the pages that the last response named, each by its own token and with the filter
and the limit of the start. A fetch that succeeds has, for each model, the items of all
its pages in the order of the requests.

A fetch fails in three ways only: the transport fails, a response has no data, or the
requests are used up while some model still has a further page. A transport may report
any error, also the one of a used-up fetch, which is why `Refused` is named beside
`Exhausted`.
-/
import Replica.Proofs.Cycle.Rounds

namespace Replica.Fetch

/-! ## What a request asks for -/

/-- A request for the first page of every model, in registration order. -/
structure AsksForAll (r : Registry) (config : SyncConfig) (inputs : SelectionInputs)
    (q : Request) : Prop where
  models : q.models = r.modelNames
  token : ∀ m ∈ r.models, q.tokenOf m.name = some .null
  filter : ∀ m ∈ r.models, q.filterOf m.name
    = some (Selection.ofSchema config.syncExpressions inputs m).predicate.toFilter
  limit : q.limitOf = some (.int config.pageLimit)

/-- A request for exactly the pages that the response to `request` names. Filters and the
limit are those of the first request. -/
structure AsksForRest (first request next : Request) (response : Response) : Prop where
  models : next.models = (response.pages.filter (·.nextToken.isSome)).map (·.model)
  order : next.models.Sublist request.models
  token : ∀ page ∈ response.pages, ∀ token, page.nextToken = some token →
    token ≠ "" ∧ next.tokenOf page.model = some (.str token)
  filter : ∀ model ∈ next.models, next.filterOf model = first.filterOf model
  limit : next.limitOf = first.limitOf

/-! ## How a fetch ends -/

/-- Every request was answered with data. -/
def Answered (transport : Transport) (sent : List Request) : Prop :=
  ∀ k < sent.length, ∃ response, responseTo transport sent k = some response
    ∧ response.complete = true

/-- The response to the last request names a further page. -/
def HasFurtherPage (transport : Transport) (sent : List Request) : Prop :=
  ∃ response, responseTo transport sent (sent.length - 1) = some response
    ∧ response.hasMore = true

/-- All requests that are allowed were answered, and some model still has a further page;
if none is allowed, every model has. -/
def Exhausted (transport : Transport) (maxPages : Nat) (sent : List Request) : Prop :=
  sent.length = maxPages ∧ Answered transport sent
    ∧ (maxPages = 0 ∨ HasFurtherPage transport sent)

/-- The transport failed the last request. -/
def Refused (transport : Transport) (sent : List Request) (e : SyncError) : Prop :=
  sent ≠ [] ∧ transport sent = .error e

/-- The last request was answered without data. -/
def Dataless (transport : Transport) (sent : List Request) (e : SyncError) : Prop :=
  ∃ response, responseTo transport sent (sent.length - 1) = some response
    ∧ response.complete = false ∧ e = .incompleteResponse response.errorSummary

/-- The items of all pages of a model, in the order of the requests. -/
def itemsOf (pages : List Page) (model : String) : List Item :=
  (pages.filter (fun page => page.model = model)).flatMap (·.items)

/-- A fetch that follows page tokens. -/
structure Paginated (transport : Transport) (r : Registry) (config : SyncConfig)
    (inputs : SelectionInputs) (run : FetchRun) : Prop where
  bounded : run.sent.length ≤ config.maxPages
  first : ∀ q, run.sent[0]? = some q → AsksForAll r config inputs q
  next : ∀ k first request next, run.sent[0]? = some first → run.sent[k]? = some request →
    run.sent[k + 1]? = some next →
    ∃ response, responseTo transport run.sent k = some response ∧ response.complete = true
      ∧ AsksForRest first request next response
  finished : ∀ fetched, run.result = .ok fetched →
    run.sent ≠ [] ∧ Answered transport run.sent ∧ ¬ HasFurtherPage transport run.sent
      ∧ fetched.pages = run.sent.length
      ∧ fetched.groups = r.modelNames.map fun name =>
          ⟨name, itemsOf (received transport run.sent) name⟩
  limited : ∀ n, run.result = .error (.paginationLimit n) ↔
    (n = config.maxPages ∧ Exhausted transport config.maxPages run.sent)
      ∨ Refused transport run.sent (.paginationLimit n)
  failed : ∀ e, run.result = .error e →
    (e = .paginationLimit config.maxPages ∧ Exhausted transport config.maxPages run.sent)
      ∨ Refused transport run.sent e ∨ Dataless transport run.sent e

/-! ## Groups -/

theorem addPage_eq_map : ∀ (groups : List ModelGroup) (page : Page),
    (groups.map (·.model)).Nodup →
    addPage groups page = groups.map fun g =>
      if g.model = page.model then { g with items := g.items ++ page.items } else g
  | [], _, _ => rfl
  | g :: rest, page, hnd => by
    rw [List.map_cons, List.nodup_cons] at hnd
    rw [addPage, List.map_cons]
    split
    · rename_i hg
      congr 1
      symm
      refine (List.map_congr_left fun g' hg' => ?_).trans (List.map_id _)
      have hne : g'.model ≠ page.model := fun e =>
        hnd.1 (hg.trans e.symm ▸ List.mem_map_of_mem hg')
      rw [if_neg hne, id]
    · rw [addPage_eq_map rest page hnd.2]

theorem addPage_models (groups : List ModelGroup) (page : Page)
    (hnd : (groups.map (·.model)).Nodup) :
    (addPage groups page).map (·.model) = groups.map (·.model) := by
  rw [addPage_eq_map groups page hnd, List.map_map]
  refine List.map_congr_left fun g _ => ?_
  simp only [Function.comp_apply]
  split <;> rfl

/-- Adding pages to groups of distinct models adds to each group the items of its own
pages. -/
theorem foldl_addPage : ∀ (pages : List Page) (groups : List ModelGroup),
    (groups.map (·.model)).Nodup →
    pages.foldl addPage groups
      = groups.map fun g => { g with items := g.items ++ itemsOf pages g.model }
  | [], groups, _ => by simp [itemsOf]
  | page :: rest, groups, hnd => by
    rw [List.foldl_cons, foldl_addPage rest _ ((addPage_models groups page hnd).symm ▸ hnd),
      addPage_eq_map groups page hnd, List.map_map]
    refine List.map_congr_left fun g _ => ?_
    by_cases hg : g.model = page.model
    · simp [itemsOf, hg]
    · simp [itemsOf, hg, Ne.symm hg]

theorem foldl_addPage_empty (r : Registry) (pages : List Page) :
    pages.foldl addPage (emptyGroups r)
      = r.modelNames.map fun name => ⟨name, itemsOf pages name⟩ := by
  have hmodels : (emptyGroups r).map (·.model) = r.modelNames := by
    simp [emptyGroups, Function.comp_def]
  rw [foldl_addPage pages _ (hmodels ▸ r.distinct), emptyGroups, List.map_map]
  simp

theorem models_ne_nil {transport : Transport} {r : Registry} {config : SyncConfig}
    {inputs : SelectionInputs} {sent : List Request} {fetched : Fetched}
    (h : all transport r config inputs = ⟨sent, .ok fetched⟩) : r.models ≠ [] := by
  intro hnil
  simp [all, Selection.every, hnil, pure, Except.pure] at h

/-- What a successful fetch holds, and that it left no page of any model out. -/
theorem all_ok {transport : Transport} {r : Registry} {config : SyncConfig}
    {inputs : SelectionInputs} {sent : List Request} {fetched : Fetched}
    (h : all transport r config inputs = ⟨sent, .ok fetched⟩) :
    fetched.groups = r.modelNames.map (fun name => ⟨name, itemsOf (received transport sent) name⟩)
      ∧ ∀ page ∈ received transport sent, page.model ∈ r.modelNames := by
  rcases all_ends transport config inputs (models_ne_nil h) with
    ⟨-, hrun⟩ | ⟨before, q, asks, hround, -, hends⟩
  · rw [hrun] at h
    simp at h
  · rw [h] at hends
    cases hends with
    | finished =>
      refine ⟨foldl_addPage_empty r _, fun page hpage => ?_⟩
      have hmem := hround.received_models (nodup_firstAsks r config inputs) page hpage
      rwa [firstAsks_model] at hmem

/-! ## Along the rounds -/

variable {transport : Transport} {limit : Nat} {start : List PageAsk}

theorem Rounds.first_asks (hnd : (start.map PageAsk.model).Nodup) {before : List Request}
    {q : Request} {asks : List PageAsk} (h : Rounds transport limit start before q asks) :
    ∃ first, (before ++ [q])[0]? = some first ∧ Request.Asks limit start first := by
  induction h with
  | @first q hne hq =>
    have hround : Rounds transport limit start [] q start := .first hne hq
    exact ⟨q, rfl, (hround.asks hnd).2⟩
  | next _ _ _ _ _ ih =>
    obtain ⟨first, hfirst, hasks⟩ := ih
    exact ⟨first, by rw [List.getElem?_append_left (by simp), hfirst], hasks⟩

/-- A request after another one asks for the pages that the response to that one names. -/
theorem Rounds.follows (hnd : (start.map PageAsk.model).Nodup) {before : List Request}
    {q : Request} {asks : List PageAsk} (h : Rounds transport limit start before q asks) :
    ∀ k request next, (before ++ [q])[k]? = some request →
      (before ++ [q])[k + 1]? = some next →
      ∃ raw asks', responseTo transport (before ++ [q]) k
          = some (Response.split raw request.children)
        ∧ (Response.split raw request.children).complete = true
        ∧ Request.Asks limit asks' request
        ∧ PagesOf start (nextAsks asks' (Response.split raw request.children))
        ∧ Request.Asks limit (nextAsks asks' (Response.split raw request.children)) next := by
  induction h with
  | first hne hq => simp
  | @next before q q' asks raw hround hraw hcomplete hne hq ih =>
    intro k request next hrequest hnext
    by_cases hk : k + 1 < (before ++ [q]).length
    · rw [List.getElem?_append_left (by omega)] at hrequest
      rw [List.getElem?_append_left hk] at hnext
      obtain ⟨raw', asks', hresponse, hrest⟩ := ih k request next hrequest hnext
      exact ⟨raw', asks', by rw [responseTo_append (by omega), hresponse], hrest⟩
    · have hlen : k = before.length := by
        have := (List.getElem?_eq_some_iff.1 hnext).1
        simp only [List.length_append, List.length_singleton] at hk this
        omega
      subst hlen
      have hlast := (Rounds.next hround hraw hcomplete hne hq).asks hnd
      have hrequest' : q = request := by simpa using hrequest
      have hnext' : q' = next := by simpa using hnext
      subst hrequest' hnext'
      exact ⟨raw, asks, by rw [responseTo_append (by simp), responseTo_last hraw], hcomplete,
        (hround.asks hnd).2, hlast.1, hlast.2⟩

theorem Rounds.answered (hnd : (start.map PageAsk.model).Nodup) {before : List Request}
    {q : Request} {asks : List PageAsk} (h : Rounds transport limit start before q asks) :
    ∀ k < before.length, ∃ response, responseTo transport (before ++ [q]) k = some response
      ∧ response.complete = true := by
  intro k hk
  obtain ⟨request, hrequest⟩ : ∃ request, (before ++ [q])[k]? = some request :=
    ⟨_, List.getElem?_eq_getElem (by simp; omega)⟩
  obtain ⟨next, hnext⟩ : ∃ next, (before ++ [q])[k + 1]? = some next :=
    ⟨_, List.getElem?_eq_getElem (by simp; omega)⟩
  obtain ⟨raw, asks', hresponse, hcomplete, -⟩ := h.follows hnd k request next hrequest hnext
  exact ⟨_, hresponse, hcomplete⟩

/-! ## One request after another -/

theorem asksForAll_of_asks {r : Registry} {config : SyncConfig} {inputs : SelectionInputs}
    {q : Request} (h : Request.Asks config.pageLimit (firstAsks r config inputs) q) :
    AsksForAll r config inputs q where
  models := by
    rw [Request.models, h.children, List.map_map]
    exact firstAsks_model r config inputs
  token := fun m hm => h.token _ (List.mem_map_of_mem hm)
  filter := fun m hm => h.filter _ (List.mem_map_of_mem hm)
  limit := h.limit

theorem asksForRest_of_asks {asks : List PageAsk} {first request next : Request} {raw : Json}
    (hfirst : Request.Asks limit start first) (hrequest : Request.Asks limit asks request)
    (hpages : PagesOf start (nextAsks asks (Response.split raw request.children)))
    (hnext : Request.Asks limit (nextAsks asks (Response.split raw request.children)) next) :
    AsksForRest first request next (Response.split raw request.children) := by
  have hknown : ∀ page ∈ (Response.split raw request.children).pages,
      page.model ∈ asks.map PageAsk.model := fun page hpage => page_model_mem hrequest raw hpage
  have hmodels : next.models
      = ((Response.split raw request.children).pages.filter (·.nextToken.isSome)).map
          (·.model) := by
    rw [← nextAsks_model hknown, Request.models, hnext.children, List.map_map]
    rfl
  constructor
  · exact hmodels
  · rw [hmodels]
    exact (List.filter_sublist.map _).trans (Response.split_models_sublist _ _)
  · intro page hpage token htoken
    refine ⟨Response.split_nextToken_ne hpage htoken, ?_⟩
    obtain ⟨a, ha, hmodel, hat⟩ := nextAsks_of_page hpage (hknown page hpage) htoken
    rw [← hmodel, hnext.token a ha, hat]
    rfl
  · intro model hmodel
    rw [Request.models, hnext.children, List.map_map] at hmodel
    obtain ⟨a, ha, rfl⟩ := List.mem_map.1 hmodel
    obtain ⟨s, hs, has⟩ := hpages.same a ha
    have hname : s.model = a.model := by rw [has]; rfl
    have hpredicate : s.predicate = a.predicate := by rw [has]
    calc next.filterOf a.model = some a.predicate.toFilter := hnext.filter a ha
      _ = some s.predicate.toFilter := by rw [hpredicate]
      _ = first.filterOf a.model := by rw [← hname, hfirst.filter s hs]
  · rw [hnext.limit, hfirst.limit]

/-! ## The last response -/

theorem responseTo_pred {before : List Request} {q : Request} {raw : Json}
    (h : transport (before ++ [q]) = .ok raw) :
    responseTo transport (before ++ [q]) ((before ++ [q]).length - 1)
      = some (Response.split raw q.children) := by
  have hlen : (before ++ [q]).length - 1 = before.length := by simp
  rw [hlen, responseTo_last h]

/-- A model has a further page exactly when one is to be asked for next. -/
theorem Rounds.further_iff (hnd : (start.map PageAsk.model).Nodup) {before : List Request}
    {q : Request} {asks : List PageAsk} (h : Rounds transport limit start before q asks)
    {raw : Json} (hraw : transport (before ++ [q]) = .ok raw) :
    HasFurtherPage transport (before ++ [q])
      ↔ nextAsks asks (Response.split raw q.children) ≠ [] := by
  have hmodels := nextAsks_model fun page hpage => page_model_mem (h.asks hnd).2 raw hpage
  have hnil : nextAsks asks (Response.split raw q.children) = []
      ↔ (Response.split raw q.children).hasMore = false := by
    rw [← List.map_eq_nil_iff (f := PageAsk.model), hmodels, List.map_eq_nil_iff,
      List.filter_eq_nil_iff, Response.hasMore, List.any_eq_false]
  rw [Ne, hnil, Bool.not_eq_false]
  constructor
  · rintro ⟨response, hresponse, hhas⟩
    cases hresponse.symm.trans (responseTo_pred hraw)
    exact hhas
  · exact fun hhas => ⟨_, responseTo_pred hraw, hhas⟩

theorem Rounds.answered_last (hnd : (start.map PageAsk.model).Nodup) {before : List Request}
    {q : Request} {asks : List PageAsk} (h : Rounds transport limit start before q asks)
    {raw : Json} (hraw : transport (before ++ [q]) = .ok raw)
    (hcomplete : (Response.split raw q.children).complete = true) :
    Answered transport (before ++ [q]) := by
  intro k hk
  rw [List.length_append, List.length_singleton] at hk
  by_cases hlast : k = before.length
  · exact ⟨_, hlast ▸ responseTo_last hraw, hcomplete⟩
  · exact h.answered hnd k (by omega)

theorem not_answered_of_refused {before : List Request} {q : Request} {e : SyncError}
    (h : transport (before ++ [q]) = .error e) : ¬ Answered transport (before ++ [q]) := by
  intro ha
  obtain ⟨response, hresponse, -⟩ := ha before.length (by simp)
  have htake : (before ++ [q]).take (before.length + 1) = before ++ [q] :=
    List.take_of_length_le (by simp)
  simp [responseTo, htake, h] at hresponse

/-! ## Every fetch -/

theorem paginated_nothing (transport : Transport) (r : Registry) {config : SyncConfig}
    (inputs : SelectionInputs) (h : config.maxPages = 0) :
    Paginated transport r config inputs ⟨[], .error (.paginationLimit 0)⟩ where
  bounded := by simp
  first := by simp
  next := by simp
  finished := by simp
  limited := fun n => by
    have hall : Answered transport [] := by simp [Answered]
    constructor
    · intro hn
      cases hn
      exact .inl ⟨h.symm, h.symm, hall, .inl h⟩
    · rintro (⟨rfl, -⟩ | ⟨hne, -⟩)
      · rw [h]
      · exact absurd rfl hne
  failed := fun e he => by
    cases he
    exact .inl ⟨by rw [h], h.symm, by simp [Answered], .inl h⟩

/-! ## The four ends -/

section

variable {maxPages : Nat} {groups : List ModelGroup} {before : List Request} {q : Request}
  {asks : List PageAsk} {run : FetchRun}

theorem Ends.sent_eq (h : Ends transport maxPages groups before q asks run) :
    run.sent = before ++ [q] := by
  cases h <;> rfl

/-- Why a fetch failed. -/
theorem Ends.failed (hnd : (start.map PageAsk.model).Nodup)
    (hround : Rounds transport limit start before q asks)
    (h : Ends transport maxPages groups before q asks run) {e : SyncError}
    (he : run.result = .error e) :
    (e = .paginationLimit maxPages ∧ Exhausted transport maxPages run.sent)
      ∨ Refused transport run.sent e ∨ Dataless transport run.sent e := by
  have hne : before ++ [q] ≠ [] := by simp
  cases h with
  | refused hraw =>
    cases he
    exact .inr (.inl ⟨hne, hraw⟩)
  | incomplete hraw hcomplete =>
    cases he
    exact .inr (.inr ⟨_, responseTo_pred hraw, hcomplete, rfl⟩)
  | limited hraw hcomplete hmore hused =>
    cases he
    exact .inl ⟨rfl, by simpa using hused, hround.answered_last hnd hraw hcomplete,
      .inr ((hround.further_iff hnd hraw).2 hmore)⟩
  | finished => simp at he

theorem Ends.of_exhausted (hnd : (start.map PageAsk.model).Nodup)
    (hround : Rounds transport limit start before q asks)
    (h : Ends transport maxPages groups before q asks run) (hmax : maxPages ≠ 0)
    (hexhausted : Exhausted transport maxPages run.sent) :
    run.result = .error (.paginationLimit maxPages) := by
  obtain ⟨-, hanswered, hmore⟩ := hexhausted
  have hfurther := hmore.resolve_left hmax
  cases h with
  | refused hraw => exact absurd hanswered (not_answered_of_refused hraw)
  | incomplete hraw hcomplete =>
    obtain ⟨response, hresponse, hdata⟩ := hanswered before.length (by simp)
    cases hresponse.symm.trans (responseTo_last hraw)
    rw [hcomplete] at hdata
    cases hdata
  | limited => rfl
  | finished hraw _ hlast => exact absurd hlast ((hround.further_iff hnd hraw).1 hfurther)

theorem Ends.of_refused (h : Ends transport maxPages groups before q asks run) {e : SyncError}
    (hrefused : Refused transport run.sent e) : run.result = .error e := by
  obtain ⟨-, herror⟩ := hrefused
  rw [h.sent_eq] at herror
  cases h with
  | refused hraw => exact congrArg Except.error (Except.error.inj (hraw.symm.trans herror))
  | incomplete hraw => cases hraw.symm.trans herror
  | limited hraw => cases hraw.symm.trans herror
  | finished hraw => cases hraw.symm.trans herror

end

/-- A sequence of rounds with an end follows page tokens. -/
theorem paginated_of_ends {r : Registry} {config : SyncConfig} {inputs : SelectionInputs}
    {before : List Request} {q : Request} {asks : List PageAsk} {run : FetchRun}
    (hround : Rounds transport config.pageLimit (firstAsks r config inputs) before q asks)
    (hbound : before.length < config.maxPages)
    (hends : Ends transport config.maxPages (emptyGroups r) before q asks run) :
    Paginated transport r config inputs run := by
  have hnd := nodup_firstAsks r config inputs
  obtain ⟨first, hfirst, hasks⟩ := hround.first_asks hnd
  have hmax : config.maxPages ≠ 0 := by omega
  refine ⟨?_, ?_, ?_, ?_, fun n => ⟨fun hn => ?_, ?_⟩, fun e he => hends.failed hnd hround he⟩
  · rw [hends.sent_eq, List.length_append, List.length_singleton]
    omega
  · intro q' hq'
    rw [hends.sent_eq, hfirst] at hq'
    cases hq'
    exact asksForAll_of_asks hasks
  · rw [hends.sent_eq]
    intro k first' request next hf hrequest hnext
    cases hfirst.symm.trans hf
    obtain ⟨raw, asks', hresponse, hcomplete, hreq, hpages, hasks'⟩ :=
      hround.follows hnd k request next hrequest hnext
    exact ⟨_, hresponse, hcomplete, asksForRest_of_asks hasks hreq hpages hasks'⟩
  · intro fetched hok
    cases hends with
    | finished hraw hcomplete hmore =>
      cases hok
      exact ⟨by simp, hround.answered_last hnd hraw hcomplete,
        fun hfurther => (hround.further_iff hnd hraw).1 hfurther hmore, by simp,
        foldl_addPage_empty r _⟩
    | _ => simp at hok
  · rcases hends.failed hnd hround hn with ⟨hlimit, hexhausted⟩ | hrefused | ⟨_, -, -, hdata⟩
    · exact .inl ⟨SyncError.paginationLimit.inj hlimit, hexhausted⟩
    · exact .inr hrefused
    · cases hdata
  · rintro (⟨rfl, hexhausted⟩ | hrefused)
    · exact hends.of_exhausted hnd hround hmax hexhausted
    · exact hends.of_refused hrefused

/-- **Pagination.** A fetch of at least one model follows page tokens, whatever the
transport does. -/
theorem all_paginated (transport : Transport) (r : Registry) (config : SyncConfig)
    (inputs : SelectionInputs) (hne : r.models ≠ []) :
    Paginated transport r config inputs (all transport r config inputs) := by
  rcases all_ends transport config inputs hne with ⟨hmax, hrun⟩ | ⟨before, q, asks, hround, hbound, hends⟩
  · rw [hrun]
    exact paginated_nothing transport r inputs hmax
  · exact paginated_of_ends hround hbound hends

/-! ### A fetch of two rounds -/

/-- Two models that declare nothing but their identifier. -/
def fontsAndStickers : Registry where
  version := "v1"
  models := [.named "Font", .named "Sticker"]
  words := by decide
  distinct := by decide

/-- A backend with one page of fonts and two pages of stickers. -/
def twoPages : Transport := fun sent =>
  let item (id : String) : Json := .object [("id", .str id)]
  let page (items : List Json) (token : Json) : Json :=
    .object [("items", .arr items), ("nextToken", token)]
  .ok (.object [("data", if sent.length = 1 then
      .object [("listFont", page [item "f1"] .null), ("listSticker", page [item "s1"] (.str "2"))]
    else .object [("listSticker", page [item "s2"] .null)])])

/-- Everything is fetched. -/
def everything : SelectionInputs := ⟨.zero, 0, none, false⟩

theorem twoPages_paginated :
    fontsAndStickers.models ≠ []
      ∧ (all twoPages fontsAndStickers .default everything).sent.map Request.models
          = [["Font", "Sticker"], ["Sticker"]]
      ∧ Paginated twoPages fontsAndStickers .default everything
          (all twoPages fontsAndStickers .default everything) :=
  ⟨by decide, by decide +kernel, all_paginated _ _ _ _ (by decide)⟩

end Replica.Fetch
