/-
Replica.Proofs.Cycle.Delivery — a chain of pages arrives whole.

A backend may cut what it has of a model into any number of pages, each of which names the
next one by a token that is not empty (`Linked`). When it answers the queries for the model
along such a chain (`Delivers`), a fetch that succeeds receives all pages of the chain in
order (`all_delivered`), whatever the backend answers for other models.

The proof is an induction over `Rounds`: before each round the model has received the pages
up to the one that is asked for next, or it has received them all and is not asked for any
more (`Delivery`).
-/
import Replica.Proofs.Cycle.Pagination
import Replica.Proofs.Request.PageWire
import Mathlib.Data.List.Nodup

namespace Replica.Fetch

/-! ## Chains of pages -/

/-- One page of a chain. -/
structure Chunk where
  items : List Item
  next : Option String

/-- Every page but the last names the next one by a token that is not empty. -/
def Linked : List Chunk → Prop
  | [] => False
  | [last] => last.next = none
  | chunk :: rest => (∃ token, chunk.next = some token ∧ token ≠ "") ∧ Linked rest

/-- The token that leads to a page. -/
def tokenTo (chunks : List Chunk) : Nat → Option String
  | 0 => none
  | k + 1 => (chunks[k]?).bind (·.next)

/-- The queries for a model under a filter are answered along a chain: when the request
after `before` asks for the page with the token that leads there, it gets that page. The
transport may still fail. -/
def Delivers (transport : Transport) (model : String) (filter : Json) (chunks : List Chunk) :
    Prop :=
  ∀ (before : List Request) (q : Request) (raw : Json) (data : Dict Json) (chunk : Chunk),
    transport (before ++ [q]) = .ok raw → (raw.get? "data").bind Json.asObject? = some data →
    model ∈ q.models → q.filterOf model = some filter →
    q.tokenOf model = some (.ofText? (tokenTo chunks before.length)) →
    chunks[before.length]? = some chunk →
    ∃ entries started, data.get? (resultKeyFor model) = some (.ofDict entries)
      ∧ Page.OnWire entries chunk.items chunk.next started

/-- The items of a chain are of its model and keep clear of the wire's own keys. -/
def ChainOf (model : String) (chunks : List Chunk) : Prop :=
  ∀ chunk ∈ chunks, ∀ i ∈ chunk.items, i.record.model = model ∧ i.WireSafe

/-- A page of a chain is the last one or leads to another one. -/
theorem Linked.split : ∀ (received : List Chunk) {chunk : Chunk} {rest : List Chunk},
    Linked (received ++ chunk :: rest) →
      (chunk.next = none ∧ rest = [])
        ∨ ∃ token, chunk.next = some token ∧ ∃ c more, rest = c :: more
  | [], chunk, [], h => .inl ⟨h, rfl⟩
  | [], chunk, c :: more, h => by
    obtain ⟨⟨token, htoken, -⟩, -⟩ := h
    exact .inr ⟨token, htoken, c, more, rfl⟩
  | first :: received, chunk, rest, h => by
    cases received with
    | nil => exact Linked.split [] h.2
    | cons second received => exact Linked.split (second :: received) h.2

theorem tokenTo_succ (received : List Chunk) (chunk : Chunk) (rest : List Chunk) :
    tokenTo (received ++ chunk :: rest) (received.length + 1) = chunk.next := by
  simp [tokenTo]

/-! ## The pages of one response -/

theorem filter_pages (data : Dict Json) (model : String) : ∀ (asks : List PageAsk),
    (asks.map PageAsk.model).Nodup →
    (((asks.map PageAsk.child).filterMap (Response.pageOf? data)).filter
        (fun page => page.model = model))
      = if model ∈ asks.map PageAsk.model then
          ((data.get? (resultKeyFor model)).map (Page.ofJson model)).toList
        else []
  | [], _ => by simp
  | a :: rest, hnd => by
    obtain ⟨hnotin, hrest⟩ := List.nodup_cons.1 hnd
    have ih := filter_pages data model rest hrest
    have hpage : ∀ page, Response.pageOf? data a.child = some page → page.model = a.model := by
      intro page hpage
      obtain ⟨v, -, rfl⟩ := Option.map_eq_some_iff.1 hpage
      exact Page.ofJson_model ..
    rw [List.map_cons, List.filterMap_cons, List.map_cons]
    by_cases hmodel : a.model = model
    · subst hmodel
      rw [if_neg hnotin] at ih
      rw [if_pos (List.mem_cons_self ..)]
      cases hget : Response.pageOf? data a.child with
      | none =>
        have hnone : (data.get? (resultKeyFor a.model)).map (Page.ofJson a.model) = none := hget
        rw [hnone]
        exact ih
      | some page =>
        have hsome : (data.get? (resultKeyFor a.model)).map (Page.ofJson a.model) = some page := hget
        rw [hsome]
        simp only [List.filter_cons, hpage page hget, decide_true, if_true, ih]
        rfl
    · have hmem : model ∈ a.model :: rest.map PageAsk.model ↔ model ∈ rest.map PageAsk.model := by
        rw [List.mem_cons]
        exact or_iff_right (Ne.symm hmodel)
      simp only [hmem]
      rw [← ih]
      cases hget : Response.pageOf? data a.child with
      | none => rfl
      | some page =>
        have hne : page.model ≠ model := hpage page hget ▸ hmodel
        simp [hne]

theorem itemsOf_append (pages more : List Page) (model : String) :
    itemsOf (pages ++ more) model = itemsOf pages model ++ itemsOf more model := by
  simp [itemsOf]

theorem split_complete {raw : Json} {children : List ChildQuery}
    (h : (Response.split raw children).complete = true) :
    ∃ data, (raw.get? "data").bind Json.asObject? = some data
      ∧ (Response.split raw children).pages = children.filterMap (Response.pageOf? data) := by
  unfold Response.split at h ⊢
  split at h
  · simp at h
  · rename_i data hdata
    exact ⟨data, hdata, rfl⟩

/-! ## What has been received -/

variable {transport : Transport} {limit : Nat} {start : List PageAsk} {model : String}
  {predicate : Predicate} {chunks : List Chunk} {before : List Request} {q : Request}
  {asks : List PageAsk} {raw : Json}

/-- How much of a chain was received when some pages are asked for next. -/
inductive Delivery (model : String) (predicate : Predicate) (chunks : List Chunk) (sent : Nat)
    (asks : List PageAsk) (pages : List Page) : Prop
  /-- One page for each request; the next one is asked for. -/
  | under {past : List Chunk} {chunk : Chunk} {rest : List Chunk}
      (hsplit : chunks = past ++ chunk :: rest) (hlen : past.length = sent)
      (hitems : itemsOf pages model = past.flatMap (·.items))
      (hasked : model ∈ asks.map PageAsk.model)
      (hask : ∀ a ∈ asks, a.model = model →
        a.predicate = predicate ∧ a.token = tokenTo chunks sent)
  /-- All pages; the model is not asked for. -/
  | whole (hitems : itemsOf pages model = chunks.flatMap (·.items))
      (hasked : model ∉ asks.map PageAsk.model)

theorem page_delivered (hdelivers : Delivers transport model predicate.toFilter chunks)
    (hchain : ChainOf model chunks) (hasks : Request.Asks limit asks q)
    (hnd : (asks.map PageAsk.model).Nodup) (hraw : transport (before ++ [q]) = .ok raw)
    (hcomplete : (Response.split raw q.children).complete = true) {chunk : Chunk}
    (hchunk : chunks[before.length]? = some chunk) (hasked : model ∈ asks.map PageAsk.model)
    (hask : ∀ a ∈ asks, a.model = model →
      a.predicate = predicate ∧ a.token = tokenTo chunks before.length) :
    ∃ started, (Response.split raw q.children).pages.filter (fun page => page.model = model)
      = [⟨model, chunk.items, chunk.next, started⟩] := by
  obtain ⟨data, hdata, hpages⟩ := split_complete hcomplete
  obtain ⟨a, ha, rfl⟩ := List.mem_map.1 hasked
  obtain ⟨hpredicate, htoken⟩ := hask a ha rfl
  have hmodels : a.model ∈ q.models := by
    rw [Request.models, hasks.children, List.map_map]
    exact hasked
  obtain ⟨entries, started, hget, hwire⟩ := hdelivers before q raw data chunk hraw hdata hmodels
    (by rw [hasks.filter a ha, hpredicate]) (by rw [hasks.token a ha, htoken]) hchunk
  refine ⟨started.map Timestamp.mk, ?_⟩
  rw [hpages, hasks.children, filter_pages data _ asks hnd, if_pos hasked, hget, Option.map_some,
    Page.ofJson_onWire hwire (hchain chunk (List.mem_of_getElem? hchunk))]
  rfl

/-- The only page of a model among some pages. -/
theorem of_filter_eq_singleton {pages : List Page} {model : String} {only : Page}
    (h : pages.filter (fun page => page.model = model) = [only]) :
    only ∈ pages ∧ itemsOf pages model = only.items
      ∧ ∀ page ∈ pages, page.model = model → page = only := by
  have hmem : only ∈ pages.filter (fun page => page.model = model) := by simp [h]
  refine ⟨(List.mem_filter.1 hmem).1, ?_, fun page hpage hmodel => ?_⟩
  · rw [itemsOf, h, List.flatMap_singleton]
  · have hpage' : page ∈ pages.filter (fun page => page.model = model) :=
      List.mem_filter.2 ⟨hpage, by simpa using hmodel⟩
    rw [h] at hpage'
    exact List.mem_singleton.1 hpage'

/-- A model that was received whole gets nothing more. -/
theorem Delivery.next_whole (hasks : Request.Asks limit asks q)
    (hraw : transport (before ++ [q]) = .ok raw)
    (hitems : itemsOf (received transport before) model = chunks.flatMap (·.items))
    (hasked : model ∉ asks.map PageAsk.model) :
    Delivery model predicate chunks (before ++ [q]).length
      (nextAsks asks (Response.split raw q.children)) (received transport (before ++ [q])) := by
  have hknown : ∀ page ∈ (Response.split raw q.children).pages,
      page.model ∈ asks.map PageAsk.model := fun page hpage => page_model_mem hasks raw hpage
  have hnone : ∀ page ∈ (Response.split raw q.children).pages, page.model ≠ model :=
    fun page hpage hmodel => hasked (hmodel ▸ hknown page hpage)
  refine .whole ?_ fun hnext => ?_
  · have hempty : itemsOf (Response.split raw q.children).pages model = [] := by
      rw [itemsOf, List.filter_eq_nil_iff.2 (by simpa using hnone), List.flatMap_nil]
    rw [received_last hraw, itemsOf_append, hitems, hempty, List.append_nil]
  · rw [nextAsks_model hknown] at hnext
    obtain ⟨page, hpage, hmodel⟩ := List.mem_map.1 hnext
    exact hnone page (List.mem_filter.1 hpage).1 hmodel

/-- A model that is asked for gets the page that it is asked for. -/
theorem Delivery.next_under (hdelivers : Delivers transport model predicate.toFilter chunks)
    (hlinked : Linked chunks) (hchain : ChainOf model chunks)
    (hasks : Request.Asks limit asks q) (hnd : (asks.map PageAsk.model).Nodup)
    (hraw : transport (before ++ [q]) = .ok raw)
    (hcomplete : (Response.split raw q.children).complete = true)
    {past : List Chunk} {chunk : Chunk} {rest : List Chunk} (hsplit : chunks = past ++ chunk :: rest)
    (hlen : past.length = before.length)
    (hitems : itemsOf (received transport before) model = past.flatMap (·.items))
    (hasked : model ∈ asks.map PageAsk.model)
    (hask : ∀ a ∈ asks, a.model = model →
      a.predicate = predicate ∧ a.token = tokenTo chunks before.length) :
    Delivery model predicate chunks (before ++ [q]).length
      (nextAsks asks (Response.split raw q.children)) (received transport (before ++ [q])) := by
  have hknown : ∀ page ∈ (Response.split raw q.children).pages,
      page.model ∈ asks.map PageAsk.model := fun page hpage => page_model_mem hasks raw hpage
  have hchunk : chunks[before.length]? = some chunk := by
    rw [hsplit, ← hlen]
    simp
  obtain ⟨started, hfilter⟩ := page_delivered hdelivers hchain hasks hnd hraw hcomplete hchunk
    hasked hask
  obtain ⟨hmem, hone, honly⟩ := of_filter_eq_singleton hfilter
  have hmore : itemsOf (received transport (before ++ [q])) model
      = (past ++ [chunk]).flatMap (·.items) := by
    rw [received_last hraw, itemsOf_append, hitems, hone, List.flatMap_append,
      List.flatMap_singleton]
  -- The one page of the model decides what is asked for next.
  rcases Linked.split past (hsplit ▸ hlinked) with ⟨hlast, rfl⟩ | ⟨token, htoken, c, more, rfl⟩
  · refine .whole (by rw [hmore, hsplit]) fun hnext => ?_
    rw [nextAsks_model hknown] at hnext
    obtain ⟨page, hpage, hmodel⟩ := List.mem_map.1 hnext
    obtain ⟨hpage, hsome⟩ := List.mem_filter.1 hpage
    rw [honly page hpage hmodel, hlast] at hsome
    simp at hsome
  · obtain ⟨a, ha, hmodel, -⟩ := nextAsks_of_page hmem hasked htoken
    have hfurther : chunks = (past ++ [chunk]) ++ c :: more := by simp [hsplit]
    refine .under hfurther (by simp [hlen]) hmore (List.mem_map.2 ⟨a, ha, hmodel⟩) ?_
    intro b hb hbmodel
    obtain ⟨page, hpage, token', htoken', x, hx, hxmodel, rfl⟩ := mem_nextAsks hb
    have hxm : x.model = model := hbmodel
    refine ⟨(hask x hx hxm).1, ?_⟩
    rw [honly page hpage (hxmodel.symm.trans hxm)] at htoken'
    rw [List.length_append, List.length_singleton, ← hlen, hsplit, tokenTo_succ]
    exact htoken'.symm

/-- One round takes a delivery one page further. -/
theorem Delivery.next (hdelivers : Delivers transport model predicate.toFilter chunks)
    (hlinked : Linked chunks) (hchain : ChainOf model chunks)
    (hasks : Request.Asks limit asks q) (hnd : (asks.map PageAsk.model).Nodup)
    (hraw : transport (before ++ [q]) = .ok raw)
    (hcomplete : (Response.split raw q.children).complete = true)
    (h : Delivery model predicate chunks before.length asks (received transport before)) :
    Delivery model predicate chunks (before ++ [q]).length
      (nextAsks asks (Response.split raw q.children)) (received transport (before ++ [q])) := by
  cases h with
  | whole hitems hasked => exact next_whole hasks hraw hitems hasked
  | under hsplit hlen hitems hasked hask =>
    exact next_under hdelivers hlinked hchain hasks hnd hraw hcomplete hsplit hlen hitems hasked hask

theorem Rounds.delivery (hdelivers : Delivers transport model predicate.toFilter chunks)
    (hlinked : Linked chunks) (hchain : ChainOf model chunks)
    (hnd : (start.map PageAsk.model).Nodup) {a : PageAsk} (ha : a ∈ start) (hmodel : a.model = model)
    (hpredicate : a.predicate = predicate) (htoken : a.token = none)
    (h : Rounds transport limit start before q asks) :
    Delivery model predicate chunks before.length asks (received transport before) := by
  induction h with
  | first hne hq =>
    cases chunks with
    | nil => exact absurd hlinked id
    | cons chunk rest =>
      have hnothing : chunk :: rest = [] ++ chunk :: rest := rfl
      refine .under hnothing rfl (by simp [received, itemsOf])
        (List.mem_map.2 ⟨a, ha, hmodel⟩) ?_
      intro b hb hbmodel
      have hsame : b = a := List.inj_on_of_nodup_map hnd hb ha (hbmodel.trans hmodel.symm)
      exact ⟨hsame ▸ hpredicate, hsame ▸ htoken⟩
  | next hround hraw hcomplete hne hq ih =>
    obtain ⟨hpages, hasks⟩ := hround.asks hnd
    exact ih.next hdelivers hlinked hchain hasks (hpages.order.nodup hnd) hraw hcomplete

/-- **Delivery.** A fetch that succeeds has received every page of a chain, in order. -/
theorem all_delivered {r : Registry} {config : SyncConfig} {inputs : SelectionInputs}
    {sent : List Request} {fetched : Fetched}
    (h : all transport r config inputs = ⟨sent, .ok fetched⟩) {m : ModelSchema} (hm : m ∈ r.models)
    (hdelivers : Delivers transport m.name
      (Selection.ofSchema config.syncExpressions inputs m).predicate.toFilter chunks)
    (hlinked : Linked chunks) (hchain : ChainOf m.name chunks) :
    itemsOf (received transport sent) m.name = chunks.flatMap (·.items) := by
  have hnd := nodup_firstAsks r config inputs
  rcases all_ends transport config inputs (models_ne_nil h) with
    ⟨-, hrun⟩ | ⟨before, q, asks, hround, -, hends⟩
  · rw [hrun] at h
    simp at h
  · rw [h] at hends
    cases hends with
    | finished hraw hcomplete hmore =>
      obtain ⟨hpages, hasks⟩ := hround.asks hnd
      have hbefore := hround.delivery hdelivers hlinked hchain hnd (List.mem_map_of_mem hm)
        rfl rfl rfl
      have hafter := hbefore.next hdelivers hlinked hchain hasks (hpages.order.nodup hnd) hraw
        hcomplete
      rw [hmore] at hafter
      cases hafter with
      | under _ _ _ hasked => simp at hasked
      | whole hitems => exact hitems

end Replica.Fetch
