/-
Replica.Proofs.Cycle.Backend — what a backend holds, and when a transport is honest.

A backend keeps, for each model, entries by identifier: fields, the time of their last
change, and whether the record is gone. `Entry` carries what the backend promises of them;
in particular the field `updatedAt` is the text of the time of the last change. A transport
is honest about a model (`Honest`) if it answers the queries for it by cutting the items
that satisfy the sent filter into a chain of pages. `serve` is such a transport
(`serve_honest`).
-/
import Replica.Proofs.Cycle.Delivery
import Replica.Proofs.Predicate.FilterMeaning

namespace Replica

/-- What a backend keeps under an identifier. -/
structure Entry where
  fields : Fields
  version : Int
  lastChangedAt : Timestamp
  deleted : Bool
  proper : Fields.Proper fields
  updatedAt : fields.get? FieldName.updatedAt = some (.str lastChangedAt.text)
  positive : 0 < lastChangedAt.millis
  short : lastChangedAt.millis ≤ Timestamp.lastShort
  low : -(Text.maxSigned64 + 1 : Int) ≤ version
  high : version ≤ Text.maxSigned64

namespace Entry

/-- The entry as an item. -/
def item (e : Entry) (model id : String) : Item :=
  ⟨⟨model, id, e.fields⟩, ⟨e.version, e.lastChangedAt, e.deleted⟩⟩

/-- The row of a live entry. -/
def row? (e : Entry) : Option Row := if e.deleted then none else some ⟨e.fields, e.version⟩

theorem item_wireSafe (e : Entry) (model : String) {id : String} (h : id ≠ "") :
    (e.item model id).WireSafe where
  id := h
  fields := e.proper
  metadata := ⟨e.low, e.high, Nat.le_trans e.short (by decide)⟩

end Entry

/-- The entries of each model by identifier; no identifier is empty. -/
structure Backend where
  entries : String → Dict Entry
  ids : ∀ model id, ((entries model).get? id).isSome = true → id ≠ ""

namespace Backend

/-- The backend with an entry put under an identifier. -/
def put (b : Backend) (model id : String) (e : Entry) (h : id ≠ "") : Backend where
  entries name := if name = model then (b.entries name).insert id e else b.entries name
  ids := by
    intro name key hkey
    split at hkey
    · rw [Dict.get?_insert] at hkey
      split at hkey
      · rename_i hid
        exact hid ▸ h
      · exact b.ids name key hkey
    · exact b.ids name key hkey

theorem get?_put (b : Backend) (model id : String) (e : Entry) (h : id ≠ "") (name key : String) :
    ((b.put model id e h).entries name).get? key
      = if name = model ∧ id = key then some e else (b.entries name).get? key := by
  by_cases hname : name = model <;> simp [put, hname]

/-- The items of a model that satisfy a filter. -/
def selected (b : Backend) (model : String) (filter : Json) : List Item :=
  ((b.entries model).entries.map fun x => x.2.item model x.1).filter
    (fun i => Filter.accepts i.record filter)

end Backend

/-! ## Selected items -/

namespace Backend

theorem selected_safe {b : Backend} {model : String} {filter : Json} {i : Item}
    (h : i ∈ b.selected model filter) : i.record.model = model ∧ i.WireSafe := by
  obtain ⟨x, hx, rfl⟩ := List.mem_map.1 (List.mem_filter.1 h).1
  refine ⟨rfl, x.2.item_wireSafe model (b.ids model x.1 ?_)⟩
  rw [Dict.mem_entries.1 hx]
  rfl

/-- The selected items of an identifier: its entry, if there is one and it satisfies the
filter. -/
theorem selected_id (b : Backend) (model : String) (filter : Json) (key : String) :
    (b.selected model filter).filter (fun i => i.record.id = key)
      = (((b.entries model).get? key).filter
          (fun e => Filter.accepts (e.item model key).record filter)).toList.map
            (·.item model key) := by
  have hswap : (b.selected model filter).filter (fun i => i.record.id = key)
      = (((b.entries model).entries.filter (fun x => x.1 = key)).map
          fun x => x.2.item model x.1).filter (fun i => Filter.accepts i.record filter) := by
    rw [selected, List.filter_filter, List.filter_map, List.filter_map, List.filter_filter]
    congr 1
    exact List.filter_congr fun x _ => Bool.and_comm ..
  rw [hswap, Dict.filter_entries]
  cases (b.entries model).get? key with
  | none => rfl
  | some e =>
    by_cases h : Filter.accepts (e.item model key).record filter = true <;>
      simp [Option.filter, h]

end Backend

/-! ## Honest transports -/

/-- A transport answers every query for a model with the items that satisfy the filter of
the query, cut into a chain of pages. It may also fail. -/
def Honest (b : Backend) (model : String) (transport : Transport) : Prop :=
  ∀ filter : Json, ∃ chunks : List Fetch.Chunk, Fetch.Linked chunks
    ∧ Fetch.Delivers transport model filter chunks
    ∧ (chunks.flatMap (·.items)).Perm (b.selected model filter)

/-! ## A transport that serves chains -/

namespace Fetch

/-- The object of a page. -/
def Chunk.toWire (c : Chunk) : Dict Json :=
  ((Dict.empty : Dict Json).insert "items" (.arr (c.items.map Item.toWire))).insert "nextToken"
    (.ofText? c.next)

theorem Chunk.onWire {c : Chunk} (h : c.next ≠ some "") : Page.OnWire c.toWire c.items c.next none where
  values := by
    refine ⟨c.items.map Item.toWire, by simp [Chunk.toWire], List.filter_eq_self.2 fun v hv => ?_⟩
    obtain ⟨i, -, rfl⟩ := List.mem_map.1 hv
    rw [Item.toWire_not_isNull]
    rfl
  next := by simp [Chunk.toWire]
  named := h
  start := by simp [Chunk.toWire]
  range := by simp

/-- One item on each page. -/
def oneByOne : List Item → List Chunk
  | [] => [⟨[], none⟩]
  | [i] => [⟨[i], none⟩]
  | i :: rest => ⟨[i], some "more"⟩ :: oneByOne rest

theorem linked_oneByOne : ∀ items : List Item, Linked (oneByOne items)
  | [] => rfl
  | [_] => rfl
  | _ :: j :: rest => by
    have ih := linked_oneByOne (j :: rest)
    cases hcons : oneByOne (j :: rest) with
    | nil =>
      rw [hcons] at ih
      exact ih.elim
    | cons c more =>
      rw [hcons] at ih
      rw [oneByOne, hcons]
      · exact ⟨⟨"more", rfl, by decide⟩, ih⟩
      · simp

theorem flatMap_oneByOne : ∀ items : List Item, (oneByOne items).flatMap (·.items) = items
  | [] => rfl
  | [_] => rfl
  | i :: j :: rest => by
    rw [oneByOne, List.flatMap_cons, flatMap_oneByOne (j :: rest)]
    · rfl
    · simp

theorem Linked.named : ∀ {chunks : List Chunk}, Linked chunks → ∀ c ∈ chunks, c.next ≠ some ""
  | [_], h, c, hc => by
    have hlast : c.next = none := List.mem_singleton.1 hc ▸ h
    simp [hlast]
  | _ :: d :: rest, ⟨⟨token, htoken, hne⟩, hrest⟩, c, hc => by
    rcases List.mem_cons.1 hc with rfl | hc
    · simpa [htoken] using hne
    · exact Linked.named hrest c hc

end Fetch

namespace Backend

/-- What a request is answered about a model: the page of the chain at the place of the
request in its cycle. -/
def slice (b : Backend) (place : Nat) (q : Request) (model : String) : Json :=
  match q.filterOf model with
  | none => .null
  | some filter =>
    match (Fetch.oneByOne (b.selected model filter))[place]? with
    | none => .null
    | some chunk => .ofDict chunk.toWire

/-- A transport that serves the backend's items one by one. -/
def serve (b : Backend) : Transport := fun sent =>
  match sent.getLast? with
  | none => .error .timeout
  | some q =>
    .ok (.object [("data", .ofDict (q.models.foldl
      (fun data model => data.insert (resultKeyFor model) (b.slice (sent.length - 1) q model))
      Dict.empty))])

theorem resultKeyFor_inj {a b : String} (h : resultKeyFor a = resultKeyFor b) : a = b := by
  have hlist := congrArg String.toList h
  simp only [resultKeyFor, String.toList_append] at hlist
  exact String.toList_inj.1 (List.append_cancel_left hlist)

theorem get?_foldl_slices (f : String → Json) (model : String) : ∀ (models : List String)
    (data : Dict Json),
    (models.foldl (fun data name => data.insert (resultKeyFor name) (f name)) data).get?
        (resultKeyFor model)
      = if model ∈ models then some (f model) else data.get? (resultKeyFor model)
  | [], _ => by simp
  | name :: rest, data => by
    rw [List.foldl_cons, get?_foldl_slices f model rest, Dict.get?_insert]
    by_cases hrest : model ∈ rest
    · simp [hrest]
    · by_cases hname : name = model
      · subst hname
        simp
      · have hkey : resultKeyFor name ≠ resultKeyFor model := fun h => hname (resultKeyFor_inj h)
        simp [hrest, hkey, Ne.symm hname]

/-- Serving one by one is honest. -/
theorem serve_honest (b : Backend) (model : String) : Honest b model b.serve := by
  intro filter
  have hlinked := Fetch.linked_oneByOne (b.selected model filter)
  refine ⟨_, hlinked, ?_, by rw [Fetch.flatMap_oneByOne]⟩
  intro before q raw data chunk hraw hdata hmodel hfilter _ hchunk
  simp only [serve, List.getLast?_append, List.getLast?_singleton, Option.some_or,
    List.length_append, List.length_singleton, Nat.add_sub_cancel] at hraw
  have hget : data.get? (resultKeyFor model) = some (b.slice before.length q model) := by
    cases hraw
    have hvalue : data = q.models.foldl (fun data name =>
        data.insert (resultKeyFor name) (b.slice before.length q name)) Dict.empty := by
      simpa [Json.object, Dict.ofEntries, Dict.insertAll] using hdata.symm
    rw [hvalue, get?_foldl_slices, if_pos hmodel]
  refine ⟨chunk.toWire, none, ?_, Fetch.Chunk.onWire
    (hlinked.named chunk (List.mem_of_getElem? hchunk))⟩
  rw [hget, slice, hfilter]
  simp only [hchunk]

end Backend

end Replica
