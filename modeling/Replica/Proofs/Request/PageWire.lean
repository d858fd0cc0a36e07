/-
Replica.Proofs.Request.PageWire — pages survive the wire.

A backend answers a query with an object that has the wire forms of a page's items, in
order and with any number of `null`s between them, the token of the next page and the time
at which it started. `Page.OnWire` says that the entries of an object are these; the object
is then read as that page (`ofJson_onWire`).
-/
import Replica.Proofs.Request.PageReading

namespace Replica.Page

/-- The entries of a page's wire form. A page without a next token has `null` or nothing in
its place, and so has one without a start. -/
structure OnWire (entries : Dict Json) (items : List Item) (token : Option String)
    (started : Option Nat) : Prop where
  values : ∃ values, entries.get? "items" = some (.arr values)
    ∧ values.filter (fun v => !v.isNull) = items.map Item.toWire
  next : (entries.get? "nextToken").getD .null = .ofText? token
  named : token ≠ some ""
  start : (entries.get? "startedAt").getD .null = started.elim .null fun n => .int n
  range : ∀ n, started = some n → n ≤ Text.maxUnsigned64

theorem readItems_toWire {model : String} {items : List Item}
    (h : ∀ i ∈ items, i.record.model = model ∧ i.WireSafe) :
    readItems model (items.map Item.toWire) = some items := by
  rw [readItems_eq_some_iff, List.forall₂_map_left_iff, List.forall₂_same]
  intro i hi
  obtain ⟨rfl, hsafe⟩ := h i hi
  exact Item.ofWire_toWire hsafe

/-- A token that is not empty counts. -/
theorem filter_token {token : Option String} (h : token ≠ some "") :
    token.filter (· ≠ "") = token := by
  cases token with
  | none => rfl
  | some t => simpa using h

/-- An object with a page's entries, in whatever order they stand, is read as the page. -/
theorem ofJson_obj {entries : List (String × Json)} {items : List Item} {token : Option String}
    {started : Option Nat} (h : OnWire (.ofEntries entries) items token started) {model : String}
    (hitems : ∀ i ∈ items, i.record.model = model ∧ i.WireSafe) :
    ofJson model (.obj entries) = ⟨model, items, token, started.map Timestamp.mk⟩ := by
  obtain ⟨values, hvalues, hfilter⟩ := h.values
  have hlists : Lists (.obj entries) values token started := by
    refine .named ?_ h.next h.start h.range
    rw [hvalues]
    rfl
  rw [ofJson, lists_iff.2 hlists]
  simp only [hfilter, readItems_toWire hitems, filter_token h.named]

/-- **A page is read back from its wire form.** -/
theorem ofJson_onWire {entries : Dict Json} {items : List Item} {token : Option String}
    {started : Option Nat} (h : OnWire entries items token started) {model : String}
    (hitems : ∀ i ∈ items, i.record.model = model ∧ i.WireSafe) :
    ofJson model (.ofDict entries) = ⟨model, items, token, started.map Timestamp.mk⟩ :=
  ofJson_obj (entries.ofEntries_entries.symm ▸ h) hitems

theorem ofJson_items_model {model : String} {j : Json} {i : Item}
    (h : i ∈ (ofJson model j).items) : i.record.model = model :=
  (reads_ofJson model j).labelled.2 i h

end Replica.Page
