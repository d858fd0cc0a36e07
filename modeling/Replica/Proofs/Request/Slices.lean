/-
Replica.Proofs.Request.Slices — each slice of a response is read on its own, whole or not at all.

The pages of a response are those of its slices in the order of the queries (`pages_eq`). Each
slice gives the page that `Page.Reads` says, of all its items or of nothing, and what one slice
holds shows in no page of another (`models_isolated`).
-/
import Replica.Proofs.Request.PageReading

namespace Replica

namespace Response

/-- The slice of a response under the key of a query. -/
def slice? (j : Json) (c : ChildQuery) : Option Json := (j.get? "data").bind (·.get? c.resultKey)

/-- The queries whose keys a response has. -/
def mentioned (j : Json) (children : List ChildQuery) : List ChildQuery :=
  children.filter fun c => (slice? j c).isSome

/-- The pages of a response beside the queries that they answer. -/
def answers (j : Json) (children : List ChildQuery) : List (ChildQuery × Page) :=
  (mentioned j children).zip (split j children).pages

theorem complete_iff (j : Json) (children : List ChildQuery) :
    (split j children).complete = true
      ↔ ∃ entries inner, j = .obj entries
        ∧ (Dict.ofEntries entries).get? "data" = some (.obj inner) := by
  have hcomplete : (split j children).complete = true
      ↔ ∃ data, (j.get? "data").bind Json.asObject? = some data := by
    unfold split
    split
    case h_1 hnone => simp [hnone]
    case h_2 data hdata => simp [hdata]
  rw [hcomplete]
  constructor
  · rintro ⟨data, hdata⟩
    obtain ⟨v, hv, hobject⟩ := Option.bind_eq_some_iff.1 hdata
    obtain ⟨entries, hentries, hget⟩ := Option.bind_eq_some_iff.1 hv
    cases j <;> cases hentries
    cases v <;> cases hobject
    exact ⟨_, _, rfl, hget⟩
  · rintro ⟨entries, inner, rfl, hget⟩
    have hv : (Json.obj entries).get? "data" = some (.obj inner) := hget
    exact ⟨_, by rw [hv]; rfl⟩

theorem pages_eq (j : Json) (children : List ChildQuery) :
    (split j children).pages
      = children.filterMap fun c => (slice? j c).map (Page.ofJson c.model) := by
  have hslice : ∀ c, slice? j c = ((j.get? "data").bind Json.asObject?).bind (·.get? c.resultKey) :=
    fun c => (Option.bind_assoc ..).symm
  simp only [hslice]
  unfold split
  cases (j.get? "data").bind Json.asObject? with
  | none => simp
  | some data => rfl

theorem pages_reads (j : Json) (children : List ChildQuery) :
    List.Forall₂ (fun c page => ∃ slice, slice? j c = some slice ∧ Page.Reads c.model slice page)
      (mentioned j children) (split j children).pages := by
  rw [pages_eq, mentioned]
  induction children with
  | nil => exact .nil
  | cons c rest ih =>
    cases hslice : slice? j c with
    | none => simpa [hslice] using ih
    | some slice =>
      simpa [hslice] using ⟨Page.reads_ofJson c.model slice, ih⟩

theorem answers_eq (j : Json) (children : List ChildQuery) :
    answers j children = children.filterMap fun c =>
      (slice? j c).map fun slice => (c, Page.ofJson c.model slice) := by
  rw [answers, pages_eq, mentioned]
  induction children with
  | nil => rfl
  | cons c rest ih => cases hslice : slice? j c <;> simp [hslice, ih]

/-- **Models are isolated from each other.** A response is complete exactly when it is an object
whose data are an object, and it has no pages otherwise. The queries whose keys the data have
get one page each, in their order: the page that their own slice gives, which is one of all its
items or the empty one. Responses whose slices differ under one key alone, whatever else is in
them, have the same pages for the queries of all other keys. -/
theorem models_isolated (children : List ChildQuery) :
    (∀ j, ((split j children).complete = true
          ↔ ∃ entries inner, j = .obj entries
            ∧ (Dict.ofEntries entries).get? "data" = some (.obj inner))
        ∧ ((split j children).complete = false → (split j children).pages = []))
    ∧ (∀ j, List.Forall₂ (fun c page => ∃ slice, slice? j c = some slice
          ∧ Page.Reads c.model slice page ∧ page.model = c.model
          ∧ ∀ i ∈ page.items, i.record.model = c.model)
        (mentioned j children) (split j children).pages)
    ∧ ∀ j j' key, (∀ c ∈ children, c.resultKey ≠ key → slice? j c = slice? j' c) →
        (answers j children).filter (fun answer => answer.1.resultKey ≠ key)
          = (answers j' children).filter (fun answer => answer.1.resultKey ≠ key) := by
  refine ⟨fun j => ⟨complete_iff j children, fun hincomplete => ?_⟩, fun j => ?_,
    fun j j' key hsame => ?_⟩
  · unfold split at hincomplete ⊢
    split at hincomplete
    · rfl
    · cases hincomplete
  · refine (pages_reads j children).imp ?_
    rintro c page ⟨slice, hslice, hreads⟩
    exact ⟨slice, hslice, hreads, hreads.labelled⟩
  · rw [answers_eq, answers_eq, List.filter_filterMap, List.filter_filterMap]
    refine List.filterMap_congr fun c hc => ?_
    by_cases hkey : c.resultKey = key
    · cases slice? j c <;> cases slice? j' c <;> simp [Option.filter, hkey]
    · rw [hsame c hc hkey]

/-! ### Broken fonts -/

/-- Queries for fonts and stickers. -/
def fontsAndStickers : List ChildQuery := [⟨"Font", "listFont"⟩, ⟨"Sticker", "listSticker"⟩]

/-- One sticker after a `null`. -/
def oneSticker : Json :=
  .object [("items", .arr [.null, .object [("id", .int 7)]]), ("startedAt", .int 5)]

/-- The fonts are no list result. -/
def brokenFonts : Json :=
  .object [("data", .object [("listFont", .str "none"), ("listSticker", oneSticker)])]

/-- The fonts are missing, and an error is reported. -/
def missingFonts : Json :=
  .object [("data", .object [("listSticker", oneSticker), ("listEmoji", .null)]),
    ("errors", .arr [.str "no fonts"])]

/-- Whether the fonts are broken or missing, the sticker is delivered. -/
theorem brokenFonts_isolated :
    (answers brokenFonts fontsAndStickers).filter (fun answer => answer.1.resultKey ≠ "listFont")
        = (answers missingFonts fontsAndStickers).filter
            (fun answer => answer.1.resultKey ≠ "listFont")
      ∧ (split brokenFonts fontsAndStickers).pages
        = [Page.empty "Font", ⟨"Sticker", [⟨.blank "Sticker" "7", ⟨0, .zero, false⟩⟩], none,
            some ⟨5⟩⟩] := by
  obtain ⟨-, -, hisolated⟩ := models_isolated fontsAndStickers
  refine ⟨hisolated brokenFonts missingFonts "listFont" ?_, by decide +kernel⟩
  decide +kernel

end Response

end Replica
