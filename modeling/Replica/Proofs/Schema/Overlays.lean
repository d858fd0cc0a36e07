/-
Replica.Proofs.Schema.Overlays — which registered model an overlay is laid over.

The relation between an overlay and its base is in their names alone: a model is laid over the
registered model whose name and the ending spell its own (`overlayTarget?_eq_some_iff`). So a
base tells its one overlay, and an overlay has a longer name than its base.
-/
import Replica.Schema.Registry

namespace Replica

/-- An overlay's name is its base's name and the ending; the ending alone has no base. -/
theorem ModelSchema.overlayBase?_eq_some_iff {schema : ModelSchema} {base : String} :
    schema.overlayBase? = some base ↔
      base ≠ "" ∧ schema.name = base ++ ModelSchema.overlaySuffix := by
  simp only [overlayBase?]
  constructor
  · intro h
    split at h
    · rename_i hending
      cases h
      have hsuffix := List.suffix_iff_eq_append.1 (List.isSuffixOf_iff_suffix.1 hending.2)
      refine ⟨?_, String.toList_injective (by simpa using hsuffix.symm)⟩
      intro hempty
      have hlength := congrArg (List.length ∘ String.toList) hempty
      simp at hlength
      omega
    · simp at h
  · rintro ⟨hne, hname⟩
    have hchars : schema.name.toList = base.toList ++ overlaySuffix.toList := by
      rw [hname, String.toList_append]
    have hpos : 0 < base.toList.length :=
      List.length_pos_iff.2 fun h => hne (String.toList_eq_nil_iff.1 h)
    rw [if_pos, hchars]
    · simp
    · rw [hchars]
      exact ⟨by simpa using hpos, List.isSuffixOf_iff_suffix.2 (List.suffix_append ..)⟩

namespace Registry

variable {r : Registry} {name : String} {m base : ModelSchema}

theorem find?_eq_some_iff : r.find? name = some m ↔ m ∈ r.models ∧ m.name = name := by
  constructor
  · intro h
    exact ⟨List.mem_of_find?_eq_some h, by simpa using List.find?_some h⟩
  · rintro ⟨hmem, rfl⟩
    exact find?_of_mem hmem

/-- A registered model is laid over the one whose name and the ending are its own name. -/
theorem overlayTarget?_eq_some_iff : r.overlayTarget? name = some base ↔
    base ∈ r.models ∧ name ∈ r.modelNames ∧ name = base.name ++ ModelSchema.overlaySuffix := by
  simp only [overlayTarget?, bind, Option.bind_eq_some_iff, find?_eq_some_iff,
    ModelSchema.overlayBase?_eq_some_iff]
  constructor
  · rintro ⟨overlay, ⟨hoverlay, rfl⟩, _, ⟨-, hname⟩, hbase, rfl⟩
    exact ⟨hbase, List.mem_map_of_mem hoverlay, hname⟩
  · rintro ⟨hbase, hregistered, hname⟩
    obtain ⟨overlay, hoverlay, hsame⟩ := List.mem_map.1 hregistered
    exact ⟨overlay, ⟨hoverlay, hsame⟩, base.name, ⟨(r.words _ hbase).1, hsame.trans hname⟩,
      hbase, rfl⟩

/-- An overlay is named after the model that it is laid over. -/
theorem name_of_overlayTarget? (h : r.overlayTarget? name = some base) :
    name = base.name ++ ModelSchema.overlaySuffix :=
  (overlayTarget?_eq_some_iff.1 h).2.2

/-- A model has a longer name than the one that it is laid over. -/
theorem length_of_overlayTarget? (h : r.overlayTarget? name = some base) :
    base.name.length < name.length := by
  rw [name_of_overlayTarget? h, String.length_append]
  exact Nat.lt_add_of_pos_right (by decide)

end Registry

end Replica
