/-
Replica.Proofs.Cycle.LastArrival — in the order of arrival the last item of a record decides.

The main statement is `last_arrival_wins`, for every store that carries its transactions out
on its content or not at all (`Faithful`). The last item of an identifier decides whether
there is a row, its version and its fields, and an identifier without an item keeps its row
(`lastRow`). The second pass, whether it is carried out or fails, can only set the display
fields of rows that are there, and only in models that an overlay is laid over
(`secondPass_relabels`).

A row that gets display fields is written again as its text is read. Its other fields stay
where their values are read as they were (`Row.Relabeled.get?_eq`), which is so for all but
some fractions (`smallScale_rewritten`).
-/
import Replica.Proofs.Cycle.MergedRows

namespace Replica

/-! ## Display fields -/

/-- A row, and the same row or the row as its text is read with other display fields. -/
structure Row.Relabeled (row row' : Row) : Prop where
  version : row'.version = row.version
  fields : row' = row ∨ ∀ name, name ≠ FieldName.name → name ≠ FieldName.sort →
    row'.fields.get? name = (row.fields.get? name).map Json.reread

theorem Row.Relabeled.refl (row : Row) : Relabeled row row := ⟨rfl, .inl rfl⟩

/-- A field that is no display field stays if its value is read as it was. -/
theorem Row.Relabeled.get?_eq {row row' : Row} (h : Relabeled row row') {name : String}
    (hname : name ≠ FieldName.name) (hsort : name ≠ FieldName.sort)
    (hread : ∀ v ∈ row.fields.get? name, v.reread = v) :
    row'.fields.get? name = row.fields.get? name := by
  rcases h.fields with rfl | hfields
  · rfl
  · rw [hfields name hname hsort]
    cases hvalue : row.fields.get? name with
    | none => rfl
    | some v => rw [Option.map_some, hread v hvalue]

theorem Row.Relabeled.isSome_eq {row row' : Option Row} (h : Option.Rel Relabeled row row') :
    row'.isSome = row.isSome := by
  cases h <;> rfl

/-- A row that is relabeled is there, under its version. -/
theorem Row.Relabeled.exists_of_some {row : Row} {found : Option Row}
    (h : Option.Rel Relabeled (some row) found) : ∃ row' ∈ found, row'.version = row.version := by
  cases h with
  | some hrel => exact ⟨_, rfl, hrel.version⟩

namespace Merger

/-- An overlay gives a name and a sort at most. -/
theorem name_of_mem_patchOf {x : Record} {e : String × Json} (h : e ∈ patchOf x) :
    e.1 = FieldName.name ∨ e.1 = FieldName.sort := by
  rcases List.mem_append.1 h with h | h
  · obtain ⟨name, -, rfl⟩ := Option.map_eq_some_iff.1 (Option.mem_toList.1 h)
    exact .inl rfl
  · obtain ⟨sort, -, rfl⟩ := Option.map_eq_some_iff.1 (Option.mem_toList.1 h)
    exact .inr rfl

theorem name_of_mem_labelsOf {candidates : List Record} {key : String} {e : String × Json}
    (h : e ∈ labelsOf candidates key) : e.1 = FieldName.name ∨ e.1 = FieldName.sort := by
  rcases labelsOf_cases candidates key with hnone | ⟨x, -, -, hx⟩
  · simp [hnone] at h
  · exact name_of_mem_patchOf (hx ▸ h)

theorem relabeled_patched (row : Row) {patch : List (String × Json)}
    (h : ∀ e ∈ patch, e.1 = FieldName.name ∨ e.1 = FieldName.sort) :
    Row.Relabeled row (row.patched patch) := by
  refine ⟨Row.version_patched row patch, ?_⟩
  rw [Row.patched]
  split
  case isFalse => exact .inl rfl
  refine .inr fun name hname hsort => ?_
  have hnone : patchValue? name patch = none := by
    refine patchValue?_eq_none fun e he hsame => ?_
    rcases h e he with h | h
    · exact hname (hsame.symm.trans h)
    · exact hsort (hsame.symm.trans h)
  rw [Row.get?_rewritten, hnone]
  rfl

variable {m : Merger} {r : Registry} {groups : List ModelGroup} {db : Database}
  {stats : MergeStats} {model : String}

section Refusing

variable {σ : Type} [LocalStore σ] [Faithful σ]

open Transactional (content)

/-- The second pass, carried out or not, keeps every row but for display fields in models that
it has a job for. -/
theorem secondPass_relabels (m : Merger) (hr : r.Separate) {jobs : List OverlayJob}
    (hdistinct : (jobs.map (·.target)).Nodup) {s : σ} (hs : content s = .opened r db) :
    ∃ after, content (m.secondPass jobs s).2 = .opened r after ∧ Database.Keeps r db after
      ∧ ∀ model ∈ r.modelNames, ∀ key,
        Option.Rel Row.Relabeled (db.row? model key) (after.row? model key)
          ∧ (model ∉ jobs.map (·.target) → after.row? model key = db.row? model key) := by
  have hnothing : ∀ model ∈ r.modelNames, ∀ key,
      Option.Rel Row.Relabeled (db.row? model key) (db.row? model key)
        ∧ (model ∉ jobs.map (·.target) → db.row? model key = db.row? model key) := by
    intro model _ key
    refine ⟨?_, fun _ => rfl⟩
    cases db.row? model key with
    | none => exact .none
    | some row => exact .some (.refl row)
  rw [secondPass]
  split
  · exact ⟨db, hs, .refl r db, hnothing⟩
  · obtain ⟨hcontent, htargets⟩ := resolve_content m jobs s
    rw [hs] at hcontent
    generalize m.resolve jobs s = resolved at hcontent htargets ⊢
    obtain ⟨resolved, s₁⟩ := resolved
    dsimp only at hcontent htargets ⊢
    cases htransact : LocalStore.transact (applyResolved resolved 0) s₁ with
    | mk answer s₂ =>
      cases answer with
      | error e =>
        exact ⟨db, (Transactional.transact_error htransact).trans hcontent, .refl r db, hnothing⟩
      | ok count =>
        have hresolved : (resolved.map (·.target)).Nodup := by rwa [htargets]
        obtain ⟨count', after, happly, hkeep, hrow⟩ := applyResolved_row hr hresolved 0 db
        have hstore := Faithful.transact_ok htransact
        rw [hcontent, Store.transact, happly] at hstore
        refine ⟨after, (congrArg Prod.snd hstore).symm, hkeep, fun model hmodel key => ?_⟩
        rw [hrow model hmodel key]
        constructor
        · cases db.row? model key with
          | none => exact .none
          | some row =>
            refine .some (relabeled_patched row fun e he => ?_)
            cases hfind : resolved.find? (·.target = model) with
            | none => simp [hfind] at he
            | some job =>
              rw [hfind] at he
              exact name_of_mem_labelsOf he
        · intro hfree
          have hnone : resolved.find? (·.target = model) = none := by
            refine List.find?_eq_none.2 fun x hx hsame => hfree ?_
            rw [← htargets]
            exact List.mem_map.2 ⟨x, hx, of_decide_eq_true hsame⟩
          rw [hnone]
          simp

/-! ## The last item -/

/-- The row that the last item of an identifier leaves; without an item, the one that was
there. -/
def lastRow (m : Merger) (groups : List ModelGroup) (db : Database) (model key : String) :
    Option Row :=
  ((itemsOf groups).filter (Item.isFor model key)).getLast?.elim (db.row? model key) m.rowOf

theorem firstPass_lastRow (hpolicy : m.policy = .arrivalOrder) (hkeeps : m.KeepsKeys)
    (hr : r.Separate) {settled : Database} (h : m.firstPass groups r db = .ok (stats, settled))
    (hmodel : model ∈ r.modelNames) (key : String) :
    settled.row? model key = m.lastRow groups db model key := by
  rw [(applyItems_row hkeeps hr h).2 model hmodel key, foldl_rowAfter_arrivalOrder hpolicy,
    lastRow]
  cases ((itemsOf groups).filter (Item.isFor model key)).getLast? <;> rfl

/-- **Last arrival wins.** The first pass leaves the row of the last item of each identifier;
the second pass neither adds nor removes a row, and sets display fields of base models only.
What is not a row of a registered model stays as it was, and every item counts once. -/
theorem last_arrival_wins (hpolicy : m.policy = .arrivalOrder) (hkeeps : m.KeepsKeys)
    (hr : m.registry.Separate) {s s' : σ} (hregistry : (content s).registry = m.registry)
    (h : m.merge groups s = (.ok stats, s')) :
    ∃ db settled after, content s = .opened m.registry db
      ∧ (m.firstPass groups m.registry db).map Prod.snd = .ok settled
      ∧ content s' = .opened m.registry after
      ∧ (∀ model ∈ m.registry.modelNames, ∀ key,
        Option.Rel Row.Relabeled (m.lastRow groups db model key) (after.row? model key)
          ∧ (¬ IsBase m.registry model →
            after.row? model key = m.lastRow groups db model key)
          ∧ (after.row? model key).isSome = (settled.row? model key).isSome)
      ∧ Database.Keeps m.registry db after
      ∧ stats.upserted + stats.deleted = (itemsOf groups).length := by
  obtain ⟨-, first, s₁, htransact, hstats, hpass⟩ := merge_ok h
  obtain ⟨r, db, settled, hs, hfirst, hsettled⟩ :=
    Store.transact_ok (Faithful.transact_ok htransact)
  rw [hs] at hregistry
  cases hregistry
  obtain ⟨after, hafter, hkeep, hrow⟩ :=
    m.secondPass_relabels hr (targets_distinct m.registry groups) hsettled
  rw [hpass] at hafter
  have hsettledKeep := (applyItems_row hkeeps hr hfirst).1
  refine ⟨db, settled, after, hs, congrArg (Except.map Prod.snd) hfirst, hafter,
    fun model hmodel key => ?_, hsettledKeep.trans hkeep, ?_⟩
  · obtain ⟨hrel, hsame⟩ := hrow model hmodel key
    rw [← firstPass_lastRow hpolicy hkeeps hr hfirst hmodel key]
    refine ⟨hrel, fun hfree => hsame fun htarget => ?_, Row.Relabeled.isSome_eq hrel⟩
    obtain ⟨job, hjob, rfl⟩ := List.mem_map.1 htarget
    exact hfree (isBase_of_job hjob)
  · obtain ⟨hsum, hstale⟩ := applyItems_counts hfirst
    have hnone := hstale hpolicy
    rw [hstats]
    simp only [noStats] at hsum hnone ⊢
    omega

end Refusing

/-! ### A sticker that is renamed twice -/

/-- Two versions of a sticker, the older one last, its German name, and one that is gone. -/
def renamedSticker : List ModelGroup :=
  [⟨"Sticker", [Stickers.item (Stickers.sticker "s1" "Cat") 5 false,
      Stickers.item (Stickers.sticker "s1" "Dog") 2 false,
      Stickers.item (Stickers.sticker "s2" "Bird") 1 true]⟩,
    ⟨"StickerLocale", [Stickers.item (Stickers.overlay "l1" "s1" "Hund") 1 false]⟩]

theorem renamedSticker_lastWins :
    Stickers.merger.policy = .arrivalOrder ∧ Stickers.merger.KeepsKeys
      ∧ Stickers.registry.Separate
      ∧ ∃ stats after row, Stickers.merger.merge renamedSticker Stickers.store
            = (.ok stats, .opened Stickers.registry after)
          ∧ stats.upserted + stats.deleted = 4
          ∧ after.row? "Sticker" "s1" = some row ∧ row.version = 2
          ∧ after.row? "Sticker" "s2" = none := by
  have hkeeps : Stickers.merger.KeepsKeys := keepsKeys_none rfl
  refine ⟨rfl, hkeeps, Stickers.separate, ?_⟩
  obtain ⟨stats, s', hmerge⟩ :=
    ok_of_toBool (Stickers.merger.merge renamedSticker Stickers.store) (by decide +kernel)
  obtain ⟨db, settled, after, hdb, -, hafter, hrows, -, hcount⟩ :=
    last_arrival_wins rfl hkeeps Stickers.separate rfl hmerge
  cases hdb
  have hstore : s' = .opened Stickers.registry after := hafter
  subst hstore
  have hmem : "Sticker" ∈ Stickers.registry.modelNames := by decide
  have hfirst := (hrows "Sticker" hmem "s1").1
  have hsecond := (hrows "Sticker" hmem "s2").1
  have hdog : Stickers.merger.lastRow renamedSticker Stickers.content "Sticker" "s1"
      = some ⟨(Stickers.sticker "s1" "Dog").fields, 2⟩ := by decide +kernel
  have hgone : Stickers.merger.lastRow renamedSticker Stickers.content "Sticker" "s2" = none := by
    decide +kernel
  have hnone : (after.row? "Sticker" "s2").isSome = false := by
    rw [Row.Relabeled.isSome_eq hsecond, hgone]
    rfl
  rw [hdog] at hfirst
  generalize hfound : after.row? "Sticker" "s1" = found at hfirst
  cases hfirst with
  | some hrel =>
    exact ⟨stats, after, _, hmerge, hcount.trans (by decide +kernel), hfound, hrel.version,
      by simpa using hnone⟩

/-! ### A sticker of a small scale -/

/-- The scale of a sticker that no item is for changes when the sticker gets its German name. -/
theorem smallScale_rewritten :
    Stickers.merger.policy = .arrivalOrder ∧ Stickers.merger.KeepsKeys
      ∧ Stickers.registry.Separate
      ∧ (itemsOf Stickers.germanName).filter (Item.isFor "Sticker" "s1") = []
      ∧ ∃ stats s', Stickers.merger.merge Stickers.germanName Stickers.scaledStore = (.ok stats, s')
        ∧ Stickers.scaleIn s' ≠ Stickers.scaleIn Stickers.scaledStore := by
  refine ⟨rfl, keepsKeys_none rfl, Stickers.separate, by decide +kernel, ?_⟩
  have hscale : Stickers.scaleIn (Stickers.merger.merge Stickers.germanName Stickers.scaledStore).2
      ≠ Stickers.scaleIn Stickers.scaledStore := by decide +kernel
  obtain ⟨stats, s', hmerge⟩ :=
    ok_of_toBool (Stickers.merger.merge Stickers.germanName Stickers.scaledStore) (by decide +kernel)
  rw [hmerge] at hscale
  exact ⟨stats, s', hmerge, hscale⟩

end Merger

end Replica
