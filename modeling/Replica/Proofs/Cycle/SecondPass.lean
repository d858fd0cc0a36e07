/-
Replica.Proofs.Cycle.SecondPass — what the second pass of a merge does to each row.

For each overlay model the pass has a list of candidates: the live overlays of the merge in
the order of their arrival, then the stored ones. A record gets the display fields of one of
them (`labelsOf`): of the candidates that point at it the first, when candidates that repeat
an identifier are left out. No two jobs are for one model (`targets_distinct`), so a row after
the pass is the row before it, written again as its text is read with the display fields set
that the job for its model has (`secondPass_row`). A row that gets no field, or that cannot be
read, stays as it is; no row appears or disappears.

Finding the candidates changes nothing, and what is found depends on the rows of the overlay
model alone (`candidates_congr`).
-/
import Replica.Proofs.Cycle.FirstPass
import Replica.Proofs.Schema.Overlays
import Replica.Proofs.Store.Transactions

namespace Replica

namespace Merger

variable {m : Merger} {r : Registry} {db db' : Database}

/-! ## The overlay of a record -/

/-- The overlays of a list whose identifier was not met before. -/
def unmet (seen : List String) : List Record → List Record
  | [] => []
  | x :: rest => if seen.contains x.id then unmet seen rest else x :: unmet (x.id :: seen) rest

/-- The display fields of the first overlay in a list that points at a record. -/
def firstLabels (overlays : List Record) (base : String) : List (String × Json) :=
  (overlays.find? (fun x => x.materialId? = some base)).elim [] patchOf

/-- The display fields that a record gets. -/
def labelsOf (candidates : List Record) (base : String) : List (String × Json) :=
  firstLabels (unmet [] candidates) base

/-- Of the candidates with its identifier, an overlay that is kept is the first. -/
theorem find?_of_mem_unmet {seen : List String} {candidates : List Record} {x : Record}
    (h : x ∈ unmet seen candidates) :
    x.id ∉ seen ∧ candidates.find? (·.id = x.id) = some x := by
  induction candidates generalizing seen with
  | nil => simp [unmet] at h
  | cons y rest ih =>
    rw [unmet] at h
    split at h
    · rename_i hseen
      obtain ⟨hnew, hfind⟩ := ih h
      have hne : y.id ≠ x.id := fun e => hnew (e ▸ by simpa using hseen)
      exact ⟨hnew, by simpa [hne] using hfind⟩
    · rename_i hseen
      rcases List.mem_cons.1 h with rfl | h
      · exact ⟨by simpa using hseen, by simp⟩
      · obtain ⟨hnew, hfind⟩ := ih h
        obtain ⟨hne, hnew⟩ := not_or.1 fun e => hnew (List.mem_cons.2 e)
        exact ⟨hnew, by simpa [Ne.symm hne] using hfind⟩

/-- The display fields of a record are those of one of the candidates that point at it. -/
theorem labelsOf_cases (candidates : List Record) (base : String) :
    labelsOf candidates base = []
      ∨ ∃ x, candidates.find? (·.id = x.id) = some x ∧ x.materialId? = some base
        ∧ labelsOf candidates base = patchOf x := by
  unfold labelsOf firstLabels
  cases hfind : (unmet [] candidates).find? (fun x => x.materialId? = some base) with
  | none => exact .inl rfl
  | some x =>
    exact .inr ⟨x, (find?_of_mem_unmet (List.mem_of_find?_eq_some hfind)).2,
      by simpa using List.find?_some hfind, rfl⟩

/-- Display fields are texts and integers, which are read as they were. -/
theorem reread_of_mem_patchOf {x : Record} {e : String × Json} (h : e ∈ patchOf x) :
    e.2.reread = e.2 := by
  rcases List.mem_append.1 h with h | h <;>
    obtain ⟨value, -, rfl⟩ := Option.map_eq_some_iff.1 (Option.mem_toList.1 h) <;> rfl

theorem reread_of_mem_labelsOf {candidates : List Record} {base : String} {e : String × Json}
    (h : e ∈ labelsOf candidates base) : e.2.reread = e.2 := by
  rcases labelsOf_cases candidates base with hnone | ⟨x, -, -, hx⟩
  · simp [hnone] at h
  · exact reread_of_mem_patchOf (hx ▸ h)

theorem firstLabels_cons_self {x : Record} {base : String} (h : x.materialId? = some base)
    (rest : List Record) : firstLabels (x :: rest) base = patchOf x := by
  simp [firstLabels, h]

theorem firstLabels_cons_other {x : Record} {base : String} (h : x.materialId? ≠ some base)
    (rest : List Record) : firstLabels (x :: rest) base = firstLabels rest base := by
  simp [firstLabels, h]

/-! ## One job -/

/-- The row under an identifier once overlays were applied to a model: records that were met
before and records of other models keep theirs. -/
def labeledRow (target : String) (overlays : List Record) (seenBases : List String)
    (model key : String) (row : Option Row) : Option Row :=
  if target = model ∧ key ∉ seenBases then row.map (·.patched (firstLabels overlays key)) else row

theorem labeledRow_self {target model key : String} {overlays : List Record}
    {seenBases : List String} (row : Option Row) (hseen : key ∈ seenBases) :
    labeledRow target overlays seenBases model key row = row :=
  if_neg fun h => h.2 hseen

theorem labeledRow_congr {target model key : String} {overlays overlays' : List Record}
    {seenBases seenBases' : List String} (row : Option Row)
    (hlabels : key ∉ seenBases → firstLabels overlays key = firstLabels overlays' key)
    (hseen : key ∈ seenBases ↔ key ∈ seenBases') :
    labeledRow target overlays seenBases model key row
      = labeledRow target overlays' seenBases' model key row := by
  by_cases h : key ∈ seenBases
  · rw [labeledRow_self row h, labeledRow_self row (hseen.1 h)]
  · simp only [labeledRow, h, mt hseen.2 h, hlabels h]

/-- Overlays were applied to a model, and nothing else was done. -/
structure Labeled (r : Registry) (target : String) (overlays : List Record)
    (seenBases : List String) (before after : Database) : Prop where
  keeps : Database.Keeps r before after
  row : ∀ model ∈ r.modelNames, ∀ key, after.row? model key
    = labeledRow target overlays seenBases model key (before.row? model key)

variable {target base : String} {x : Record} {overlays : List Record} {seenBases : List String}
  {next after : Database}

/-- The rows of other models stay. -/
theorem Labeled.row_other (h : Labeled r target overlays seenBases db after) {model : String}
    (hmodel : model ∈ r.modelNames) (hother : target ≠ model) (key : String) :
    after.row? model key = db.row? model key := by
  rw [h.row model hmodel key, labeledRow, if_neg fun hsame => hother hsame.1]

/-- An overlay that points at no record without an overlay makes no difference. -/
theorem Labeled.skip (hskip : ∀ key ∉ seenBases, x.materialId? ≠ some key)
    (h : Labeled r target overlays seenBases db after) :
    Labeled r target (x :: overlays) seenBases db after := by
  refine ⟨h.keeps, fun model hmodel key => ?_⟩
  rw [h.row model hmodel key]
  exact labeledRow_congr _ (fun hnew => (firstLabels_cons_other (hskip key hnew) _).symm) Iff.rfl

/-- What overlays do, given what the first of them and then the others do. -/
theorem Labeled.step (hbase : x.materialId? = some base) (hnew : base ∉ seenBases)
    (hstep : Database.Writes r db next target base
      ((db.row? target base).map (·.patched (patchOf x))))
    (h : Labeled r target overlays (base :: seenBases) next after) :
    Labeled r target (x :: overlays) seenBases db after := by
  refine ⟨hstep.keeps.trans h.keeps, fun model hmodel key => ?_⟩
  rw [h.row model hmodel key, hstep.row model hmodel key]
  by_cases hkey : base = key
  · subst hkey
    rw [labeledRow_self _ (List.mem_cons_self ..), labeledRow, firstLabels_cons_self hbase]
    by_cases hmodel : target = model
    · rw [if_pos ⟨hmodel, rfl⟩, if_pos ⟨hmodel, hnew⟩, hmodel]
    · rw [if_neg fun h => hmodel h.1, if_neg fun h => hmodel h.1]
  · rw [if_neg fun h => hkey h.2]
    refine labeledRow_congr _ (fun _ => ?_) (by simp [Ne.symm hkey])
    exact (firstLabels_cons_other (by simpa [hbase] using hkey) overlays).symm

/-- What applying overlays to a model amounts to, one after the other: an overlay is passed over
if it points at no record without an overlay, and sets its display fields otherwise. It counts
if its record has a row that can be written again and it has a field to set there. -/
inductive Applies (r : Registry) (target : String) :
    List Record → List String → Nat → Database → Nat → Database → Prop
  | done {seenBases : List String} {count : Nat} {db : Database} :
    Applies r target [] seenBases count db count db
  | passed {x : Record} {overlays : List Record} {seenBases : List String} {count count' : Nat}
    {db after : Database} (hpassed : ∀ key ∉ seenBases, x.materialId? ≠ some key)
    (h : Applies r target overlays seenBases count db count' after) :
    Applies r target (x :: overlays) seenBases count db count' after
  | set {x : Record} {base : String} {overlays : List Record} {seenBases : List String}
    {count counted count' : Nat} {db next after : Database} (hbase : x.materialId? = some base)
    (hnew : base ∉ seenBases)
    (hstep : Database.Writes r db next target base
      ((db.row? target base).map (·.patched (patchOf x))))
    (hcount : target ∈ r.modelNames → counted
      = count + if db.canPatch target base = true ∧ patchOf x ≠ [] then 1 else 0)
    (h : Applies r target overlays (base :: seenBases) counted next count' after) :
    Applies r target (x :: overlays) seenBases count db count' after

theorem applyOverlays_applies (hr : r.Separate) (target : String) (candidates : List Record)
    (seenOverlays seenBases : List String) (count : Nat) (db : Database) :
    Applies r target (unmet seenOverlays candidates) seenBases count db
      (applyOverlays target r candidates seenOverlays seenBases count db).1
      (applyOverlays target r candidates seenOverlays seenBases count db).2 := by
  induction candidates generalizing seenOverlays seenBases count db with
  | nil => exact .done
  | cons x rest ih =>
    rw [applyOverlays, unmet]
    split
    · exact ih ..
    · dsimp only
      split
      · -- It points at no record.
        rename_i hnone
        exact .passed (fun key _ => by simp [hnone]) (ih ..)
      · rename_i base hbase
        split
        · -- The record has its overlay already.
          rename_i hseen
          refine .passed (fun key hnew hkey => hnew ?_) (ih ..)
          cases hbase.symm.trans hkey
          simpa using hseen
        · rename_i hnew
          have hnew : base ∉ seenBases := by simpa using hnew
          split
          · rename_i hempty
            refine .set hbase hnew ?_ (fun _ => by simp [hempty]) (ih ..)
            simpa [hempty] using Database.Writes.nothing r db target base
          · rename_i hpatch
            have hpatch : patchOf x ≠ [] := fun hempty => hpatch hempty
            split
            · rename_i next hupdate
              obtain ⟨hrow, hwrites⟩ := Database.writes_updateFields hr hpatch hupdate
              exact .set hbase hnew hwrites (fun _ => by rw [if_pos ⟨hrow.symm, hpatch⟩]) (ih ..)
            · rename_i next hupdate
              obtain ⟨hrow, hwrites⟩ := Database.writes_updateFields hr hpatch hupdate
              exact .set hbase hnew hwrites (fun _ => by simp [← hrow]) (ih ..)
            · rename_i hupdate
              obtain ⟨hrow, hwrites⟩ := Database.writes_of_updateFields_error hr hupdate
              exact .set hbase hnew hwrites (fun htarget => by simp [hrow htarget]) (ih ..)

/-- A row is given the display fields of its overlay, when it is there. -/
theorem Applies.labeled {count count' : Nat}
    (h : Applies r target overlays seenBases count db count' after) :
    Labeled r target overlays seenBases db after := by
  induction h with
  | done =>
    refine ⟨.refl r _, fun model _ key => ?_⟩
    rw [labeledRow]
    split
    · simp [firstLabels]
    · rfl
  | passed hpassed _ ih => exact ih.skip hpassed
  | set hbase hnew hstep _ _ ih => exact ih.step hbase hnew hstep

/-- The records that overlays set a field of, each once. -/
structure SetBy (db : Database) (target : String) (overlays : List Record)
    (seenBases keys : List String) : Prop where
  once : keys.Nodup
  mem : ∀ key, key ∈ keys
    ↔ key ∉ seenBases ∧ db.canPatch target key = true ∧ firstLabels overlays key ≠ []

theorem SetBy.passed {keys : List String} (hpassed : ∀ key ∉ seenBases, x.materialId? ≠ some key)
    (h : SetBy db target overlays seenBases keys) :
    SetBy db target (x :: overlays) seenBases keys := by
  refine ⟨h.once, fun key => (h.mem key).trans (and_congr_right fun hnew => ?_)⟩
  rw [firstLabels_cons_other (hpassed key hnew)]

/-- An overlay that comes before others adds its own record, if it sets a field of it. -/
theorem SetBy.set {keys : List String} (hbase : x.materialId? = some base)
    (hnew : base ∉ seenBases) (h : SetBy db target overlays (base :: seenBases) keys) :
    SetBy db target (x :: overlays) seenBases
      (if db.canPatch target base = true ∧ patchOf x ≠ [] then base :: keys else keys) := by
  have hout : base ∉ keys := fun hmem => ((h.mem base).1 hmem).1 (List.mem_cons_self ..)
  have hmem (key : String) (hne : key ≠ base) : key ∈ keys ↔ key ∉ seenBases
      ∧ db.canPatch target key = true ∧ firstLabels (x :: overlays) key ≠ [] := by
    rw [h.mem key, List.mem_cons, not_or, and_iff_right hne,
      firstLabels_cons_other (by simpa [hbase] using Ne.symm hne)]
  split
  · rename_i hset
    refine ⟨List.nodup_cons.2 ⟨hout, h.once⟩, fun key => ?_⟩
    by_cases hkey : key = base
    · subst hkey
      simp [hnew, hset, firstLabels_cons_self hbase]
    · rw [List.mem_cons, or_iff_right hkey, hmem key hkey]
  · rename_i hset
    refine ⟨h.once, fun key => ?_⟩
    by_cases hkey : key = base
    · subst hkey
      rw [firstLabels_cons_self hbase]
      exact iff_of_false hout fun hall => hset hall.2
    · exact hmem key hkey

/-- Only the records that are still to be met count. -/
theorem SetBy.congr {keys : List String}
    (hrow : ∀ key ∉ seenBases, next.row? target key = db.row? target key)
    (h : SetBy next target overlays seenBases keys) : SetBy db target overlays seenBases keys := by
  refine ⟨h.once, fun key => (h.mem key).trans (and_congr_right fun hnew => ?_)⟩
  rw [Database.canPatch, Database.canPatch, hrow key hnew]

/-- The count goes up by one for each record that gets a field. -/
theorem Applies.counted {count count' : Nat} (htarget : target ∈ r.modelNames)
    (h : Applies r target overlays seenBases count db count' after) :
    ∃ keys, SetBy db target overlays seenBases keys ∧ count' = count + keys.length := by
  induction h with
  | done => exact ⟨[], ⟨List.nodup_nil, by simp [firstLabels]⟩, rfl⟩
  | passed hpassed _ ih =>
    obtain ⟨keys, hkeys, hcount⟩ := ih
    exact ⟨keys, hkeys.passed hpassed, hcount⟩
  | @set x base overlays seenBases count counted count' db next after hbase hnew hstep hcounted _ ih =>
    obtain ⟨keys, hkeys, hcount⟩ := ih
    have hrow : ∀ key ∉ base :: seenBases, next.row? target key = db.row? target key := by
      intro key hkey
      rw [hstep.row target htarget key, if_neg]
      rintro ⟨-, rfl⟩
      exact hkey (List.mem_cons_self ..)
    refine ⟨_, (hkeys.congr hrow).set hbase hnew, ?_⟩
    rw [hcount, hcounted htarget]
    split
    · rw [List.length_cons]
      omega
    · rfl

theorem applyOverlays_labeled (hr : r.Separate) (target : String) (candidates : List Record)
    (seenOverlays seenBases : List String) (count : Nat) (db : Database) :
    Labeled r target (unmet seenOverlays candidates) seenBases db
      (applyOverlays target r candidates seenOverlays seenBases count db).2 :=
  (applyOverlays_applies hr ..).labeled

/-! ## Jobs -/

/-- Some registered overlay that declares the identifier of its record is laid over a model. -/
def IsBase (r : Registry) (model : String) : Prop :=
  ∃ overlay ∈ r.models, overlay.capabilities.materialId = true
    ∧ (r.overlayTarget? overlay.name).map (·.name) = some model

instance (r : Registry) (model : String) : Decidable (IsBase r model) :=
  inferInstanceAs (Decidable (∃ overlay ∈ r.models, _))

variable {groups : List ModelGroup} {job : OverlayJob}

theorem jobOf?_eq_some {overlay : ModelSchema} (h : jobOf? r groups overlay = some job) :
    ∃ target, r.overlayTarget? overlay.name = some target
      ∧ overlay.capabilities.materialId = true ∧ job = jobFor groups overlay.name target.name := by
  unfold jobOf? at h
  split at h
  · simp at h
  · rename_i target htarget
    split at h
    · rename_i hmaterial
      dsimp only at h
      split at h
      · simp at h
      · cases h
        exact ⟨target, htarget, hmaterial, rfl⟩
    · simp at h

theorem isBase_of_job (h : job ∈ jobs r groups) : IsBase r job.target := by
  obtain ⟨overlay, hmem, hof⟩ := List.mem_filterMap.1 h
  obtain ⟨target, htarget, hmaterial, rfl⟩ := jobOf?_eq_some hof
  exact ⟨overlay, hmem, hmaterial, by rw [htarget]; rfl⟩

/-- No two jobs are for one model. -/
theorem targets_distinct (r : Registry) (groups : List ModelGroup) :
    ((jobs r groups).map (·.target)).Nodup := by
  refine List.pairwise_map.2 (List.Pairwise.filterMap _ ?_ (List.pairwise_map.1 r.distinct))
  intro overlay other hne job hjob job' hjob' hsame
  obtain ⟨target, htarget, -, rfl⟩ := jobOf?_eq_some hjob
  obtain ⟨target', htarget', -, rfl⟩ := jobOf?_eq_some hjob'
  refine hne ?_
  rw [Registry.name_of_overlayTarget? htarget, Registry.name_of_overlayTarget? htarget',
    show target.name = target'.name from hsame]

/-! ## All jobs -/

/-- No other job is for the model of a job. -/
theorem find?_target_eq_none {job : Resolved} {rest : List Resolved}
    (hnew : job.target ∉ rest.map (·.target)) : rest.find? (·.target = job.target) = none :=
  List.find?_eq_none.2 fun other hin hsame =>
    hnew (List.mem_map.2 ⟨other, hin, of_decide_eq_true hsame⟩)

/-- Each record is given the display fields that the job for its model has for it. -/
theorem applyResolved_row (hr : r.Separate) {resolved : List Resolved}
    (hdistinct : (resolved.map (·.target)).Nodup) (count : Nat) (db : Database) :
    ∃ count' db', applyResolved resolved count r db = .ok (count', db')
      ∧ Database.Keeps r db db' ∧ ∀ model ∈ r.modelNames, ∀ key,
        db'.row? model key = (db.row? model key).map (·.patched
          ((resolved.find? (·.target = model)).elim [] (labelsOf ·.candidates key))) := by
  induction resolved generalizing count db with
  | nil => exact ⟨count, db, rfl, .refl r db, by simp⟩
  | cons job rest ih =>
    obtain ⟨hnew, hrest⟩ := List.nodup_cons.1 hdistinct
    obtain ⟨hkeep, hrow⟩ := applyOverlays_labeled hr job.target job.candidates [] [] count db
    obtain ⟨count', after, happly, hkeep', hrow'⟩ :=
      ih hrest (applyOverlays job.target r job.candidates [] [] count db).1
        (applyOverlays job.target r job.candidates [] [] count db).2
    refine ⟨count', after, happly, hkeep.trans hkeep', fun model hmodel key => ?_⟩
    rw [hrow' model hmodel key, hrow model hmodel key, labeledRow, List.find?_cons]
    by_cases htarget : job.target = model
    · subst htarget
      simp [find?_target_eq_none hnew, labelsOf, Function.comp_def]
    · simp [htarget]

/-- The rows that jobs set a field of, each once. -/
structure SetByJobs (db : Database) (resolved : List Resolved) (set : List (String × String)) :
    Prop where
  once : set.Nodup
  mem : ∀ model key, (model, key) ∈ set ↔ db.canPatch model key = true
    ∧ (resolved.find? (·.target = model)).elim [] (labelsOf ·.candidates key) ≠ []

/-- A job that comes before others adds the rows of its model. -/
theorem SetByJobs.cons {job : Resolved} {rest : List Resolved} {keys : List String}
    {set : List (String × String)} (hnew : job.target ∉ rest.map (·.target))
    (hkeys : SetBy db job.target (unmet [] job.candidates) [] keys)
    (hrow : ∀ other ∈ rest, ∀ key, next.row? other.target key = db.row? other.target key)
    (h : SetByJobs next rest set) :
    SetByJobs db (job :: rest) (keys.map (job.target, ·) ++ set) := by
  have hother (key : String) : (job.target, key) ∉ set := by
    rw [h.mem, find?_target_eq_none hnew]
    exact fun hset => hset.2 rfl
  constructor
  case once =>
    refine List.nodup_append.2 ⟨hkeys.once.map fun _ _ h => (Prod.ext_iff.1 h).2, h.once, ?_⟩
    rintro e he _ hset rfl
    obtain ⟨key, -, rfl⟩ := List.mem_map.1 he
    exact hother key hset
  case mem =>
    intro model key
    rw [List.mem_append, List.find?_cons]
    by_cases hmodel : job.target = model
    · subst hmodel
      rw [or_iff_left (hother key)]
      simpa [labelsOf] using hkeys.mem key
    · rw [or_iff_right (by simp [hmodel]), h.mem model key]
      simp only [hmodel, decide_false]
      refine and_congr_left fun hset => ?_
      cases hfind : rest.find? (·.target = model) with
      | none => exact absurd (by rw [hfind]; rfl) hset
      | some other =>
        have htarget : other.target = model := by simpa using List.find?_some hfind
        rw [← htarget, Database.canPatch, Database.canPatch,
          hrow other (List.mem_of_find?_eq_some hfind) key]

/-- The count of all jobs: the rows of their models that the job sets a field of, each once. -/
theorem applyResolved_counted (hr : r.Separate) {resolved : List Resolved}
    (hdistinct : (resolved.map (·.target)).Nodup)
    (hregistered : ∀ job ∈ resolved, job.target ∈ r.modelNames) (count : Nat) (db : Database) :
    ∃ after set, applyResolved resolved count r db = .ok (count + set.length, after)
      ∧ SetByJobs db resolved set := by
  induction resolved generalizing count db with
  | nil => exact ⟨db, [], rfl, List.nodup_nil, by simp⟩
  | cons job rest ih =>
    obtain ⟨hnew, hrest⟩ := List.nodup_cons.1 hdistinct
    obtain ⟨hjob, hothers⟩ := List.forall_mem_cons.1 hregistered
    have happlies := applyOverlays_applies hr job.target job.candidates [] [] count db
    obtain ⟨keys, hkeys, hcount⟩ := happlies.counted hjob
    obtain ⟨after, set, happly, hset⟩ :=
      ih hrest hothers (applyOverlays job.target r job.candidates [] [] count db).1
        (applyOverlays job.target r job.candidates [] [] count db).2
    refine ⟨after, keys.map (job.target, ·) ++ set, ?_, hset.cons hnew hkeys fun other hin key =>
      happlies.labeled.row_other (hothers other hin)
        (fun hsame => hnew (List.mem_map.2 ⟨other, hin, hsame.symm⟩)) key⟩
    show applyResolved rest (applyOverlays job.target r job.candidates [] [] count db).1 r
      (applyOverlays job.target r job.candidates [] [] count db).2 = _
    rw [happly, hcount, List.length_append, List.length_map, Nat.add_assoc]

/-! ## Look-ups change nothing -/

section Refusing

variable {σ : Type} [LocalStore σ] [Faithful σ]

open Transactional (content)

theorem lookUp_content (model : String) (p : List String → Predicate)
    (pieces : List (List String)) (s : σ) :
    content (lookUp model p pieces s).2 = content s := by
  induction pieces generalizing s with
  | nil => rfl
  | cons ids more ih =>
    have hquery := Faithful.query_content model (p ids) s
    rw [lookUp]
    generalize LocalStore.query model (p ids) s = answer at hquery ⊢
    obtain ⟨found | found, s₁⟩ := answer
    · exact hquery
    · have hmore := ih s₁
      dsimp only
      generalize lookUp model p more s₁ = others at hmore ⊢
      obtain ⟨rest | rest, s₂⟩ := others <;> exact hmore.trans hquery

theorem storedOverlays_content (m : Merger) (job : OverlayJob) (s : σ) :
    content (m.storedOverlays job s).2 = content s := by
  rw [storedOverlays]
  split
  · rfl
  · rename_i caps _
    have hfound := lookUp_content job.overlay (overlaysOf caps m.locale)
      (pieces lookupSize job.baseIds.length job.baseIds) s
    generalize lookUp job.overlay _ _ s = answer at hfound ⊢
    obtain ⟨found | found, s'⟩ := answer <;> exact hfound

/-- Every job is resolved, with whatever candidates could be read. -/
theorem resolve_content (m : Merger) (jobs : List OverlayJob) (s : σ) :
    content (m.resolve jobs s).2 = content s
      ∧ (m.resolve jobs s).1.map (·.target) = jobs.map (·.target) := by
  induction jobs generalizing s with
  | nil => exact ⟨rfl, rfl⟩
  | cons job rest ih =>
    obtain ⟨hcontent, htargets⟩ := ih (m.storedOverlays job s).2
    refine ⟨hcontent.trans (storedOverlays_content m job s), ?_⟩
    exact congrArg (job.target :: ·) htargets

end Refusing

/-! ## Candidates -/

theorem lookUp_cons (model : String) (p : List String → Predicate) (s : Store)
    (ids : List String) (more : List (List String)) :
    (lookUp model p (ids :: more) s).1
      = (do return (← s.query model (p ids)) ++ (← (lookUp model p more s).1)) := by
  simp only [lookUp, LocalStore.query, bind, Except.bind, pure, Except.pure]
  cases s.query model (p ids) with
  | error e => rfl
  | ok found =>
    dsimp only
    split <;> (rename_i hmore; rw [hmore])

/-- What is looked up depends on what queries answer. -/
theorem lookUp_congr {model : String} {s s' : Store}
    (h : ∀ q, s'.query model q = s.query model q) (p : List String → Predicate)
    (pieces : List (List String)) :
    (lookUp model p pieces s').1 = (lookUp model p pieces s).1 := by
  induction pieces with
  | nil => rfl
  | cons ids more ih => rw [lookUp_cons, lookUp_cons, h, ih]

/-- Every record that is looked up is the answer to a query. -/
theorem mem_lookUp {model : String} {p : List String → Predicate} {s : Store}
    {pieces : List (List String)} {found : List Record} {x : Record}
    (h : (lookUp model p pieces s).1 = .ok found) (hx : x ∈ found) :
    ∃ q answer, s.query model q = .ok answer ∧ x ∈ answer := by
  induction pieces generalizing found with
  | nil =>
    cases h
    simp at hx
  | cons ids more ih =>
    rw [lookUp_cons] at h
    simp only [bind, Except.bind, pure, Except.pure] at h
    split at h
    · simp at h
    · rename_i first hquery
      split at h
      · simp at h
      · rename_i others hmore
        cases h
        rcases List.mem_append.1 hx with hx | hx
        · exact ⟨p ids, first, hquery, hx⟩
        · exact ih hmore hx

/-- The overlays that are read back are those of the look-ups, when all of these are
answered. -/
theorem storedOverlays_eq (m : Merger) (job : OverlayJob) (s : Store) :
    m.storedOverlays job s
      = (((m.registry.capabilities job.overlay).toOption.bind fun caps =>
          (lookUp job.overlay (overlaysOf caps m.locale)
            (pieces lookupSize job.baseIds.length job.baseIds) s).1.toOption).getD [], s) := by
  rw [storedOverlays]
  cases m.registry.capabilities job.overlay with
  | error e => rfl
  | ok caps =>
    have hstore : (lookUp job.overlay (overlaysOf caps m.locale)
        (pieces lookupSize job.baseIds.length job.baseIds) s).2 = s := lookUp_content _ _ _ s
    dsimp only [Except.toOption, Option.bind_some]
    generalize lookUp job.overlay _ _ s = found at hstore ⊢
    obtain ⟨answer, after⟩ := found
    cases hstore
    cases answer <;> rfl

/-- The overlays of a job, the ones that win first. -/
def candidates (m : Merger) (s : Store) (job : OverlayJob) : List Record :=
  job.fresh ++ (m.storedOverlays job s).1

/-- The jobs with what is found for them. -/
def found (m : Merger) (s : Store) (jobs : List OverlayJob) : List Resolved :=
  jobs.map fun job => ⟨job.target, m.candidates s job⟩

/-- Finding the candidates changes nothing. -/
theorem resolve_eq (m : Merger) (jobs : List OverlayJob) (s : Store) :
    m.resolve jobs s = (m.found s jobs, s) := by
  induction jobs with
  | nil => rfl
  | cons job rest ih =>
    have hstore : (m.storedOverlays job s).2 = s := storedOverlays_content m job s
    simp only [resolve, hstore, ih]
    rfl

/-- The rows of the overlay model are all that the candidates depend on. -/
theorem candidates_congr (m : Merger) (job : OverlayJob)
    (h : job.overlay ∈ r.modelNames → db'.rows job.overlay = db.rows job.overlay) :
    m.candidates (.opened r db') job = m.candidates (.opened r db) job := by
  have hquery : ∀ q, (Store.opened r db').query job.overlay q
      = (Store.opened r db).query job.overlay q := Database.query_congr h
  simp only [candidates, storedOverlays_eq, lookUp_congr hquery]

/-- An overlay that is read back shows a row of the overlay model. -/
theorem row_of_storedOverlay {job : OverlayJob} {x : Record}
    (h : x ∈ (m.storedOverlays job (Store.opened r db)).1) :
    x.model = job.overlay ∧ db.Shows x := by
  rw [storedOverlays_eq] at h
  cases hcaps : m.registry.capabilities job.overlay with
  | error e => simp [hcaps, Except.toOption] at h
  | ok caps =>
    cases hfound : (lookUp job.overlay (overlaysOf caps m.locale)
        (pieces lookupSize job.baseIds.length job.baseIds) (Store.opened r db)).1 with
    | error e => simp [hcaps, hfound, Except.toOption] at h
    | ok found =>
      obtain ⟨q, answer, hquery, hx⟩ :=
        mem_lookUp hfound (by simpa [hcaps, hfound, Except.toOption] using h)
      exact Database.row_of_query hquery hx

/-! ## The pass -/

/-- The display fields that the jobs have for a record. -/
def labels (m : Merger) (s : Store) (jobs : List OverlayJob) (model key : String) :
    List (String × Json) :=
  (jobs.find? (·.target = model)).elim [] fun job => labelsOf (m.candidates s job) key

theorem reread_of_mem_labels {s : Store} {jobs : List OverlayJob} {model key : String}
    {e : String × Json} (h : e ∈ m.labels s jobs model key) : e.2.reread = e.2 := by
  rw [labels] at h
  cases hfind : jobs.find? (·.target = model) with
  | none => simp [hfind] at h
  | some job =>
    rw [hfind] at h
    exact reread_of_mem_labelsOf h

theorem targets_found (m : Merger) (s : Store) (jobs : List OverlayJob) :
    (m.found s jobs).map (·.target) = jobs.map (·.target) := List.map_map

theorem labels_found (m : Merger) (s : Store) (jobs : List OverlayJob) (model key : String) :
    ((m.found s jobs).find? (·.target = model)).elim [] (labelsOf ·.candidates key)
      = m.labels s jobs model key := by
  rw [labels, found, List.find?_map, Option.elim_map]
  rfl

/-- **The second pass.** The rows stay, with the display fields set that the jobs have. -/
theorem secondPass_row (m : Merger) (hr : r.Separate) {jobs : List OverlayJob}
    (hdistinct : (jobs.map (·.target)).Nodup) (db : Database) :
    ∃ db', (m.secondPass jobs (Store.opened r db)).2 = .opened r db'
      ∧ Database.Keeps r db db' ∧ ∀ model ∈ r.modelNames, ∀ key,
        db'.row? model key
          = (db.row? model key).map (·.patched (m.labels (.opened r db) jobs model key)) := by
  rw [secondPass]
  split
  · rename_i hempty
    rw [List.isEmpty_iff.1 hempty]
    exact ⟨db, rfl, .refl r db, by simp [labels]⟩
  · have hfound : ((m.found (.opened r db) jobs).map (·.target)).Nodup :=
      (m.targets_found ..).symm ▸ hdistinct
    obtain ⟨count, db', happly, hkeep, hrow⟩ := applyResolved_row hr hfound 0 db
    simp only [resolve_eq, LocalStore.transact, Store.transact, happly]
    refine ⟨db', rfl, hkeep, fun model hmodel key => ?_⟩
    rw [hrow model hmodel key, labels_found]

/-- What the second pass counts: the rows that get a display field, each once. -/
theorem secondPass_counted (m : Merger) (hr : r.Separate) {jobs : List OverlayJob}
    (hdistinct : (jobs.map (·.target)).Nodup)
    (hregistered : ∀ job ∈ jobs, job.target ∈ r.modelNames) (db : Database) :
    ∃ set : List (String × String), set.Nodup
      ∧ (m.secondPass jobs (Store.opened r db)).1 = set.length
      ∧ ∀ model key, (model, key) ∈ set
        ↔ db.canPatch model key = true ∧ m.labels (.opened r db) jobs model key ≠ [] := by
  rw [secondPass]
  split
  · rename_i hempty
    rw [List.isEmpty_iff.1 hempty]
    exact ⟨[], List.nodup_nil, rfl, by simp [labels]⟩
  · have hfound : ((m.found (.opened r db) jobs).map (·.target)).Nodup :=
      (m.targets_found ..).symm ▸ hdistinct
    obtain ⟨after, set, happly, honce, hmem⟩ :=
      applyResolved_counted hr hfound (by simpa [found] using hregistered) 0 db
    simp only [resolve_eq, LocalStore.transact, Store.transact, happly]
    refine ⟨set, honce, Nat.zero_add _, fun model key => ?_⟩
    rw [hmem model key, labels_found]

end Merger

end Replica
