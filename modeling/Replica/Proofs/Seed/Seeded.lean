/-
Replica.Proofs.Seed.Seeded — when a fresh seeder has nothing to do.

The local database is seeded (`Seeded`) when it can be read and its stamp is the one of the
snapshot: the version that was given for it, or the stamp in its file. With the extra
version of the snapshot in the settings, a fresh seeder then finds the markers equal and
leaves the database and the settings alone (`run_seeded`).

`plan_inv` says what a run is going to do that did not fail to find out: nothing, because
the database is seeded already, or to put the snapshot in place.
-/
import Replica.Proofs.Seed.Databases
import Replica.Proofs.Seed.FileTasks
import Replica.Proofs.Settings.ExtraVersion
import Replica.Seed.Snapshot

namespace Replica

/-! ## Apart -/

/-- A snapshot and a local database do not get in each other's way: neither file is the other
or a companion of the other, the snapshot does not stand where it would be copied to, and
the path to the local database leads through no companion of the snapshot. -/
structure Snapshot.Apart (s : Snapshot) (databasePath : String) : Prop where
  ne : Path.place s.path ≠ Path.place databasePath
  companion : Path.place s.path ∉ Path.companions (Path.place databasePath)
  copied : Path.place s.path ≠ Path.sibling (Path.place databasePath) "bootstrap-tmp"
  through : ∀ q ∈ Path.stops "" (Path.parts databasePath),
    q ∉ Path.companions (Path.place s.path)

namespace Snapshot.Apart

variable {s : Snapshot} {databasePath : String}

theorem not_companion (h : s.Apart databasePath) :
    Path.place databasePath ∉ Path.companions (Path.place s.path) :=
  h.through _ (Path.along_mem_stops _ _)

end Snapshot.Apart

/-! ## Markers -/

/-- The stamp that a snapshot is meant to have: the one given for it, or else the one that
can be read from its file. -/
structure Files.Bundles (fs : Files) (s : Snapshot) (stamp : Option String) : Prop where
  given : ∀ version, s.schemaVersion = some version → stamp = some version
  stored : s.schemaVersion = none → fs.Stamped s.path stamp

theorem Files.Bundles.version_none {fs : Files} {s : Snapshot} (h : fs.Bundles s none) :
    s.schemaVersion = none := by
  cases hgiven : s.schemaVersion with
  | none => rfl
  | some version => exact absurd (h.given version hgiven) (by simp)

namespace Seeder

open Files

variable {fs fs' : Files} {s : Snapshot} {stamp : Option String}

theorem markersOf_apply (s : Snapshot) (fs : Files) : markersOf s fs =
    match s.schemaVersion with
    | some version => (.ok ⟨some version, s.extraVersion⟩, fs)
    | none =>
      match readStamp s.path fs with
      | (.ok stamp, fs') => (.ok ⟨stamp, s.extraVersion⟩, fs')
      | (.error e, fs') => (.error e, fs') := by
  unfold markersOf
  cases s.schemaVersion with
  | some version => rfl
  | none =>
    simp only [FileTask.bind_apply]
    rcases readStamp s.path fs with ⟨_ | stamp, fs'⟩ <;> rfl

/-- Reading the markers of a snapshot leaves the files alone, or puts its companions in
order. -/
theorem markersOf_files (hs : fs.Sound) (s : Snapshot) : (markersOf s fs).2 = fs ∨
    s.schemaVersion = none ∧ Tidies (Path.place s.path) fs (markersOf s fs).2 := by
  have htidies := tidies_readStamp hs s.path
  rw [markersOf_apply]
  cases hversion : s.schemaVersion with
  | some version => exact .inl rfl
  | none =>
    dsimp only
    refine .inr ⟨rfl, ?_⟩
    split
    · rename_i stamp fs' hread
      rw [hread] at htidies
      exact htidies
    · rename_i e fs' hread
      rw [hread] at htidies
      exact htidies

/-- The file of the snapshot itself stays. -/
theorem markersOf_sameAt (hs : fs.Sound) (s : Snapshot) :
    SameAt (Path.place s.path) fs (markersOf s fs).2 := by
  rcases markersOf_files hs s with hsame | ⟨-, ht⟩
  · rw [hsame]
    exact .refl _ _
  · exact ht.sameAt

theorem markersOf_ok (hs : fs.Sound) (h : fs.Bundles s stamp) :
    (markersOf s fs).1 = .ok ⟨stamp, s.extraVersion⟩ := by
  rw [markersOf_apply]
  cases hversion : s.schemaVersion with
  | some version => rw [h.given version hversion]
  | none =>
    have hread := readStamp_ok hs (h.stored hversion)
    dsimp only
    split
    · rename_i stamp' fs' heq
      rw [heq] at hread
      cases hread
      rfl
    · rename_i e fs' heq
      rw [heq] at hread
      cases hread

theorem markersOf_inv (hs : fs.Sound) {m : VersionMarkers} (h : markersOf s fs = (.ok m, fs')) :
    m.extraVersion = s.extraVersion ∧ fs.Bundles s m.schemaVersion := by
  rw [markersOf_apply] at h
  cases hversion : s.schemaVersion with
  | some version =>
    rw [hversion] at h
    cases h
    refine ⟨rfl, ⟨fun version' h' => ?_, fun h' => ?_⟩⟩
    · rw [hversion] at h'
      exact h'
    · rw [hversion] at h'
      cases h'
  | none =>
    rw [hversion] at h
    dsimp only at h
    split at h
    · rename_i stamp fs'' hread
      cases h
      refine ⟨rfl, ⟨fun version h' => ?_, fun _ => readStamp_inv hs hread⟩⟩
      rw [hversion] at h'
      cases h'
    · cases h

section Apply

variable {σ : Type} [SettingsStore σ]

theorem localMarkers_apply (b : Seeder) (settings : σ) (fs : Files) :
    b.localMarkers settings fs =
    match readStamp b.databasePath fs with
    | (.error e, fs') => (.error e, fs')
    | (.ok stamp, fs') =>
      match KeyStore.extraVersion settings with
      | .ok extra => (.ok ⟨stamp, extra⟩, fs')
      | .error e => (.error e, fs') := by
  unfold localMarkers
  simp only [FileTask.bind_apply]
  rcases readStamp b.databasePath fs with ⟨_ | stamp, fs'⟩
  · rfl
  · dsimp only
    cases KeyStore.extraVersion settings <;> rfl

/-- The second half of a plan: the snapshot is put in place, if it is there. -/
def planReplace (b : Seeder) (s : Snapshot) : FileTask (List SeedStep × SeedOutcome) := fun fs =>
  match markersOf s fs with
  | (.error e, fs') => (.error e, fs')
  | (.ok m, fs') =>
    if fs'.exists? s.path then (.ok (b.replaceSteps s m, .replaced m s.updatedAt), fs')
    else (.error (.bootstrap (.snapshotMissing s.path)), fs')

theorem planReplace_apply (b : Seeder) (s : Snapshot) (fs : Files) : (do
      let markers ← markersOf s
      if !(← get).exists? s.path then throw (.bootstrap (.snapshotMissing s.path))
      return (b.replaceSteps s markers, .replaced markers s.updatedAt) :
        FileTask (List SeedStep × SeedOutcome)) fs = planReplace b s fs := by
  rw [planReplace]
  simp only [FileTask.bind_apply]
  rcases markersOf s fs with ⟨_ | m, fs'⟩
  · rfl
  · simp only [FileTask.get_apply]
    by_cases h : fs'.exists? s.path = true <;> simp [h]

theorem needsReplace_apply (d v : String) (s : Snapshot) (settings : σ) (fs : Files) :
    (fresh d v (some s)).needsReplace settings fs =
    match markersOf s fs with
    | (.error e, fs₁) => (.error e, fs₁)
    | (.ok bundled, fs₁) =>
      if fs₁.exists? d then
        match (fresh d v (some s)).localMarkers settings fs₁ with
        | (.error e, fs₂) => (.error e, fs₂)
        | (.ok m, fs₂) => (.ok (decide (m ≠ bundled)), fs₂)
      else (.ok true, fs₁) := by
  have hsnapshot : (fresh d v (some s)).snapshot = some s := rfl
  have hpath : (fresh d v (some s)).databasePath = d := rfl
  unfold needsReplace snapshotMarkers
  simp only [hsnapshot, hpath, FileTask.bind_apply]
  rcases markersOf s fs with ⟨_ | bundled, fs₁⟩
  · rfl
  · simp only [FileTask.pure_apply, FileTask.bind_apply, FileTask.get_apply]
    by_cases h : fs₁.exists? d = true
    · simp only [h, Bool.not_true, Bool.false_eq_true, if_false, if_true, FileTask.bind_apply]
      rcases (fresh d v (some s)).localMarkers settings fs₁ with ⟨_ | m, fs₂⟩ <;> rfl
    · simp [h]

/-- What a run is going to do: nothing if the markers agree, or else what it takes to put the
snapshot in place. -/
theorem plan_apply (d v : String) (s : Snapshot) (settings : σ) (fs : Files) :
    (fresh d v (some s)).plan settings fs =
    match (fresh d v (some s)).needsReplace settings fs with
    | (.error e, fs') => (.error e, fs')
    | (.ok false, fs') => (.ok ([], .noAction), fs')
    | (.ok true, fs') => planReplace (fresh d v (some s)) s fs' := by
  have hsnapshot : (fresh d v (some s)).snapshot = some s := rfl
  have hran : (fresh d v (some s)).ran = false := rfl
  unfold plan
  simp only [hsnapshot, hran, Bool.false_eq_true, if_false, FileTask.bind_apply]
  rcases (fresh d v (some s)).needsReplace settings fs with ⟨_ | needed, fs'⟩
  · rfl
  · cases needed with
    | false => rfl
    | true => exact planReplace_apply (fresh d v (some s)) s fs'

/-- Reading the local markers puts companions of the local database in order at most. -/
theorem tidies_localMarkers (hs : fs.Sound) (b : Seeder) (settings : σ) :
    Tidies (Path.place b.databasePath) fs (b.localMarkers settings fs).2 := by
  have ht := tidies_readStamp hs b.databasePath
  rw [localMarkers_apply]
  split
  · rename_i e fs' hread
    rw [hread] at ht
    exact ht
  · rename_i stamp fs' hread
    rw [hread] at ht
    split <;> exact ht

end Apply

end Seeder

/-! ## Seeded databases -/

namespace Files

/-- The local database is there, can be read, and has the stamp of the snapshot. -/
structure Seeded (fs : Files) (databasePath : String) (s : Snapshot) (stamp : Option String) :
    Prop where
  sound : fs.Sound
  present : fs.exists? databasePath = true
  stamped : fs.Stamped databasePath stamp
  bundles : fs.Bundles s stamp

variable {fs fs' : Files} {d : String} {s : Snapshot} {stamp : Option String}

/-- The database that was seeded. -/
theorem Seeded.exists_database (h : fs.Seeded d s stamp) :
    (Path.place d).utf8ByteSize ≤ databasePlaceLimit ∧
      ∃ number db, fs.HasDatabase (Path.place d) number db ∧ db.readStamp = stamp := by
  rcases h.stamped with ⟨hnone, -⟩ | ⟨-, hsmall, hdb⟩
  · rw [h.present] at hnone
    cases hnone
  · exact ⟨hsmall, hdb⟩

/-- The stamp of a snapshot is not affected by changes of a local database apart from it. -/
theorem Bundles.alters (hs : fs.Sound) (h : fs.Bundles s stamp)
    (hapart : s.schemaVersion = none → s.Apart d) (ha : Alters (Path.place d) fs fs') :
    fs'.Bundles s stamp := by
  refine ⟨h.given, fun hversion => ?_⟩
  have hpart := hapart hversion
  exact (h.stored hversion).alters hs ha hpart.ne hpart.companion hpart.not_companion

/-- A database stays seeded as long as it keeps its stamp. -/
theorem Seeded.alters (h : fs.Seeded d s stamp) (hapart : s.schemaVersion = none → s.Apart d)
    (ha : Alters (Path.place d) fs fs')
    (hdb : ∃ number db, fs'.HasDatabase (Path.place d) number db ∧ db.readStamp = stamp) :
    fs'.Seeded d s stamp := by
  have hexists := exists?_congr h.sound ha.sound ha.directories ha.name
  have hpresent := hexists.trans h.present
  exact ⟨ha.sound, hpresent, .inr ⟨hpresent, h.exists_database.1, hdb⟩,
    h.bundles.alters h.sound hapart ha⟩

theorem Seeded.tidies (h : fs.Seeded d s stamp) (hapart : s.schemaVersion = none → s.Apart d)
    (ht : Tidies (Path.place d) fs fs') : fs'.Seeded d s stamp := by
  obtain ⟨-, number, db, hdb, hstamp⟩ := h.exists_database
  exact h.alters hapart ht.alters ⟨number, db, hdb.tidies ht, hstamp⟩

/-- Reading the markers of the snapshot leaves a seeded database as it is. -/
theorem Seeded.markersOf (h : fs.Seeded d s stamp) (hapart : s.schemaVersion = none → s.Apart d) :
    (Seeder.markersOf s fs).2.Seeded d s stamp ∧
      Spared (Path.place d) fs (Seeder.markersOf s fs).2 := by
  rcases Seeder.markersOf_files h.sound s with hsame | ⟨hversion, ht⟩
  · rw [hsame]
    exact ⟨h, .refl h.sound _⟩
  · have hpart := hapart hversion
    have hexists := exists?_congr h.sound ht.sound ht.directories
      (ht.names hpart.not_companion)
    refine ⟨⟨ht.sound, hexists.trans h.present, ?_, ?_⟩,
      ht.toWithin.spared hpart.not_companion fun _ he =>
        Path.companion_not_companion hpart.ne.symm (Path.companionEndings_of_content he)⟩
    · exact h.stamped.alters h.sound ht.alters hpart.ne.symm hpart.not_companion hpart.companion
    · exact ⟨h.bundles.given, fun hv => (h.bundles.stored hv).tidies h.sound ht⟩

end Files

namespace Seeder

open Files

variable {d v : String} {s : Snapshot} {stamp : Option String} {site : Site Settings}

theorem fst_snd {α β : Type} {p : α × β} {a : α} (h : p.1 = a) : p = (a, p.2) := by
  rw [← h]

/-- A fresh seeder has nothing to do where the database is seeded. -/
theorem plan_seeded {fs : Files} {settings : Settings} (h : fs.Seeded d s stamp)
    (hapart : s.schemaVersion = none → s.Apart d)
    (hextra : KeyStore.extraVersion settings = .ok s.extraVersion) (v : String) :
    ∃ fs', (fresh d v (some s)).plan settings fs = (.ok ([], .noAction), fs') ∧
      fs'.Seeded d s stamp ∧ Spared (Path.place d) fs fs' := by
  have hmarkers := fst_snd (markersOf_ok h.sound h.bundles)
  obtain ⟨hseeded, hspared⟩ := h.markersOf hapart
  generalize (markersOf s fs).2 = fs₁ at hmarkers hseeded hspared
  have hread := fst_snd (readStamp_ok hseeded.sound hseeded.stamped)
  have htidies := tidies_readStamp hseeded.sound d
  generalize (readStamp d fs₁).2 = fs₂ at hread htidies
  refine ⟨fs₂, ?_, hseeded.tidies hapart htidies, hspared.trans htidies.spared⟩
  have hpath : (fresh d v (some s)).databasePath = d := rfl
  rw [plan_apply, needsReplace_apply, hmarkers]
  simp only [hseeded.present, if_true, localMarkers_apply, hpath, hread, hextra, ne_eq,
    not_true_eq_false, decide_false]

/-- A fresh seeder leaves a seeded database and the settings as they are. -/
theorem run_seeded (h : site.files.Seeded d s stamp) (hapart : s.schemaVersion = none → s.Apart d)
    (hextra : KeyStore.extraVersion site.settings = .ok s.extraVersion) (v : String) :
    ∃ b site', (fresh d v (some s)).run site = (.ok .noAction, b, site') ∧
      site'.settings = site.settings ∧ site'.files.Seeded d s stamp ∧
      Spared (Path.place d) site.files site'.files := by
  obtain ⟨fs', hplan, hseeded, hspared⟩ := plan_seeded h hapart hextra v
  refine ⟨{ fresh d v (some s) with ran := true }, { site with files := fs' }, ?_, rfl, hseeded,
    hspared⟩
  rw [run, hplan]
  rfl

/-- Markers that were read are still there. -/
theorem markersOf_after {fs fs' : Files} (hs : fs.Sound) {m : VersionMarkers}
    (h : markersOf s fs = (.ok m, fs')) :
    fs'.Sound ∧ m.extraVersion = s.extraVersion ∧ fs'.Bundles s m.schemaVersion := by
  obtain ⟨hextra, hbundles⟩ := markersOf_inv hs h
  have hfiles := markersOf_files hs s
  rw [h] at hfiles
  rcases hfiles with hsame | ⟨hversion, ht⟩
  · have hsame : fs' = fs := hsame
    subst hsame
    exact ⟨hs, hextra, hbundles⟩
  · exact ⟨ht.sound, hextra, hbundles.given, fun hv => (hbundles.stored hv).tidies hs ht⟩

/-- Finding out whether a replacement is needed keeps the snapshot and its stamp. -/
theorem needsReplace_bundles {fs fs' : Files} {settings : Settings} {needed : Bool}
    (hs : fs.Sound) (hapart : s.schemaVersion = none → s.Apart d)
    (h : (fresh d v (some s)).needsReplace settings fs = (.ok needed, fs')) :
    fs'.Sound ∧ (s.schemaVersion = none → SameAt (Path.place s.path) fs fs') ∧
      ∃ stamp, fs.Bundles s stamp ∧ fs'.Bundles s stamp := by
  have hsnapshot := markersOf_sameAt hs s
  rw [needsReplace_apply] at h
  split at h
  · cases h
  · rename_i bundled fs₁ hmarkers
    obtain ⟨-, hbefore⟩ := markersOf_inv hs hmarkers
    obtain ⟨hsound, -, hafter⟩ := markersOf_after hs hmarkers
    rw [hmarkers] at hsnapshot
    have hlocal := tidies_localMarkers hsound (fresh d v (some s)) settings
    split at h
    · split at h
      · cases h
      · rename_i m fs₂ heq
        rw [heq] at hlocal
        cases h
        refine ⟨hlocal.sound, fun hversion => hsnapshot.trans ?_, _, hbefore,
          hafter.alters hsound hapart hlocal.alters⟩
        exact hlocal.alters.sameAt_other (hapart hversion).ne (hapart hversion).companion
    · cases h
      exact ⟨hsound, fun _ => hsnapshot, _, hbefore, hafter⟩

/-- Where no replacement is needed, the database is seeded. -/
theorem needsReplace_false {fs fs' : Files} {settings : Settings} (hs : fs.Sound)
    (hapart : s.schemaVersion = none → s.Apart d)
    (h : (fresh d v (some s)).needsReplace settings fs = (.ok false, fs')) :
    (∃ stamp, fs'.Seeded d s stamp) ∧ KeyStore.extraVersion settings = .ok s.extraVersion := by
  have hpath : (fresh d v (some s)).databasePath = d := rfl
  rw [needsReplace_apply] at h
  split at h
  · cases h
  · rename_i bundled fs₁ hmarkers
    obtain ⟨hsound, hversion, hbundles⟩ := markersOf_after hs hmarkers
    split at h
    · rename_i hpresent
      rw [localMarkers_apply, hpath] at h
      have ht := tidies_readStamp hsound d
      rcases hread : readStamp d fs₁ with ⟨_ | stamp, fs₂⟩
      · rw [hread] at h
        cases h
      · rw [hread] at h ht
        cases hextra : KeyStore.extraVersion settings with
        | error e =>
          rw [hextra] at h
          cases h
        | ok extra =>
          rw [hextra] at h
          obtain ⟨hsame, rfl⟩ := Prod.mk.inj h
          -- The markers that were compared are equal.
          have heq : (⟨stamp, extra⟩ : VersionMarkers) = bundled := by
            simpa using hsame
          subst heq
          have hseeded : fs₁.Seeded d s stamp :=
            ⟨hsound, hpresent, readStamp_inv hsound hread, hbundles⟩
          exact ⟨⟨stamp, hseeded.tidies hapart ht⟩, congrArg _ hversion⟩
    · cases h

/-- What a run is going to do that found out what to do: nothing where the database is
seeded, and otherwise the steps that put the snapshot in place. -/
theorem plan_inv {fs fs' : Files} {settings : Settings} (hs : fs.Sound)
    (hapart : s.schemaVersion = none → s.Apart d) {steps : List SeedStep} {outcome : SeedOutcome}
    (h : (fresh d v (some s)).plan settings fs = (.ok (steps, outcome), fs')) :
    (steps = [] ∧ (∃ stamp, fs'.Seeded d s stamp) ∧
      KeyStore.extraVersion settings = .ok s.extraVersion) ∨
    ∃ m, steps = (fresh d v (some s)).replaceSteps s m ∧ fs'.Sound ∧
      m.extraVersion = s.extraVersion ∧ fs.Bundles s m.schemaVersion ∧
      fs'.Bundles s m.schemaVersion ∧
      (s.schemaVersion = none → SameAt (Path.place s.path) fs fs') ∧
      fs'.exists? s.path = true := by
  rw [plan_apply] at h
  rcases hneeds : (fresh d v (some s)).needsReplace settings fs with ⟨_ | needed, fs₁⟩
  · rw [hneeds] at h
    cases h
  · rw [hneeds] at h
    cases needed with
    | false =>
      cases h
      exact .inl ⟨rfl, needsReplace_false hs hapart hneeds⟩
    | true =>
      obtain ⟨hsound, hsame, stamp, hbefore, hbetween⟩ := needsReplace_bundles hs hapart hneeds
      have hok := markersOf_ok hsound hbetween
      have hsnapshot := markersOf_sameAt hsound s
      dsimp only at h
      rw [planReplace] at h
      rcases hmarkers : markersOf s fs₁ with ⟨_ | m, fs₂⟩
      · rw [hmarkers] at h
        cases h
      · obtain ⟨hsound₂, hversion, hafter⟩ := markersOf_after hsound hmarkers
        rw [hmarkers] at h hok hsnapshot
        -- The stamp that was read again is the one that was compared.
        have hstamp : m.schemaVersion = stamp := by rw [Except.ok.inj hok]
        dsimp only at h
        split at h
        · rename_i hpresent
          cases h
          exact .inr ⟨m, rfl, hsound₂, hversion, hstamp ▸ hbefore, hafter,
            fun hnone => (hsame hnone).trans hsnapshot, hpresent⟩
        · cases h

end Seeder

end Replica
