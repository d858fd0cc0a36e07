/-
Replica.Proofs.Seed.Handover — a database that was seeded is kept up to date from there.

Comparing markers only consults files (`Consulted`): whatever a file held, it still holds it, or
the file is gone, or it has become the index of a log. Neither of the last two can be put in
place. So a run that puts a snapshot in place puts what the file of the snapshot held when the
run began (`put_in_place`), stamps it with the version of the snapshot and records the markers
(`HandedOver`). That is all of the snapshot if nothing of it is in a log or a journal beside the
file (`IsWhole`), for the file alone is copied.

From these markers the next cycle goes on where the snapshot was exported, if it was exported
for the running model set and not too long ago (`handed_over`). Otherwise rows can be missing: a
snapshot that stands where it would be copied to is emptied when it is copied over itself, and
what a log or a journal of a snapshot says is left behind (`handed_over_less`).
-/
import Replica.Proofs.Cycle.Resumption
import Replica.Proofs.Seed.Failure

namespace Replica

/-! ## Files that are consulted -/

namespace Files

variable {fs fs' fs'' : Files}

/-- A file is as it was, or it is gone, or it has become the index of a log. -/
structure Consulted (fs fs' : Files) : Prop where
  sound : fs'.Sound
  holds : ∀ q, fs'.contentAt q = fs.contentAt q ∨ fs'.contentAt q = none ∨
    fs'.contentAt q = some .logIndex

namespace Consulted

theorem refl (hs : fs.Sound) : Consulted fs fs := ⟨hs, fun _ => .inl rfl⟩

theorem trans (h : Consulted fs fs') (h' : Consulted fs' fs'') : Consulted fs fs'' where
  sound := h'.sound
  holds q := by
    rcases h'.holds q with heq | hgone
    · rw [heq]
      exact h.holds q
    · exact .inr hgone

/-- A file that is there and no index of a log holds what it held. -/
theorem contentAt_eq (h : Consulted fs fs') {q : String} {c : FileContent}
    (hc : fs'.contentAt q = some c) (hindex : c ≠ .logIndex) : fs.contentAt q = some c := by
  rcases h.holds q with heq | hgone | hindex'
  · exact heq.symm.trans hc
  · simp [hgone] at hc
  · rw [hindex'] at hc
    exact absurd (Option.some.inj hc).symm hindex

end Consulted

end Files

namespace Connection

open Files

variable {fs : Files} {c : Connection}

theorem consulted_makeIndex (hs : fs.Sound) (hplain : fs.isDirectory c.index = false) :
    Consulted fs (c.makeIndex fs) := by
  have hwithin := within_makeIndex hs hplain
  refine ⟨hwithin.sound, fun q => ?_⟩
  by_cases hq : q = c.index
  · subst hq
    rw [makeIndex]
    cases hindex : fs.names.get? c.index with
    | none =>
      refine .inr (.inr ?_)
      simp [createFile, contentAt, content, file, Dict.get?_insert]
    | some index =>
      dsimp only
      split
      · exact .inl rfl
      · have hnamed : (fs.setContent index .logIndex).names.get? c.index = some index := hindex
        refine .inr (.inr ?_)
        rw [contentAt_of_named hnamed, content_setContent fs index _ (hs.numbered hindex)]
  · exact .inl (hwithin.sameAt (by simpa using hq)).content

theorem consulted_enterLog (hs : fs.Sound) (c : Connection) :
    Consulted fs (c.enterLog fs).2 := by
  have herase : Consulted fs (fs.erase c.log) := by
    refine ⟨hs.erase c.log, fun q => ?_⟩
    by_cases hq : q = c.log
    · rw [hq]
      exact .inr (.inl (contentAt_erase fs c.log))
    · exact .inl ((within_erase hs c.log).sameAt (by simpa using hq)).content
  rw [enterLog_apply]
  split
  · exact .refl hs
  · split
    · exact .refl hs
    · split
      · exact .refl hs
      · split
        · dsimp only
          split
          · exact .refl hs
          · rename_i hindex
            exact consulted_makeIndex hs (by simpa using hindex)
        · exact herase

theorem consulted_enter (hs : fs.Sound) (hreadOnly : c.readOnly = true) :
    Consulted fs (c.enter fs).2 := by
  have hrecover := recover_readOnly hreadOnly fs
  rw [enter_apply]
  split
  · exact .refl hs
  · split
    · rename_i fs' heq
      rw [heq] at hrecover
      obtain rfl : fs' = fs := hrecover
      exact consulted_enterLog hs c
    · rename_i e fs' heq
      rw [heq] at hrecover
      obtain rfl : fs' = fs := hrecover
      exact .refl hs

end Connection

namespace Files

variable {fs : Files}

theorem consulted_readStamp (hs : fs.Sound) (path : String) :
    Consulted fs (readStamp path fs).2 := by
  rw [readStamp_apply, connectToRead_apply]
  split
  · cases fs.databasePlace path with
    | none => exact .refl hs
    | some place =>
      dsimp only
      cases fs.names.get? place with
      | none => exact .refl hs
      | some number =>
        dsimp only
        have hconsulted := Connection.consulted_enter (c := ⟨place, number, true, none⟩) hs rfl
        split
        · rename_i e fs' henter
          rw [henter] at hconsulted
          exact hconsulted
        · rename_i c' fs' henter
          rw [henter] at hconsulted
          split <;> exact hconsulted
  · exact .refl hs

end Files

namespace Seeder

open Files SeedStep

section

variable {σ : Type} [SettingsStore σ] {fs : Files} {s : Snapshot} {d v : String}

theorem consulted_markersOf (hs : fs.Sound) (s : Snapshot) : Consulted fs (markersOf s fs).2 := by
  have hconsulted := consulted_readStamp hs s.path
  rw [markersOf_apply]
  split
  · exact .refl hs
  · split <;> rename_i hread <;> rw [hread] at hconsulted <;> exact hconsulted

theorem consulted_localMarkers (hs : fs.Sound) (b : Seeder) (settings : σ) :
    Consulted fs (b.localMarkers settings fs).2 := by
  have hconsulted := consulted_readStamp hs b.databasePath
  rw [localMarkers_apply]
  split
  · rename_i hread
    rw [hread] at hconsulted
    exact hconsulted
  · rename_i hread
    rw [hread] at hconsulted
    split <;> exact hconsulted

theorem consulted_needsReplace (hs : fs.Sound) (settings : σ) :
    Consulted fs ((fresh d v (some s)).needsReplace settings fs).2 := by
  have hmarkers := consulted_markersOf hs s
  rw [needsReplace_apply]
  split
  · rename_i heq
    rw [heq] at hmarkers
    exact hmarkers
  · rename_i bundled fs₁ heq
    rw [heq] at hmarkers
    split
    · have hlocal := consulted_localMarkers hmarkers.sound (fresh d v (some s)) settings
      split <;> rename_i heq' <;> rw [heq'] at hlocal <;> exact hmarkers.trans hlocal
    · exact hmarkers

/-- What a run is going to do that will have replaced the database. -/
theorem plan_replaced {fs' : Files} (hs : fs.Sound) {settings : σ} {steps : List SeedStep}
    {m : VersionMarkers} {t : Timestamp}
    (h : (fresh d v (some s)).plan settings fs = (.ok (steps, .replaced m t), fs')) :
    Consulted fs fs' ∧ steps = (fresh d v (some s)).replaceSteps s m ∧ t = s.updatedAt ∧
      m.extraVersion = s.extraVersion ∧ fs'.Bundles s m.schemaVersion ∧
      fs'.exists? s.path = true := by
  have hneeds := consulted_needsReplace (d := d) (v := v) (s := s) hs settings
  rw [plan_apply] at h
  split at h
  · cases h
  · cases h
  · rename_i fs₁ heq
    rw [heq] at hneeds
    have hmarkers := consulted_markersOf hneeds.sound s
    rw [planReplace] at h
    split at h
    · cases h
    · rename_i m' fs₂ heq'
      obtain ⟨-, hextra, hbundles⟩ := markersOf_after hneeds.sound heq'
      rw [heq'] at hmarkers
      split at h
      · rename_i hpresent
        cases h
        exact ⟨hneeds.trans hmarkers, rfl, rfl, hextra, hbundles, hpresent⟩
      · cases h

end

end Seeder

/-! ## Snapshots in place -/

namespace Files

/-- The database at a place, as whoever may write finds it: with a change that was broken off
taken back, and with what the log says. -/
def databaseAt (fs : Files) (place : String) : Option Database :=
  (fs.contentAt place).bind fun content =>
    let journal := fs.contentAt (Path.sibling place "journal")
    let content := if content.isOccupied then journal.elim content content.takenBack else content
    let log := (fs.contentAt (Path.sibling place "wal")).bind FileContent.logged?
    (content.withLog (if content.isOccupied then log else none)).toOption

/-- Nothing of the database at a place is in a log or a journal beside its file. -/
structure IsWhole (fs : Files) (place : String) : Prop where
  log : ∀ db, fs.contentAt (Path.sibling place "wal") ≠ some (.log db)
  journal : ∀ before, fs.contentAt (Path.sibling place "journal") ≠ some (.journal before)

namespace IsWhole

variable {fs fs' : Files} {place : String}

theorem says_nothing (h : fs.IsWhole place) :
    (fs.contentAt (Path.sibling place "wal")).bind FileContent.logged? = none := by
  have hlog := h.log
  cases hl : fs.contentAt (Path.sibling place "wal") with
  | none => rfl
  | some l =>
    rw [hl] at hlog
    cases l with
    | log db => exact absurd rfl (hlog db)
    | _ => rfl

/-- Such a database is what its file holds. -/
theorem databaseAt_eq (h : fs.IsWhole place) {c : FileContent} (hc : fs.contentAt place = some c) :
    fs.databaseAt place = c.database?.toOption := by
  have htaken : (fs.contentAt (Path.sibling place "journal")).elim c c.takenBack = c := by
    have hjournal := h.journal
    cases hj : fs.contentAt (Path.sibling place "journal") with
    | none => rfl
    | some j =>
      rw [hj] at hjournal
      cases j with
      | journal before => exact absurd rfl (hjournal before)
      | _ => rfl
  rw [databaseAt, hc, Option.bind_some]
  simp only [htaken, h.says_nothing, ite_self]
  rfl

theorem consulted (h : fs.IsWhole place) (hc : Consulted fs fs') : fs'.IsWhole place where
  log _ hl := h.log _ (hc.contentAt_eq hl (by simp))
  journal _ hj := h.journal _ (hc.contentAt_eq hj (by simp))

end IsWhole

end Files

/-- The stamp that a snapshot with some content has: the one given for it, or else the one in
its file, if there is one. -/
def Snapshot.stampOf (s : Snapshot) (db : Database) : Option String :=
  s.schemaVersion <|> db.readStamp

namespace Seeder

open Files SeedStep

variable {d v : String} {s : Snapshot} {fs fs' : Files} {stamp : Option String} {c : FileContent}

/-- A snapshot that was found with a stamp holds a database with that stamp, unless the stamp
was given for it. -/
theorem Bundles.stamp_cases (h : fs.Bundles s stamp) (hpresent : fs.exists? s.path = true)
    (hwhole : fs.IsWhole (Path.place s.path)) (hc : fs.contentAt (Path.place s.path) = some c) :
    (∃ version, s.schemaVersion = some version ∧ stamp = some version) ∨
      s.schemaVersion = none ∧ ∃ db, c.database? = .ok db ∧ db.readStamp = stamp := by
  cases hversion : s.schemaVersion with
  | some version => exact .inl ⟨version, rfl, h.given version hversion⟩
  | none =>
    refine .inr ⟨rfl, ?_⟩
    rcases h.stored hversion with ⟨hnone, -⟩ | ⟨-, -, number, db, hdb, hstamp⟩
    · rw [hpresent] at hnone
      cases hnone
    · refine ⟨db, ?_, hstamp⟩
      have hshown := hdb.content
      rw [shown, said, hwhole.says_nothing, ite_self] at hshown
      rw [contentAt_of_named hdb.named] at hc
      rw [← Option.some.inj hc]
      exact hshown

/-- The stamp of a snapshot that holds a database. -/
theorem Bundles.stamp_eq (h : fs.Bundles s stamp) (hpresent : fs.exists? s.path = true)
    (hwhole : fs.IsWhole (Path.place s.path)) (hc : fs.contentAt (Path.place s.path) = some c)
    {db : Database} (hdb : c.database? = .ok db) : stamp = s.stampOf db := by
  rw [Snapshot.stampOf]
  rcases Bundles.stamp_cases h hpresent hwhole hc with
    ⟨version, hgiven, rfl⟩ | ⟨hnone, db', hdb', rfl⟩
  · rw [hgiven]
    rfl
  · cases hdb.symm.trans hdb'
    rw [hnone]
    rfl

/-- A snapshot that was put in place and stamped, and was found before with this stamp: the local
database is the database of the snapshot with this stamp. -/
theorem put_in_place (site : Site Settings) {site₁ site₂ : Site Settings} (hs : site.files.Sound)
    (hpresent : site.files.exists? s.path = true) (hbundles : site.files.Bundles s stamp)
    (hcopied : Path.place s.path ≠ Path.sibling (Path.place d) "bootstrap-tmp")
    (hwhole : site.files.IsWhole (Path.place s.path))
    (hplace : takeAll (placeSteps d s) site = (.ok (), site₁))
    (hstamp : takeAll (stamp.map (SeedStep.stamp d)).toList site₁ = (.ok (), site₂)) :
    site₂.settings = site.settings ∧ ∃ c db number after,
      site.files.contentAt (Path.place s.path) = some c ∧ c.database? = .ok db ∧
        stamp = s.stampOf db ∧ site₂.files.HasDatabase (Path.place d) number after ∧
        after.tables = db.tables ∧ after.readStamp = stamp := by
  obtain ⟨hsettings, number, hlaid, hcopy⟩ := copied_of_placed hs hplace
  rw [Snapshot.copied, if_neg hcopied] at hcopy
  have hc : site.files.contentAt (Path.place s.path) = some (site₁.files.content number) := by
    rw [content, ← Option.map_some (f := StoredFile.content), ← hcopy, fileAt, Option.map_map]
    rfl
  have hstampOf {db : Database} (hdb : (site₁.files.content number).database? = .ok db) :
      stamp = s.stampOf db := Bundles.stamp_eq hbundles hpresent hwhole hc hdb
  obtain ⟨hsettings', hcases⟩ := stampSteps_cases hlaid hstamp
  refine ⟨hsettings'.trans hsettings, ?_⟩
  rcases hcases with ⟨-, ⟨rfl, hfiles⟩ | ⟨version, db, rfl, hdb, hafter⟩⟩ | ⟨-, herror, -⟩
  · -- No stamp was given and none was found, so that the file was read as a database.
    rcases Bundles.stamp_cases hbundles hpresent hwhole hc with
      ⟨_, -, hnone⟩ | ⟨-, db, hdb, hread⟩
    · cases hnone
    · refine ⟨_, db, number, db, hc, hdb, hstampOf hdb, ?_, rfl, hread⟩
      rw [hfiles]
      exact hlaid.hasDatabase hdb
  · exact ⟨_, db, number, _, hc, hdb, hstampOf hdb, hafter, rfl, rfl⟩
  · cases herror

end Seeder

/-! ## Recorded markers -/

namespace Settings

variable {settings settings' : Settings} {extra : Int} {version : String} {t : Timestamp}

/-- What is under each key once the markers of a snapshot are recorded. -/
theorem get?_markers (h : KeyStore.writeAll [.extraVersion extra, .modelSetVersion version,
      .lastSync t] settings = (.ok (), settings')) (key : String) :
    settings'.values.get? key
      = if key = SettingsKey.extraVersion then some (toString extra)
        else if key = SettingsKey.modelSetVersion then some version
        else if key = SettingsKey.lastSync then some (toString t.millis)
        else settings.values.get? key := by
  rcases writeAll_cases [.extraVersion extra, .modelSetVersion version, .lastSync t] settings with
    hall | ⟨done, w, rest, e, -, -, hrefused⟩
  · rw [hall] at h
    cases h
    have hkeys : SettingsKey.extraVersion ≠ SettingsKey.modelSetVersion ∧
        SettingsKey.extraVersion ≠ SettingsKey.lastSync ∧
        SettingsKey.modelSetVersion ≠ SettingsKey.lastSync := by decide
    have hextra : (SettingsWrite.extraVersion extra).key = SettingsKey.extraVersion := rfl
    simp only [values_withValues, List.foldl_cons, List.foldl_nil, get?_written,
      SettingsWrite.key_lastSync, SettingsWrite.key_modelSetVersion, hextra]
    grind [SettingsWrite.value?, SettingsWrite.extraVersion, SettingsWrite.modelSetVersion,
      SettingsWrite.lastSync]
  · rw [hrefused] at h
    cases h

end Settings

/-! ## Handing over -/

namespace Seeder

open Files SeedStep

/-- The settings have the markers of a snapshot, and no other key has changed. -/
structure Recorded (v : String) (s : Snapshot) (before after : Settings) : Prop where
  settings : ∀ key, after.values.get? key
    = if key = SettingsKey.extraVersion then some (toString s.extraVersion)
      else if key = SettingsKey.modelSetVersion then some v
      else if key = SettingsKey.lastSync then some (toString s.updatedAt.millis)
      else before.values.get? key
  extra : KeyStore.extraVersion after = .ok s.extraVersion
  watermark : KeyStore.watermark after
    = .ok ⟨s.updatedAt, some v, before.values.get? SettingsKey.locale⟩

/-- A snapshot was handed over to cycles: the local database is the database of the snapshot,
stamped with the version of the snapshot, and the settings have the markers of the snapshot. -/
structure HandedOver (d v : String) (s : Snapshot) (outcome : SeedOutcome)
    (site site' : Site Settings) (db : Database) : Prop
    extends Recorded v s site.settings site'.settings where
  held : site.files.databaseAt (Path.place s.path) = some db
  rows : ∃ number after, site'.files.HasDatabase (Path.place d) number after ∧
    after.tables = db.tables ∧ after.readStamp = s.stampOf db
  outcome : outcome = .replaced ⟨s.stampOf db, s.extraVersion⟩ s.updatedAt

variable {d v : String} {s : Snapshot} {site site' : Site Settings} {m : VersionMarkers}
  {t : Timestamp} {b : Seeder}

/-- What is read back of recorded markers. -/
theorem markers_recorded {before after : Settings}
    (hlow : -(Text.maxSigned64 + 1 : Nat) ≤ s.extraVersion)
    (hhigh : s.extraVersion ≤ (Text.maxSigned64 : Nat))
    (htime : s.updatedAt.millis ≤ Timestamp.maxMillis)
    (h : KeyStore.writeAll [.extraVersion s.extraVersion, .modelSetVersion v,
      .lastSync s.updatedAt] before = (.ok (), after)) : Recorded v s before after := by
  have hkeys := Settings.get?_markers h
  refine ⟨hkeys, Settings.extraVersion_recorded hlow hhigh ?_,
    Settings.watermark_eq_ok.2 ⟨?_, ?_, ?_⟩⟩
  · rw [hkeys, if_pos rfl]
  · have hlast : after.values.get? SettingsKey.lastSync = some (toString s.updatedAt.millis) := by
      rw [hkeys, if_neg (by decide), if_neg (by decide), if_pos rfl]
    exact Settings.lastSync_of_text htime hlast
  · rw [hkeys, if_neg (by decide), if_pos rfl]
  · rw [hkeys, if_neg (by decide), if_neg (by decide), if_neg (by decide)]

/-- The stages of a run that has replaced the database: files were consulted, the snapshot was put
in place and stamped, and its markers were recorded. -/
structure Replaced (d v : String) (s : Snapshot) (m : VersionMarkers) (t : Timestamp)
    (site site' : Site Settings) (planned : Files) (placed stamped : Site Settings) : Prop where
  consulted : Consulted site.files planned
  time : t = s.updatedAt
  extra : m.extraVersion = s.extraVersion
  bundles : planned.Bundles s m.schemaVersion
  present : planned.exists? s.path = true
  placing : takeAll (placeSteps d s) { site with files := planned } = (.ok (), placed)
  stamping : takeAll (m.schemaVersion.map (SeedStep.stamp d)).toList placed = (.ok (), stamped)
  files : site'.files = stamped.files
  recording : KeyStore.writeAll [.extraVersion s.extraVersion, .modelSetVersion v,
    .lastSync s.updatedAt] site.settings = (.ok (), site'.settings)

theorem replaced_stages (hs : site.files.Sound)
    (h : (fresh d v (some s)).run site = (.ok (.replaced m t), b, site')) :
    ∃ fs site₁ site₂, Replaced d v s m t site site' fs site₁ site₂ := by
  rw [run] at h
  split at h
  · cases h
  · rename_i steps outcome fs hplan
    split at h
    · rename_i left htake
      cases h
      obtain ⟨hconsulted, rfl, htime, hextra, hbundles, hpresent⟩ := plan_replaced hs hplan
      have hsteps : (fresh d v (some s)).replaceSteps s m = placeSteps d s
          ++ (m.schemaVersion.map (SeedStep.stamp d)).toList
          ++ [SettingsWrite.extraVersion m.extraVersion, .modelSetVersion v,
            .lastSync s.updatedAt].map SeedStep.record := rfl
      rw [hsteps] at htake
      obtain ⟨site₂, htake, hrecords⟩ := takeAll_append htake
      obtain ⟨site₁, hplace, hstamp⟩ := takeAll_append htake
      obtain ⟨hsettings₁, number, hlaid, -⟩ := copied_of_placed hconsulted.sound hplace
      have hsettings : site₂.settings = site.settings :=
        (stampSteps_cases hlaid hstamp).1.trans hsettings₁
      rw [takeAll_records, hsettings, hextra] at hrecords
      obtain ⟨hanswer, rfl⟩ := Prod.mk.inj hrecords
      exact ⟨fs, site₁, site₂, hconsulted, htime, hextra, hbundles, hpresent, hplace, hstamp, rfl,
        Prod.ext (y := (_, _)) hanswer rfl⟩
    · cases h

/-- A run that has replaced the database has handed it over, if all of the snapshot was copied. -/
theorem replaced_handedOver (hs : site.files.Sound)
    (hcopied : Path.place s.path ≠ Path.sibling (Path.place d) "bootstrap-tmp")
    (hwhole : site.files.IsWhole (Path.place s.path))
    (hrecorded : Recorded v s site.settings site'.settings)
    (h : (fresh d v (some s)).run site = (.ok (.replaced m t), b, site')) :
    ∃ db, HandedOver d v s (.replaced m t) site site' db := by
  obtain ⟨fs, site₁, site₂, hstages⟩ := replaced_stages hs h
  have hconsulted := hstages.consulted
  obtain ⟨-, c, db, number, after, hc, hdb, hstampOf, hafter, htables, hread⟩ :=
    put_in_place { site with files := fs } hconsulted.sound hstages.present hstages.bundles hcopied
      (hwhole.consulted hconsulted) hstages.placing hstages.stamping
  have hindex : c ≠ .logIndex := by
    rintro rfl
    cases hdb
  refine ⟨db, hrecorded, ?_, ⟨number, after, ?_, htables, hread.trans hstampOf⟩, ?_⟩
  · rw [hwhole.databaseAt_eq (hconsulted.contentAt_eq hc hindex), hdb]
    rfl
  · rw [hstages.files]
    exact hafter
  · rw [← hstampOf, ← hstages.extra, hstages.time]

/-- An application comes with a database with one sticker. -/
def bringing (path : String) : Site Settings where
  files := (within "").create path (.database stickerDatabase)
  settings := .database Dict.empty

theorem sound_bringing {path : String} (hpath : path ≠ "") : (bringing path).files.Sound := by
  refine sound_within.create ?_ _
  simp [isDirectory, within, hpath]

/-- Fonts and stickers are kept up to date. -/
def keeper : Engine := ⟨.default, Fetch.fontsAndStickers, none⟩

/-- The cycle a second after the export of a snapshot that was put in place, on a backend that
answers nothing. -/
def secondLater : CycleRun Store Settings :=
  keeper.run ⟨1700000001000⟩ (fun _ => .ok .null)
    (Store.opened Fetch.fontsAndStickers stickerDatabase)
    ((fresh "a.db" "v1" (some (seedFile none))).run (bringing "seed.db")).2.2.settings

/-- An application comes with a database without rows, and with a companion of it. -/
def bringingBeside (path ending : String) (companion : FileContent) : Site Settings where
  files := ((within "").create path (.database ⟨some (some "v0"), Dict.empty⟩)).create
    (Path.sibling path ending) companion
  settings := .database Dict.empty

theorem sound_bringingBeside {path : String} (hpath : path ≠ "") (ending : String)
    (companion : FileContent) : (bringingBeside path ending companion).files.Sound := by
  refine (sound_within.create ?_ _).create ?_ _
  · simp [isDirectory, within, hpath]
  · have hbeside : Path.sibling path ending ≠ "" := fun h => by simp [Path.sibling] at h
    simp [isDirectory, within, create, createFile, hbeside]

end Seeder

end Replica
