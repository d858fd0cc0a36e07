/-
Replica.Proofs.Seed.Replacement — putting a snapshot in place.

A replacement makes the directory of the local database, copies the snapshot beside it,
discards what is left of the old database and gives the copy its name. After the last of
these steps a file is at the place of the database and no companion is (`Laid`), and it
holds what the snapshot held if nothing of the snapshot was in the way (`placed_inv`). The
stamp, if there is one, is then written to this file, so that the database is seeded
(`replaced_seeded`).

With `plan_inv`, this is what the first run of a seeder leaves when it succeeds: a seeded
database, and the extra version of the snapshot in the settings (`run_first`).
-/
import Replica.Proofs.Seed.Seeded

namespace Replica

/-! ## Stamping -/

theorem Connection.perform_apply {α : Type} (c : Connection)
    (work : Database → Except StoreError α × Database) (fs : Files) : c.perform work fs =
    match c.view fs with
    | .error e => (.error e, fs)
    | .ok before =>
      match c.write before (work before).2 fs with
      | (.error e, fs') => (.error e, fs')
      | (.ok (), fs') => ((work before).1, fs') := by
  unfold perform
  simp only [FileTask.bind_apply, Connection.read_apply]
  cases c.view fs with
  | error e => rfl
  | ok before =>
    dsimp only
    rcases c.write before (work before).2 fs with ⟨_ | _, fs'⟩
    · rfl
    · cases (work before).1 <;> rfl

/-- What holds no database is refused in one way. -/
theorem FileContent.database?_error {c : FileContent} {e : StoreError}
    (h : c.database? = .error e) : e = .database := by
  cases c with
  | text t =>
    rw [database?] at h
    split at h
    · cases h
    · cases h
      rfl
  | database db => cases h
  | log db =>
    cases h
    rfl
  | journal before =>
    cases h
    rfl
  | logIndex =>
    cases h
    rfl

/-- A file by itself, whatever its log says, is a database without a stamp. -/
def FileContent.IsUnstamped (c : FileContent) : Prop :=
  ∃ db, c.database? = .ok db ∧ db.readStamp = none

namespace Files

variable {fs fs' : Files}

theorem connect_apply (path : String) (fs : Files) : connect path fs =
    match fs.databasePlace path with
    | none => (.error .database, fs)
    | some place =>
      match fs.names.get? place with
      | some number => (.ok ⟨place, number, fs.isReadOnly number, none⟩, fs)
      | none =>
        if fs.isDirectory place || !fs.isDirectory (Path.above place) then (.error .database, fs)
        else (.ok ⟨place, fs.stored.length, false, none⟩, fs.create place (.text "")) := by
  unfold connect
  simp only [FileTask.bind_apply, FileTask.get_apply]
  cases fs.databasePlace path with
  | none => rfl
  | some place =>
    dsimp only
    cases fs.names.get? place with
    | some number => rfl
    | none =>
      dsimp only
      split <;> rfl

theorem writeStamp_apply (path version : String) (fs : Files) : writeStamp path version fs =
    match makeParent path fs with
    | (.error e, fs') => (.error e, fs')
    | (.ok (), fs') =>
      match connect path fs' with
      | (.error e, fs'') => (.error e, fs'')
      | (.ok c, fs'') => c.changeAndClose (·.writeStamp version) fs'' := by
  unfold writeStamp
  simp only [FileTask.bind_apply]
  rcases makeParent path fs with ⟨_ | _, fs'⟩
  · rfl
  · dsimp only
    rcases connect path fs' with ⟨_ | c, fs''⟩ <;> rfl

/-- A file is at the end of a path, and no companion is beside it, but there could be one. -/
structure Laid (fs : Files) (path : String) (number : Nat) : Prop where
  sound : fs.Sound
  reaches : fs.Reaches path
  named : fs.names.get? (Path.place path) = some number
  alone : ∀ ending ∈ Path.companionEndings, fs.IsGone (Path.sibling (Path.place path) ending)
  short : Path.isTooLong (Path.lastName (Path.sibling (Path.place path) "journal")) = false

variable {path : String} {number : Nat}

theorem Laid.present (h : fs.Laid path number) : fs.exists? path = true :=
  (exists?_iff h.sound).2 ⟨h.reaches, .inr (by rw [h.named]; rfl)⟩

/-- Nothing is at the place of a companion. -/
theorem Laid.companion (h : fs.Laid path number) {ending : String}
    (he : ending ∈ Path.companionEndings) :
    fs.contentAt (Path.sibling (Path.place path) ending) = none ∧
      fs.isDirectory (Path.sibling (Path.place path) ending) = false := by
  obtain ⟨hname, hplain⟩ := h.alone ending he
  exact ⟨by rw [contentAt, hname, Option.map_none], hplain⟩

theorem Laid.hasDatabase (h : fs.Laid path number) {db : Database}
    (hcontent : (fs.content number).database? = .ok db) :
    fs.HasDatabase (Path.place path) number db where
  named := h.named
  content := by
    rw [shown, said, (h.companion (show "wal" ∈ Path.companionEndings by decide)).1,
      Option.bind_none, ite_self]
    exact hcontent
  log := (h.companion (by decide)).2
  calm _ := by
    obtain ⟨hnone, hplain⟩ := h.companion (show "journal" ∈ Path.companionEndings by decide)
    refine ⟨hplain, fun j hj => ?_⟩
    rw [hnone] at hj
    cases hj

/-- A new connection to the file at the end of a path. -/
def connection (fs : Files) (path : String) (number : Nat) : Connection :=
  ⟨Path.place path, number, fs.isReadOnly number, none⟩

/-- Without companions there is nothing to put in order. -/
theorem Laid.enter_eq (h : fs.Laid path number) :
    (fs.connection path number).enter fs = (.ok (fs.connection path number), fs) := by
  obtain ⟨hjournal, hjournal'⟩ := h.companion (show "journal" ∈ Path.companionEndings by decide)
  obtain ⟨hlog, -⟩ := h.alone "wal" (by decide)
  have hlog' := (h.companion (show "wal" ∈ Path.companionEndings by decide)).2
  rw [Connection.enter_apply]
  simp only [connection, Connection.recover_apply, Connection.enterLog_apply, Connection.journal,
    Connection.log, hjournal, hjournal', hlog, hlog', Bool.false_eq_true, if_false,
    Option.isSome_none]

theorem Laid.entered (h : fs.Laid path number) : (fs.connection path number).Entered fs where
  named := h.named
  joined := Connection.joined_of_none rfl fs
  plain _ l hl := by
    have hnone := (h.companion (show "wal" ∈ Path.companionEndings by decide)).1
    exact absurd (hnone.symm.trans hl) (by simp)

/-- Stamping such a file is reading it and writing it, if its place can be opened and it is not
read-only. -/
theorem Laid.writeStamp_eq (h : fs.Laid path number) (version : String) :
    writeStamp path version fs =
    if (Path.place path).utf8ByteSize ≤ databasePlaceLimit ∧ fs.isReadOnly number = false then
      match (fs.content number).database? with
      | .error e => (.error e, fs)
      | .ok before => (fs.connection path number).write before (before.writeStamp version) fs
    else (.error .database, fs) := by
  rw [writeStamp_apply, makeParent_reached h.sound h.reaches (h.sound.plain h.named)]
  dsimp only
  rw [connect_apply]
  by_cases hsmall : (Path.place path).utf8ByteSize ≤ databasePlaceLimit
  · have hconnect : (⟨Path.place path, number, fs.isReadOnly number, none⟩ : Connection)
        = fs.connection path number := rfl
    have hclose (left : Files) : (fs.connection path number).close left = left := rfl
    rw [databasePlace_eq h.sound h.reaches hsmall]
    simp only [h.named, hconnect, Connection.changeAndClose, h.enter_eq, hclose]
    by_cases hreadOnly : fs.isReadOnly number = true
    · have hbegin : (fs.connection path number).canBegin fs = false := by
        simp [Connection.canBegin, connection, hreadOnly]
      rw [if_neg (by simp [hbegin]), if_neg (by simp [hreadOnly])]
    · have hbegin : (fs.connection path number).canBegin fs = true := by
        simpa [Connection.canBegin, connection] using hreadOnly
      have hview : (fs.connection path number).view fs = (fs.content number).database? := rfl
      rw [if_pos hbegin, if_pos ⟨hsmall, by simpa using hreadOnly⟩, Connection.perform_apply, hview]
      cases (fs.content number).database? with
      | error e => rfl
      | ok before =>
        dsimp only
        rcases (fs.connection path number).write before (before.writeStamp version) fs with
          ⟨_ | _, fs'⟩ <;> rfl
  · rw [if_neg fun hboth => hsmall hboth.1]
    cases hplace : fs.databasePlace path with
    | none => rfl
    | some place =>
      obtain ⟨rfl, hsmall'⟩ := databasePlace_place hplace
      exact absurd hsmall' hsmall

/-- Such a file can be written unless it is read-only. -/
theorem Laid.write_ok (h : fs.Laid path number) (hwritable : fs.isReadOnly number = false)
    (before after : Database) :
    ((fs.connection path number).write before after fs).1 = .ok () := by
  obtain ⟨hjournal, hplain⟩ := h.alone "journal" (by decide)
  have hcan : (fs.connection path number).canWrite fs = true := by
    simp [connection, Connection.canWrite, Connection.canBegin, Connection.isAttached,
      Connection.journal, isReadOnlyAt, h.named, hjournal, hplain, h.short, hwritable]
  rw [Connection.write]
  split
  · rfl
  · rw [hcan]
    rfl

/-- A file that was stamped is the database that it was, with that stamp. -/
theorem Laid.writeStamp_inv (h : fs.Laid path number) {version : String}
    (hw : writeStamp path version fs = (.ok (), fs')) :
    (Path.place path).utf8ByteSize ≤ databasePlaceLimit ∧ Alters (Path.place path) fs fs' ∧
      ∃ before, (fs.content number).database? = .ok before ∧
        fs'.HasDatabase (Path.place path) number (before.writeStamp version) := by
  rw [h.writeStamp_eq] at hw
  split at hw
  · rename_i hfit
    refine ⟨hfit.1, ?_⟩
    split at hw
    · cases hw
    · rename_i before hcontent
      obtain ⟨halters, -, hwritten⟩ := Connection.write_database h.sound h.entered
        (h.hasDatabase hcontent) (before.writeStamp version)
      rw [hw] at halters hwritten
      refine ⟨halters, before, hcontent, ?_⟩
      rcases hwritten with ⟨hsame, hafter⟩ | ⟨hafter, -⟩
      · have hsame : fs' = fs := hsame
        rw [hsame, hafter rfl]
        exact h.hasDatabase hcontent
      · exact hafter
  · cases hw

/-- Stamping fails where the file is no database, its place cannot be opened or it is read-only,
and leaves the files as they were. -/
theorem Laid.writeStamp_error (h : fs.Laid path number) {version : String} {e : StoreError}
    (hw : writeStamp path version fs = (.error e, fs')) : fs' = fs ∧ e = .database ∧
      ((fs.content number).database? = .error .database ∨
        databasePlaceLimit < (Path.place path).utf8ByteSize ∨ fs.isReadOnly number = true) := by
  rw [h.writeStamp_eq] at hw
  split at hw
  · rename_i hfit
    split at hw
    · rename_i e' hcontent
      cases hw
      obtain rfl := FileContent.database?_error hcontent
      exact ⟨rfl, rfl, .inl hcontent⟩
    · rename_i before hcontent
      have hok := h.write_ok hfit.2 before (before.writeStamp version)
      rw [hw] at hok
      cases hok
  · rename_i hunfit
    cases hw
    refine ⟨rfl, rfl, .inr ?_⟩
    by_cases hsmall : (Path.place path).utf8ByteSize ≤ databasePlaceLimit
    · exact .inr (by simpa [hsmall] using hunfit)
    · exact .inl (by omega)

end Files

/-! ## Steps -/

namespace SeedStep

open Files

variable {σ : Type} {site site' : Site σ}

theorem onFiles_inv (task : FileTask Unit) {answer : Except StoreError Unit}
    (h : take.onFiles site task = (answer, site')) :
    task site.files = (answer, site'.files) ∧ site'.settings = site.settings := by
  rw [take.onFiles] at h
  obtain ⟨hanswer, rfl⟩ := Prod.mk.inj h
  exact ⟨Seeder.fst_snd hanswer, rfl⟩

variable [SettingsStore σ] {step : SeedStep} {steps : List SeedStep}

/-- Steps that were all taken were taken one by one. -/
theorem takeAll_cons (h : takeAll (step :: steps) site = (.ok (), site')) :
    ∃ mid, step.take site = (.ok (), mid) ∧ takeAll steps mid = (.ok (), site') := by
  rw [takeAll] at h
  rcases htake : step.take site with ⟨_ | _, mid⟩
  · rw [htake] at h
    cases h
  · rw [htake] at h
    exact ⟨mid, rfl, h⟩

/-- Later steps are taken if the ones before them were. -/
theorem takeAll_append_apply (steps later : List SeedStep) (site : Site σ) :
    takeAll (steps ++ later) site =
    match takeAll steps site with
    | (.ok (), mid) => takeAll later mid
    | (.error e, left) => (.error e, left) := by
  induction steps generalizing site with
  | nil => rfl
  | cons step steps ih =>
    rw [List.cons_append, takeAll, takeAll]
    rcases step.take site with ⟨_ | _, mid⟩
    · rfl
    · exact ih mid

theorem takeAll_append {later : List SeedStep}
    (h : takeAll (steps ++ later) site = (.ok (), site')) :
    ∃ mid, takeAll steps site = (.ok (), mid) ∧ takeAll later mid = (.ok (), site') := by
  rw [takeAll_append_apply] at h
  split at h
  · rename_i mid hsteps
    exact ⟨mid, hsteps, h⟩
  · cases h

/-- What was discarded beside a path is gone. -/
theorem discards_inv {path : String} : ∀ {endings : List String} {site : Site σ},
    site.files.Sound → (∀ e ∈ endings, site.files.Reaches (Path.sibling path e)) →
    takeAll (endings.map fun e => discard (Path.sibling path e)) site = (.ok (), site') →
    site'.settings = site.settings ∧
      Within (endings.map fun e => Path.place (Path.sibling path e)) site.files site'.files ∧
      (∀ e ∈ endings, site'.files.IsGone (Path.place (Path.sibling path e))) ∧
      ∀ q, site.files.IsGone q → site'.files.IsGone q
  | [], site, hs, _, h => by
    cases h
    exact ⟨rfl, .refl hs _, by simp, fun q hq => hq⟩
  | e :: rest, site, hs, hreach, h => by
    obtain ⟨mid, hstep, hrest⟩ := takeAll_cons h
    obtain ⟨hdiscard, hsettings⟩ := onFiles_inv (Files.discard _) hstep
    obtain ⟨hwithin, hgone, hkeep⟩ :=
      discard_inv hs (hreach e (List.mem_cons_self ..)) hdiscard
    obtain ⟨hsettings', hwithin', hgone', hkeep'⟩ := discards_inv hwithin.sound
      (fun e' he' => hwithin.reaches (hreach e' (List.mem_cons_of_mem e he'))) hrest
    refine ⟨hsettings'.trans hsettings, ?_, ?_, fun q hq => hkeep' q (hkeep q hq)⟩
    · rw [List.map_cons]
      refine (hwithin.mono ?_).trans (hwithin'.mono fun q => List.mem_cons_of_mem _)
      intro q hq
      exact List.mem_cons.2 (.inl (List.mem_singleton.1 hq))
    · intro e' he'
      rcases List.mem_cons.1 he' with rfl | he'
      · exact hkeep' _ hgone
      · exact hgone' e' he'

/-- Recording is writing to the settings, key by key. -/
theorem takeAll_records (writes : List SettingsWrite) (site : Site σ) :
    takeAll (writes.map record) site = ((KeyStore.writeAll writes site.settings).1,
      { site with settings := (KeyStore.writeAll writes site.settings).2 }) := by
  induction writes generalizing site with
  | nil => rfl
  | cons w rest ih =>
    rw [List.map_cons, takeAll, take, KeyStore.writeAll]
    cases KeyStore.write w site.settings with
    | ok settings => exact ih _
    | error e => rfl

/-- What was recorded last under the key of the extra version stays there. -/
theorem records_inv {site site' : Site Settings} {extra : Int} {version : String}
    {time : Timestamp} (h : takeAll [record (.extraVersion extra),
      record (.modelSetVersion version), record (.lastSync time)] site = (.ok (), site')) :
    site'.files = site.files ∧
      site'.settings.values.get? SettingsKey.extraVersion = some (toString extra) := by
  have hrecords := takeAll_records
    [.extraVersion extra, .modelSetVersion version, .lastSync time] site
  rw [List.map_cons, List.map_cons, List.map_cons, List.map_nil, h] at hrecords
  obtain ⟨hanswer, rfl⟩ := Prod.mk.inj hrecords
  refine ⟨rfl, ?_⟩
  rcases Settings.writeAll_cases [.extraVersion extra, .modelSetVersion version, .lastSync time]
    site.settings with hall | ⟨done, w, rest, e, -, -, hrefused⟩
  · have hlater : ∀ w ∈ [SettingsWrite.modelSetVersion version, .lastSync time],
        w.key ≠ SettingsKey.extraVersion := by
      intro w hw
      simp only [List.mem_cons, List.not_mem_nil, or_false] at hw
      rcases hw with rfl | rfl
      · exact show SettingsKey.modelSetVersion ≠ SettingsKey.extraVersion by decide
      · exact show SettingsKey.lastSync ≠ SettingsKey.extraVersion by decide
    rw [hall, Settings.values_withValues, List.foldl_cons,
      Settings.get?_foldl_written _ _ hlater, Settings.get?_written]
    rfl
  · rw [hrefused] at hanswer
    cases hanswer

end SeedStep

namespace Path

/-- The ending of the copy of a snapshot. -/
theorem isEnding_copied : IsEnding "bootstrap-tmp" := ⟨by decide, by decide⟩

/-- What is beside a database and belongs to its old content are its companions. -/
theorem mem_staleEndings {ending : String} :
    ending ∈ Seeder.staleEndings ↔ ending ∈ companionEndings :=
  (show Seeder.staleEndings.Perm companionEndings by decide).mem_iff

theorem isEnding_stale {ending : String} (h : ending ∈ Seeder.staleEndings) :
    IsEnding ending ∧ ending.utf8ByteSize ≤ "bootstrap-tmp".utf8ByteSize := by
  simp only [Seeder.staleEndings, List.mem_cons, List.not_mem_nil, or_false] at h
  rcases h with rfl | rfl | rfl <;> exact ⟨⟨by decide, by decide⟩, by decide⟩

/-- The files that putting a snapshot in place changes. -/
def replaced (place : String) : List String :=
  [place, sibling place "bootstrap-tmp"] ++ companions place

end Path

namespace Seeder

open Files SeedStep

variable {d v : String} {s : Snapshot}

/-- The steps that put a snapshot in place, before it is stamped. -/
def placeSteps (databasePath : String) (s : Snapshot) : List SeedStep :=
  let copied := Path.sibling databasePath "bootstrap-tmp"
  [.makeParent databasePath, .copy s.path copied]
    ++ staleEndings.map (fun ending => .discard (Path.sibling databasePath ending))
    ++ [.rename copied databasePath]

/-- A snapshot that was put in place is alone there, and it is what it was unless it has
been copied to where it stood. -/
theorem placed_inv {σ : Type} [SettingsStore σ] {site site' : Site σ} (hs : site.files.Sound)
    (h : takeAll (placeSteps d s) site = (.ok (), site')) :
    site'.settings = site.settings ∧ ∃ fs number n,
      Grows (Path.stops "" (Path.parts d)) site.files fs ∧
      Within (Path.replaced (Path.place d)) fs site'.files ∧ site'.files.Laid d number ∧
      fs.names.get? (Path.place s.path) = some n ∧
      site'.files.file number
        = if Path.place s.path = Path.sibling (Path.place d) "bootstrap-tmp" then ⟨.text "", false⟩
          else fs.file n := by
  rw [placeSteps] at h
  obtain ⟨site₃, h, hrename⟩ := takeAll_append h
  obtain ⟨site₂, h, hdiscards⟩ := takeAll_append h
  obtain ⟨site₁, hparent, h⟩ := takeAll_cons h
  obtain ⟨site₂', hcopy, h⟩ := takeAll_cons h
  cases h
  obtain ⟨site₄, hrename, h⟩ := takeAll_cons hrename
  cases h
  obtain ⟨hparent, hsettings₁⟩ := onFiles_inv (Files.makeParent d) hparent
  obtain ⟨hcopy, hsettings₂⟩ := onFiles_inv (Files.copy s.path _) hcopy
  obtain ⟨hrename, hsettings₄⟩ := onFiles_inv (Files.rename _ d) hrename
  have hgrows := grows_makeParent hs d
  rw [hparent] at hgrows
  obtain ⟨hreach, hcopied, n, k, hn, hk, hfile⟩ := copy_inv hgrows.sound hcopy
  have hstale : ∀ e ∈ staleEndings, site₂.files.Reaches (Path.sibling d e) := by
    intro e he
    obtain ⟨hending, hle⟩ := Path.isEnding_stale he
    exact hcopied.reaches (hreach.sibling hgrows.sound Path.isEnding_copied hending hle)
  obtain ⟨hsettings₃, hdiscarded, hgone, -⟩ := discards_inv hcopied.sound hstale hdiscards
  obtain ⟨hreach', hplain, hrenamed, hstored, n', hn', hnew⟩ :=
    rename_inv hdiscarded.sound hrename
  -- The path of the database ends in a name, so that its siblings are beside its place.
  have hends := hreach'.endsInName hdiscarded.sound hplain
  have hplace : ∀ e ∈ staleEndings,
      Path.place (Path.sibling d e) = Path.sibling (Path.place d) e := by
    intro e he
    exact Path.place_sibling (Path.isEnding_stale he).1 hends
  have hcopyPlace := Path.place_sibling Path.isEnding_copied hends
  rw [hcopyPlace] at hcopied hk hfile hrenamed hn'
  have hdiscarded : Within (Path.companions (Path.place d)) site₂.files site₃.files := by
    refine hdiscarded.mono fun q hq => ?_
    obtain ⟨e, he, rfl⟩ := List.mem_map.1 hq
    exact (hplace e he) ▸ List.mem_map_of_mem (Path.mem_staleEndings.1 he)
  have hcopyAlone :
      Path.sibling (Path.place d) "bootstrap-tmp" ∉ Path.companions (Path.place d) := by
    simp [Path.companions, Path.companionEndings, Path.sibling]
  refine ⟨hsettings₄.trans (hsettings₃.trans (hsettings₂.trans hsettings₁)),
    site₁.files, n', n, hgrows, ?_, ⟨hrenamed.sound, ?_, hnew, ?_, ?_⟩, hn, ?_⟩
  · -- The frames of the steps add up.
    refine ((hcopied.mono ?_).trans (hdiscarded.mono ?_)).trans (hrenamed.mono ?_)
    · intro q hq
      simp only [List.mem_singleton] at hq
      simp [Path.replaced, hq]
    · intro q hq
      exact List.mem_append_right _ hq
    · intro q hq
      simp only [List.mem_cons, List.not_mem_nil, or_false] at hq
      rcases hq with rfl | rfl <;> simp [Path.replaced]
  · exact hrenamed.reaches hreach'
  · intro e he
    have hstale := Path.mem_staleEndings.2 he
    have hne : Path.sibling (Path.place d) e
        ∉ [Path.sibling (Path.place d) "bootstrap-tmp", Path.place d] := by
      simp only [List.mem_cons, List.not_mem_nil, or_false, not_or]
      exact ⟨fun heq => hcopyAlone (heq ▸ List.mem_map_of_mem he), Path.sibling_ne _ _⟩
    obtain ⟨hname, hdir⟩ := hplace e hstale ▸ hgone e hstale
    exact ⟨(hrenamed.names hne).trans hname, (hrenamed.isDirectory _).trans hdir⟩
  · -- The journal has a shorter name than the copy had.
    obtain ⟨hending, hle⟩ := Path.isEnding_stale (show "journal" ∈ staleEndings by decide)
    have hjournal := hreach.sibling hgrows.sound Path.isEnding_copied hending hle
    rw [← Path.place_sibling hending hends]
    exact hjournal.lastName_short hgrows.sound (Path.endsInName_sibling hending d)
  · have hkn : n' = k := by
      rw [hdiscarded.names hcopyAlone, hk] at hn'
      exact (Option.some.inj hn').symm
    rw [file, hstored, ← file, hkn, hdiscarded.files hcopyAlone hk]
    exact hfile

/-! ## Seeding -/

variable {site site' : Site Settings}

/-- The stamp of a snapshot is what it was once the snapshot is in place. -/
theorem Bundles.placed {fs fs₁ fs₂ : Files} {stamp : Option String} (hs : fs.Sound)
    (hpresent : fs.exists? s.path = true) (h : fs.Bundles s stamp)
    (hapart : s.schemaVersion = none → s.Apart d)
    (hgrows : Grows (Path.stops "" (Path.parts d)) fs fs₁)
    (hwithin : Within (Path.replaced (Path.place d)) fs₁ fs₂) : fs₂.Bundles s stamp := by
  refine ⟨h.given, fun hversion => ?_⟩
  have hpart := hapart hversion
  have hplain : ∀ {e}, e ∈ Path.companionEndings →
      fs₁.isDirectory (Path.sibling (Path.place s.path) e)
        = fs.isDirectory (Path.sibling (Path.place s.path) e) := by
    intro e he
    exact hgrows.isDirectory fun hmem => hpart.through _ hmem (List.mem_map_of_mem he)
  have hfile : Path.place s.path ∉ Path.replaced (Path.place d) := by
    simp only [Path.replaced, List.mem_append, List.mem_cons, List.not_mem_nil, or_false, not_or]
    exact ⟨⟨hpart.ne, hpart.copied⟩, hpart.companion⟩
  have hbeside : ∀ e ∈ Path.companionEndings,
      Path.sibling (Path.place s.path) e ∉ Path.replaced (Path.place d) := by
    intro e he
    simp only [Path.replaced, List.mem_append, List.mem_cons, List.not_mem_nil, or_false, not_or]
    refine ⟨⟨fun heq => ?_, fun heq => ?_⟩, Path.companion_not_companion hpart.ne he⟩
    · exact hpart.not_companion (heq ▸ List.mem_map_of_mem he)
    · -- The ending of the copy ends with another letter.
      have hreverse := congrArg (fun t => t.toList.reverse) heq
      simp only [Path.companionEndings, List.mem_cons, List.not_mem_nil, or_false] at he
      rcases he with rfl | rfl | rfl <;> simp [Path.sibling] at hreverse
  have hexists₁ : fs₁.exists? s.path = fs.exists? s.path := by
    obtain ⟨hreach, hthere⟩ := (exists?_iff hs).1 hpresent
    rw [hpresent, exists?_iff hgrows.sound, hgrows.names]
    exact ⟨hreach.mono hgrows.kept, hthere.imp_left (hgrows.kept _)⟩
  have hexists₂ : fs₂.exists? s.path = fs₁.exists? s.path :=
    exists?_congr hgrows.sound hwithin.sound hwithin.directories (hwithin.names hfile)
  refine (h.stored hversion).congr (hexists₂.trans hexists₁)
    ((hgrows.sameAt _).trans (hwithin.sameAt hfile))
    (fun _ he => (hwithin.isDirectory _).trans (hplain he))
    fun e he => (hgrows.sameAt _).trans (hwithin.sameAt (hbeside e he))

/-- What a stamp step leaves of the stamp that there is, if any. Without one, the copy must not
have a stamp that the log of the snapshot has taken away. -/
theorem seeded_of_placed {fs fs₁ : Files} {stamp : Option String} {number n : Nat}
    (hs : fs.Sound) (hpresent : fs.exists? s.path = true) (hbundles : fs.Bundles s stamp)
    (hapart : s.schemaVersion = none → s.Apart d)
    (hsmall : stamp = none → (Path.place d).utf8ByteSize ≤ databasePlaceLimit)
    (hbare : stamp = none → ∀ c, fs.contentAt (Path.place s.path) = some c → c.IsUnstamped)
    (hgrows : Grows (Path.stops "" (Path.parts d)) fs fs₁)
    (hwithin : Within (Path.replaced (Path.place d)) fs₁ site.files)
    (hlaid : site.files.Laid d number) (hn : fs₁.names.get? (Path.place s.path) = some n)
    (hfile : Path.place s.path ≠ Path.sibling (Path.place d) "bootstrap-tmp" →
      site.files.file number = fs₁.file n)
    (h : takeAll (stamp.map (SeedStep.stamp d)).toList site = (.ok (), site')) :
    site'.settings = site.settings ∧ site'.files.Seeded d s stamp := by
  have hplaced := Bundles.placed hs hpresent hbundles hapart hgrows hwithin
  cases stamp with
  | some version =>
    obtain ⟨mid, hstep, h⟩ := takeAll_cons h
    cases h
    obtain ⟨hwrite, hsettings⟩ := onFiles_inv (Files.writeStamp d version) hstep
    obtain ⟨hplaceSmall, halters, before, -, hdb⟩ := hlaid.writeStamp_inv hwrite
    have hexists : site'.files.exists? d = site.files.exists? d :=
      exists?_congr hlaid.sound halters.sound halters.directories halters.name
    have hthere := hexists.trans hlaid.present
    exact ⟨hsettings, halters.sound, hthere, .inr ⟨hthere, hplaceSmall, number, _, hdb, rfl⟩,
      hplaced.alters hlaid.sound hapart halters⟩
  | none =>
    -- The version was not given, so that the snapshot is one without a stamp.
    have hversion := hbundles.version_none
    cases h
    refine ⟨rfl, hlaid.sound, hlaid.present, ?_, hplaced⟩
    rw [hgrows.names] at hn
    obtain ⟨db, hdb, hstamp⟩ := hbare rfl _ (contentAt_of_named hn)
    have hdb' : (site.files.content number).database? = .ok db := by
      rw [content, hfile (hapart hversion).copied, hgrows.file]
      exact hdb
    exact .inr ⟨hlaid.present, hsmall rfl, number, db, hlaid.hasDatabase hdb', hstamp⟩

/-- A snapshot that was put in place has seeded the database, and its extra version is in the
settings. -/
theorem replaced_seeded (site : Site Settings) (hs : site.files.Sound) {m : VersionMarkers}
    (hpresent : site.files.exists? s.path = true) (hbundles : site.files.Bundles s m.schemaVersion)
    (hversion : m.extraVersion = s.extraVersion) (hapart : s.schemaVersion = none → s.Apart d)
    (hsmall : m.schemaVersion = none → (Path.place d).utf8ByteSize ≤ databasePlaceLimit)
    (hbare : m.schemaVersion = none →
      ∀ c, site.files.contentAt (Path.place s.path) = some c → c.IsUnstamped)
    (hlow : -(Text.maxSigned64 + 1 : Nat) ≤ s.extraVersion)
    (hhigh : s.extraVersion ≤ (Text.maxSigned64 : Nat))
    (h : takeAll ((fresh d v (some s)).replaceSteps s m) site = (.ok (), site')) :
    site'.files.Seeded d s m.schemaVersion ∧
      KeyStore.extraVersion site'.settings = .ok s.extraVersion := by
  have hsteps : (fresh d v (some s)).replaceSteps s m = placeSteps d s
      ++ (m.schemaVersion.map (SeedStep.stamp d)).toList
      ++ [.record (.extraVersion m.extraVersion), .record (.modelSetVersion v),
        .record (.lastSync s.updatedAt)] := rfl
  rw [hsteps] at h
  obtain ⟨site₂, h, hrecords⟩ := takeAll_append h
  obtain ⟨site₁, hplace, hstamp⟩ := takeAll_append h
  obtain ⟨-, fs, number, n, hgrows, hwithin, hlaid, hn, hfile⟩ := placed_inv hs hplace
  obtain ⟨-, hseeded⟩ := seeded_of_placed hs hpresent hbundles hapart hsmall hbare hgrows hwithin
    hlaid hn (fun hne => hfile.trans (if_neg hne)) hstamp
  obtain ⟨hfiles, hextra⟩ := records_inv hrecords
  rw [hversion] at hextra
  exact ⟨hfiles ▸ hseeded, Settings.extraVersion_recorded hlow hhigh hextra⟩

/-- The first run of a seeder leaves a seeded database and the extra version of the snapshot,
unless it fails. Where the snapshot has no stamp, its file must not have one that its log has
taken away, and it must be possible to open the local database. -/
theorem run_first (hs : site.files.Sound) (hapart : s.schemaVersion = none → s.Apart d)
    (hsmall : site.files.Bundles s none → (Path.place d).utf8ByteSize ≤ databasePlaceLimit)
    (hbare : site.files.Bundles s none →
      ∀ c, site.files.contentAt (Path.place s.path) = some c → c.IsUnstamped)
    (hlow : -(Text.maxSigned64 + 1 : Nat) ≤ s.extraVersion)
    (hhigh : s.extraVersion ≤ (Text.maxSigned64 : Nat)) {outcome : SeedOutcome} {b : Seeder}
    (h : (fresh d v (some s)).run site = (.ok outcome, b, site')) :
    (∃ stamp, site'.files.Seeded d s stamp) ∧
      KeyStore.extraVersion site'.settings = .ok s.extraVersion := by
  rw [run] at h
  split at h
  · cases h
  · rename_i steps outcome' fs hplan
    rcases plan_inv hs hapart hplan with ⟨rfl, hseeded, hextra⟩ |
      ⟨m, rfl, hsound, hversion, hbefore, hbundles, hsame, hpresent⟩
    · cases h
      exact ⟨hseeded, hextra⟩
    · split at h
      · rename_i site'' htake
        cases h
        have hbare' : m.schemaVersion = none →
            ∀ c, fs.contentAt (Path.place s.path) = some c → c.IsUnstamped := by
          intro hnone c hc
          have hbefore : site.files.Bundles s none := hnone ▸ hbefore
          exact hbare hbefore c ((hsame hbefore.version_none).content.symm.trans hc)
        obtain ⟨hseeded, hextra⟩ := replaced_seeded { site with files := fs } hsound
          hpresent hbundles hversion hapart (fun hnone => hsmall (hnone ▸ hbefore)) hbare' hlow hhigh
          htake
        exact ⟨⟨_, hseeded⟩, hextra⟩
      · cases h

end Seeder

end Replica
