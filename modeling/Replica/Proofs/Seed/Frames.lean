/-
Replica.Proofs.Seed.Frames — what a task on files leaves alone.

`Within` says that only the files at some places change. Whatever is done to one database
changes its file and its companions at most, and the file keeps its name. `Alters` is this
frame, and `Tidies` says in addition that the file stays as it is, and so do its journal and
its log, unless it is empty. `SameAt` is what a frame gives for a place outside it.

All frames keep files as they can be: what is written, made or removed, each name has a file
of its own (`Sound.setFile`, `Sound.createFile`, `Sound.erase`).
-/
import Replica.Proofs.Seed.Paths

namespace Replica

namespace FileTask

variable {α β : Type}

theorem bind_apply (x : FileTask α) (f : α → FileTask β) (fs : Files) :
    (x >>= f) fs = match x fs with
      | (.ok a, fs') => f a fs'
      | (.error e, fs') => (.error e, fs') := by
  show StateT.bind (m := Id) x (ExceptT.bindCont f) fs = _
  unfold StateT.bind
  rcases x fs with ⟨_ | a, fs'⟩ <;> rfl

@[simp] theorem pure_apply (a : α) (fs : Files) : (pure a : FileTask α) fs = (.ok a, fs) := rfl

@[simp] theorem throw_apply (e : StoreError) (fs : Files) :
    (throw e : FileTask α) fs = (.error e, fs) := rfl

@[simp] theorem get_apply (fs : Files) : (get : FileTask Files) fs = (.ok fs, fs) := rfl

@[simp] theorem set_apply (fs' fs : Files) : (set fs' : FileTask PUnit) fs = (.ok ⟨⟩, fs') := rfl

@[simp] theorem modify_apply (f : Files → Files) (fs : Files) :
    (modify f : FileTask PUnit) fs = (.ok ⟨⟩, f fs) := rfl

end FileTask

/-! ## Companions -/

namespace Path

/-- The endings of the companions of a database. -/
def companionEndings : List String := ["journal", "wal", "shm"]

/-- The companions of the database at a place. -/
def companions (place : String) : List String := companionEndings.map (sibling place)

theorem sibling_ne (place ending : String) : sibling place ending ≠ place := by
  intro h
  have := congrArg (fun s => s.toList.length) h
  simp [sibling] at this

theorem sibling_left_inj {p q ending : String} (h : sibling p ending = sibling q ending) :
    p = q := by
  simpa [sibling] using h

theorem not_companion_self (place : String) : place ∉ companions place := by
  simp [companions, companionEndings, (sibling_ne place _).symm]

/-- Every companion belongs to one database. -/
theorem companion_not_companion {p q ending : String} (h : p ≠ q) (he : ending ∈ companionEndings) :
    sibling p ending ∉ companions q := by
  intro hmem
  obtain ⟨ending', he', heq⟩ := List.mem_map.1 hmem
  -- Endings of companions of two kinds differ in their last letters.
  simp only [companionEndings, List.mem_cons, List.not_mem_nil, or_false] at he he'
  have hreverse := congrArg (fun s => s.toList.reverse) heq
  rcases he with rfl | rfl | rfl <;> rcases he' with rfl | rfl | rfl <;>
    first
      | exact h (sibling_left_inj heq).symm
      | simp [sibling] at hreverse

/-- The endings of the companions that belong to the content of a database. -/
def contentEndings : List String := ["journal", "wal"]

theorem companionEndings_of_content {ending : String} (h : ending ∈ contentEndings) :
    ending ∈ companionEndings := by
  simp only [contentEndings, List.mem_cons, List.not_mem_nil, or_false] at h
  rcases h with rfl | rfl <;> decide

/-- Companions of one database of different kinds are different files. -/
theorem sibling_right_inj {p ending ending' : String} :
    sibling p ending = sibling p ending' ↔ ending = ending' := by
  simp only [sibling, String.append_right_inj]

theorem self_not_mem (place ending : String) : place ∉ [sibling place ending] := by
  simpa using (sibling_ne place ending).symm

theorem sibling_not_mem_self (place ending : String) : sibling place ending ∉ [place] := by
  simpa using sibling_ne place ending

theorem sibling_not_mem {ending ending' : String} (h : ending ≠ ending') (place : String) :
    sibling place ending ∉ [sibling place ending'] := by
  simpa [sibling_right_inj] using h

end Path

namespace Files

/-! ## Soundness -/

variable {fs fs' : Files}

theorem Sound.erase (hs : fs.Sound) (p : String) : (fs.erase p).Sound where
  numbered h := by
    rw [Files.erase, Dict.get?_erase] at h
    split at h
    · simp at h
    · exact hs.numbered h
  injective hp hq := by
    simp only [Files.erase, Dict.get?_erase] at hp hq
    split at hp
    · simp at hp
    · split at hq
      · simp at hq
      · exact hs.injective hp hq
  plain h := by
    rw [Files.erase, Dict.get?_erase] at h
    split at h
    · simp at h
    · exact hs.plain h
  above h := hs.above h

theorem Sound.setFile (hs : fs.Sound) (number : Nat) (f : StoredFile) :
    (fs.setFile number f).Sound where
  numbered h := by
    rw [Files.setFile, List.length_set]
    exact hs.numbered h
  injective := hs.injective
  plain := hs.plain
  above := hs.above

theorem Sound.createFile (hs : fs.Sound) {p : String} (hp : fs.isDirectory p = false)
    (f : StoredFile) : (fs.createFile p f).Sound where
  numbered h := by
    simp only [Files.createFile, Dict.get?_insert, List.length_append, List.length_singleton] at h ⊢
    split at h
    · cases h
      omega
    · have := hs.numbered h
      omega
  injective hq hr := by
    simp only [Files.createFile, Dict.get?_insert] at hq hr
    split at hq <;> split at hr
    · exact ‹p = _›.symm.trans ‹p = _›
    · cases hq
      exact absurd (hs.numbered hr) (by omega)
    · cases hr
      exact absurd (hs.numbered hq) (by omega)
    · exact hs.injective hq hr
  plain h := by
    simp only [Files.createFile, Dict.get?_insert] at h
    split at h
    · rename_i e
      exact e ▸ hp
    · exact hs.plain h
  above h := hs.above h

theorem Sound.create (hs : fs.Sound) {p : String} (hp : fs.isDirectory p = false)
    (c : FileContent) : (fs.create p c).Sound :=
  hs.createFile hp ⟨c, false⟩

/-- No files at all, in the directory at the top. -/
theorem sound_within : (within "").Sound where
  numbered h := by cases h
  injective h := by cases h
  plain h := by cases h
  above {place} h := by
    have htop : place = "" := by simpa [within, isDirectory] using h
    rw [htop]
    exact isDirectory_top _

theorem file_setFile_of_ne {number other : Nat} (h : other ≠ number) (f : StoredFile) :
    (fs.setFile number f).file other = fs.file other := by
  simp [setFile, file, List.getElem?_set_ne (Ne.symm h)]

theorem file_createFile {number : Nat} (h : number < fs.stored.length) (p : String)
    (f : StoredFile) : (fs.createFile p f).file number = fs.file number := by
  simp [createFile, file, List.getElem?_append_left h]

theorem contentAt_of_named {p : String} {number : Nat} (h : fs.names.get? p = some number) :
    fs.contentAt p = some (fs.content number) := by
  rw [contentAt, h, Option.map_some]

/-! ## What stays as it is -/

/-- A place has the file that it had, and the file is as it was. -/
structure SameAt (place : String) (fs fs' : Files) : Prop where
  name : fs'.names.get? place = fs.names.get? place
  file : ∀ {number}, fs.names.get? place = some number → fs'.file number = fs.file number

theorem SameAt.refl (place : String) (fs : Files) : SameAt place fs fs := ⟨rfl, fun _ => rfl⟩

theorem SameAt.trans {place : String} {fs'' : Files} (h : SameAt place fs fs')
    (h' : SameAt place fs' fs'') : SameAt place fs fs'' :=
  ⟨h'.name.trans h.name, fun hname => (h'.file (h.name.trans hname)).trans (h.file hname)⟩

theorem SameAt.content_eq {place : String} (h : SameAt place fs fs') {number : Nat}
    (hname : fs.names.get? place = some number) : fs'.content number = fs.content number := by
  rw [content, content, h.file hname]

theorem SameAt.content {place : String} (h : SameAt place fs fs') :
    fs'.contentAt place = fs.contentAt place := by
  rw [contentAt, contentAt, h.name]
  cases hname : fs.names.get? place with
  | none => rfl
  | some number => rw [Option.map_some, Option.map_some, h.content_eq hname]

/-! ## Frames -/

/-- Only the files at some places have changed, and no directory. -/
structure Within (places : List String) (fs fs' : Files) : Prop where
  sound : fs'.Sound
  directories : fs'.directories = fs.directories
  held : fs'.heldLogs = fs.heldLogs
  names : ∀ {q}, q ∉ places → fs'.names.get? q = fs.names.get? q
  files : ∀ {q}, q ∉ places → ∀ {number}, fs.names.get? q = some number →
    fs'.file number = fs.file number

variable {places : List String}

theorem Within.refl (hs : fs.Sound) (places : List String) : Within places fs fs :=
  ⟨hs, rfl, rfl, fun _ => rfl, fun _ _ _ => rfl⟩

theorem Within.mono {places' : List String} (h : Within places fs fs')
    (hmem : ∀ q ∈ places, q ∈ places') : Within places' fs fs' where
  sound := h.sound
  directories := h.directories
  held := h.held
  names hq := h.names fun hmem' => hq (hmem _ hmem')
  files hq := h.files fun hmem' => hq (hmem _ hmem')

theorem Within.trans {fs'' : Files} (h : Within places fs fs') (h' : Within places fs' fs'') :
    Within places fs fs'' where
  sound := h'.sound
  directories := h'.directories.trans h.directories
  held := h'.held.trans h.held
  names hq := (h'.names hq).trans (h.names hq)
  files hq _ hname := (h'.files hq ((h.names hq).trans hname)).trans (h.files hq hname)

theorem Within.isDirectory (h : Within places fs fs') (q : String) :
    fs'.isDirectory q = fs.isDirectory q := by
  rw [Files.isDirectory, Files.isDirectory, h.directories]

theorem Within.sameAt (h : Within places fs fs') {q : String} (hq : q ∉ places) :
    SameAt q fs fs' :=
  ⟨h.names hq, h.files hq⟩

theorem Within.reaches (h : Within places fs fs') {path : String} (hr : fs.Reaches path) :
    fs'.Reaches path :=
  hr.mono fun q hq => (h.isDirectory q).trans hq

theorem within_erase (hs : fs.Sound) (p : String) : Within [p] fs (fs.erase p) where
  sound := hs.erase p
  directories := rfl
  held := rfl
  names hq := by rw [erase, Dict.get?_erase, if_neg fun e => hq (List.mem_singleton.2 e.symm)]
  files _ _ _ := rfl

theorem within_setFile (hs : fs.Sound) {p : String} {number : Nat}
    (hname : fs.names.get? p = some number) (f : StoredFile) :
    Within [p] fs (fs.setFile number f) where
  sound := hs.setFile number f
  directories := rfl
  held := rfl
  names _ := rfl
  files hq _ hother := by
    refine file_setFile_of_ne (fun e => hq ?_) f
    subst e
    exact List.mem_singleton.2 (hs.injective hother hname)

theorem within_setContent (hs : fs.Sound) {p : String} {number : Nat}
    (hname : fs.names.get? p = some number) (c : FileContent) :
    Within [p] fs (fs.setContent number c) :=
  within_setFile hs hname _

theorem within_createFile (hs : fs.Sound) {p : String} (hplain : fs.isDirectory p = false)
    (f : StoredFile) : Within [p] fs (fs.createFile p f) where
  sound := hs.createFile hplain f
  directories := rfl
  held := rfl
  names hq := by
    rw [createFile, Dict.get?_insert, if_neg fun e => hq (List.mem_singleton.2 e.symm)]
  files _ _ hname := file_createFile (hs.numbered hname) p f

/-! ### Databases and their companions -/

/-- A database and its companions change at most, and its file keeps its name. -/
structure Alters (place : String) (fs fs' : Files) : Prop
    extends Within (place :: Path.companions place) fs fs' where
  name : fs'.names.get? place = fs.names.get? place

/-- Only companions of a database change, and none that belongs to its content unless the
database is empty. -/
structure Tidies (place : String) (fs fs' : Files) : Prop
    extends Within (Path.companions place) fs fs' where
  beside : ∀ {number}, fs.names.get? place = some number →
    (fs.content number).isOccupied = true →
    ∀ ending ∈ Path.contentEndings, SameAt (Path.sibling place ending) fs fs'

variable {place : String}

theorem Alters.sameAt_other (h : Alters place fs fs') {q : String} (hq : q ≠ place)
    (hcompanion : q ∉ Path.companions place) : SameAt q fs fs' := by
  refine h.toWithin.sameAt fun hmem => ?_
  rcases List.mem_cons.1 hmem with e | hmem
  · exact hq e
  · exact hcompanion hmem

theorem Alters.trans {fs'' : Files} (h : Alters place fs fs') (h' : Alters place fs' fs'') :
    Alters place fs fs'' :=
  ⟨h.toWithin.trans h'.toWithin, h'.name.trans h.name⟩

theorem Tidies.refl (hs : fs.Sound) (place : String) : Tidies place fs fs :=
  ⟨.refl hs _, fun _ _ _ _ => .refl _ _⟩

/-- What is at the place of the database stays. -/
theorem Tidies.sameAt (h : Tidies place fs fs') : SameAt place fs fs' :=
  h.toWithin.sameAt (Path.not_companion_self place)

theorem Tidies.file (h : Tidies place fs fs') {number : Nat}
    (hname : fs.names.get? place = some number) : fs'.content number = fs.content number :=
  h.sameAt.content_eq hname

theorem Tidies.alters (h : Tidies place fs fs') : Alters place fs fs' :=
  ⟨h.toWithin.mono fun _ => List.mem_cons_of_mem place, h.sameAt.name⟩

/-- The file at a place is as it was, and if it is not empty, so are the companions that belong
to its content. No log was taken or let go. -/
structure Spared (place : String) (fs fs' : Files) : Prop where
  sound : fs'.Sound
  held : fs'.heldLogs = fs.heldLogs
  file : SameAt place fs fs'
  beside : ∀ {number}, fs.names.get? place = some number →
    (fs.content number).isOccupied = true →
    ∀ ending ∈ Path.contentEndings, SameAt (Path.sibling place ending) fs fs'

theorem Spared.refl (hs : fs.Sound) (place : String) : Spared place fs fs :=
  ⟨hs, rfl, .refl place fs, fun _ _ _ _ => .refl _ _⟩

theorem Spared.trans {fs'' : Files} (h : Spared place fs fs') (h' : Spared place fs' fs'') :
    Spared place fs fs'' := by
  refine ⟨h'.sound, h'.held.trans h.held, h.file.trans h'.file, fun {number} hname ho ending he => ?_⟩
  have hname' : fs'.names.get? place = some number := h.file.name.trans hname
  have ho' : (fs'.content number).isOccupied = true := by rwa [h.file.content_eq hname]
  exact (h.beside hname ho ending he).trans (h'.beside hname' ho' ending he)

/-- What changes neither a database nor its companions spares it. -/
theorem Within.spared (h : Within places fs fs') (hplace : place ∉ places)
    (hbeside : ∀ ending ∈ Path.contentEndings, Path.sibling place ending ∉ places) :
    Spared place fs fs' :=
  ⟨h.sound, h.held, h.sameAt hplace, fun _ _ ending he => h.sameAt (hbeside ending he)⟩

theorem Tidies.spared (h : Tidies place fs fs') : Spared place fs fs' :=
  ⟨h.sound, h.held, h.sameAt, h.beside⟩

theorem Tidies.trans {fs'' : Files} (h : Tidies place fs fs') (h' : Tidies place fs' fs'') :
    Tidies place fs fs'' :=
  ⟨h.toWithin.trans h'.toWithin, (h.spared.trans h'.spared).beside⟩

/-- Removing a companion of an empty database changes no more than that. -/
theorem tidies_erase (hs : fs.Sound) {number : Nat} (hname : fs.names.get? place = some number)
    (hempty : (fs.content number).isOccupied = false) {ending : String}
    (he : ending ∈ Path.companionEndings) :
    Tidies place fs (fs.erase (Path.sibling place ending)) where
  toWithin := (within_erase hs _).mono fun q hq =>
    List.mem_singleton.1 hq ▸ List.mem_map_of_mem he
  beside hname' ho := by
    cases hname.symm.trans hname'
    rw [hempty] at ho
    cases ho

/-- A change of the index of a log is no more than that. -/
theorem tidies_index (h : Within [Path.sibling place "shm"] fs fs') : Tidies place fs fs' where
  toWithin := h.mono fun _ hq => List.mem_singleton.1 hq ▸ List.mem_map_of_mem (by decide)
  beside _ _ ending he := by
    refine h.sameAt (Path.sibling_not_mem ?_ place)
    rintro rfl
    exact absurd he (by decide)

/-- Writing to the file of a database alters that database. -/
theorem alters_setContent (hs : fs.Sound) {number : Nat}
    (hname : fs.names.get? place = some number) (c : FileContent) :
    Alters place fs (fs.setContent number c) := by
  refine ⟨(within_setContent hs hname c).mono fun q hq => ?_, rfl⟩
  exact List.mem_cons.2 (.inl (List.mem_singleton.1 hq))

/-- So does a change of one of its companions. -/
theorem Within.alters {ending : String} (he : ending ∈ Path.companionEndings)
    (h : Within [Path.sibling place ending] fs fs') : Alters place fs fs' where
  toWithin := h.mono fun _ hq =>
    List.mem_cons_of_mem _ (List.mem_singleton.1 hq ▸ List.mem_map_of_mem he)
  name := h.names (Path.self_not_mem place ending)

end Files

end Replica
