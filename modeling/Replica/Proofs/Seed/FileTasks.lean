/-
Replica.Proofs.Seed.FileTasks — what plain tasks on files do.

Making the directory of a file adds directories that its path leads through, and changes
nothing else (`grows_makeParent`); along a path that leads to a file there is none to be made
(`makeParent_reached`). Copying, discarding and renaming change the files at the places they
are given at most, whether they fail or not (`within_copy`, `within_discard`, `rename_error`);
if they do not fail they do what they are for (`copy_inv`, `discard_inv`, `rename_inv`).
-/
import Replica.Proofs.Seed.Frames

namespace Replica

namespace Path

/-! ## Places on the way -/

/-- The places that parts lead through, from a directory to their end. -/
def stops (here : String) : List String → List String
  | [] => [here]
  | part :: rest =>
    if isStill part then stops here rest
    else if part = ".." then here :: stops (above here) rest
    else here :: stops (child here part) rest

theorem along_mem_stops (here : String) (ps : List String) : along here ps ∈ stops here ps := by
  induction ps generalizing here with
  | nil => simp [along, stops]
  | cons part ps ih =>
    rw [along, stops]
    split
    · exact ih here
    · split
      · exact List.mem_cons_of_mem _ (ih _)
      · exact List.mem_cons_of_mem _ (ih _)

theorem stops_moves (here : String) (ps : List String) :
    stops here (ps.filter fun part => !isStill part) = stops here ps := by
  induction ps generalizing here with
  | nil => rfl
  | cons part ps ih =>
    by_cases hstill : isStill part = true
    · simp [stops, hstill, ih]
    · simp [stops, hstill, ih]

theorem mem_stops (here : String) (ps : List String) : here ∈ stops here ps := by
  induction ps with
  | nil => simp [stops]
  | cons part ps ih =>
    rw [stops]
    split
    · exact ih
    · split <;> exact List.mem_cons_self ..

/-- Less far, parts lead through no more places. -/
theorem stops_dropLast {q : String} : ∀ {ps : List String} {here : String},
    q ∈ stops here ps.dropLast → q ∈ stops here ps
  | [], here, h => h
  | [part], here, h => by
    have hq : q = here := by simpa [stops] using h
    exact hq ▸ mem_stops here [part]
  | part :: next :: ps, here, h => by
    rw [List.dropLast_cons_cons, stops] at h
    rw [stops]
    by_cases hstill : isStill part = true
    · rw [if_pos hstill] at h ⊢
      exact stops_dropLast h
    · rw [if_neg hstill] at h ⊢
      split at h <;> rename_i hback
      · rw [if_pos hback]
        exact (List.mem_cons.1 h).elim (fun e => e ▸ List.mem_cons_self ..)
          fun h => List.mem_cons_of_mem _ (stops_dropLast h)
      · rw [if_neg hback]
        exact (List.mem_cons.1 h).elim (fun e => e ▸ List.mem_cons_self ..)
          fun h => List.mem_cons_of_mem _ (stops_dropLast h)

end Path

namespace Files

variable {fs fs' : Files}

/-! ## Directories -/

/-- Directories were added at some places, and nothing else has changed. -/
structure Grows (places : List String) (fs fs' : Files) : Prop where
  sound : fs'.Sound
  names : fs'.names = fs.names
  stored : fs'.stored = fs.stored
  held : fs'.heldLogs = fs.heldLogs
  kept : ∀ q, fs.isDirectory q = true → fs'.isDirectory q = true
  added : ∀ q, fs'.isDirectory q = true → fs.isDirectory q = true ∨ q ∈ places

theorem Grows.refl (hs : fs.Sound) (places : List String) : Grows places fs fs :=
  ⟨hs, rfl, rfl, rfl, fun _ h => h, fun _ h => .inl h⟩

theorem Grows.mono {places places' : List String} (h : Grows places fs fs')
    (hmem : ∀ q ∈ places, q ∈ places') : Grows places' fs fs' :=
  { h with added := fun q hq => (h.added q hq).imp_right (hmem q) }

theorem Grows.trans {places : List String} {fs'' : Files} (h : Grows places fs fs')
    (h' : Grows places fs' fs'') : Grows places fs fs'' where
  sound := h'.sound
  names := h'.names.trans h.names
  stored := h'.stored.trans h.stored
  held := h'.held.trans h.held
  kept q hq := h'.kept q (h.kept q hq)
  added q hq := (h'.added q hq).elim (h.added q) .inr

theorem Grows.file {places : List String} (h : Grows places fs fs') (number : Nat) :
    fs'.file number = fs.file number := by
  rw [Files.file, Files.file, h.stored]

theorem Grows.sameAt {places : List String} (h : Grows places fs fs') (q : String) :
    SameAt q fs fs' :=
  ⟨by rw [h.names], fun _ => h.file _⟩

theorem Grows.spared {places : List String} (h : Grows places fs fs') (place : String) :
    Spared place fs fs' :=
  ⟨h.sound, h.held, h.sameAt place, fun _ _ _ _ => h.sameAt _⟩

theorem Grows.isDirectory {places : List String} (h : Grows places fs fs') {q : String}
    (hq : q ∉ places) : fs'.isDirectory q = fs.isDirectory q := by
  rw [Bool.eq_iff_iff]
  exact ⟨fun hd => (h.added q hd).resolve_right hq, h.kept q⟩

/-- Making one directory in another one. -/
theorem grows_directory (hs : fs.Sound) {here part : String} (hhere : fs.isDirectory here = true)
    (hpart : '/' ∉ part.toList) (hfree : fs.names.contains (Path.child here part) = false) :
    Grows [Path.child here part] fs
      { fs with directories := fs.directories ++ [Path.child here part] } := by
  have hdir : ∀ q, ({ fs with directories := fs.directories ++ [Path.child here part] } :
      Files).isDirectory q = (fs.isDirectory q || decide (q = Path.child here part)) := by
    intro q
    simp only [Files.isDirectory, List.contains_eq_mem, List.mem_append, List.mem_singleton,
      Bool.decide_or, Bool.or_assoc]
  have hkept : ∀ q, fs.isDirectory q = true → ({ fs with
      directories := fs.directories ++ [Path.child here part] } : Files).isDirectory q = true := by
    intro q hq
    rw [hdir, hq, Bool.true_or]
  refine ⟨⟨hs.numbered, hs.injective, ?_, ?_⟩, rfl, rfl, rfl, hkept, ?_⟩
  · intro place number hname
    have hne : place ≠ Path.child here part := by
      rintro rfl
      have hname : fs.names.get? (Path.child here part) = some number := hname
      simp [Dict.contains, hname] at hfree
    rw [hdir, hs.plain hname]
    simp [hne]
  · intro place hplace
    rw [hdir, Bool.or_eq_true, decide_eq_true_eq] at hplace
    rcases hplace with hold | rfl
    · exact hkept _ (hs.above hold)
    · rw [Path.above_child hpart]
      exact hkept _ hhere
  · intro q hq
    rw [hdir, Bool.or_eq_true, decide_eq_true_eq] at hq
    exact hq.imp_right List.mem_singleton.2

/-- Directories are made only where the parts lead through. -/
theorem grows_makeAlong : ∀ {ps : List String} {here : String} {fs : Files},
    (∀ part ∈ ps, '/' ∉ part.toList ∧ Path.isStill part = false) → fs.Sound →
      fs.isDirectory here = true → Grows (Path.stops here ps) fs (fs.makeAlong here ps).2
  | [], here, fs, _, hs, _ => Grows.refl hs _
  | part :: rest, here, fs, hps, hs, hhere => by
    obtain ⟨hpart, hmoves⟩ := hps part (List.mem_cons_self ..)
    have hrest := fun x hx => hps x (List.mem_cons_of_mem part hx)
    rw [makeAlong, Path.stops, if_neg (by simp [hmoves])]
    split
    · exact (grows_makeAlong hrest hs (hs.above hhere)).mono fun q => List.mem_cons_of_mem here
    · dsimp only
      split
      · rename_i hdirectory
        exact (grows_makeAlong hrest hs hdirectory).mono fun q => List.mem_cons_of_mem here
      · split
        · exact Grows.refl hs _
        · rename_i hfree
          have hfree : fs.names.contains (Path.child here part) = false := by
            simp only [Bool.or_eq_true, not_or, Bool.not_eq_true] at hfree
            exact hfree.2
          have hmade := grows_directory hs hhere hpart hfree
          have hstop := Path.mem_stops (Path.child here part) rest
          refine (hmade.mono ?_).trans
            ((grows_makeAlong hrest hmade.sound ?_).mono fun q => List.mem_cons_of_mem here)
          · intro q hq
            rw [List.mem_singleton.1 hq]
            exact List.mem_cons_of_mem here hstop
          · simp [Files.isDirectory]

/-- What making the directory of a file leaves, whether or not it fails. -/
theorem grows_makeParent (hs : fs.Sound) (path : String) :
    Grows (Path.stops "" (Path.parts path)) fs (makeParent path fs).2 := by
  have hmoves : ∀ part ∈ (Path.moves path).dropLast,
      '/' ∉ part.toList ∧ Path.isStill part = false := by
    intro part hpart
    obtain ⟨hmem, hstill⟩ := List.mem_filter.1 ((List.dropLast_sublist _).mem hpart)
    exact ⟨Path.no_slash_of_mem_parts hmem, by simpa using hstill⟩
  rw [makeParent]
  split
  · exact Grows.refl hs _
  · refine (grows_makeAlong hmoves hs fs.isDirectory_top).mono fun q hq => ?_
    have hq := Path.stops_dropLast hq
    rwa [Path.moves, Path.stops_moves] at hq

/-- Along a way to a directory there is none to be made. -/
theorem Walk.makeAlong_eq (hs : fs.Sound) {here place : String} {ps : List String}
    (h : Walk fs here ps place) (hhere : fs.isDirectory here = true)
    (hplace : fs.isDirectory place = true) :
    fs.makeAlong here (ps.filter fun part => !Path.isStill part) = (.ok (), fs) := by
  induction h with
  | arrived => rfl
  | still hstill _ ih =>
    rw [List.filter_cons_of_neg (by simp [hstill])]
    exact ih hhere hplace
  | back _ ih =>
    rw [List.filter_cons_of_pos (by decide), makeAlong, if_pos rfl]
    exact ih (hs.above hhere) hplace
  | enter hname hshort hdirectory _ ih =>
    rw [List.filter_cons_of_pos (by simp [hname.1]), makeAlong, if_neg hname.2]
    simp only [hdirectory, if_true]
    exact ih hdirectory hplace
  | last hname hshort =>
    rw [List.filter_cons_of_pos (by simp [hname.1]), makeAlong, if_neg hname.2]
    simp [hplace, makeAlong]

/-- The directory of a file that is reached is there. -/
theorem makeParent_reached (hs : fs.Sound) {path : String} (h : fs.Reaches path)
    (hplain : fs.isDirectory (Path.place path) = false) : makeParent path fs = (.ok (), fs) := by
  obtain ⟨ps, x, hparts, hname⟩ := h.endsInName hs hplain
  have way := h.way
  rw [hparts] at way
  obtain ⟨directory, hbefore, hdirectory, -⟩ := way.before hs fs.isDirectory_top
  have hparent : (Path.moves path).dropLast = ps.filter fun part => !Path.isStill part := by
    rw [Path.moves, hparts, List.filter_append, List.filter_cons_of_pos (by simp [hname.1]),
      List.filter_nil, List.dropLast_concat]
  have htext : (Path.moves path).dropLast.any Path.hasNul = false := by
    refine List.any_eq_false.2 fun part hpart => ?_
    have hmem := (List.mem_filter.1 ((List.dropLast_sublist _).mem hpart)).1
    simp [Path.hasNul_of_mem_parts h.text hmem]
  rw [makeParent]
  simp only [htext, Bool.false_or, decide_eq_true_eq, if_neg h.length]
  rw [hparent, hbefore.makeAlong_eq hs fs.isDirectory_top hdirectory]

/-! ## Files -/

/-- A path that leads to a file leads to the one at its place. -/
theorem find_file (hs : fs.Sound) {path place : String} {number : Nat}
    (h : fs.find path = .ok (.file place number)) : fs.Reaches path ∧ place = Path.place path ∧
      fs.isDirectory (Path.place path) = false ∧
      fs.names.get? (Path.place path) = some number := by
  obtain ⟨hreach, htarget⟩ := (find_iff hs).1 h
  rw [targetAt] at htarget
  split at htarget
  · cases htarget
  · rename_i hplain
    split at htarget
    · rename_i number' hname
      cases htarget
      exact ⟨hreach, rfl, by simpa using hplain, hname⟩
    · cases htarget

/-- A path that leads to a vacant place leads to its own. -/
theorem find_vacant (hs : fs.Sound) {path place : String} (h : fs.find path = .ok (.vacant place)) :
    fs.Reaches path ∧ place = Path.place path ∧ fs.isDirectory (Path.place path) = false ∧
      fs.names.get? (Path.place path) = none := by
  obtain ⟨hreach, htarget⟩ := (find_iff hs).1 h
  rw [targetAt] at htarget
  split at htarget
  · cases htarget
  · rename_i hplain
    split at htarget
    · cases htarget
    · rename_i hname
      cases htarget
      exact ⟨hreach, rfl, by simpa using hplain, hname⟩

theorem copy_apply (source target : String) (fs : Files) : copy source target fs =
    match fs.find source with
    | .ok (.file _ n) =>
      match fs.find target with
      | .ok (.file _ k) =>
        if fs.isReadOnly k then
          (.error (.bootstrap (.copyBlocked source .permissionDenied)), fs)
        else (.ok (), (fs.setContent k (.text "")).setFile k ((fs.setContent k (.text "")).file n))
      | .ok (.vacant new) => (.ok (), fs.createFile new (fs.file n))
      | .ok (.directory _) => (.error (.bootstrap (.copyBlocked source .isDirectory)), fs)
      | .error fault => (.error (.bootstrap (.copyBlocked source fault)), fs)
    | .ok (.directory _) => (.error (.bootstrap (.snapshotNotRegular source)), fs)
    | .ok (.vacant _) => (.error (.bootstrap (.copyBlocked source .missing)), fs)
    | .error fault => (.error (.bootstrap (.copyBlocked source fault)), fs) := by
  unfold copy
  simp only [FileTask.bind_apply, FileTask.get_apply]
  rcases fs.find source with fault | (old | ⟨old, n⟩ | old)
  · rfl
  · rfl
  · rcases fs.find target with fault | (new | ⟨new, k⟩ | new)
    · rfl
    · rfl
    · by_cases hsealed : fs.isReadOnly k = true <;> simp [hsealed]
    · rfl
  · rfl

theorem copy_cases {source target : String} (h : copy source target fs = (.ok (), fs')) :
    ∃ old n, fs.find source = .ok (.file old n) ∧
      ((∃ new k, fs.find target = .ok (.file new k) ∧ fs.isReadOnly k = false ∧
          fs' = (fs.setContent k (.text "")).setFile k ((fs.setContent k (.text "")).file n)) ∨
        ∃ new, fs.find target = .ok (.vacant new) ∧ fs' = fs.createFile new (fs.file n)) := by
  rw [copy_apply] at h
  split at h
  · rename_i old n hsource
    refine ⟨old, n, hsource, ?_⟩
    split at h
    · rename_i new k htarget
      split at h
      · cases h
      · rename_i hwritable
        cases h
        exact .inl ⟨new, k, htarget, by simpa using hwritable, rfl⟩
    · rename_i new htarget
      cases h
      exact .inr ⟨new, htarget, rfl⟩
    · cases h
    · cases h
  · cases h
  · cases h
  · cases h

/-- Copying changes at most the file it makes or writes over, also if it fails. -/
theorem within_copy (hs : fs.Sound) (source target : String) :
    Within [Path.place target] fs (copy source target fs).2 := by
  have hsame : Within [Path.place target] fs fs := .refl hs _
  rw [copy_apply]
  split
  · split
    · rename_i new k htarget
      split
      · exact hsame
      · obtain ⟨-, -, -, hk⟩ := find_file hs htarget
        have hemptied := within_setContent hs hk (.text "")
        exact hemptied.trans (within_setFile hemptied.sound hk _)
    · rename_i new htarget
      obtain ⟨-, rfl, hplain, -⟩ := find_vacant hs htarget
      exact within_createFile hs hplain _
    · exact hsame
    · exact hsame
  · exact hsame
  · exact hsame
  · exact hsame

/-- A file that was copied is at both places; one that was copied over itself is emptied. -/
theorem copy_inv (hs : fs.Sound) {source target : String}
    (h : copy source target fs = (.ok (), fs')) :
    fs.Reaches target ∧ Within [Path.place target] fs fs' ∧
    ∃ n k, fs.names.get? (Path.place source) = some n ∧
      fs'.names.get? (Path.place target) = some k ∧
      fs'.file k = if Path.place source = Path.place target then ⟨.text "", false⟩
        else fs.file n := by
  have hwithin := within_copy hs source target
  rw [h] at hwithin
  obtain ⟨old, n, hsource, htarget⟩ := copy_cases h
  obtain ⟨-, -, -, hn⟩ := find_file hs hsource
  rcases htarget with ⟨new, k, htarget, hwritable, rfl⟩ | ⟨new, htarget, rfl⟩
  · obtain ⟨hreach, -, -, hk⟩ := find_file hs htarget
    have hemptied := within_setContent hs hk (.text "")
    refine ⟨hreach, hwithin, n, k, hn, hk, ?_⟩
    rw [file_setFile _ _ _ (hemptied.sound.numbered hk)]
    split
    · rename_i hsame
      have hnk : n = k := Option.some.inj (hn.symm.trans (hsame ▸ hk))
      rw [hnk, setContent, file_setFile _ _ _ (hs.numbered hk), hwritable]
    · rename_i hne
      refine file_setFile_of_ne ?_ _
      rintro rfl
      exact hne (hs.injective hn hk)
  · obtain ⟨hreach, rfl, -, hnone⟩ := find_vacant hs htarget
    refine ⟨hreach, hwithin, n, fs.stored.length, hn, ?_, ?_⟩
    · rw [createFile, Dict.get?_insert, if_pos rfl]
    · have hne : Path.place source ≠ Path.place target := by
        intro hsame
        rw [hsame, hnone] at hn
        cases hn
      rw [if_neg hne]
      simp [createFile, file]

theorem discard_apply (path : String) (fs : Files) : discard path fs =
    match fs.find path with
    | .ok (.file place _) => (.ok (), fs.erase place)
    | .ok (.directory _) => (.error .io, fs)
    | _ => (.ok (), fs) := by
  unfold discard
  simp only [FileTask.bind_apply, FileTask.get_apply]
  rcases fs.find path with fault | (place | ⟨place, n⟩ | place) <;> rfl

/-- Discarding changes at most the file it removes, also if it fails. -/
theorem within_discard (hs : fs.Sound) (path : String) :
    Within [Path.place path] fs (discard path fs).2 := by
  rw [discard_apply]
  split
  · rename_i place n hfile
    obtain ⟨-, rfl, -, -⟩ := find_file hs hfile
    exact within_erase hs _
  · exact .refl hs _
  · exact .refl hs _

/-- Neither a file nor a directory is at a place. -/
def IsGone (fs : Files) (place : String) : Prop :=
  fs.names.get? place = none ∧ fs.isDirectory place = false

/-- A file that was discarded is gone, and no other one has come. -/
theorem discard_inv (hs : fs.Sound) {path : String} (hreach : fs.Reaches path)
    (h : discard path fs = (.ok (), fs')) :
    Within [Path.place path] fs fs' ∧ fs'.IsGone (Path.place path) ∧
      ∀ q, fs.IsGone q → fs'.IsGone q := by
  have hfound := find_eq hs hreach
  have hwithin := within_discard hs path
  rw [h] at hwithin
  refine ⟨hwithin, ?_⟩
  rw [discard_apply] at h
  split at h
  · rename_i place n hfile
    obtain ⟨-, rfl, hplain, -⟩ := find_file hs hfile
    cases h
    have hget : ∀ q, (fs.erase (Path.place path)).names.get? q
        = if q = Path.place path then none else fs.names.get? q := by
      intro q
      simp only [erase, Dict.get?_erase, eq_comm]
    refine ⟨⟨?_, hplain⟩, fun q hq => ⟨?_, hq.2⟩⟩
    · rw [hget, if_pos rfl]
    · rw [hget, hq.1, ite_self]
  · cases h
  · rename_i hfile hdirectory
    cases h
    refine ⟨?_, fun q hq => hq⟩
    cases hthere : fs.targetAt (Path.place path) with
    | file place n => exact absurd (hfound.trans (congrArg _ hthere)) (hfile place n)
    | directory place => exact absurd (hfound.trans (congrArg _ hthere)) (hdirectory place)
    | vacant place =>
      obtain ⟨-, -, hplain, hnone⟩ := find_vacant hs (hfound.trans (congrArg _ hthere))
      exact ⟨hnone, hplain⟩

/-- What cannot be discarded is a directory, and nothing has changed. -/
theorem discard_error (hs : fs.Sound) {path : String} {e : StoreError}
    (h : discard path fs = (.error e, fs')) :
    fs' = fs ∧ e = .io ∧ fs.isDirectory (Path.place path) = true := by
  rw [discard_apply] at h
  split at h
  · cases h
  · rename_i place hfound
    cases h
    refine ⟨rfl, rfl, ?_⟩
    obtain ⟨-, htarget⟩ := (find_iff hs).1 hfound
    rw [targetAt] at htarget
    split at htarget
    · assumption
    · split at htarget <;> cases htarget
  · cases h

theorem rename_apply (source target : String) (fs : Files) : rename source target fs =
    match fs.find source, fs.find target with
    | .ok (.file old n), .ok (.file new _) =>
      if old = new then (.ok (), fs)
      else (.ok (), { fs with names := (fs.names.insert new n).erase old })
    | .ok (.file old n), .ok (.vacant new) =>
      (.ok (), { fs with names := (fs.names.insert new n).erase old })
    | _, _ => (.error .io, fs) := by
  unfold rename
  simp only [FileTask.bind_apply, FileTask.get_apply]
  rcases fs.find source with fault | (old | ⟨old, n⟩ | old)
  · rfl
  · rfl
  · rcases fs.find target with fault | (new | ⟨new, k⟩ | new)
    · rfl
    · rfl
    · dsimp only
      split <;> rfl
    · rfl
  · rfl

/-- A file that cannot be renamed stays, and so does the one in its way. -/
theorem rename_error {source target : String} {e : StoreError}
    (h : rename source target fs = (.error e, fs')) : fs' = fs := by
  rw [rename_apply] at h
  split at h
  · split at h <;> cases h
  · cases h
  · cases h
    rfl

/-- A file can be renamed to a path that leads to no directory. -/
theorem rename_ok (hs : fs.Sound) {source target : String} {n : Nat}
    (hsource : fs.Reaches source) (hn : fs.names.get? (Path.place source) = some n)
    (htarget : fs.Reaches target) (hplain : fs.isDirectory (Path.place target) = false) :
    (rename source target fs).1 = .ok () := by
  rw [rename_apply, find_eq hs hsource, find_eq hs htarget, targetAt, targetAt,
    if_neg (by simp [hs.plain hn]), if_neg (by simp [hplain]), hn]
  cases fs.names.get? (Path.place target) with
  | none => rfl
  | some k =>
    dsimp only
    split <;> rfl

/-- Giving a file another name. -/
theorem within_rename (hs : fs.Sound) {old new : String} {n : Nat} (hne : old ≠ new)
    (hn : fs.names.get? old = some n) (hplain : fs.isDirectory new = false) :
    Within [old, new] fs { fs with names := (fs.names.insert new n).erase old } ∧
      ((fs.names.insert new n).erase old).get? new = some n := by
  have hget : ∀ q, ((fs.names.insert new n).erase old).get? q
      = if q = old then none else if q = new then some n else fs.names.get? q := by
    intro q
    simp only [Dict.get?_erase, Dict.get?_insert, eq_comm]
  refine ⟨⟨⟨?_, ?_, ?_, hs.above⟩, rfl, rfl, ?_, fun _ _ _ => rfl⟩, ?_⟩
  · intro q number hq
    rw [hget] at hq
    split at hq
    · cases hq
    · split at hq
      · cases hq
        exact hs.numbered hn
      · exact hs.numbered hq
  · intro p q number hp hq
    rw [hget] at hp hq
    split at hp
    · cases hp
    · rename_i hpold
      split at hq
      · cases hq
      · rename_i hqold
        split at hp <;> split at hq
        · exact ‹p = new›.trans ‹q = new›.symm
        · cases hp
          exact absurd (hs.injective hq hn) hqold
        · cases hq
          exact absurd (hs.injective hp hn) hpold
        · exact hs.injective hp hq
  · intro q number hq
    rw [hget] at hq
    split at hq
    · cases hq
    · split at hq
      · rename_i hqnew
        exact hqnew ▸ hplain
      · exact hs.plain hq
  · intro q hq
    simp only [List.mem_cons, List.not_mem_nil, or_false, not_or] at hq
    rw [hget, if_neg hq.1, if_neg hq.2]
  · rw [hget, if_neg hne.symm, if_pos rfl]

/-- A file that was renamed has the new name and holds what it held. -/
theorem rename_inv (hs : fs.Sound) {source target : String}
    (h : rename source target fs = (.ok (), fs')) :
    fs.Reaches target ∧ fs.isDirectory (Path.place target) = false ∧
    Within [Path.place source, Path.place target] fs fs' ∧ fs'.stored = fs.stored ∧
    ∃ n, fs.names.get? (Path.place source) = some n ∧
      fs'.names.get? (Path.place target) = some n := by
  rw [rename_apply] at h
  split at h
  · rename_i old n new k hsource htarget
    obtain ⟨-, rfl, -, hn⟩ := find_file hs hsource
    obtain ⟨hreach, rfl, hplain, -⟩ := find_file hs htarget
    split at h
    · rename_i hsame
      cases h
      exact ⟨hreach, hplain, .refl hs _, rfl, n, hn, hsame ▸ hn⟩
    · rename_i hne
      cases h
      obtain ⟨hwithin, hnew⟩ := within_rename hs hne hn hplain
      exact ⟨hreach, hplain, hwithin, rfl, n, hn, hnew⟩
  · rename_i old n new hsource htarget
    obtain ⟨-, rfl, -, hn⟩ := find_file hs hsource
    obtain ⟨hreach, rfl, hplain, hnone⟩ := find_vacant hs htarget
    cases h
    have hne : Path.place source ≠ Path.place target := by
      intro e
      rw [e, hnone] at hn
      cases hn
    obtain ⟨hwithin, hnew⟩ := within_rename hs hne hn hplain
    exact ⟨hreach, hplain, hwithin, rfl, n, hn, hnew⟩
  · cases h

end Files

end Replica
