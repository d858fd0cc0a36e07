/-
Replica.Proofs.Seed.Databases — databases in files, and their stamps.

`Files.shown` is the database in a file: what the log beside it says, or the file.
`HasDatabase` says that a database can be read at a place: there is a file, it shows a
database, and no companion stands in the way. `Stamped` says what reading the stamp of a
path answers, and reading it answers that (`readStamp_ok`, `readStamp_inv`).

Entering a database puts its companions in order and no more, and shows whoever enters what
the file and its log show (`enter_ok`, `Entered.view_eq`). Writing alters the database alone, and
so does closing it, which leaves it what it was (`write_database`, `close_database`). So a stamp
is not affected by what is done to another database that it is no companion of
(`Stamped.alters`).
-/
import Replica.Proofs.Seed.Frames

namespace Replica

namespace Files

variable {fs fs' : Files} {place : String} {number : Nat} {db : Database}

/-! ## Databases at places -/

/-- What the log of a database says that it is; an empty database has none. -/
def said (fs : Files) (place : String) (number : Nat) : Option Database :=
  if (fs.content number).isOccupied then
    (fs.contentAt (Path.sibling place "wal")).bind FileContent.logged?
  else none

/-- The database in a file. -/
def shown (fs : Files) (place : String) (number : Nat) : Except StoreError Database :=
  (fs.content number).withLog (fs.said place number)

/-- No change was broken off that has not been taken back. -/
def IsCalm (fs : Files) (place : String) (number : Nat) : Prop :=
  (fs.content number).isOccupied = true →
    fs.isDirectory (Path.sibling place "journal") = false ∧
    ∀ j, fs.contentAt (Path.sibling place "journal") = some j →
      j.isEmpty = true ∨ j.startsWithNul = true

/-- A database that can be read: it has a name, and no companion is in the way. -/
structure HasDatabase (fs : Files) (place : String) (number : Nat) (db : Database) : Prop where
  named : fs.names.get? place = some number
  content : fs.shown place number = .ok db
  log : fs.isDirectory (Path.sibling place "wal") = false
  calm : fs.IsCalm place number

/-- Whether a database can be read is decided by its file and the companions that belong to its
content. -/
theorem HasDatabase.congr (h : fs.HasDatabase place number db) (hfile : SameAt place fs fs')
    (hplain : ∀ ending ∈ Path.contentEndings, fs'.isDirectory (Path.sibling place ending)
      = fs.isDirectory (Path.sibling place ending))
    (hbeside : (fs.content number).isOccupied = true →
      ∀ ending ∈ Path.contentEndings, SameAt (Path.sibling place ending) fs fs') :
    fs'.HasDatabase place number db := by
  have hcontent := hfile.content_eq h.named
  refine ⟨hfile.name.trans h.named, ?_, (hplain _ (by decide)).trans h.log, fun ho => ?_⟩
  · rw [← h.content, shown, shown, said, said, hcontent]
    by_cases ho : (fs.content number).isOccupied = true
    · rw [if_pos ho, if_pos ho, (hbeside ho "wal" (by decide)).content]
    · rw [if_neg ho, if_neg ho]
  · rw [hcontent] at ho
    rw [hplain _ (by decide), (hbeside ho "journal" (by decide)).content]
    exact h.calm ho

/-- A database that is spared shows what it did. -/
theorem Spared.shown (h : Spared place fs fs') (hname : fs.names.get? place = some number) :
    fs'.shown place number = fs.shown place number := by
  rw [Files.shown, Files.shown, said, said, h.file.content_eq hname]
  by_cases ho : (fs.content number).isOccupied = true
  · rw [if_pos ho, if_pos ho, (h.beside hname ho "wal" (by decide)).content]
  · rw [if_neg ho, if_neg ho]

theorem HasDatabase.tidies (h : fs.HasDatabase place number db) (ht : Tidies place fs fs') :
    fs'.HasDatabase place number db :=
  h.congr ht.sameAt (fun _ _ => ht.toWithin.isDirectory _) (ht.beside h.named)

end Files

/-! ## Connections -/

namespace Connection

open Files

variable {fs fs' : Files} {c c' : Connection} {db : Database}

/-- The log that changes go to is the one beside the database, which is not empty. -/
def Joined (c : Connection) (fs : Files) : Prop :=
  ∀ log, c.logged = some log →
    fs.names.get? c.log = some log ∧ (fs.content c.number).isOccupied = true

/-- The companions are in order: changes go to the log if there is one. -/
structure Entered (c : Connection) (fs : Files) : Prop where
  named : fs.names.get? c.place = some c.number
  joined : c.Joined fs
  plain : c.logged = none → ∀ l, fs.contentAt c.log = some l → l.isEmpty = true

theorem joined_of_none (h : c.logged = none) (fs : Files) : c.Joined fs := by
  intro log hlog
  rw [h] at hlog
  cases hlog

theorem logged?_of_isEmpty {l : FileContent} (h : l.isEmpty = true) : l.logged? = none := by
  cases l with
  | log db => cases h
  | _ => rfl

/-- Whoever has entered a database reads what the file and its log show. -/
theorem Entered.view_eq (h : c.Entered fs) : c.view fs = fs.shown c.place c.number := by
  rw [view, shown, said]
  congr 1
  cases hlogged : c.logged with
  | some log =>
    obtain ⟨hname, ho⟩ := h.joined _ hlogged
    have hcontent : fs.contentAt (Path.sibling c.place "wal") = some (fs.content log) :=
      contentAt_of_named hname
    rw [if_pos ho, hcontent, Option.bind_some, Option.bind_some]
  | none =>
    rw [Option.bind_none]
    split
    · cases hlog : fs.contentAt (Path.sibling c.place "wal") with
      | none => rfl
      | some l => exact (logged?_of_isEmpty (h.plain hlogged l hlog)).symm
    · rfl

/-! ### Taking changes back -/

/-- What taking back a change does. -/
theorem recover_apply (c : Connection) (fs : Files) : c.recover fs =
    if fs.isDirectory c.journal then
      if (fs.content c.number).isOccupied then (.error .database, fs) else (.ok (), fs)
    else
      match fs.contentAt c.journal with
      | none => (.ok (), fs)
      | some journal =>
        if journal.isEmpty || ((fs.content c.number).isOccupied && journal.startsWithNul) then
          (.ok (), fs)
        else if (fs.content c.number).isOccupied then
          if c.readOnly || fs.isReadOnlyAt c.journal then (.error .database, fs)
          else (.ok (), (fs.setContent c.number ((fs.content c.number).takenBack journal)).erase
            c.journal)
        else if c.readOnly then (.ok (), fs)
        else (.ok (), fs.erase c.journal) := by
  unfold recover
  simp only [FileTask.bind_apply, FileTask.get_apply]
  by_cases ho : (fs.content c.number).isOccupied = true
  · by_cases hd : fs.isDirectory c.journal = true
    · simp [hd, ho]
    · cases fs.contentAt c.journal with
      | none => simp [hd]
      | some journal =>
        by_cases hcalm : (journal.isEmpty || journal.startsWithNul) = true
        · simp [hd, ho, hcalm]
        · by_cases hr : (c.readOnly || fs.isReadOnlyAt c.journal) = true
          · simp [hd, ho, hcalm, hr]
          · simp [hd, ho, hcalm, hr]
  · by_cases hd : fs.isDirectory c.journal = true
    · simp [hd, ho]
    · cases fs.contentAt c.journal with
      | none => simp [hd]
      | some journal => by_cases he : journal.isEmpty = true <;> cases c.readOnly <;> simp [hd, ho, he]

/-- Whoever may only read takes no change back. -/
theorem recover_readOnly (h : c.readOnly = true) (fs : Files) : (c.recover fs).2 = fs := by
  rw [recover_apply, h]
  repeat' split
  all_goals first | rfl | simp_all

/-- Where there is no change to take back, only the journal of an empty database goes. -/
theorem recover_calm (hs : fs.Sound) (hnamed : fs.names.get? c.place = some c.number)
    (hcalm : fs.IsCalm c.place c.number) :
    ∃ fs', c.recover fs = (.ok (), fs') ∧ Tidies c.place fs fs' := by
  have hsame := Tidies.refl hs c.place
  rw [recover_apply]
  by_cases ho : (fs.content c.number).isOccupied = true
  · obtain ⟨hdirectory, hquiet⟩ := hcalm ho
    have hdirectory : fs.isDirectory c.journal = false := hdirectory
    refine ⟨fs, ?_, hsame⟩
    cases hj : fs.contentAt c.journal with
    | none => simp [hdirectory]
    | some journal => rcases hquiet journal hj with e | e <;> simp [hdirectory, ho, e]
  · have herase : Tidies c.place fs (fs.erase c.journal) :=
      tidies_erase hs hnamed (by simpa using ho) (by decide)
    simp only [ho, if_false, Bool.false_eq_true, Bool.false_and, Bool.or_false]
    split
    · exact ⟨fs, rfl, hsame⟩
    · split
      · exact ⟨fs, rfl, hsame⟩
      · split
        · exact ⟨fs, rfl, hsame⟩
        · split
          · exact ⟨fs, rfl, hsame⟩
          · exact ⟨_, rfl, herase⟩

/-- Whoever may only read goes on where no change has to be taken back. -/
theorem recover_inv (hreadOnly : c.readOnly = true) (h : c.recover fs = (.ok (), fs')) :
    fs' = fs ∧ fs.IsCalm c.place c.number := by
  have hsame := recover_readOnly hreadOnly fs
  rw [h] at hsame
  refine ⟨hsame, fun ho => ?_⟩
  rw [recover_apply, hreadOnly, ho] at h
  split at h
  · cases h
  · rename_i hdirectory
    have hdirectory : fs.isDirectory c.journal = false := by simpa using hdirectory
    refine ⟨hdirectory, fun j hj => ?_⟩
    have hj : fs.contentAt c.journal = some j := hj
    rw [hj] at h
    dsimp only at h
    split at h
    · rename_i hquiet
      simpa using hquiet
    · cases h

/-! ### Going over to the log -/

/-- What going over to the log does. -/
theorem enterLog_apply (c : Connection) (fs : Files) : c.enterLog fs =
    if fs.isDirectory c.log then (.error .database, fs)
    else
      match fs.names.get? c.log with
      | none => (.ok c, fs)
      | some log =>
        if (fs.content log).isEmpty then (.ok c, fs)
        else if (fs.content c.number).isOccupied then
          (.ok { c with logged := some log },
            if fs.isDirectory c.index then fs else c.makeIndex fs)
        else (.ok c, fs.erase c.log) := by
  unfold enterLog
  simp only [FileTask.bind_apply, FileTask.get_apply]
  by_cases hd : fs.isDirectory c.log = true
  · simp [hd]
  · cases fs.names.get? c.log with
    | none => simp [hd]
    | some log =>
      by_cases he : (fs.content log).isEmpty = true
      · simp [hd, he]
      · by_cases ho : (fs.content c.number).isOccupied = true
        · by_cases hi : fs.isDirectory c.index = true <;>
            simp [hd, he, ho, hi, FileTask.bind_apply]
        · simp [hd, he, ho, FileTask.bind_apply]

theorem within_makeIndex (hs : fs.Sound) (hplain : fs.isDirectory c.index = false) :
    Within [c.index] fs (c.makeIndex fs) := by
  rw [makeIndex]
  split
  · exact within_createFile hs hplain _
  · rename_i index hname
    split
    · exact .refl hs _
    · exact within_setContent hs hname _

/-- Whoever goes over to the log has entered. -/
theorem enterLog_inv (hs : fs.Sound) (hnamed : fs.names.get? c.place = some c.number)
    (hplain : c.logged = none) (h : c.enterLog fs = (.ok c', fs')) :
    fs.isDirectory c.log = false ∧ c'.place = c.place ∧ c'.number = c.number ∧
      Tidies c.place fs fs' ∧ c'.Entered fs' := by
  rw [enterLog_apply] at h
  split at h
  · cases h
  · rename_i hdirectory
    refine ⟨by simpa using hdirectory, ?_⟩
    split at h
    · rename_i hnone
      cases h
      refine ⟨rfl, rfl, .refl hs _, hnamed, joined_of_none hplain fs, fun _ l hl => ?_⟩
      rw [contentAt, hnone] at hl
      cases hl
    · rename_i log hlog
      have hcontent := contentAt_of_named hlog
      split at h
      · rename_i hempty
        cases h
        refine ⟨rfl, rfl, .refl hs _, hnamed, joined_of_none hplain fs, fun _ l hl => ?_⟩
        rw [hcontent] at hl
        exact Option.some.inj hl ▸ hempty
      · split at h
        · rename_i ho
          obtain ⟨hc, hfs⟩ := Prod.mk.inj h
          cases hc
          have htidies : Tidies c.place fs fs' := by
            rw [← hfs]
            split
            · exact .refl hs _
            · rename_i hindex
              exact tidies_index (within_makeIndex hs (by simpa using hindex))
          refine ⟨rfl, rfl, htidies, htidies.sameAt.name.trans hnamed, fun log' hlog' => ?_,
            fun hnone => by cases hnone⟩
          cases hlog'
          refine ⟨?_, by rwa [htidies.file hnamed]⟩
          exact (htidies.beside hnamed ho "wal" (by decide)).name.trans hlog
        · rename_i hempty
          cases h
          have herase : Tidies c.place fs (fs.erase c.log) :=
            tidies_erase hs hnamed (by simpa using hempty) (by decide)
          refine ⟨rfl, rfl, herase, herase.sameAt.name.trans hnamed, joined_of_none hplain _,
            fun _ l hl => ?_⟩
          rw [contentAt_erase] at hl
          cases hl

theorem enterLog_ok (hlog : fs.isDirectory c.log = false) :
    ∃ c' fs', c.enterLog fs = (.ok c', fs') := by
  rw [enterLog_apply, if_neg (by simp [hlog])]
  split
  · exact ⟨_, _, rfl⟩
  · split
    · exact ⟨_, _, rfl⟩
    · split <;> exact ⟨_, _, rfl⟩

/-! ### Entering -/

theorem enter_apply (c : Connection) (fs : Files) : c.enter fs =
    if c.logged.isSome then (.ok c, fs)
    else
      match c.recover fs with
      | (.ok (), fs') => c.enterLog fs'
      | (.error e, fs') => (.error e, fs') := by
  unfold enter
  split
  · rfl
  · rw [FileTask.bind_apply]
    rcases c.recover fs with ⟨answer, fs'⟩
    cases answer <;> rfl

/-- A database that can be read is entered. -/
theorem enter_ok (hs : fs.Sound) (h : fs.HasDatabase c.place c.number db) (hj : c.Joined fs) :
    ∃ c' fs', c.enter fs = (.ok c', fs') ∧ c'.place = c.place ∧ c'.number = c.number ∧
      Tidies c.place fs fs' ∧ c'.Entered fs' := by
  rw [enter_apply]
  cases hlogged : c.logged with
  | some log =>
    rw [Option.isSome_some, if_pos rfl]
    refine ⟨c, fs, rfl, rfl, rfl, .refl hs _, h.named, hj, fun hnone => ?_⟩
    rw [hlogged] at hnone
    cases hnone
  | none =>
    obtain ⟨fs₁, hrecover, htidies⟩ := recover_calm hs h.named h.calm
    have h₁ := h.tidies htidies
    obtain ⟨c', fs₂, henter⟩ := enterLog_ok h₁.log
    obtain ⟨-, hplace, hnumber, htidies', hentered⟩ :=
      enterLog_inv htidies.sound h₁.named hlogged henter
    rw [hrecover]
    exact ⟨c', fs₂, henter, hplace, hnumber, htidies.trans htidies', hentered⟩

/-- Putting the companions in order to read changes nothing else. -/
theorem tidies_enter (hs : fs.Sound) (hnamed : fs.names.get? c.place = some c.number)
    (hreadOnly : c.readOnly = true) (hplain : c.logged = none) :
    Tidies c.place fs (c.enter fs).2 := by
  have hrecover := recover_readOnly hreadOnly fs
  rw [enter_apply, hplain]
  dsimp only [Option.isSome_none]
  rw [if_neg Bool.false_ne_true]
  split
  · rename_i fs' heq
    rw [heq] at hrecover
    obtain rfl : fs' = fs := hrecover
    rcases henter : c.enterLog fs' with ⟨e | c', fs₂⟩
    · have hsame : fs₂ = fs' := by
        rw [enterLog_apply] at henter
        split at henter
        · cases henter
          rfl
        · split at henter
          · cases henter
          · split at henter
            · cases henter
            · split at henter <;> cases henter
      rw [hsame]
      exact .refl hs _
    · exact (enterLog_inv hs hnamed hplain henter).2.2.2.1
  · rename_i e fs' heq
    rw [heq] at hrecover
    obtain rfl : fs' = fs := hrecover
    exact .refl hs _

/-- What whoever enters a database to read has found. -/
theorem enter_inv (hs : fs.Sound) (hnamed : fs.names.get? c.place = some c.number)
    (hreadOnly : c.readOnly = true) (hplain : c.logged = none) (h : c.enter fs = (.ok c', fs')) :
    fs.isDirectory c.log = false ∧ fs.IsCalm c.place c.number ∧ c'.place = c.place ∧
      c'.number = c.number ∧ c'.Entered fs' := by
  rw [enter_apply, hplain, Option.isSome_none, if_neg Bool.false_ne_true] at h
  split at h
  · rename_i fs₁ hrecover
    obtain ⟨rfl, hcalm⟩ := recover_inv hreadOnly hrecover
    obtain ⟨hlog, hplace, hnumber, -, hentered⟩ := enterLog_inv hs hnamed hplain h
    exact ⟨hlog, hcalm, hplace, hnumber, hentered⟩
  · cases h

theorem read_apply (c : Connection) (fs : Files) : c.read fs = (c.view fs, fs) := by
  unfold read
  simp only [FileTask.bind_apply, FileTask.get_apply]
  cases c.view fs <;> rfl

end Connection

/-! ## Changes -/

namespace Connection

open Files

variable {fs : Files} {c : Connection} {before after : Database}

/-- A database whose file is written, and whose journal is gone, holds what was written. -/
theorem hasDatabase_setContent (hs : fs.Sound) (h : c.Entered fs)
    (hlog : fs.isDirectory c.log = false) (hjournal : fs.isDirectory c.journal = false)
    (hplain : c.logged = none) (after : Database) :
    ((fs.setContent c.number (.database after)).erase c.journal).HasDatabase c.place c.number
      after := by
  have hset := within_setContent hs h.named (.database after)
  have hcontent : (fs.setContent c.number (.database after)).content c.number = .database after :=
    content_setContent fs _ _ (hs.numbered h.named)
  have herase := within_erase hset.sound c.journal
  have hfile := herase.sameAt (q := c.place) (Path.self_not_mem _ _)
  have hnamed : (fs.setContent c.number (.database after)).names.get? c.place = some c.number :=
    h.named
  have hcontent' := (hfile.content_eq hnamed).trans hcontent
  have hbeside : SameAt c.log fs ((fs.setContent c.number (.database after)).erase c.journal) :=
    (hset.sameAt (Path.sibling_not_mem_self _ _)).trans
      (herase.sameAt (Path.sibling_not_mem (by decide) _))
  refine ⟨hfile.name.trans h.named, ?_, hlog, fun _ => ⟨hjournal, fun j hj => ?_⟩⟩
  · -- There is no log that says anything else.
    have hsaid : ((fs.setContent c.number (.database after)).erase c.journal).said c.place c.number
        = none := by
      rw [said, hcontent', if_pos (show (FileContent.database after).isOccupied = true from rfl)]
      cases hl : ((fs.setContent c.number (.database after)).erase c.journal).contentAt
        (Path.sibling c.place "wal") with
      | none => rfl
      | some l =>
        exact logged?_of_isEmpty (h.plain hplain l (hbeside.content.symm.trans hl))
    rw [shown, hsaid, hcontent']
    rfl
  · have hgone := contentAt_erase (fs.setContent c.number (.database after)) c.journal
    exact absurd (hgone.symm.trans hj) (by simp)

/-- A database whose log is written holds what was written. -/
theorem hasDatabase_log (hs : fs.Sound) (h : c.Entered fs)
    (hdb : fs.HasDatabase c.place c.number before) {log : Nat} (hlogged : c.logged = some log)
    (after : Database) :
    (fs.setContent log (.log after)).HasDatabase c.place c.number after := by
  obtain ⟨hname, ho⟩ := h.joined _ hlogged
  have hset := within_setContent hs hname (.log after)
  have hfile := hset.sameAt (q := c.place) (Path.self_not_mem _ _)
  have hcontent := hfile.content_eq h.named
  have hjournal := hset.sameAt (q := c.journal) (Path.sibling_not_mem (by decide) _)
  refine ⟨h.named, ?_, hdb.log, fun _ => ?_⟩
  · have hlog : (fs.setContent log (.log after)).contentAt (Path.sibling c.place "wal")
        = some (.log after) := by
      have hnamed : (fs.setContent log (.log after)).names.get? (Path.sibling c.place "wal")
          = some log := hname
      rw [contentAt_of_named hnamed, content_setContent fs log _ (hs.numbered hname)]
    rw [shown, said, hcontent, if_pos ho, hlog]
    rfl
  · refine ⟨(hdb.calm ho).1, fun j hj => (hdb.calm ho).2 j (hjournal.content.symm.trans hj)⟩

/-- A database that is written holds what it was or what it has become, and no other one is
affected. -/
theorem write_database (hs : fs.Sound) (h : c.Entered fs)
    (hdb : fs.HasDatabase c.place c.number before) (after : Database) :
    Alters c.place fs (c.write before after fs).2 ∧
    (c.write before after fs).2.names.get? c.log = fs.names.get? c.log ∧
    ((c.write before after fs).2 = fs ∧ ((c.write before after fs).1 = .ok () → after = before) ∨
      (c.write before after fs).2.HasDatabase c.place c.number after ∧
      ((c.write before after fs).2.content c.number).isOccupied = true) := by
  have hsame := (Tidies.refl hs c.place).alters
  rw [write]
  split
  · rename_i heq
    exact ⟨hsame, rfl, .inl ⟨rfl, fun _ => heq⟩⟩
  · split
    · exact ⟨hsame, rfl, .inl ⟨rfl, fun h => by cases h⟩⟩
    · rename_i hcan
      split
      · rename_i log hlogged
        obtain ⟨hname, ho⟩ := h.joined _ hlogged
        have hset := within_setContent hs hname (.log after)
        refine ⟨hset.alters (by decide), rfl, .inr ⟨hasDatabase_log hs h hdb hlogged after, ?_⟩⟩
        rwa [(hset.sameAt (q := c.place) (Path.self_not_mem _ _)).content_eq
          h.named]
      · rename_i hplain
        have hset := alters_setContent hs h.named (.database after)
        have herase := (within_erase hset.sound c.journal).alters (by decide)
        have hjournal : fs.isDirectory c.journal = false := by
          simp only [canWrite, hplain, Option.isSome_none, Bool.false_or, Bool.not_eq_true',
            Bool.not_eq_false, Bool.and_eq_true, Bool.not_eq_true'] at hcan
          exact hcan.2.1.1.2
        refine ⟨hset.trans herase, ?_, .inr
          ⟨hasDatabase_setContent hs h hdb.log hjournal hplain after, ?_⟩⟩
        · exact (within_erase hset.sound c.journal).names
            (Path.sibling_not_mem (by decide) _)
        · show ((fs.setContent c.number (.database after)).content c.number).isOccupied = true
          rw [content_setContent fs _ _ (hs.numbered h.named)]
          rfl

/-- Whoever has written is still joined with the log. -/
theorem joined_write (hs : fs.Sound) (h : c.Entered fs)
    (hdb : fs.HasDatabase c.place c.number before) (after : Database) :
    c.Joined (c.write before after fs).2 := by
  obtain ⟨-, hlog, hwritten⟩ := write_database hs h hdb after
  intro log hlogged
  obtain ⟨hname, ho⟩ := h.joined _ hlogged
  refine ⟨hlog.trans hname, ?_⟩
  rcases hwritten with ⟨hsame, -⟩ | ⟨-, ho'⟩
  · rw [hsame]
    exact ho
  · exact ho'

/-- A file that was brought up to date with its log holds the database by itself. -/
theorem checkpoint_database (hs : fs.Sound) (hj : c.Joined fs)
    (hdb : fs.HasDatabase c.place c.number before) {log : Nat} (hlogged : c.logged = some log) :
    Within [c.place] fs (c.checkpoint fs) ∧ (c.checkpoint fs).names = fs.names ∧
      ((c.checkpoint fs).content c.number).isOccupied = true ∧
      ((c.checkpoint fs).content c.number).database? = .ok before := by
  obtain ⟨hname, ho⟩ := hj _ hlogged
  have hcontent : fs.contentAt (Path.sibling c.place "wal") = some (fs.content log) :=
    contentAt_of_named hname
  have hshown := hdb.content
  rw [shown, said, if_pos ho, hcontent, Option.bind_some] at hshown
  rw [checkpoint, hlogged, Option.bind_some]
  cases hsaid : (fs.content log).logged? with
  | none =>
    rw [hsaid] at hshown
    exact ⟨.refl hs _, rfl, ho, hshown⟩
  | some db =>
    rw [hsaid] at hshown
    cases hshown
    dsimp only
    rw [content_setContent fs _ _ (hs.numbered hdb.named)]
    exact ⟨within_setContent hs hdb.named _, rfl, rfl, rfl⟩

/-- Without its log and its index, a file that holds a database by itself still holds it. -/
theorem drop_database {place : String} {number : Nat} {db : Database} (hs : fs.Sound)
    (hname : fs.names.get? place = some number)
    (hcontent : (fs.content number).database? = .ok db)
    (hlog : fs.isDirectory (Path.sibling place "wal") = false) (hcalm : fs.IsCalm place number) :
    let dropped := (fs.erase (Path.sibling place "wal")).erase (Path.sibling place "shm")
    Alters place fs dropped ∧ SameAt place fs dropped ∧ dropped.HasDatabase place number db := by
  intro dropped
  have hwal := within_erase hs (Path.sibling place "wal")
  have hindex := within_erase hwal.sound (Path.sibling place "shm")
  have hfile : SameAt place fs dropped :=
    (hwal.sameAt (Path.self_not_mem _ _)).trans (hindex.sameAt (Path.self_not_mem _ _))
  have hjournal : SameAt (Path.sibling place "journal") fs dropped :=
    (hwal.sameAt (Path.sibling_not_mem (by decide) _)).trans
      (hindex.sameAt (Path.sibling_not_mem (by decide) _))
  have hgone : dropped.contentAt (Path.sibling place "wal") = none :=
    (hindex.sameAt (Path.sibling_not_mem (by decide) _)).content.trans
      (contentAt_erase fs (Path.sibling place "wal"))
  refine ⟨(hwal.alters (by decide)).trans (hindex.alters (by decide)), hfile,
    hfile.name.trans hname, ?_, hlog, fun ho => ?_⟩
  · rw [shown, said, hgone, hfile.content_eq hname, Option.bind_none, ite_self]
    exact hcontent
  · rw [hfile.content_eq hname] at ho
    exact ⟨(hcalm ho).1, fun j hj => (hcalm ho).2 j (hjournal.content.symm.trans hj)⟩

/-- Closing a connection leaves the database what it was, and a log stays where it is held. -/
theorem close_database (hs : fs.Sound) (hj : c.Joined fs)
    (hdb : fs.HasDatabase c.place c.number before) :
    Alters c.place fs (c.close fs) ∧ (c.close fs).HasDatabase c.place c.number before ∧
    ((fs.content c.number).isOccupied = true →
      ((c.close fs).content c.number).isOccupied = true) ∧
    (c.number ∈ fs.heldLogs → c.close fs = fs) := by
  rw [close]
  split
  · rename_i hlast
    simp only [Bool.and_eq_true, Bool.not_eq_true', Option.isSome_iff_exists] at hlast
    obtain ⟨⟨⟨⟨log, hlogged⟩, -⟩, -⟩, hothers⟩ := hlast
    obtain ⟨hwithin, hnames, ho, hcontent⟩ := checkpoint_database hs hj hdb hlogged
    have hname : (c.checkpoint fs).names.get? c.place = some c.number := hnames ▸ hdb.named
    have hcalm : (c.checkpoint fs).IsCalm c.place c.number := by
      intro _
      have hjournal := hwithin.sameAt (Path.sibling_not_mem_self c.place "journal")
      obtain ⟨hplain, hquiet⟩ := hdb.calm (hj _ hlogged).2
      exact ⟨(hwithin.isDirectory _).trans hplain,
        fun j hj => hquiet j (hjournal.content.symm.trans hj)⟩
    obtain ⟨halters, hsame, hdropped⟩ := drop_database hwithin.sound hname hcontent
      ((hwithin.isDirectory _).trans hdb.log) hcalm
    refine ⟨?_, hdropped, fun _ => ?_, fun hheld => ?_⟩
    · have hbrought : Alters c.place fs (c.checkpoint fs) :=
        ⟨hwithin.mono fun q hq => List.mem_cons.2 (.inl (List.mem_singleton.1 hq)),
          congrArg (·.get? c.place) hnames⟩
      exact hbrought.trans halters
    · have hstays := hsame.content_eq hname
      show (FileContent.isOccupied (Files.content _ c.number)) = true
      rw [← ho]
      exact congrArg FileContent.isOccupied hstays
    · rw [List.contains_iff_mem.2 hheld] at hothers
      cases hothers
  · exact ⟨(Tidies.refl hs _).alters, hdb, id, fun _ => rfl⟩

end Connection

/-! ## Stamps -/

namespace Files

variable {fs fs' : Files} {path : String} {stamp : Option String}

/-- What reading the stamp at a path answers: nothing if nothing is there, and otherwise the
stamp of the database. -/
def Stamped (fs : Files) (path : String) (stamp : Option String) : Prop :=
  fs.exists? path = false ∧ stamp = none ∨
  fs.exists? path = true ∧ (Path.place path).utf8ByteSize ≤ databasePlaceLimit ∧
    ∃ number db, fs.HasDatabase (Path.place path) number db ∧ db.readStamp = stamp

theorem connectToRead_apply (path : String) (fs : Files) : connectToRead path fs =
    match fs.databasePlace path with
    | none => (.error .database, fs)
    | some place =>
      match fs.names.get? place with
      | some number => (.ok ⟨place, number, true, none⟩, fs)
      | none => (.error .database, fs) := by
  unfold connectToRead
  simp only [FileTask.bind_apply, FileTask.get_apply]
  cases fs.databasePlace path with
  | none => rfl
  | some place =>
    dsimp only
    cases fs.names.get? place <;> rfl

theorem readStamp_apply (path : String) (fs : Files) : readStamp path fs =
    if fs.exists? path then
      match connectToRead path fs with
      | (.error e, fs') => (.error e, fs')
      | (.ok c, fs') =>
        match c.enter fs' with
        | (.error e, fs'') => (.error e, fs'')
        | (.ok c', fs'') =>
          match c'.view fs'' with
          | .ok db => (.ok db.readStamp, fs'')
          | .error e => (.error e, fs'')
    else (.ok none, fs) := by
  unfold readStamp
  simp only [FileTask.bind_apply, FileTask.get_apply]
  by_cases h : fs.exists? path = true
  · simp only [h, Bool.not_true, Bool.false_eq_true, if_false, if_true, FileTask.bind_apply,
      Connection.read_apply]
    rcases connectToRead path fs with ⟨_ | c, fs'⟩
    · rfl
    · dsimp only
      rcases c.enter fs' with ⟨_ | c', fs''⟩
      · rfl
      · dsimp only
        cases c'.view fs'' <;> rfl
  · simp [h]

/-- Reading a stamp changes companions of the database at most. -/
theorem tidies_readStamp (hs : fs.Sound) (path : String) :
    Tidies (Path.place path) fs (readStamp path fs).2 := by
  have hsame := Tidies.refl hs (Path.place path)
  rw [readStamp_apply, connectToRead_apply]
  split
  · cases hplace : fs.databasePlace path with
    | none => exact hsame
    | some place =>
      obtain ⟨rfl, -⟩ := databasePlace_place hplace
      dsimp only
      cases hname : fs.names.get? (Path.place path) with
      | none => exact hsame
      | some number =>
        dsimp only
        have htidies := Connection.tidies_enter (c := ⟨Path.place path, number, true, none⟩) hs
          hname rfl rfl
        split
        · rename_i e fs' henter
          rw [henter] at htidies
          exact htidies
        · rename_i c' fs' henter
          rw [henter] at htidies
          split <;> exact htidies
  · exact hsame

/-- The stamp of a database that can be read is read. -/
theorem readStamp_ok (hs : fs.Sound) (h : fs.Stamped path stamp) :
    (readStamp path fs).1 = .ok stamp := by
  rw [readStamp_apply]
  rcases h with ⟨hnone, rfl⟩ | ⟨hsome, hsmall, number, db, hdb, rfl⟩
  · rw [if_neg (by simp [hnone])]
  · have hreaches := ((exists?_iff hs).1 hsome).1
    rw [if_pos hsome, connectToRead_apply, databasePlace_eq hs hreaches hsmall]
    simp only [hdb.named]
    obtain ⟨c', fs', henter, hplace, hnumber, htidies, hentered⟩ :=
      Connection.enter_ok (c := ⟨Path.place path, number, true, none⟩) hs hdb
        (Connection.joined_of_none rfl fs)
    rw [henter]
    simp only [hentered.view_eq, hplace, hnumber, (hdb.tidies htidies).content]

/-- A stamp that was read is there. -/
theorem readStamp_inv (hs : fs.Sound) (h : readStamp path fs = (.ok stamp, fs')) :
    fs.Stamped path stamp := by
  rw [readStamp_apply, connectToRead_apply] at h
  split at h
  · rename_i hsome
    cases hplace : fs.databasePlace path with
    | none =>
      rw [hplace] at h
      cases h
    | some place =>
      obtain ⟨rfl, hsmall⟩ := databasePlace_place hplace
      rw [hplace] at h
      dsimp only at h
      cases hname : fs.names.get? (Path.place path) with
      | none =>
        rw [hname] at h
        cases h
      | some number =>
        rw [hname] at h
        dsimp only at h
        have htidies := Connection.tidies_enter (c := ⟨Path.place path, number, true, none⟩) hs
          hname rfl rfl
        split at h
        · cases h
        · rename_i c' fs'' henter
          obtain ⟨hlog, hcalm, hplace', hnumber, hentered⟩ :=
            Connection.enter_inv hs hname rfl rfl henter
          rw [henter] at htidies
          rw [hentered.view_eq, hplace', hnumber] at h
          split at h
          · rename_i db hcontent
            cases h
            refine .inr ⟨hsome, hsmall, number, db, ⟨hname, ?_, hlog, hcalm⟩, rfl⟩
            rw [← htidies.spared.shown hname]
            exact hcontent
          · cases h
  · rename_i hnone
    cases h
    exact .inl ⟨by simpa using hnone, rfl⟩

/-! ### Stamps that stay -/

/-- What leaves the way to a path and its place alone leaves it there or not there. -/
theorem exists?_congr (hs : fs.Sound) (hs' : fs'.Sound)
    (hdirectories : fs'.directories = fs.directories)
    (hname : fs'.names.get? (Path.place path) = fs.names.get? (Path.place path)) :
    fs'.exists? path = fs.exists? path := by
  have hdir : ∀ q, fs'.isDirectory q = fs.isDirectory q := by
    intro q
    rw [isDirectory, isDirectory, hdirectories]
  have hreaches : fs'.Reaches path ↔ fs.Reaches path :=
    ⟨Reaches.mono fun q hq => (hdir q) ▸ hq, Reaches.mono fun q hq => (hdir q).symm ▸ hq⟩
  rw [Bool.eq_iff_iff, exists?_iff hs', exists?_iff hs, hreaches, hdir, hname]

theorem Stamped.tidies (hs : fs.Sound) (h : fs.Stamped path stamp)
    (ht : Tidies (Path.place path) fs fs') : fs'.Stamped path stamp := by
  have hexists : fs'.exists? path = fs.exists? path :=
    exists?_congr hs ht.sound ht.directories ht.sameAt.name
  rcases h with ⟨hnone, hstamp⟩ | ⟨hsome, hsmall, number, db, hdb, hstamp⟩
  · exact .inl ⟨hexists.trans hnone, hstamp⟩
  · exact .inr ⟨hexists.trans hsome, hsmall, number, db, hdb.tidies ht, hstamp⟩

/-- A stamp stays if the file of its database and its companions do. -/
theorem Stamped.congr (h : fs.Stamped path stamp) (hexists : fs'.exists? path = fs.exists? path)
    (hfile : SameAt (Path.place path) fs fs')
    (hplain : ∀ ending ∈ Path.companionEndings,
      fs'.isDirectory (Path.sibling (Path.place path) ending)
        = fs.isDirectory (Path.sibling (Path.place path) ending))
    (hbeside : ∀ ending ∈ Path.companionEndings,
      SameAt (Path.sibling (Path.place path) ending) fs fs') : fs'.Stamped path stamp := by
  rcases h with ⟨hnone, hstamp⟩ | ⟨hsome, hsmall, number, db, hdb, hstamp⟩
  · exact .inl ⟨hexists.trans hnone, hstamp⟩
  · refine .inr ⟨hexists.trans hsome, hsmall, number, db, hdb.congr hfile ?_ ?_, hstamp⟩
    · exact fun ending he => hplain ending (Path.companionEndings_of_content he)
    · exact fun _ ending he => hbeside ending (Path.companionEndings_of_content he)

/-- A stamp is not affected by what alters another database, if neither is a companion of the
other. -/
theorem Stamped.alters {place : String} (hs : fs.Sound) (h : fs.Stamped path stamp)
    (ha : Alters place fs fs') (hne : Path.place path ≠ place)
    (hcompanion : Path.place path ∉ Path.companions place)
    (hcompanion' : place ∉ Path.companions (Path.place path)) : fs'.Stamped path stamp :=
  have hfile := ha.sameAt_other hne hcompanion
  h.congr (exists?_congr hs ha.sound ha.directories hfile.name) hfile
    (fun _ _ => ha.toWithin.isDirectory _)
    fun _ he => ha.sameAt_other (fun heq => hcompanion' (heq ▸ List.mem_map_of_mem he))
      (Path.companion_not_companion hne he)

end Files

end Replica
