/-
Replica.Proofs.Seed.Stores — stores on a seeded database.

A store is on the database at a place (`FileStore.On`) when it is connected to the file that
is there, its changes go to no other log than the one beside it, and none of its models shares
the table of the stamp. Whatever such a store does keeps the database seeded, and keeps other
stores on it: opening, transactions, look-ups, cycles and closing (`Kept`).

A log goes when it is closed by the last store that holds it. So that no store is left with a log
that is gone, files know of at least as many holders of the log as there are (`holds`): a store
that goes over to the log is counted (`current_kept`, `create_kept`), and only a store that is
closed is taken off (`close_kept`).
-/
import Replica.Proofs.Cycle.Upheld
import Replica.Proofs.Seed.Replacement
import Replica.Seed.Opening

namespace Replica

namespace Files

variable {fs fs' fs'' : Files} {place : String}

/-! ## What stores rely on -/

/-- The file at a place is the one it was, and it is not emptied. No holder of its log is
forgotten, and a log that is held stays where it is. -/
structure Carries (place : String) (fs fs' : Files) : Prop where
  name : fs'.names.get? place = fs.names.get? place
  occupied : ∀ {number}, fs.names.get? place = some number →
    (fs.content number).isOccupied = true → (fs'.content number).isOccupied = true
  held : ∀ number, fs.heldLogs.count number ≤ fs'.heldLogs.count number
  log : ∀ {number}, fs.names.get? place = some number → (fs.content number).isOccupied = true →
    number ∈ fs.heldLogs →
    fs'.names.get? (Path.sibling place "wal") = fs.names.get? (Path.sibling place "wal")

theorem Carries.refl (place : String) (fs : Files) : Carries place fs fs :=
  ⟨rfl, fun _ h => h, fun _ => Nat.le_refl _, fun _ _ _ => rfl⟩

/-- A log that is held is still held. -/
theorem Carries.mem (h : Carries place fs fs') {number : Nat} (hmem : number ∈ fs.heldLogs) :
    number ∈ fs'.heldLogs :=
  List.count_pos_iff.1 (Nat.lt_of_lt_of_le (List.count_pos_iff.2 hmem) (h.held number))

theorem Carries.trans (h : Carries place fs fs') (h' : Carries place fs' fs'') :
    Carries place fs fs'' where
  name := h'.name.trans h.name
  occupied hname ho := h'.occupied (h.name.trans hname) (h.occupied hname ho)
  held number := Nat.le_trans (h.held number) (h'.held number)
  log hname ho hmem := (h'.log (h.name.trans hname) (h.occupied hname ho) (h.mem hmem)).trans
    (h.log hname ho hmem)

theorem Spared.carries (h : Spared place fs fs') : Carries place fs fs' where
  name := h.file.name
  occupied hname ho := by
    rw [h.file.content_eq hname]
    exact ho
  held number := Nat.le_of_eq (by rw [h.held])
  log hname ho _ := (h.beside hname ho "wal" (by decide)).name

/-- The database is seeded after a change, and the stores on it are still on it. -/
structure Kept (databasePath : String) (s : Snapshot) (stamp : Option String) (fs fs' : Files) :
    Prop where
  seeded : fs'.Seeded databasePath s stamp
  carries : Carries (Path.place databasePath) fs fs'

variable {d : String} {s : Snapshot} {stamp : Option String}

theorem Kept.refl (h : fs.Seeded d s stamp) : Kept d s stamp fs fs := ⟨h, .refl _ _⟩

theorem Kept.trans (h : Kept d s stamp fs fs') (h' : Kept d s stamp fs' fs'') :
    Kept d s stamp fs fs'' := ⟨h'.seeded, h.carries.trans h'.carries⟩

theorem Seeded.kept_tidies (h : fs.Seeded d s stamp) (hapart : s.schemaVersion = none → s.Apart d)
    (ht : Tidies (Path.place d) fs fs') : Kept d s stamp fs fs' :=
  ⟨h.tidies hapart ht, ht.spared.carries⟩

/-- A seeded database that is written and keeps its stamp is kept. -/
theorem Seeded.kept_write (h : fs.Seeded d s stamp) (hapart : s.schemaVersion = none → s.Apart d)
    {c : Connection} (hplace : c.place = Path.place d) {before after : Database}
    (hdb : fs.HasDatabase (Path.place d) c.number before) (hbefore : before.readStamp = stamp)
    (hentered : c.Entered fs) (hafter : after.readStamp = stamp) :
    Kept d s stamp fs (c.write before after fs).2 := by
  rw [← hplace] at hdb
  obtain ⟨halters, hlog, hwritten⟩ := Connection.write_database h.sound hentered hdb after
  rw [Connection.log, hplace] at hlog
  rw [hplace] at halters hwritten hdb
  refine ⟨h.alters hapart halters ?_, ⟨halters.name, ?_, fun _ => Nat.le_of_eq (by rw [halters.held]),
    fun _ _ _ => hlog⟩⟩
  · rcases hwritten with ⟨hsame, -⟩ | ⟨hdb', -⟩
    · rw [hsame]
      exact ⟨c.number, before, hdb, hbefore⟩
    · exact ⟨c.number, after, hdb', hafter⟩
  · intro number hname ho
    rw [hdb.named] at hname
    cases hname
    rcases hwritten with ⟨hsame, -⟩ | ⟨-, ho'⟩
    · rw [hsame]
      exact ho
    · exact ho'

/-- A seeded database is kept when a connection is closed. -/
theorem Seeded.kept_close (h : fs.Seeded d s stamp) (hapart : s.schemaVersion = none → s.Apart d)
    {c : Connection} (hplace : c.place = Path.place d)
    (hnamed : fs.names.get? (Path.place d) = some c.number) (hj : c.Joined fs) :
    Kept d s stamp fs (c.close fs) := by
  obtain ⟨-, number, db, hdb, hstamp⟩ := h.exists_database
  obtain rfl : number = c.number := Option.some.inj (hdb.named.symm.trans hnamed)
  rw [← hplace] at hdb hnamed
  obtain ⟨halters, hdb', hoccupied, hheld⟩ := Connection.close_database h.sound hj hdb
  rw [hplace] at halters hdb' hnamed
  refine ⟨h.alters hapart halters ⟨c.number, db, hdb', hstamp⟩, ⟨halters.name, ?_,
    fun _ => Nat.le_of_eq (by rw [halters.held]), ?_⟩⟩
  · intro number hname ho
    cases hnamed.symm.trans hname
    exact hoccupied ho
  · intro number hname _ hmem
    cases hnamed.symm.trans hname
    rw [hheld hmem]

/-- Who holds a log says nothing about the database. -/
theorem Seeded.holders (h : fs.Seeded d s stamp) (logs : List Nat) :
    ({ fs with heldLogs := logs } : Files).Seeded d s stamp := by
  have hsound : ({ fs with heldLogs := logs } : Files).Sound :=
    ⟨h.sound.numbered, h.sound.injective, h.sound.plain, h.sound.above⟩
  have hexists (path : String) : ({ fs with heldLogs := logs } : Files).exists? path
      = fs.exists? path := exists?_congr h.sound hsound rfl rfl
  have hstamped {path : String} {stamp : Option String} (hst : fs.Stamped path stamp) :
      ({ fs with heldLogs := logs } : Files).Stamped path stamp :=
    hst.congr (hexists path) ⟨rfl, fun _ => rfl⟩ (fun _ _ => rfl) fun _ _ => ⟨rfl, fun _ => rfl⟩
  exact ⟨hsound, (hexists d).trans h.present, hstamped h.stamped,
    ⟨h.bundles.given, fun hversion => hstamped (h.bundles.stored hversion)⟩⟩

end Files

/-- How many logs a connection holds. -/
def Connection.holds (c : Connection) : Nat := if c.logged.isSome then 1 else 0

namespace FileStore

open Files

variable {fs fs' : Files} {place d : String} {s : Snapshot} {stamp : Option String}
  {st : FileStore}

/-! ## Stores on a database -/

/-- How many logs a store holds. -/
def holds : FileStore → Nat
  | opened _ c => c.holds
  | failed _ _ => 0

/-- A store is on the database at a place: it has failed to open, or it is connected to the
file there, and if its changes go to a log, then to the one beside the file, which it holds. -/
inductive On (fs : Files) (place : String) : FileStore → Prop
  | failed (r : Registry) (reason : String) : On fs place (.failed r reason)
  | opened {r : Registry} {c : Connection} (spares : r.SparesStamp) (hplace : c.place = place)
      (hnamed : fs.names.get? place = some c.number) (joined : c.Joined fs)
      (held : c.logged.isSome = true → c.number ∈ fs.heldLogs) : On fs place (.opened r c)

theorem On.carry (h : On fs place st) (hc : Carries place fs fs') : On fs' place st := by
  cases h with
  | failed r reason => exact .failed r reason
  | @opened r c spares hplace hnamed joined held =>
    refine .opened spares hplace (hc.name.trans hnamed) (fun log hlogged => ?_)
      fun hlogged => hc.mem (held hlogged)
    obtain ⟨hname, ho⟩ := joined _ hlogged
    have hmem := held (by rw [hlogged]; rfl)
    refine ⟨?_, hc.occupied hnamed ho⟩
    rw [Connection.log, hplace] at hname ⊢
    exact (hc.log hnamed ho hmem).trans hname

/-- A store as it shows the database that it is on. -/
inductive Shows (fs : Files) (place : String) (stamp : Option String) : FileStore → Store → Prop
  | failed (r : Registry) (reason : String) :
      Shows fs place stamp (.failed r reason) (.failed r reason)
  | opened {r : Registry} {c : Connection} {db : Database} (entered : c.Entered fs)
      (hdb : fs.HasDatabase place c.number db) (hstamp : db.readStamp = stamp) :
      Shows fs place stamp (.opened r c) (.opened r db)

/-- A connection to a seeded database is entered. -/
theorem enter_kept (h : fs.Seeded d s stamp) (hapart : s.schemaVersion = none → s.Apart d)
    {c : Connection} (hplace : c.place = Path.place d)
    (hnamed : fs.names.get? (Path.place d) = some c.number) (hj : c.Joined fs) :
    ∃ c' fs' db, c.enter fs = (.ok c', fs') ∧ Kept d s stamp fs fs' ∧
      c'.place = Path.place d ∧ fs'.HasDatabase (Path.place d) c'.number db ∧
      db.readStamp = stamp ∧ c'.Entered fs' ∧ c.holds ≤ c'.holds := by
  obtain ⟨-, number, db, hdb, hstamp⟩ := h.exists_database
  obtain rfl : number = c.number := Option.some.inj (hdb.named.symm.trans hnamed)
  obtain ⟨c', fs', henter, hplace', hnumber, htidies, hentered⟩ :=
    Connection.enter_ok (c := c) h.sound (hplace ▸ hdb) hj
  rw [hplace] at htidies
  refine ⟨c', fs', db, henter, h.kept_tidies hapart htidies, hplace'.trans hplace,
    hnumber ▸ hdb.tidies htidies, hstamp, hentered, ?_⟩
  -- Whoever has gone over to the log stays there.
  rw [Connection.enter_apply] at henter
  split at henter
  · cases henter
    exact Nat.le_refl _
  · rename_i hplain
    simp [Connection.holds, hplain]

/-- A connection that has gone over to the log is counted, and a seeded database is kept. -/
theorem holdLog_kept (h : fs.Seeded d s stamp) {c c' : Connection} (hle : c.holds ≤ c'.holds) :
    Kept d s stamp fs (holdLog c c' fs) ∧
      fs.heldLogs.count c'.number + c'.holds
        ≤ (holdLog c c' fs).heldLogs.count c'.number + c.holds := by
  rw [holdLog]
  split
  · rename_i hnew
    rw [Bool.and_eq_true] at hnew
    refine ⟨⟨h.holders _, rfl, fun _ ho => ho, fun number => ?_, fun _ _ _ => rfl⟩, ?_⟩
    · exact (List.sublist_cons_self c'.number fs.heldLogs).count_le number
    · simp only [Connection.holds, hnew.1, if_true, List.count_cons_self]
      omega
  · rename_i hold
    refine ⟨.refl h, ?_⟩
    have hsame : c'.holds ≤ c.holds := by
      simp only [Connection.holds]
      cases hc : c.logged <;> cases hc' : c'.logged <;> simp_all
    omega

/-- A connection that was entered and counted is one of a store on the database. -/
theorem on_opened {r : Registry} {c' : Connection} (spares : r.SparesStamp)
    (hplace : c'.place = place) (hentered : c'.Entered fs)
    (hnumber : c'.logged.isSome = true → c'.number ∈ fs.heldLogs) :
    On fs place (.opened r c') :=
  .opened spares hplace (hplace ▸ hentered.named) hentered.joined hnumber

/-- Only the holders of logs change when a store goes over to the log, or lets it go. -/
theorem holdLog_eq (c c' : Connection) (fs : Files) :
    ∃ logs, holdLog c c' fs = { fs with heldLogs := logs } := by
  rw [holdLog]
  split <;> exact ⟨_, rfl⟩

theorem releaseLog_eq (c : Connection) (fs : Files) :
    ∃ logs, releaseLog c fs = { fs with heldLogs := logs } := by
  rw [releaseLog]
  split <;> exact ⟨_, rfl⟩

/-- A connection that went over to the log, or held it before, holds it. -/
theorem mem_holdLog {c c' : Connection}
    (hheld : c.logged.isSome = true → c'.number ∈ fs.heldLogs) (hlogged : c'.logged.isSome = true) :
    c'.number ∈ (holdLog c c' fs).heldLogs := by
  rw [holdLog]
  split
  · exact List.mem_cons_self ..
  · rename_i hold
    cases hc : c.logged with
    | none => exact absurd (by rw [hlogged, hc]; rfl) hold
    | some log => exact hheld (by rw [hc]; rfl)

/-- A store that is on a seeded database shows it, and it is counted if it goes over to the
log. -/
theorem current_kept (h : fs.Seeded d s stamp) (hapart : s.schemaVersion = none → s.Apart d)
    (ho : On fs (Path.place d) st) : ∃ content held fs', st.current fs = (content, held, fs') ∧
      Kept d s stamp fs fs' ∧ On fs' (Path.place d) held ∧
      Shows fs' (Path.place d) stamp held content ∧
      ∀ {number}, fs.names.get? (Path.place d) = some number →
        fs.heldLogs.count number + held.holds ≤ fs'.heldLogs.count number + st.holds := by
  cases ho with
  | failed r reason =>
    exact ⟨_, _, fs, rfl, .refl h, .failed r reason, .failed r reason, fun _ => Nat.le_refl _⟩
  | @opened r c spares hplace hnamed joined hheld =>
    obtain ⟨c', fs₁, db, henter, hkept, hplace', hdb, hstamp, hentered, hle⟩ :=
      enter_kept h hapart hplace hnamed joined
    have hnumber : c'.number = c.number :=
      Option.some.inj (hdb.named.symm.trans (hkept.carries.name.trans hnamed))
    obtain ⟨hkept', hcount⟩ := holdLog_kept hkept.seeded hle
    obtain ⟨logs, hlogs⟩ := holdLog_eq c c' fs₁
    have hentered' : c'.Entered (holdLog c c' fs₁) := by
      rw [hlogs]
      exact ⟨hentered.named, hentered.joined, hentered.plain⟩
    have hdb' : (holdLog c c' fs₁).HasDatabase (Path.place d) c'.number db := by
      rw [hlogs]
      exact ⟨hdb.named, hdb.content, hdb.log, hdb.calm⟩
    have hview : c'.view (holdLog c c' fs₁) = .ok db := by
      rw [hentered'.view_eq, hplace']
      exact hdb'.content
    refine ⟨.opened r db, .opened r c', holdLog c c' fs₁, ?_, hkept.trans hkept',
      on_opened spares hplace' hentered' (mem_holdLog fun hl => ?_),
      .opened hentered' hdb' hstamp, fun {number} hname => ?_⟩
    · simp only [current, henter, hview]
    · exact hkept.carries.mem (hnumber ▸ hheld hl)
    · cases hnamed.symm.trans hname
      rw [← hnumber]
      have := hkept.carries.held c'.number
      show _ + c'.holds ≤ _ + c.holds
      omega

/-- What a store has become is written, and the stamp stays. -/
theorem keep_kept (h : fs.Seeded d s stamp) (hapart : s.schemaVersion = none → s.Apart d)
    (ho : On fs (Path.place d) st) {content after : Store}
    (hshows : Shows fs (Path.place d) stamp st content)
    (hafter : ∀ r db, after = .opened r db → db.readStamp = stamp) :
    Kept d s stamp fs (st.keep after fs) := by
  cases hshows with
  | failed r reason => exact .refl h
  | @opened r c db hentered hdb hstamp =>
    cases ho with
    | opened spares hplace hnamed joined held =>
      cases after with
      | failed r' reason => exact .refl h
      | opened r' db' =>
        have hview : c.view fs = .ok db := by
          rw [hentered.view_eq, hplace]
          exact hdb.content
        simp only [keep, hview]
        exact h.kept_write hapart hplace hdb hstamp hentered (hafter r' db' rfl)

/-- A store that is closed is taken off the holders of the log. -/
theorem releaseLog_count {c : Connection} (held : c.logged.isSome = true → c.number ∈ fs.heldLogs) :
    (releaseLog c fs).heldLogs.count c.number + c.holds = fs.heldLogs.count c.number := by
  rw [releaseLog, Connection.holds]
  split
  · rename_i hlogged
    have := List.count_pos_iff.2 (held hlogged)
    simp only [List.count_erase_self]
    omega
  · rfl

/-- Closing a store keeps the database seeded, and other stores on it that hold the log as
well. -/
theorem close_kept (h : fs.Seeded d s stamp) (hapart : s.schemaVersion = none → s.Apart d)
    (ho : On fs (Path.place d) st) : (st.close fs).Seeded d s stamp ∧
      (st.close fs).names.get? (Path.place d) = fs.names.get? (Path.place d) ∧
      (∀ {number}, fs.names.get? (Path.place d) = some number →
        fs.heldLogs.count number ≤ (st.close fs).heldLogs.count number + st.holds) ∧
      ∀ {other}, On fs (Path.place d) other →
        (∀ {number}, fs.names.get? (Path.place d) = some number →
          other.holds + st.holds ≤ fs.heldLogs.count number) →
        On (st.close fs) (Path.place d) other := by
  cases ho with
  | failed r reason => exact ⟨h, rfl, fun _ => Nat.le_refl _, fun hother _ => hother⟩
  | @opened r c spares hplace hnamed joined held =>
    have hcount := releaseLog_count held
    have hclose : (FileStore.opened r c).close fs = c.close (releaseLog c fs) := rfl
    have hholds : (FileStore.opened r c).holds = c.holds := rfl
    obtain ⟨logs, hlogs⟩ := releaseLog_eq c fs
    rw [hlogs] at hcount
    rw [hclose, hholds, hlogs]
    have hkept := (h.holders logs).kept_close hapart hplace hnamed joined
    refine ⟨hkept.seeded, hkept.carries.name, fun {number} hname => ?_,
      fun {other} hother hmany => ?_⟩
    · cases hnamed.symm.trans hname
      have := hkept.carries.held c.number
      omega
    · -- The other store is still among the holders of the log.
      refine On.carry ?_ hkept.carries
      cases hother with
      | failed r' reason => exact .failed r' reason
      | @opened r' c' spares' hplace' hnamed' joined' held' =>
        refine .opened spares' hplace' hnamed' joined' fun hlogged => ?_
        have hnumber : c'.number = c.number := Option.some.inj (hnamed'.symm.trans hnamed)
        have hmany' : c'.holds + c.holds ≤ fs.heldLogs.count c.number := hmany hnamed
        have hone : c'.holds = 1 := by rw [Connection.holds, if_pos hlogged]
        rw [hnumber, ← List.count_pos_iff]
        omega

end FileStore

/-! ## Opening -/

namespace FileStore

open Files

variable {fs fs' : Files} {d : String} {s : Snapshot} {stamp : Option String}

/-- A new connection to a seeded database. -/
theorem connect_seeded (h : fs.Seeded d s stamp) : ∃ number,
    Files.connect d fs = (.ok (fs.connection d number), fs) ∧
      fs.names.get? (Path.place d) = some number := by
  obtain ⟨hsmall, number, db, hdb, -⟩ := h.exists_database
  have hreaches := ((exists?_iff h.sound).1 h.present).1
  refine ⟨number, ?_, hdb.named⟩
  simp only [connect_apply, databasePlace_eq h.sound hreaches hsmall, hdb.named, connection]

/-- Creating the tables of a store keeps a seeded database, and the store is counted if it goes
over to the log. -/
theorem create_kept (h : fs.Seeded d s stamp) (hapart : s.schemaVersion = none → s.Apart d)
    {r : Registry} (spares : r.SparesStamp) {c : Connection} (hplace : c.place = Path.place d)
    (hnamed : fs.names.get? (Path.place d) = some c.number) (hplain : c.logged = none) :
    Kept d s stamp fs (create r c fs).2 ∧
      ∀ st, (create r c fs).1 = .ok st → On (create r c fs).2 (Path.place d) st ∧
        ∀ {number}, fs.names.get? (Path.place d) = some number →
          fs.heldLogs.count number + st.holds ≤ (create r c fs).2.heldLogs.count number := by
  obtain ⟨c', fs₁, db, henter, hkept, hplace', hdb, hstamp, hentered, hle⟩ :=
    enter_kept h hapart hplace hnamed (Connection.joined_of_none hplain fs)
  have hview : c'.view fs₁ = .ok db := by
    rw [hentered.view_eq, hplace']
    exact hdb.content
  have hwrite := hkept.seeded.kept_write hapart hplace' hdb hstamp hentered
    ((Database.readStamp_prepare db r).trans hstamp)
  have hjoined := Connection.joined_write hkept.seeded.sound hentered (hplace' ▸ hdb)
    (db.prepare r).1
  have hwritten := hkept.trans hwrite
  rw [create, henter]
  simp only [Connection.perform_apply, hview]
  generalize c'.write db (db.prepare r).1 fs₁ = written at hwrite hwritten hjoined
  obtain ⟨answer, fs₂⟩ := written
  have hnamed' : fs₂.names.get? (Path.place d) = some c'.number :=
    hwrite.carries.name.trans hdb.named
  have hclosed := hwritten.trans (hwrite.seeded.kept_close hapart hplace' hnamed' hjoined)
  cases answer with
  | error e => exact ⟨hclosed, fun st hst => absurd hst (by simp)⟩
  | ok _ =>
    dsimp only
    cases (db.prepare r).2 with
    | error e => exact ⟨hclosed, fun st hst => absurd hst (by simp)⟩
    | ok _ =>
      have hwritten : Kept d s stamp fs fs₂ := hwritten
      have hseeded : fs₂.Seeded d s stamp := hwritten.seeded
      obtain ⟨hhold, hcount⟩ := holdLog_kept hseeded hle
      refine ⟨hwritten.trans hhold, fun st hst => ?_⟩
      cases hst
      have hnumber : c'.number = c.number :=
        Option.some.inj (hdb.named.symm.trans (hkept.carries.name.trans hnamed))
      refine ⟨.opened spares hplace' (hhold.carries.name.trans hnamed') ?_
        (mem_holdLog fun hl => absurd hl (by simp [hplain])), fun {number} hname => ?_⟩
      · obtain ⟨logs, hlogs⟩ := holdLog_eq c c' fs₂
        have hjoined' : c'.Joined (holdLog c c' fs₂) := by
          rw [hlogs]
          exact hjoined
        exact hjoined'
      · cases hnamed.symm.trans hname
        rw [← hnumber]
        have hnone : c.holds = 0 := by simp [Connection.holds, hplain]
        have := hwritten.carries.held c'.number
        show fs.heldLogs.count c'.number + c'.holds ≤ (holdLog c c' fs₂).heldLogs.count c'.number
        omega

/-- Opening a store without seeding keeps a seeded database. -/
theorem openAt_kept (h : fs.Seeded d s stamp) (hapart : s.schemaVersion = none → s.Apart d)
    {r : Registry} (spares : r.SparesStamp) : Kept d s stamp fs (openAt d r fs).2 ∧
      ∀ st, (openAt d r fs).1 = .ok st → On (openAt d r fs).2 (Path.place d) st ∧
        ∀ {number}, fs.names.get? (Path.place d) = some number →
          fs.heldLogs.count number + st.holds ≤ (openAt d r fs).2.heldLogs.count number := by
  obtain ⟨number, hconnect, hnamed⟩ := connect_seeded h
  have hopen : openAt d r fs = create r (fs.connection d number) fs := by
    rw [openAt, FileTask.bind_apply, hconnect]
  rw [hopen]
  exact create_kept h hapart spares rfl hnamed rfl

end FileStore

theorem Seeder.databasePath_run (b : Seeder) (site : Site Settings) :
    (b.run site).2.1.databasePath = b.databasePath := by
  rw [run]
  split
  · rfl
  · split <;> rfl

namespace Opening

open Files FileStore

variable {fs : Files} {d : String} {s : Snapshot} {stamp : Option String}

/-- What a stage of an opening starts from: a fresh seeder, a new connection, or a store that
was created. -/
def StartsFrom (databasePath : String) (s : Snapshot) (fs : Files) (b : Seeder) :
    OpeningStage → Prop
  | .seed => ∃ version, b = Seeder.fresh databasePath version (some s)
  | .createTables _ c => c.place = Path.place databasePath ∧
      fs.names.get? (Path.place databasePath) = some c.number ∧ c.logged = none
  | .fillSlot _ st => On fs (Path.place databasePath) st
  | _ => True

/-- How many logs an opening holds: with the store in the slot, and with the one that is to be
put there. -/
def holds {σ : Type} (o : Opening σ) : Nat :=
  o.slot.elim 0 FileStore.holds + match o.stage with
    | .fillSlot _ st => st.holds
    | _ => 0

/-- An opening on its way, from files with a seeded database and settings with the extra
version of the snapshot. -/
structure Seeding (databasePath : String) (s : Snapshot) (stamp : Option String)
    (before : Site Settings) (o : Opening Settings) : Prop where
  kept : Kept databasePath s stamp before.files o.site.files
  settings : o.site.settings = before.settings
  path : o.seeder.databasePath = databasePath
  spares : o.registry.SparesStamp
  stage : StartsFrom databasePath s o.site.files o.seeder o.stage
  filled : ∀ st, o.slot = some st → On o.site.files (Path.place databasePath) st
  held : ∀ {number}, before.files.names.get? (Path.place databasePath) = some number →
    before.files.heldLogs.count number + o.holds ≤ o.site.files.heldLogs.count number

variable {site : Site Settings}

theorem seeding_start (h : site.files.Seeded d s stamp) {r : Registry} (spares : r.SparesStamp)
    (version : String) :
    Seeding d s stamp site (start site r (Seeder.fresh d version (some s))) where
  kept := .refl h
  settings := rfl
  path := rfl
  spares := spares
  stage := ⟨version, rfl⟩
  filled _ h := absurd h (by simp [start])
  held _ := Nat.le_refl _

/-- Going on to a stage that holds no more, with files that keep the database, is no step back. -/
theorem Seeding.goOn {o o' : Opening Settings} (h : Seeding d s stamp site o)
    (hkept : Kept d s stamp o.site.files o'.site.files)
    (hsettings : o'.site.settings = o.site.settings) (hpath : o'.seeder.databasePath = d)
    (hregistry : o'.registry = o.registry)
    (hstage : StartsFrom d s o'.site.files o'.seeder o'.stage) (hslot : o'.slot = o.slot)
    (hholds : ∀ {number}, o.site.files.names.get? (Path.place d) = some number →
      o.site.files.heldLogs.count number + o'.holds
        ≤ o'.site.files.heldLogs.count number + o.holds) :
    Seeding d s stamp site o' where
  kept := h.kept.trans hkept
  settings := hsettings.trans h.settings
  path := hpath
  spares := hregistry ▸ h.spares
  stage := hstage
  filled st hst := (h.filled st (hslot ▸ hst)).carry hkept.carries
  held hname := by
    have hname' := h.kept.carries.name.trans hname
    have := h.held hname
    have := hholds hname'
    omega

/-- One stage of an opening keeps the database seeded and the settings as they were. -/
theorem seeding_step (hapart : s.schemaVersion = none → s.Apart d)
    (hextra : KeyStore.extraVersion site.settings = .ok s.extraVersion) {o : Opening Settings}
    (h : Seeding d s stamp site o) : Seeding d s stamp site o.step := by
  have hseeded := h.kept.seeded
  have hsame := Kept.refl hseeded
  have hstart := h.stage
  rw [step]
  split
  · rename_i hstage
    rw [hstage] at hstart
    obtain ⟨version, hfresh⟩ := hstart
    have hextra' : KeyStore.extraVersion o.site.settings = .ok s.extraVersion := by
      rw [h.settings]
      exact hextra
    obtain ⟨b, site', hrun, hsettings, hseeded', hspared⟩ :=
      Seeder.run_seeded hseeded hapart hextra' version
    have hkept : Kept d s stamp o.site.files site'.files := ⟨hseeded', hspared.carries⟩
    have hpath := Seeder.databasePath_run o.seeder o.site
    rw [hfresh, hrun] at hpath
    rw [hfresh, hrun]
    refine h.goOn hkept hsettings hpath rfl trivial rfl fun _ => ?_
    simp only [holds, hstage, hspared.held, Nat.le_refl]
  · rename_i outcome hstage
    obtain ⟨number, hconnect, hnamed⟩ := connect_seeded hseeded
    rw [h.path, hconnect]
    refine h.goOn hsame rfl h.path rfl ⟨rfl, hnamed, rfl⟩ rfl fun _ => ?_
    simp only [holds, hstage, withFiles, Nat.le_refl]
  · rename_i outcome c hstage
    rw [hstage] at hstart
    obtain ⟨hplace, hnamed, hplain⟩ := hstart
    obtain ⟨hkept, hcreated⟩ := create_kept hseeded hapart h.spares hplace hnamed hplain
    split
    · rename_i st files hcreate
      rw [hcreate] at hkept hcreated
      obtain ⟨hon, hcount⟩ := hcreated st rfl
      refine h.goOn hkept rfl h.path rfl hon rfl fun hname => ?_
      have hcount := hcount hname
      simp only [holds, hstage, withFiles] at hcount ⊢
      omega
    · rename_i e files hcreate
      rw [hcreate] at hkept
      refine h.goOn hkept rfl h.path rfl trivial rfl fun {number} _ => ?_
      have hcount := hkept.carries.held number
      simp only [holds, hstage, withFiles, fail] at hcount ⊢
      omega
  · rename_i outcome st hstage
    rw [hstage] at hstart
    refine ⟨h.kept, h.settings, h.path, h.spares, trivial, fun st' hst => ?_, fun hname => ?_⟩
    · cases hst
      exact hstart
    · have hcount := h.held hname
      simp only [holds, hstage, Option.elim_some] at hcount ⊢
      omega
  · rename_i outcome hstage
    have hpath : (o.seeder.announce outcome).2.databasePath = d := by
      rw [Seeder.announce]
      split <;> exact h.path
    refine h.goOn hsame rfl hpath rfl trivial rfl fun _ => ?_
    simp only [holds, hstage, Nat.le_refl]
  · rename_i hstage
    refine h.goOn hsame rfl h.path rfl trivial rfl fun _ => ?_
    simp only [holds, hstage, Nat.le_refl]
  · exact h

/-- Opening a store behind its gate keeps a seeded database and the settings, and the store is
on the database and counted if it holds the log. -/
theorem finish_kept (h : site.files.Seeded d s stamp)
    (hapart : s.schemaVersion = none → s.Apart d)
    (hextra : KeyStore.extraVersion site.settings = .ok s.extraVersion) {r : Registry}
    (spares : r.SparesStamp) (version : String) :
    let o := (start site r (Seeder.fresh d version (some s))).finish
    Kept d s stamp site.files o.site.files ∧ o.site.settings = site.settings ∧
      On o.site.files (Path.place d) o.store ∧
      ∀ {number}, site.files.names.get? (Path.place d) = some number →
        site.files.heldLogs.count number + o.store.holds ≤ o.site.files.heldLogs.count number := by
  have hsteps : ∀ (n : Nat) {o : Opening Settings}, Seeding d s stamp site o →
      Seeding d s stamp site (steps n o) := by
    intro n
    induction n with
    | zero => exact id
    | succ n ih => exact fun ho => ih (seeding_step hapart hextra ho)
  have hfinish := hsteps 6 (seeding_start h spares version)
  refine ⟨hfinish.kept, hfinish.settings, ?_, fun hname => ?_⟩
  · rw [store]
    split
    · exact .failed _ _
    · rename_i st hslot _
      exact hfinish.filled st hslot
    · exact .failed _ _
  · refine Nat.le_trans (Nat.add_le_add_left ?_ _) (hfinish.held hname)
    rw [store, holds]
    split
    · exact Nat.zero_le _
    · rename_i st hslot _
      have hslot : (steps 6 (start site r (Seeder.fresh d version (some s)))).slot = some st := hslot
      rw [hslot]
      exact Nat.le_add_right _ _
    · exact Nat.zero_le _

end Opening

/-! ## Transactions and cycles -/

namespace HeldStore

open Files FileStore

variable {fs : Files} {d : String} {s : Snapshot} {stamp : Option String}

/-- A store and the files it has come to, from files with a seeded database, beside others that
hold the log. -/
structure Serving (databasePath : String) (s : Snapshot) (stamp : Option String) (before : Files)
    (others : Nat) (w : HeldStore) : Prop where
  kept : Kept databasePath s stamp before w.files
  on : On w.files (Path.place databasePath) w.store
  held : ∀ {number}, before.names.get? (Path.place databasePath) = some number →
    others + w.store.holds ≤ w.files.heldLogs.count number

/-- Work on a store of which no model shares the table of the stamp keeps the stamp. -/
theorem stamp_transact {α : Type} {work : Transaction α} (hwork : work.KeepsStamp) {r : Registry}
    (spares : r.SparesStamp) {db : Database} (hstamp : db.readStamp = stamp) :
    ∀ r' after, ((Store.opened r db).transact work).2 = .opened r' after →
      after.readStamp = stamp := by
  intro r' after h
  rw [Store.transact] at h
  split at h
  · rename_i a db' hok
    cases h
    exact (hwork spares hok).trans hstamp
  · cases h
    exact hstamp

variable {others : Nat} {w : HeldStore}

theorem serving_transact (hapart : s.schemaVersion = none → s.Apart d) {α : Type}
    {work : Transaction α} (hwork : work.KeepsStamp) (h : Serving d s stamp fs others w) :
    Serving d s stamp fs others (w.transact work).2 := by
  obtain ⟨content, held, files, hcurrent, hkept, hon, hshows, hcount⟩ :=
    current_kept h.kept.seeded hapart h.on
  have hchosen : (if held.canWrite files then work else work.readOnly).KeepsStamp := by
    split
    · exact hwork
    · exact hwork.readOnly
  simp only [transact, hcurrent]
  generalize (if held.canWrite files then work else work.readOnly) = chosen at hchosen
  have hkeep : Kept d s stamp files (held.keep (content.transact chosen).2 files) := by
    refine keep_kept hkept.seeded hapart hon hshows ?_
    cases hshows with
    | failed r reason =>
      intro r' db h
      cases h
    | opened _ hdb hstamp =>
      cases hon with
      | opened spares => exact stamp_transact hchosen spares hstamp
  refine ⟨h.kept.trans (hkept.trans hkeep), hon.carry hkeep.carries, fun {number} hname => ?_⟩
  have := h.held hname
  have := hcount (h.kept.carries.name.trans hname)
  have := hkeep.carries.held number
  dsimp only
  omega

theorem serving_query (hapart : s.schemaVersion = none → s.Apart d) {model : String}
    {p : Predicate} (h : Serving d s stamp fs others w) :
    Serving d s stamp fs others (w.query model p).2 := by
  obtain ⟨content, held, files, hcurrent, hkept, hon, -, hcount⟩ :=
    current_kept h.kept.seeded hapart h.on
  simp only [query, hcurrent]
  refine ⟨h.kept.trans hkept, hon, fun hname => ?_⟩
  have := h.held hname
  have := hcount (h.kept.carries.name.trans hname)
  dsimp only
  omega

/-- Being on a seeded database is upheld by whatever a cycle does. -/
theorem upheld_serving (hapart : s.schemaVersion = none → s.Apart d) (stamp : Option String)
    (fs : Files) (others : Nat) : Upheld (Serving d s stamp fs others) where
  transact hwork h := serving_transact hapart hwork h
  query h := serving_query hapart h

end HeldStore

end Replica
