/-
Replica.Proofs.Store.Separation — models see each other exactly when they have one table.

What a reader of a model can find out is read from the table of the model, and, for a model that
shares the table of the stamp, from the stamp (`LooksAlike.of_table`). Work on other tables
touches neither (`Work.touched`), so it goes unnoticed; and rows in one table are rows of every
model that has it. In a store of any registry a record that was saved is read back as its text is
read, which is as it was saved if its values are exact; and models see each other's records
exactly if their tables have one name (`tables_apart`).

Names of models differ as texts, but names of tables ignore the case of ASCII letters, so a
registry may have two models with one table, or a model with the table of the stamp
(`sticker_seenAsOther`).
-/
import Replica.Proofs.Store.RowView
import Replica.Proofs.Store.Tables

namespace Replica

namespace Database

variable {r : Registry} {db db' : Database} {model : String}

/-! ## What is seen of a model -/

/-- Whoever reads a model gets the same answers. -/
structure LooksAlike (r : Registry) (model : String) (db db' : Database) : Prop where
  get : ∀ id, db'.get r model id = db.get r model id
  versionOf : ∀ id, db'.versionOf r model id = db.versionOf r model id
  query : ∀ p, db'.query r model p = db.query r model p

/-- Nothing is read but the table of the model, or the stamp if it is in that table. -/
theorem LooksAlike.of_table
    (htable : db'.tables.get? (tableName model) = db.tables.get? (tableName model))
    (hstamp : sharesStamp model = true → db'.stamp = db.stamp) : LooksAlike r model db db' := by
  have hrows : db'.rows model = db.rows model := by
    rw [Database.rows, Database.rows, htable]
  refine ⟨fun id => ?_, fun id => ?_, query_congr fun _ => hrows⟩
  · rw [Database.get, Database.get, hrows]
  · rw [Database.versionOf, Database.versionOf, hrows]
    by_cases hshares : sharesStamp model = true
    · rw [hstamp hshares]
    · simp [hshares]

theorem Touched.looksAlike {p : String → Prop} (h : Touched r p db db')
    (hne : ∀ other, p other → tableName other ≠ tableName model) : LooksAlike r model db db' := by
  refine .of_table (h.table_other hne) fun hshares => h.stamp_eq fun other hp _ => ?_
  -- A model with another table than one that shares the stamp does not share it.
  rw [sharesStamp, decide_eq_true_eq] at hshares
  rw [sharesStamp, decide_eq_false_iff_not, ← hshares]
  exact hne other hp

/-! ## Records -/

/-- A record that was saved is read back through every model of its table, as its text is read. -/
theorem get_of_save {x : Record} {version : Int} (h : db.save r x version = .ok db')
    (hmodel : model ∈ r.modelNames) (htable : tableName model = tableName x.model) :
    db'.get r model x.id
        = (decode x.fields).map (fun fields => some ⟨model, x.id, fields⟩) ∧
      db'.versionOf r model x.id = .ok (some version) := by
  simp only [save, bind, Except.bind] at h
  split at h
  · cases h
  · split at h
    · cases h
    · rename_i rows hrows
      cases h
      have hfree : sharesStamp model = false := by
        rw [sharesStamp, htable]
        rw [Database.rows] at hrows
        split at hrows
        · cases hrows
        · simpa [sharesStamp] using ‹¬sharesStamp x.model = true›
      have hrows' : (db.setRows x.model (rows.insert x.id ⟨x.fields, version⟩)).rows model
          = .ok (rows.insert x.id ⟨x.fields, version⟩) := by
        rw [Database.rows, hfree, setRows, Dict.get?_insert, if_pos htable.symm]
        rfl
      rw [Database.get, Database.versionOf, guardModel_ok hmodel, hfree, hrows']
      simp only [bind, Except.bind, pure, Except.pure, Dict.get?_insert, if_true, recordOf]
      constructor
      · cases decode x.fields <;> rfl
      · rfl

end Database

namespace Store

open Database

variable {r : Registry} {db : Database}

/-- Every model whose table is not the one of the stamp keeps records: a record is read back as
its text is read, so as it was saved if its values are exact. Work on one model changes nothing
that is seen of a model with another table, and nothing of the stamp if that is in another table.
Models of one table see each other's records. -/
theorem tables_apart (h : Reached r db) :
    (∀ (x : Record) (version : Int), x.model ∈ r.modelNames → sharesStamp x.model = false →
      ∃ after, db.save r x version = .ok after ∧
        after.get r x.model x.id
          = (decode x.fields).map (fun fields => some { x with fields := fields }) ∧
        (x.fields.IsExact → after.get r x.model x.id = .ok (some x)) ∧
        after.versionOf r x.model x.id = .ok (some version)) ∧
    (∀ {α : Type} (w : Work α) (a : String), w.WritesOnly (· = a) →
      ∀ answer after, (opened r db).transact w.run = (answer, opened r after) →
        (∀ b, tableName a ≠ tableName b → LooksAlike r b db after) ∧
        (sharesStamp a = false → after.readStamp = db.readStamp)) ∧
    ∀ (x : Record) (version : Int) (after : Database), db.save r x version = .ok after →
      ∀ b ∈ r.modelNames, tableName b = tableName x.model →
        after.get r b x.id = (decode x.fields).map (fun fields => some ⟨b, x.id, fields⟩) := by
  refine ⟨fun x version hmodel hfree => ?_, fun w a hw answer after htransact => ⟨?_, ?_⟩, ?_⟩
  · obtain ⟨after, hsave⟩ := save_of_writable ⟨hmodel, h.exists_rows hmodel hfree⟩ version
    obtain ⟨hget, hversion⟩ := get_of_save hsave hmodel rfl
    refine ⟨after, hsave, hget, fun hexact => ?_, hversion⟩
    rw [hget, decode_of_exact hexact]
    rfl
  · intro b hne
    refine (touched_of_transact hw htransact).looksAlike ?_
    rintro _ rfl
    exact hne
  · intro hfree
    have hstamp := (touched_of_transact hw htransact).stamp_eq (by rintro _ rfl _; exact hfree)
    rw [readStamp, readStamp, hstamp]
  · intro x version after hsave b hb htable
    exact (get_of_save hsave hb htable).1

/-! ### Stickers in two cases -/

/-- Three models, two of which differ in case only. -/
def stickersInTwoCases : Registry where
  version := "v1"
  models := [.named "Font", .named "Sticker", .named "sticker"]
  words := by decide +kernel
  distinct := by decide +kernel

/-- A new store of theirs. -/
def newStickers : Database := (Database.empty.prepare stickersInTwoCases).1

theorem reached_newStickers : Reached stickersInTwoCases newStickers :=
  .opened (show openOn stickersInTwoCases .empty = (.ok (.opened _ newStickers), newStickers)
    from rfl)

/-- Saving a font and removing it again goes unnoticed by who reads stickers. -/
theorem fontComesAndGoes_unnoticed :
    Reached stickersInTwoCases newStickers ∧ tableName "Font" ≠ tableName "sticker" ∧
      ∃ after, (opened stickersInTwoCases newStickers).transact
          (Work.save ⟨"Font", "f1", Dict.empty⟩ 3 fun _ => .delete "Font" "f1" .done).run
          = (.ok (.ok true), opened stickersInTwoCases after) ∧
        LooksAlike stickersInTwoCases "sticker" newStickers after ∧
        after.readStamp = newStickers.readStamp := by
  refine ⟨reached_newStickers, by decide +kernel, _, rfl, ?_⟩
  obtain ⟨hother, hstamp⟩ := (tables_apart reached_newStickers).2.1
    (Work.save ⟨"Font", "f1", Dict.empty⟩ 3 fun _ => .delete "Font" "f1" .done) "Font"
    ⟨rfl, fun _ => ⟨rfl, fun _ => trivial⟩⟩ _ _ rfl
  exact ⟨hother "sticker" (by decide +kernel), hstamp (by decide +kernel)⟩

/-- A record that is saved under one of two registered names is read under the other. A model of
the name of the stamp's table in capitals keeps no records, and deleting one removes the stamp. -/
theorem sticker_seenAsOther :
    (Reached stickersInTwoCases newStickers ∧ "Sticker" ∈ stickersInTwoCases.modelNames ∧
      "sticker" ∈ stickersInTwoCases.modelNames ∧
      newStickers.get stickersInTwoCases "sticker" "s1" = .ok none ∧
      ∃ after, newStickers.save stickersInTwoCases ⟨"Sticker", "s1", Dict.empty⟩ 0 = .ok after ∧
        after.get stickersInTwoCases "sticker" "s1" = .ok (some ⟨"sticker", "s1", Dict.empty⟩)) ∧
    ∃ db after, Reached capitalStamp db ∧ "MODEL_VERSION" ∈ capitalStamp.modelNames ∧
      db.save capitalStamp ⟨"MODEL_VERSION", "s1", Dict.empty⟩ 0 = .error .database ∧
      db.readStamp = some "v1" ∧
      (opened capitalStamp db).transact
          (Work.delete "MODEL_VERSION" "current" fun _ => .done ()).run
        = (.ok (), opened capitalStamp after) ∧
      after.readStamp = none := by
  refine ⟨⟨reached_newStickers, by decide +kernel, by decide +kernel, by rfl, _, rfl, by rfl⟩,
    _, _, reached_capitalStamp (Database.empty.writeStamp "v1"), by decide +kernel, rfl, rfl, rfl,
    rfl⟩

end Store

end Replica
