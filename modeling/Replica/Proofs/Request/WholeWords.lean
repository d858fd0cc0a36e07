/-
Replica.Proofs.Request.WholeWords — renaming replaces whole words and nothing else.

Renaming looks for a dollar sign and a name and then at the one character behind. What it has
to get right is said about words: a reference is a dollar sign with the longest name behind it.
`Whole` says this of a list of pieces and does not mention how a text is read. Every text has
exactly one such list (`whole_iff`), so that there is no doubt which references it has.

`renames_whole_words` is the statement: of these pieces the references of one name are
replaced, and every other piece stays as it is and where it is. A longer name that starts the
same way is another piece, and so is a dollar sign with no name behind it.
-/
import Replica.Proofs.Request.References

namespace Replica.Variable

/-- Pieces that are whole: a plain character is no dollar sign, a name is a word, and the text
behind a reference does not go on with a character of a name. -/
inductive Whole : List Piece → Prop
  | nil : Whole []
  | char {c : Char} {ps : List Piece} (hc : c ≠ '$') (rest : Whole ps) : Whole (.char c :: ps)
  | reference {name : String} {ps : List Piece} (hname : isWord name = true)
      (hend : continuesName (charsOf ps) = false) (rest : Whole ps) :
      Whole (.reference name :: ps)

/-- The text that pieces are of. -/
def textOf (ps : List Piece) : String := String.ofList (charsOf ps)

/-- A piece with the references of one name replaced. -/
def Piece.replace (source target : String) (p : Piece) : Piece :=
  if p = .reference source then .reference target else p

/-! ## The one whole reading -/

/-- A text is read into whole pieces. -/
theorem whole_piecesFrom (cs : List Char) : Whole (piecesFrom 0 cs) := by
  induction cs using text_induction with
  | nil => exact .nil
  | plain c cs hc ih =>
    rw [piecesFrom_plain hc]
    exact .char hc ih
  | reference w rest hw hrest ih =>
    have hword : isWord (String.ofList w) = true := by
      rw [isWord, String.toList_ofList]
      exact List.all_eq_true.2 hw
    rw [piecesFrom_reference hw hrest]
    exact .reference hword (by rwa [charsOf_piecesFrom]) ih

/-- Whole pieces are what their text is read into. -/
theorem Whole.piecesFrom_charsOf {ps : List Piece} (h : Whole ps) :
    piecesFrom 0 (charsOf ps) = ps := by
  induction h with
  | nil => rfl
  | @char c ps hc _ ih =>
    show piecesFrom 0 (c :: charsOf ps) = _
    rw [piecesFrom_plain hc, ih]
  | @reference name ps hname hend _ ih =>
    show piecesFrom 0 ('$' :: (name.toList ++ charsOf ps)) = _
    rw [piecesFrom_reference (List.all_eq_true.1 hname) hend, ih, String.ofList_toList]

theorem whole_iff {ps : List Piece} {text : String} :
    Whole ps ∧ textOf ps = text ↔ ps = pieces text := by
  constructor
  · rintro ⟨hwhole, rfl⟩
    rw [pieces, textOf, String.toList_ofList, hwhole.piecesFrom_charsOf]
  · rintro rfl
    exact ⟨whole_piecesFrom _, chars_pieces text⟩

/-! ## Replacing -/

theorem Piece.replace_eq (source target : String) (p : Piece) :
    p.replace source target = p.rename fun name => if name = source then target else name := by
  cases p with
  | char c => rfl
  | reference name =>
    rw [replace, rename]
    by_cases h : name = source
    · simp [h]
    · simp [h]

theorem rename_eq_textOf {source : String} (hsource : isWord source = true)
    (body target : String) :
    rename body source target = textOf ((pieces body).map (Piece.replace source target)) := by
  have hreplace : Piece.replace source target
      = Piece.rename fun name => if name = source then target else name :=
    funext (Piece.replace_eq source target)
  rw [rename_eq hsource, renameReferences, hreplace, textOf]

/-- Without a reference of the name there is nothing to replace. -/
theorem map_replace_of_not_mem {source : String} (target : String) {ps : List Piece}
    (h : .reference source ∉ ps) : ps.map (Piece.replace source target) = ps := by
  refine (List.map_congr_left fun p hp => ?_).trans (List.map_id ps)
  exact if_neg fun heq : p = .reference source => h (heq ▸ hp)

/-- A text has one list of whole pieces. Renaming replaces those that are a reference of the
name, keeps every other piece, and changes nothing where there is no such reference. -/
theorem renames_whole_words {source : String} (hsource : isWord source = true)
    (body target : String) :
    ∃ ps, Whole ps ∧ textOf ps = body ∧
      (∀ others, Whole others → textOf others = body → others = ps) ∧
      rename body source target = textOf (ps.map (Piece.replace source target)) ∧
      (.reference source ∉ ps → rename body source target = body) := by
  obtain ⟨hwhole, htext⟩ := whole_iff.2 (Eq.refl (pieces body))
  have hrename := rename_eq_textOf hsource body target
  refine ⟨pieces body, hwhole, htext, ?_, hrename, ?_⟩
  · intro others hothers hsame
    exact whole_iff.1 ⟨hothers, hsame⟩
  · intro hnone
    rw [hrename, map_replace_of_not_mem target hnone, htext]

theorem tightlyPacked_renamed :
    isWord "id" = true ∧ ∃ ps, Whole ps ∧ textOf ps = "$$id$id_$idé $id9,$ id" ∧
      (∀ others, Whole others → textOf others = "$$id$id_$idé $id9,$ id" → others = ps) ∧
      rename "$$id$id_$idé $id9,$ id" "id" "$x"
        = textOf (ps.map (Piece.replace "id" "$x")) ∧
      (.reference "id" ∉ ps →
        rename "$$id$id_$idé $id9,$ id" "id" "$x" = "$$id$id_$idé $id9,$ id") :=
  ⟨by decide, renames_whole_words (by decide) "$$id$id_$idé $id9,$ id" "$x"⟩

example : rename "$$id$id_$idé $id9,$ id" "id" "$x" = "$$$x$id_$$xé $id9,$ id" := by
  decide +kernel

end Replica.Variable
