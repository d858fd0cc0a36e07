/-
Replica.Proofs.Request.References — a query text as references and other characters.

Renaming works on characters and must not touch a longer name that starts the same
way. Here a text is read into pieces: a dollar sign with the longest name behind it is
one reference, and every other character is a piece of its own. Renaming is then a map
over the pieces (`rename_eq`).

`text_induction` is the induction that follows this reading: a text is empty, starts
with a plain character, or starts with a whole reference.

Main statements:
* `chars_pieces` — the pieces are the text, so that no character is lost.
* `rename_eq` — renaming replaces the references of one name and no other piece.
* `mentions_renameReferences` — what a renamed text refers to.
-/
import Replica.Request.Variable

namespace Replica.Variable

/-- A piece of a query text. -/
inductive Piece where
  | char (c : Char)
  | reference (name : String)
  deriving DecidableEq

namespace Piece

/-- The characters of a piece. -/
def chars : Piece → List Char
  | char c => [c]
  | reference name => '$' :: name.toList

/-- A piece with the name changed that it refers to. -/
def rename (f : String → String) : Piece → Piece
  | char c => char c
  | reference name => reference (f name)

/-- The name that a piece refers to. -/
def name? : Piece → Option String
  | char _ => none
  | reference name => some name

end Piece

/-- Read pieces; `skip` characters are still part of the last reference. -/
def piecesFrom : Nat → List Char → List Piece
  | _, [] => []
  | skip + 1, _ :: cs => piecesFrom skip cs
  | 0, c :: cs =>
    if c = '$' then
      .reference (String.ofList (cs.takeWhile isWordChar))
        :: piecesFrom (cs.takeWhile isWordChar).length cs
    else .char c :: piecesFrom 0 cs

/-- The pieces of a query text. -/
def pieces (text : String) : List Piece := piecesFrom 0 text.toList

/-- The characters of a list of pieces. -/
def charsOf (ps : List Piece) : List Char := ps.flatMap Piece.chars

/-- The names that a query text refers to, in the order of its references. -/
def mentions (text : String) : List String := (pieces text).filterMap Piece.name?

/-- A query text with every reference renamed and every other character kept. -/
def renameReferences (f : String → String) (text : String) : String :=
  String.ofList (charsOf ((pieces text).map (Piece.rename f)))

example : mentions "a(filter: $filter, other: $filterX, cost: 5$)" = ["filter", "filterX", ""] := by
  decide +kernel

/-! ## Reading -/

theorem dollar_not_word : isWordChar '$' = false := by decide

theorem piecesFrom_drop : ∀ (skip : Nat) (cs : List Char),
    piecesFrom skip cs = piecesFrom 0 (cs.drop skip)
  | 0, cs => by simp
  | skip + 1, [] => by simp [piecesFrom]
  | skip + 1, c :: cs => by
    rw [piecesFrom, List.drop_succ_cons]
    exact piecesFrom_drop skip cs

theorem renameFrom_drop (found replacement : List Char) : ∀ (skip : Nat) (cs : List Char),
    renameFrom found replacement skip cs = renameFrom found replacement 0 (cs.drop skip)
  | 0, cs => by simp
  | skip + 1, [] => by simp [renameFrom]
  | skip + 1, c :: cs => by
    rw [renameFrom, List.drop_succ_cons]
    exact renameFrom_drop found replacement skip cs

theorem piecesFrom_plain {c : Char} (hc : c ≠ '$') (cs : List Char) :
    piecesFrom 0 (c :: cs) = .char c :: piecesFrom 0 cs := by
  rw [piecesFrom, if_neg hc]

/-- A name ends where the text does not go on with a character of a name. -/
theorem takeWhile_name {rest : List Char} (hrest : continuesName rest = false) :
    ∀ {w : List Char}, (∀ c ∈ w, isWordChar c = true) →
      (w ++ rest).takeWhile isWordChar = w
  | [], _ => by
    cases rest with
    | nil => rfl
    | cons c cs =>
      have hc : isWordChar c = false := hrest
      simp [hc]
  | c :: w, hw => by
    have hc := hw c (List.mem_cons_self ..)
    have ih := takeWhile_name hrest fun x hx => hw x (List.mem_cons_of_mem c hx)
    simp [hc, ih]

/-- A dollar sign and the whole name behind it are one reference. -/
theorem piecesFrom_reference {w rest : List Char} (hw : ∀ c ∈ w, isWordChar c = true)
    (hrest : continuesName rest = false) :
    piecesFrom 0 ('$' :: (w ++ rest)) = .reference (String.ofList w) :: piecesFrom 0 rest := by
  rw [piecesFrom, if_pos rfl, takeWhile_name hrest hw, piecesFrom_drop, List.drop_left]

/-- Induction over a text as it is read: a plain character, or a whole reference. -/
@[elab_as_elim]
theorem text_induction {motive : List Char → Prop} (nil : motive [])
    (plain : ∀ c cs, c ≠ '$' → motive cs → motive (c :: cs))
    (reference : ∀ w rest, (∀ c ∈ w, isWordChar c = true) → continuesName rest = false →
      motive rest → motive ('$' :: (w ++ rest))) (cs : List Char) : motive cs := by
  -- A reference takes many characters at once, so the induction is on the length.
  induction hn : cs.length using Nat.strongRecOn generalizing cs with
  | _ n ih =>
    cases cs with
    | nil => exact nil
    | cons c cs =>
      by_cases hc : c = '$'
      · have hsplit : cs = cs.takeWhile isWordChar ++ cs.dropWhile isWordChar :=
          List.takeWhile_append_dropWhile.symm
        have hlength : (cs.dropWhile isWordChar).length ≤ cs.length :=
          (List.dropWhile_suffix isWordChar).length_le
        have hend : continuesName (cs.dropWhile isWordChar) = false := by
          have h := List.head?_dropWhile_not isWordChar cs
          cases hd : cs.dropWhile isWordChar with
          | nil => rfl
          | cons d ds =>
            rw [hd] at h
            exact h
        rw [hc, hsplit]
        exact reference _ _ (fun d hd => List.all_eq_true.1 List.all_takeWhile d hd) hend
          (ih _ (by simp at hn; omega) _ rfl)
      · exact plain c cs hc (ih _ (by simp at hn; omega) _ rfl)

/-- The pieces are the text. -/
theorem charsOf_piecesFrom (cs : List Char) : charsOf (piecesFrom 0 cs) = cs := by
  induction cs using text_induction with
  | nil => rfl
  | plain c cs hc ih =>
    rw [piecesFrom_plain hc]
    show c :: charsOf (piecesFrom 0 cs) = c :: cs
    rw [ih]
  | reference w rest hw hrest ih =>
    rw [piecesFrom_reference hw hrest]
    show '$' :: ((String.ofList w).toList ++ charsOf (piecesFrom 0 rest)) = _
    rw [ih, String.toList_ofList]

theorem chars_pieces (text : String) : String.ofList (charsOf (pieces text)) = text := by
  rw [pieces, charsOf_piecesFrom, String.ofList_toList]

/-! ## Renaming one name -/

theorem afterStart?_eq_some : ∀ {s cs rest : List Char},
    afterStart? s cs = some rest ↔ cs = s ++ rest
  | [], cs, rest => by simp [afterStart?]
  | x :: s, [], rest => by simp [afterStart?]
  | x :: s, c :: cs, rest => by
    rw [afterStart?]
    by_cases h : x = c
    · rw [if_pos h, afterStart?_eq_some, h]
      simp
    · simp [h, Ne.symm h]

theorem renameFrom_plain {c : Char} (hc : c ≠ '$') (source target cs : List Char) :
    renameFrom ('$' :: source) target 0 (c :: cs)
      = c :: renameFrom ('$' :: source) target 0 cs := by
  rw [renameFrom, afterStart?, if_neg hc.symm]

theorem renameFrom_word (source target : List Char) : ∀ {w : List Char} (rest : List Char),
    (∀ c ∈ w, isWordChar c = true) →
      renameFrom ('$' :: source) target 0 (w ++ rest)
        = w ++ renameFrom ('$' :: source) target 0 rest
  | [], _, _ => rfl
  | c :: w, rest, hw => by
    have hc : c ≠ '$' := by
      rintro rfl
      exact absurd (hw '$' (List.mem_cons_self ..)) (by simp [dollar_not_word])
    rw [List.cons_append, renameFrom_plain hc,
      renameFrom_word source target rest fun x hx => hw x (List.mem_cons_of_mem c hx)]
    rfl

/-- A name is found at the start of a reference only if it is the start of its name. -/
theorem start_of_reference {source w rest after : List Char}
    (hs : ∀ c ∈ source, isWordChar c = true) (hrest : continuesName rest = false)
    (h : w ++ rest = source ++ after) : ∃ more, w = source ++ more ∧ after = more ++ rest := by
  rcases List.append_eq_append_iff.1 h with ⟨more, hsource, hmore⟩ | ⟨more, hw, hafter⟩
  · cases more with
    | nil => exact ⟨[], by simpa using hsource.symm, by simpa using hmore.symm⟩
    | cons c more =>
      have hc : isWordChar c = true := hs c (by simp [hsource])
      rw [hmore] at hrest
      exact absurd hc (by simpa [continuesName] using hrest)
  · exact ⟨more, hw, hafter⟩

/-- What renaming does to a reference: it is renamed if the whole name agrees. -/
theorem renameFrom_reference {source : List Char} (hs : ∀ c ∈ source, isWordChar c = true)
    (target : List Char) {w rest : List Char} (hw : ∀ c ∈ w, isWordChar c = true)
    (hrest : continuesName rest = false) :
    renameFrom ('$' :: source) ('$' :: target) 0 ('$' :: (w ++ rest))
      = '$' :: ((if w = source then target else w)
          ++ renameFrom ('$' :: source) ('$' :: target) 0 rest) := by
  rw [renameFrom, afterStart?, if_pos rfl]
  cases hafter : afterStart? source (w ++ rest) with
  | none =>
    have hne : w ≠ source := by
      rintro rfl
      rw [afterStart?_eq_some.2 rfl] at hafter
      cases hafter
    simp only [renameFrom_word source _ rest hw, if_neg hne]
  | some after =>
    obtain ⟨more, rfl, rfl⟩ := start_of_reference hs hrest (afterStart?_eq_some.1 hafter)
    have hskip : (source ++ more ++ rest).drop (('$' :: source).length - 1) = more ++ rest := by
      simp
    simp only [renameFrom_drop _ _ (('$' :: source).length - 1), hskip]
    cases more with
    | nil => simp [hrest]
    | cons c more =>
      have hc : isWordChar c = true := hw c (List.mem_append_right _ (List.mem_cons_self ..))
      have hmore : ∀ x ∈ c :: more, isWordChar x = true := fun x hx =>
        hw x (List.mem_append_right _ hx)
      simp only [renameFrom_word source _ rest hmore]
      simp [continuesName, hc]

/-- Renaming changes the references of one name and keeps every other character. -/
theorem rename_eq {source : String} (hs : isWord source = true) (body target : String) :
    rename body source target
      = renameReferences (fun name => if name = source then target else name) body := by
  have hchars : ∀ c ∈ source.toList, isWordChar c = true := List.all_eq_true.1 hs
  rw [rename, renameReferences, pieces]
  congr 1
  induction body.toList using text_induction with
  | nil => rfl
  | plain c cs hc ih =>
    rw [renameFrom_plain hc, piecesFrom_plain hc, ih]
    rfl
  | reference w rest hw hrest ih =>
    rw [renameFrom_reference hchars target.toList hw hrest, piecesFrom_reference hw hrest, ih]
    show _ = '$' :: ((if String.ofList w = source then target else String.ofList w).toList
      ++ charsOf ((piecesFrom 0 rest).map _))
    by_cases h : w = source.toList
    · subst h
      simp
    · have hname : String.ofList w ≠ source := by
        rintro rfl
        exact h (by simp)
      simp [h, hname]

/-! ## Renaming all references -/

variable {f g : String → String}

theorem renamed_start (f : String → String) (cs : List Char) :
    continuesName (charsOf ((piecesFrom 0 cs).map (Piece.rename f))) = continuesName cs := by
  induction cs using text_induction with
  | nil => rfl
  | plain c cs hc ih =>
    rw [piecesFrom_plain hc]
    rfl
  | reference w rest hw hrest ih =>
    rw [piecesFrom_reference hw hrest]
    rfl

/-- A text whose names are renamed to names has the renamed pieces. -/
theorem pieces_renameReferences (hf : ∀ w, isWord w = true → isWord (f w) = true)
    (text : String) :
    pieces (renameReferences f text) = (pieces text).map (Piece.rename f) := by
  rw [renameReferences, pieces, String.toList_ofList, pieces]
  induction text.toList using text_induction with
  | nil => rfl
  | plain c cs hc ih =>
    rw [piecesFrom_plain hc, List.map_cons]
    show piecesFrom 0 (c :: charsOf _) = _
    rw [piecesFrom_plain hc, ih]
    rfl
  | reference w rest hw hrest ih =>
    have hword : isWord (String.ofList w) = true := by
      rw [isWord, String.toList_ofList]
      exact List.all_eq_true.2 hw
    have htarget := List.all_eq_true.1 (hf _ hword)
    have hend := (renamed_start f rest).trans hrest
    rw [piecesFrom_reference hw hrest, List.map_cons]
    show piecesFrom 0 ('$' :: ((f (String.ofList w)).toList ++ charsOf _)) = _
    rw [piecesFrom_reference htarget hend, ih, String.ofList_toList]
    rfl

theorem renameReferences_comp (hf : ∀ w, isWord w = true → isWord (f w) = true)
    (text : String) :
    renameReferences g (renameReferences f text) = renameReferences (fun w => g (f w)) text := by
  rw [renameReferences, pieces_renameReferences hf, List.map_map, renameReferences]
  congr 3
  funext p
  cases p <;> rfl

/-- A renamed text refers to the renamed names. -/
theorem mentions_renameReferences (hf : ∀ w, isWord w = true → isWord (f w) = true)
    (text : String) : mentions (renameReferences f text) = (mentions text).map f := by
  rw [mentions, pieces_renameReferences hf, mentions, List.filterMap_map, List.map_filterMap]
  congr 1
  funext p
  cases p <;> rfl

/-! ## The names in a text -/

/-- A text without a dollar sign refers to nothing. -/
theorem mentions_plain_append {a : String} (ha : '$' ∉ a.toList) (b : String) :
    mentions (a ++ b) = mentions b := by
  rw [mentions, mentions, pieces, pieces, String.toList_append]
  generalize a.toList = cs at ha
  induction cs with
  | nil => rfl
  | cons c cs ih =>
    have hc : c ≠ '$' := fun h => ha (h ▸ List.mem_cons_self ..)
    rw [List.cons_append, piecesFrom_plain hc, List.filterMap_cons]
    exact ih fun h => ha (List.mem_cons_of_mem c h)

theorem mentions_plain {a : String} (ha : '$' ∉ a.toList) : mentions a = [] := by
  have h := mentions_plain_append ha ""
  rwa [String.append_empty] at h

theorem mentions_reference_append {w rest : String} (hw : isWord w = true)
    (hrest : continuesName rest.toList = false) :
    mentions ("$" ++ w ++ rest) = w :: mentions rest := by
  have hchars : ("$" ++ w ++ rest).toList = '$' :: (w.toList ++ rest.toList) := by simp
  rw [mentions, pieces, hchars, piecesFrom_reference (List.all_eq_true.1 hw) hrest,
    String.ofList_toList]
  rfl

end Replica.Variable
