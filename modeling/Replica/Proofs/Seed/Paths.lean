/-
Replica.Proofs.Seed.Paths — where paths lead.

A path has a place of its own, found by following its parts without looking at any file
(`Path.place`). Whatever files there are, a path that leads somewhere leads there
(`find_iff`): it is reached if what comes before its last name is a directory (`Walk`,
`Reaches`), and what is found is what is at its place. A path is reached as long as no
directory is lost (`Reaches.mono`).

The files beside a database are found under its path with an ending. If the path of the
database leads to something other than a directory, its last part is a name
(`Reaches.endsInName`), and the places of its siblings are the siblings of its place
(`Path.place_sibling`).

All of this is about files as they can be (`Files.Sound`): every name has a file of its own
and is not the name of a directory, and what lies above a directory is a directory.
-/
import Replica.Seed.Connection

namespace Replica

namespace Path

/-! ## Places -/

/-- The place that parts lead to from a directory. -/
def along (here : String) : List String → String
  | [] => here
  | part :: rest =>
    if isStill part then along here rest
    else if part = ".." then along (above here) rest
    else along (child here part) rest

/-- The place of a path. -/
def place (path : String) : String := along "" (parts path)

/-- Whether a part is a name, and not a way to stay or to go back. -/
def IsName (part : String) : Prop := isStill part = false ∧ part ≠ ".."

theorem along_append (here : String) (ps qs : List String) :
    along here (ps ++ qs) = along (along here ps) qs := by
  induction ps generalizing here with
  | nil => rfl
  | cons part ps ih =>
    simp only [List.cons_append, along]
    split
    · exact ih here
    · split
      · exact ih (above here)
      · exact ih (child here part)

theorem along_name {part : String} (h : IsName part) (here : String) :
    along here [part] = child here part := by
  simp [along, h.1, h.2]

theorem along_moves (here : String) (ps : List String) :
    along here (ps.filter fun part => !isStill part) = along here ps := by
  induction ps generalizing here with
  | nil => rfl
  | cons part ps ih =>
    by_cases hstill : isStill part = true
    · simp [along, hstill, ih]
    · simp [along, hstill, ih]

theorem child_append (here part ending : String) :
    child here (part ++ ending) = child here part ++ ending := by
  unfold child
  split
  · rfl
  · simp only [String.append_assoc]

/-! ## Parts -/

theorem split_ne_nil (cs : List Char) : split cs ≠ [] := by
  induction cs with
  | nil => simp [split]
  | cons c cs ih =>
    rw [split]
    split
    · simp
    · split <;> simp

/-- Behind the last part of a path, more characters without a slash make it longer. -/
theorem split_append {ending : List Char} (h : '/' ∉ ending) : ∀ cs : List Char,
    ∃ ps x, split cs = ps ++ [x] ∧ split (cs ++ ending) = ps ++ [x ++ ending]
  | [] => by
    refine ⟨[], [], rfl, ?_⟩
    induction ending with
    | nil => rfl
    | cons c ending ih =>
      have hc : c ≠ '/' := fun e => h (e ▸ List.mem_cons_self ..)
      have hrest := ih fun hmem => h (List.mem_cons_of_mem c hmem)
      simp only [List.nil_append] at hrest ⊢
      rw [split, if_neg hc, hrest]
  | c :: cs => by
    obtain ⟨ps, x, hcs, hlonger⟩ := split_append h cs
    rw [List.cons_append, split, split, hcs, hlonger]
    by_cases hc : c = '/'
    · exact ⟨[] :: ps, x, by simp [hc], by simp [hc]⟩
    · cases ps with
      | nil => exact ⟨[], c :: x, by simp [hc], by simp [hc]⟩
      | cons p ps => exact ⟨(c :: p) :: ps, x, by simp [hc], by simp [hc]⟩

theorem no_slash_of_mem_split : ∀ {cs : List Char} {part : List Char}, part ∈ split cs →
    '/' ∉ part
  | [], part, h => by
    rw [split, List.mem_singleton] at h
    simp [h]
  | c :: cs, part, h => by
    rw [split] at h
    split at h
    · rcases List.mem_cons.1 h with rfl | h
      · simp
      · exact no_slash_of_mem_split h
    · rename_i hc
      split at h
      · rename_i hnil
        exact absurd hnil (split_ne_nil cs)
      · rename_i first rest hcs
        rcases List.mem_cons.1 h with rfl | h
        · have hfirst : '/' ∉ first :=
            no_slash_of_mem_split (hcs ▸ List.mem_cons_self (a := first) (l := rest))
          intro hmem
          rcases List.mem_cons.1 hmem with e | hmem
          · exact hc e.symm
          · exact hfirst hmem
        · exact no_slash_of_mem_split (hcs ▸ List.mem_cons_of_mem first h)

/-- A part of a path has no slash. -/
theorem no_slash_of_mem_parts {path part : String} (h : part ∈ parts path) :
    '/' ∉ part.toList := by
  obtain ⟨cs, hcs, rfl⟩ := List.mem_map.1 h
  rw [String.toList_ofList]
  exact no_slash_of_mem_split hcs

theorem mem_of_mem_split {c : Char} : ∀ {cs : List Char} {part : List Char}, part ∈ split cs →
    c ∈ part → c ∈ cs
  | [], part, h, hc => by
    rw [split, List.mem_singleton] at h
    simp [h] at hc
  | x :: cs, part, h, hc => by
    rw [split] at h
    split at h
    · rcases List.mem_cons.1 h with rfl | h
      · cases hc
      · exact List.mem_cons_of_mem x (mem_of_mem_split h hc)
    · split at h
      · rename_i hnil
        exact absurd hnil (split_ne_nil cs)
      · rename_i first rest hcs
        rcases List.mem_cons.1 h with rfl | h
        · have hfirst : first ∈ split cs := hcs ▸ List.mem_cons_self (a := first) (l := rest)
          rcases List.mem_cons.1 hc with rfl | hc
          · exact List.mem_cons_self ..
          · exact List.mem_cons_of_mem x (mem_of_mem_split hfirst hc)
        · have hlater : part ∈ split cs := hcs ▸ List.mem_cons_of_mem first h
          exact List.mem_cons_of_mem x (mem_of_mem_split hlater hc)

/-- A part of a path without the NUL character is one without it. -/
theorem hasNul_of_mem_parts {path part : String} (h : hasNul path = false)
    (hpart : part ∈ parts path) : hasNul part = false := by
  obtain ⟨cs, hcs, rfl⟩ := List.mem_map.1 hpart
  simp only [hasNul, String.toList_ofList, List.contains_eq_mem, decide_eq_false_iff_not] at h ⊢
  exact fun hmem => h (mem_of_mem_split hcs hmem)

/-- A sibling has the parts of the path, with an ending at the last one. -/
theorem parts_append {ending : String} (h : '/' ∉ ending.toList) (path : String) :
    ∃ ps x, parts path = ps ++ [x] ∧ parts (path ++ ending) = ps ++ [x ++ ending] := by
  obtain ⟨ps, x, hpath, hlonger⟩ := split_append h path.toList
  refine ⟨ps.map String.ofList, String.ofList x, ?_, ?_⟩
  · rw [parts, hpath]
    simp
  · rw [parts, String.toList_append, hlonger]
    simp

/-- The place above a name in a directory is the directory. -/
theorem above_child {part : String} (h : '/' ∉ part.toList) (here : String) :
    above (child here part) = here := by
  have hwhole : ∀ cs : List Char, '/' ∉ cs →
      ∀ rest, (cs ++ rest).dropWhile (· ≠ '/') = rest.dropWhile (· ≠ '/') := by
    intro cs hcs rest
    exact List.dropWhile_append_of_pos fun c hc => by
      simpa using fun e : c = '/' => hcs (e ▸ hc)
  have hreverse : '/' ∉ part.toList.reverse := by simpa using h
  unfold above
  by_cases hhere : here = ""
  · have hnone := hwhole _ hreverse []
    rw [List.append_nil, List.dropWhile_nil] at hnone
    rw [child, if_pos hhere, hnone, hhere]
  · have hchars : (here ++ "/" ++ part).toList.reverse
        = part.toList.reverse ++ '/' :: here.toList.reverse := by simp
    rw [child, if_neg hhere, hchars, hwhole _ hreverse]
    simp

/-- The last name of a place in a directory is its name there. -/
theorem lastName_child {part : String} (h : '/' ∉ part.toList) (here : String) :
    lastName (child here part) = part := by
  have hwhole (rest : List Char) : (part.toList.reverse ++ rest).takeWhile (· ≠ '/')
      = part.toList.reverse ++ rest.takeWhile (· ≠ '/') := by
    refine List.takeWhile_append_of_pos fun c hc => ?_
    simpa using fun e : c = '/' => h (e ▸ List.mem_reverse.1 hc)
  unfold lastName
  by_cases hhere : here = ""
  · have hname := hwhole []
    rw [List.append_nil] at hname
    rw [child, if_pos hhere, hname]
    simp
  · have hchars : (here ++ "/" ++ part).toList.reverse
        = part.toList.reverse ++ '/' :: here.toList.reverse := by simp
    rw [child, if_neg hhere, hchars, hwhole]
    simp

/-- A directory is shorter than what is in it. -/
theorem length_lt_child {part : String} (h : part ≠ "") (here : String) :
    here.toList.length < (child here part).toList.length := by
  have hpart : 0 < part.toList.length :=
    List.length_pos_iff.2 fun e => h (String.toList_eq_nil_iff.1 e)
  rw [child]
  split
  · rename_i hhere
    rw [hhere]
    exact hpart
  · simp only [String.toList_append, List.length_append]
    omega

theorem length_above_le (here : String) : (above here).toList.length ≤ here.toList.length := by
  have hdrop := (List.dropWhile_suffix (l := here.toList.reverse) (· ≠ '/')).length_le
  rw [List.length_reverse] at hdrop
  unfold above
  split
  · simp
  · rename_i c before hbefore
    rw [hbefore] at hdrop
    simp only [List.length_cons] at hdrop
    rw [String.toList_ofList, List.length_reverse]
    omega

end Path

namespace Files

/-! ## Files as they can be -/

/-- Every name has a file of its own, no directory has the name of a file, and what lies
above a directory is a directory. -/
structure Sound (fs : Files) : Prop where
  numbered : ∀ {place : String} {number : Nat}, fs.names.get? place = some number →
    number < fs.stored.length
  injective : ∀ {p q : String} {number : Nat}, fs.names.get? p = some number →
    fs.names.get? q = some number → p = q
  plain : ∀ {place : String} {number : Nat}, fs.names.get? place = some number →
    fs.isDirectory place = false
  above : ∀ {place : String}, fs.isDirectory place = true →
    fs.isDirectory (Path.above place) = true

/-! ## Ways -/

/-- Parts lead from a directory to a place, whatever is there: what comes before the last
name is a directory, and no name is too long. -/
inductive Walk (fs : Files) : String → List String → String → Prop
  | arrived {here : String} : Walk fs here [] here
  | still {here part place : String} {rest : List String} (hstill : Path.isStill part = true)
      (way : Walk fs here rest place) : Walk fs here (part :: rest) place
  | back {here place : String} {rest : List String} (way : Walk fs (Path.above here) rest place) :
      Walk fs here (".." :: rest) place
  | enter {here part place : String} {rest : List String} (hname : Path.IsName part)
      (hshort : Path.isTooLong part = false)
      (hdirectory : fs.isDirectory (Path.child here part) = true)
      (way : Walk fs (Path.child here part) rest place) : Walk fs here (part :: rest) place
  | last {here part : String} (hname : Path.IsName part) (hshort : Path.isTooLong part = false) :
      Walk fs here [part] (Path.child here part)

/-- What is at a place. -/
def targetAt (fs : Files) (place : String) : PathTarget :=
  if fs.isDirectory place then .directory place
  else
    match fs.names.get? place with
    | some number => .file place number
    | none => .vacant place

variable {fs fs' : Files}

/-- A way leads to the place of its parts. -/
theorem Walk.place_eq {here place : String} {ps : List String} (h : Walk fs here ps place) :
    place = Path.along here ps := by
  have hback : Path.isStill ".." = false := by decide
  induction h with
  | arrived => rfl
  | still hstill _ ih => rw [Path.along, if_pos hstill, ih]
  | back _ ih => rw [Path.along, if_neg (by simp [hback]), if_pos rfl, ih]
  | enter hname _ _ _ ih => rw [Path.along, if_neg (by simp [hname.1]), if_neg hname.2, ih]
  | last hname _ => exact (Path.along_name hname _).symm

/-- A way stays one when directories are added. -/
theorem Walk.mono (hd : ∀ q, fs.isDirectory q = true → fs'.isDirectory q = true)
    {here place : String} {ps : List String} (h : Walk fs here ps place) :
    Walk fs' here ps place := by
  induction h with
  | arrived => exact .arrived
  | still hstill _ ih => exact .still hstill ih
  | back _ ih => exact .back ih
  | enter hname hshort hdirectory _ ih => exact .enter hname hshort (hd _ hdirectory) ih
  | last hname hshort => exact .last hname hshort

/-- Following parts along a way answers with what is at its end. -/
theorem Walk.follow_eq (hs : fs.Sound) {here place : String} {ps : List String}
    (h : Walk fs here ps place) (hhere : fs.isDirectory here = true) :
    fs.follow here ps = .ok (fs.targetAt place) := by
  induction h with
  | arrived => rw [follow, targetAt, if_pos hhere]
  | still hstill _ ih => rw [follow, if_pos hstill, ih hhere]
  | back _ ih =>
    have hback : Path.isStill ".." = false := by decide
    rw [follow, if_neg (by simp [hback]), if_pos rfl, ih (hs.above hhere)]
  | enter hname hshort hdirectory _ ih =>
    rw [follow, if_neg (by simp [hname.1]), if_neg hname.2, if_neg (by simp [hshort])]
    simp only [hdirectory, if_true]
    exact ih hdirectory
  | @last here part hname hshort =>
    rw [follow, if_neg (by simp [hname.1]), if_neg hname.2, if_neg (by simp [hshort]), targetAt]
    by_cases hdirectory : fs.isDirectory (Path.child here part) = true
    · simp [hdirectory, follow]
    · simp only [hdirectory, if_false, Bool.false_eq_true, List.isEmpty_nil, if_true]
      cases fs.names.get? (Path.child here part) <;> rfl

/-- Parts that lead anywhere lead along a way. -/
theorem walk_of_follow : ∀ {ps : List String} {here : String} {t : PathTarget},
    fs.follow here ps = .ok t → ∃ place, Walk fs here ps place
  | [], here, t, _ => ⟨here, .arrived⟩
  | part :: rest, here, t, h => by
    rw [follow] at h
    split at h
    · rename_i hstill
      obtain ⟨place, way⟩ := walk_of_follow h
      exact ⟨place, .still hstill way⟩
    · rename_i hstill
      split at h
      · rename_i hback
        subst hback
        obtain ⟨place, way⟩ := walk_of_follow h
        exact ⟨place, .back way⟩
      · rename_i hback
        have hname : Path.IsName part := ⟨by simpa using hstill, hback⟩
        split at h
        · simp at h
        · rename_i hlong
          have hshort : Path.isTooLong part = false := by simpa using hlong
          dsimp only at h
          split at h
          · rename_i hdirectory
            obtain ⟨place, way⟩ := walk_of_follow h
            exact ⟨place, .enter hname hshort hdirectory way⟩
          · -- Behind a file or a vacant place nothing may follow.
            have hrest : rest = [] := by
              split at h <;> split at h
              · exact List.isEmpty_iff.1 ‹_›
              · simp at h
              · exact List.isEmpty_iff.1 ‹_›
              · simp at h
            subst hrest
            exact ⟨_, .last hname hshort⟩

/-! ## Finding -/

/-- A path can be followed to its place, whatever is there. -/
structure Reaches (fs : Files) (path : String) : Prop where
  text : Path.hasNul path = false
  length : ¬ Path.lengthLimit < path.utf8ByteSize
  way : Walk fs "" (Path.parts path) (Path.place path)

theorem isDirectory_top (fs : Files) : fs.isDirectory "" = true := by simp [isDirectory]

/-- What a path leads to is what is at its place. -/
theorem find_eq (hs : fs.Sound) {path : String} (h : fs.Reaches path) :
    fs.find path = .ok (fs.targetAt (Path.place path)) := by
  rw [find, if_neg (by simp [h.text]), if_neg h.length]
  exact h.way.follow_eq hs fs.isDirectory_top

theorem reaches_of_find {path : String} {t : PathTarget} (h : fs.find path = .ok t) :
    fs.Reaches path := by
  rw [find] at h
  split at h
  · simp at h
  · rename_i htext
    split at h
    · simp at h
    · rename_i hlength
      obtain ⟨place, way⟩ := walk_of_follow h
      have hplace : place = Path.place path := way.place_eq
      exact ⟨by simpa using htext, hlength, hplace ▸ way⟩

theorem find_iff (hs : fs.Sound) {path : String} {t : PathTarget} :
    fs.find path = .ok t ↔ fs.Reaches path ∧ t = fs.targetAt (Path.place path) := by
  constructor
  · intro h
    have hreaches := reaches_of_find h
    rw [find_eq hs hreaches] at h
    exact ⟨hreaches, (Except.ok.inj h).symm⟩
  · rintro ⟨h, rfl⟩
    exact find_eq hs h

/-- A path goes on leading to its place when directories are added. -/
theorem Reaches.mono (hd : ∀ q, fs.isDirectory q = true → fs'.isDirectory q = true)
    {path : String} (h : fs.Reaches path) : fs'.Reaches path :=
  ⟨h.text, h.length, h.way.mono hd⟩

/-- Whether something is at the end of a path. -/
theorem exists?_iff (hs : fs.Sound) {path : String} : fs.exists? path = true ↔
    fs.Reaches path ∧ (fs.isDirectory (Path.place path) = true ∨
      (fs.names.get? (Path.place path)).isSome = true) := by
  by_cases h : fs.Reaches path
  · rw [exists?, find_eq hs h, targetAt]
    by_cases hdirectory : fs.isDirectory (Path.place path) = true
    · simp [h, hdirectory]
    · cases hname : fs.names.get? (Path.place path) <;> simp [h, hdirectory]
  · have hnone : fs.exists? path = false := by
      rw [exists?]
      split
      · exact absurd (reaches_of_find ‹_›) h
      · exact absurd (reaches_of_find ‹_›) h
      · rfl
    simp [hnone, h]

/-! ## Siblings -/

/-- Before its last part, a way has led to a directory. -/
theorem Walk.before (hs : fs.Sound) {x place : String} : ∀ {ps : List String} {here : String},
    Walk fs here (ps ++ [x]) place → fs.isDirectory here = true →
      ∃ h, Walk fs here ps h ∧ fs.isDirectory h = true ∧ Walk fs h [x] place
  | [], here, way, hhere => ⟨here, .arrived, hhere, way⟩
  | part :: ps, here, way, hhere => by
    rw [List.cons_append] at way
    generalize hrest : ps ++ [x] = rest at way
    cases way with
    | still hstill way =>
      subst hrest
      obtain ⟨h, hbefore, hh⟩ := way.before hs hhere
      exact ⟨h, .still hstill hbefore, hh⟩
    | back way =>
      subst hrest
      obtain ⟨h, hbefore, hh⟩ := way.before hs (hs.above hhere)
      exact ⟨h, .back hbefore, hh⟩
    | enter hname hshort hdirectory way =>
      subst hrest
      obtain ⟨h, hbefore, hh⟩ := way.before hs hdirectory
      exact ⟨h, .enter hname hshort hdirectory hbefore, hh⟩
    | last => simp at hrest

/-- Two ways in a row are one, if a directory is between them. -/
theorem Walk.trans {here h place : String} {ps qs : List String} (hbefore : Walk fs here ps h)
    (hdirectory : fs.isDirectory h = true) (hplace : Walk fs h qs place) :
    Walk fs here (ps ++ qs) place := by
  induction hbefore with
  | arrived => exact hplace
  | still hstill _ ih => exact .still hstill (ih hdirectory hplace)
  | back _ ih => exact .back (ih hdirectory hplace)
  | enter hname hshort hdir _ ih => exact .enter hname hshort hdir (ih hdirectory hplace)
  | last hname hshort => exact .enter hname hshort hdirectory hplace

end Files

namespace Path

/-- The last part of a path is a name. -/
def EndsInName (path : String) : Prop := ∃ ps x, parts path = ps ++ [x] ∧ IsName x

/-- An ending of files beside a database: it adds no part and can be in a path. -/
structure IsEnding (ending : String) : Prop where
  plain : '/' ∉ ending.toList
  text : '\x00' ∉ ending.toList

theorem isName_sibling (x ending : String) : IsName (sibling x ending) := by
  have hmem : '-' ∈ (sibling x ending).toList := by simp [sibling]
  refine ⟨?_, ?_⟩
  · rw [Bool.eq_false_iff, isStill]
    simp only [ne_eq, Bool.or_eq_true, decide_eq_true_eq]
    rintro (h | h)
    · simp [h] at hmem
    · simp [h] at hmem
  · intro h
    simp [h] at hmem

theorem parts_sibling {ending : String} (h : IsEnding ending) {path x : String} {ps : List String}
    (hparts : parts path = ps ++ [x]) : parts (sibling path ending) = ps ++ [sibling x ending] := by
  have hplain : '/' ∉ ("-" ++ ending).toList := by simpa using h.plain
  obtain ⟨ps', x', hpath, hsibling⟩ := parts_append hplain path
  obtain ⟨rfl, hx⟩ := List.append_inj' (hparts.symm.trans hpath) rfl
  cases hx
  rw [sibling, String.append_assoc, hsibling, sibling, String.append_assoc]

theorem exists_last_part (path : String) : ∃ ps x, parts path = ps ++ [x] := by
  obtain ⟨ps, x, hpath, -⟩ := parts_append (show '/' ∉ "".toList by simp) path
  exact ⟨ps, x, hpath⟩

/-- The place of a sibling is a sibling of the place. -/
theorem place_sibling {ending : String} (h : IsEnding ending) {path : String}
    (hends : EndsInName path) : place (sibling path ending) = sibling (place path) ending := by
  obtain ⟨ps, x, hparts, hname⟩ := hends
  rw [place, parts_sibling h hparts, along_append, along_name (isName_sibling x ending), place,
    hparts, along_append, along_name hname]
  simp only [sibling, child_append]

theorem endsInName_sibling {ending : String} (h : IsEnding ending) (path : String) :
    EndsInName (sibling path ending) := by
  obtain ⟨ps, x, hparts⟩ := exists_last_part path
  exact ⟨ps, sibling x ending, parts_sibling h hparts, isName_sibling x ending⟩

/-- The place of a sibling has its ending, even if the path ends in no name. -/
theorem place_sibling_ending {ending : String} (h : IsEnding ending) (path : String) :
    ∃ base, place (sibling path ending) = sibling base ending := by
  obtain ⟨ps, x, hparts⟩ := exists_last_part path
  refine ⟨child (along "" ps) x, ?_⟩
  rw [place, parts_sibling h hparts, along_append, along_name (isName_sibling x ending)]
  simp only [sibling, child_append]

/-- A sibling is not where the path itself leads to, even if that is no name. -/
theorem place_sibling_ne {ending : String} (h : IsEnding ending) (path : String) :
    place (sibling path ending) ≠ place path := by
  obtain ⟨ps, x, hparts⟩ := exists_last_part path
  have hne : sibling x ending ≠ "" := fun e => by simp [sibling] at e
  have hlonger := length_lt_child hne (along "" ps)
  have hplace : place (sibling path ending) = child (along "" ps) (sibling x ending) := by
    rw [place, parts_sibling h hparts, along_append, along_name (isName_sibling x ending)]
  rw [hplace]
  intro heq
  have hlength := congrArg (fun t : String => t.toList.length) heq
  rw [place, hparts, along_append] at hlength
  by_cases hstill : isStill x = true
  · simp only [along, hstill, if_true] at hlength
    omega
  · by_cases hback : x = ".."
    · have habove := length_above_le (along "" ps)
      have hup : along (along "" ps) [x] = above (along "" ps) := by
        rw [along, if_neg hstill, if_pos hback]
        rfl
      rw [hup] at hlength
      omega
    · simp only [along, hstill, hback, Bool.false_eq_true, if_false] at hlength
      rw [sibling, String.append_assoc, child_append] at hlength
      simp at hlength

end Path

namespace Files

variable {fs : Files}

/-- A path that leads to no directory ends in a name. -/
theorem Reaches.endsInName (hs : fs.Sound) {path : String} (h : fs.Reaches path)
    (hplain : fs.isDirectory (Path.place path) = false) : Path.EndsInName path := by
  obtain ⟨ps, x, hparts⟩ := Path.exists_last_part path
  refine ⟨ps, x, hparts, ?_⟩
  have way := h.way
  rw [hparts] at way
  obtain ⟨directory, -, hdirectory, hlast⟩ := way.before hs fs.isDirectory_top
  -- Without a name, the last part would stay in a directory or go back to one.
  generalize Path.place path = place at hplain hlast
  cases hlast with
  | still hstill hend =>
    cases hend
    rw [hdirectory] at hplain
    cases hplain
  | back hend =>
    cases hend
    rw [hs.above hdirectory] at hplain
    cases hplain
  | enter hname => exact hname
  | last hname => exact hname

/-- Beside a path that leads to no directory, only a path that ends in a name is reached. -/
theorem Reaches.endsInName_of_sibling (hs : fs.Sound) {path ending : String}
    (h : fs.Reaches (Path.sibling path ending)) (he : Path.IsEnding ending)
    (hplain : fs.isDirectory (Path.place path) = false) : Path.EndsInName path := by
  obtain ⟨ps, x, hparts⟩ := Path.exists_last_part path
  have way := h.way
  rw [Path.parts_sibling he hparts] at way
  obtain ⟨directory, hbefore, hdirectory, -⟩ := way.before hs fs.isDirectory_top
  have hplace : Path.place path = Path.along directory [x] := by
    rw [Path.place, hparts, Path.along_append, ← hbefore.place_eq]
  rw [hplace] at hplain
  refine ⟨ps, x, hparts, Bool.eq_false_iff.2 fun hstill => ?_, fun hback => ?_⟩
  · rw [Path.along, if_pos hstill, Path.along, hdirectory] at hplain
    cases hplain
  · subst hback
    rw [Path.along, if_neg (by decide), if_pos rfl, Path.along, hs.above hdirectory] at hplain
    cases hplain

/-- A way of one name is to the place of that name, which is not too long. -/
theorem Walk.last_inv {here part place : String} (h : Walk fs here [part] place)
    (hname : Path.IsName part) :
    Path.isTooLong part = false ∧ place = Path.child here part := by
  have hplace := h.place_eq.trans (Path.along_name hname here)
  generalize hpart : part = x at h hname
  cases h with
  | still hstill => exact absurd hstill (by simp [hname.1])
  | back => exact absurd rfl hname.2
  | enter _ hshort => exact ⟨hshort, hpart ▸ hplace⟩
  | last _ hshort => exact ⟨hshort, rfl⟩

/-- The last name of a place that a path reaches is not too long. -/
theorem Reaches.lastName_short (hs : fs.Sound) {path : String} (h : fs.Reaches path)
    (hends : Path.EndsInName path) :
    Path.isTooLong (Path.lastName (Path.place path)) = false := by
  obtain ⟨ps, x, hparts, hname⟩ := hends
  have hmem : x ∈ Path.parts path := by simp [hparts]
  have way := h.way
  rw [hparts] at way
  obtain ⟨directory, -, -, hlast⟩ := way.before hs fs.isDirectory_top
  obtain ⟨hshort, hplace⟩ := hlast.last_inv hname
  rwa [hplace, Path.lastName_child (Path.no_slash_of_mem_parts hmem)]

/-- A path is reached if one to a longer name in the same directory is. -/
theorem Reaches.beside (hs : fs.Sound) {long short x y : String} {ps : List String}
    (h : fs.Reaches long) (hlong : Path.parts long = ps ++ [x]) (hx : Path.IsName x)
    (hshort : Path.parts short = ps ++ [y]) (hy : Path.IsName y)
    (htext : Path.hasNul short = false) (hle : short.utf8ByteSize ≤ long.utf8ByteSize)
    (hle' : y.utf8ByteSize ≤ x.utf8ByteSize) : fs.Reaches short := by
  have way := h.way
  rw [hlong] at way
  obtain ⟨directory, hbefore, hdirectory, hlast⟩ := way.before hs fs.isDirectory_top
  obtain ⟨hfits, -⟩ := hlast.last_inv hx
  have hfits' : Path.isTooLong y = false := by
    simp only [Path.isTooLong, decide_eq_false_iff_not] at hfits ⊢
    omega
  have hway : Walk fs "" (Path.parts short) (Path.child directory y) := by
    rw [hshort]
    exact hbefore.trans hdirectory (.last hy hfits')
  have hlength := h.length
  have hplace : Path.child directory y = Path.place short := hway.place_eq
  exact ⟨htext, by omega, hplace ▸ hway⟩

/-- A file beside another one is reached if one with a longer ending is. -/
theorem Reaches.sibling (hs : fs.Sound) {path long short : String}
    (h : fs.Reaches (Path.sibling path long)) (hlong : Path.IsEnding long)
    (hshort : Path.IsEnding short) (hle : short.utf8ByteSize ≤ long.utf8ByteSize) :
    fs.Reaches (Path.sibling path short) := by
  obtain ⟨ps, x, hparts⟩ := Path.exists_last_part path
  refine h.beside hs (Path.parts_sibling hlong hparts) (Path.isName_sibling x long)
    (Path.parts_sibling hshort hparts) (Path.isName_sibling x short) ?_ ?_ ?_
  · have htext := h.text
    simp only [Path.hasNul, Path.sibling, String.toList_append, List.contains_eq_mem,
      List.mem_append, decide_eq_false_iff_not, not_or] at htext ⊢
    exact ⟨htext.1, hshort.text⟩
  all_goals
    simp only [Path.sibling, String.utf8ByteSize_append]
    omega

/-- A path that ends in a name is reached if a file beside it is. -/
theorem Reaches.of_sibling (hs : fs.Sound) {path ending : String}
    (h : fs.Reaches (Path.sibling path ending)) (he : Path.IsEnding ending)
    (hends : Path.EndsInName path) : fs.Reaches path := by
  obtain ⟨ps, x, hparts, hname⟩ := hends
  refine h.beside hs (Path.parts_sibling he hparts) (Path.isName_sibling x ending) hparts hname
    ?_ ?_ ?_
  · have htext := h.text
    simp only [Path.hasNul, Path.sibling, String.toList_append, List.contains_eq_mem,
      List.mem_append, decide_eq_false_iff_not, not_or] at htext ⊢
    exact htext.1.1
  all_goals
    simp only [Path.sibling, String.utf8ByteSize_append]
    omega

/-! ## Databases -/

/-- A way leads a database to its place. -/
theorem Walk.locate_eq (hs : fs.Sound) {here place : String} {ps : List String}
    (h : Walk fs here ps place) (hhere : fs.isDirectory here = true) :
    fs.locate here (ps.filter fun part => !Path.isStill part) = some place := by
  have hfree : ∀ {p : String}, fs.isDirectory p = true → fs.names.contains p = false := by
    intro p hp
    cases hname : fs.names.get? p with
    | none => simp [Dict.contains, hname]
    | some number => exact absurd hp (by simp [hs.plain hname])
  induction h with
  | arrived => rfl
  | still hstill _ ih =>
    rw [List.filter_cons_of_neg (by simp [hstill])]
    exact ih hhere
  | back _ ih =>
    rw [List.filter_cons_of_pos (by decide), locate, if_pos rfl]
    exact ih (hs.above hhere)
  | enter hname hshort hdirectory _ ih =>
    rw [List.filter_cons_of_pos (by simp [hname.1]), locate, if_neg hname.2,
      if_neg (by simp [hfree hhere, hshort])]
    exact ih hdirectory
  | last hname hshort =>
    rw [List.filter_cons_of_pos (by simp [hname.1]), locate, if_neg hname.2,
      if_neg (by simp [hfree hhere, hshort])]
    rfl

/-- The place of a database is the place of its path, if that is not too long. -/
theorem databasePlace_eq (hs : fs.Sound) {path : String} (h : fs.Reaches path)
    (hsmall : (Path.place path).utf8ByteSize ≤ databasePlaceLimit) :
    fs.databasePlace path = some (Path.place path) := by
  rw [databasePlace, if_neg (by simp [h.text]), Path.moves,
    h.way.locate_eq hs fs.isDirectory_top]
  simp [hsmall]

theorem locate_place : ∀ {ps : List String} {here place : String},
    (∀ part ∈ ps, Path.isStill part = false) → fs.locate here ps = some place →
      place = Path.along here ps
  | [], here, place, _, h => by
    rw [locate] at h
    exact (Option.some.inj h).symm
  | part :: rest, here, place, hmoves, h => by
    have hpart := hmoves part (List.mem_cons_self ..)
    have hrest := fun x hx => hmoves x (List.mem_cons_of_mem part hx)
    rw [locate] at h
    rw [Path.along, if_neg (by simp [hpart])]
    split at h
    · rename_i hback
      rw [if_pos hback]
      exact locate_place hrest h
    · rename_i hback
      split at h
      · simp at h
      · rw [if_neg hback]
        exact locate_place hrest h

/-- The place of a database is the place of its path. -/
theorem databasePlace_place {path place : String} (h : fs.databasePlace path = some place) :
    place = Path.place path ∧ place.utf8ByteSize ≤ databasePlaceLimit := by
  rw [databasePlace] at h
  split at h
  · simp at h
  · obtain ⟨hlocate, hsmall⟩ := Option.filter_eq_some_iff.1 h
    have hplace := locate_place (by simp [Path.moves]) hlocate
    rw [Path.moves, Path.along_moves] at hplace
    exact ⟨hplace, by simpa using hsmall⟩

end Files

end Replica
