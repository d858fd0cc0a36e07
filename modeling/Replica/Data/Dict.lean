/-
Replica.Data.Dict — finite maps with text keys, kept in key order.

A `Dict α` is a list of key and value pairs whose keys strictly increase in the
order of text (code point by code point, which is also the order of the UTF-8
bytes). Object fields, settings, files and table rows are all kept this way, so
"sorted by key" is a property of the type and no printer has to sort.

Main statements:
* `get?_insert`, `get?_erase`, `get?_empty` — what each operation does to the
  look-up view.
* `ext_get?` — two dictionaries with the same look-up view are equal.
* `mem_entries` — the entries are what the look-up view shows.
* `ofEntries_entries` — rebuilding a dictionary from its own entries gives it back.
-/

namespace Replica

/-- Keys strictly increase along the list. -/
def KeysIncrease {α : Type u} (entries : List (String × α)) : Prop :=
  entries.Pairwise (fun a b => a.1 < b.1)

/-- A finite map from text to `α`, listed by increasing key. -/
structure Dict (α : Type u) where
  entries : List (String × α)
  increasing : KeysIncrease entries

namespace Dict

variable {α : Type u} {β : Type v}

/-! ## Operations on entry lists -/

theorem ne_of_text_lt {a b : String} (h : a < b) : a ≠ b :=
  fun e => String.lt_irrefl b (e ▸ h)

/-- Put a value under a key: the entry moves to the key's place in the order and
replaces an entry with the same key. -/
def insertEntry (k : String) (v : α) : List (String × α) → List (String × α)
  | [] => [(k, v)]
  | (k', v') :: rest =>
    if k < k' then (k, v) :: (k', v') :: rest
    else if k' < k then (k', v') :: insertEntry k v rest
    else (k, v) :: rest

/-- The value of the first entry with a key. -/
def lookupEntry (k : String) : List (String × α) → Option α
  | [] => none
  | (k', v) :: rest => if k' = k then some v else lookupEntry k rest

theorem mem_insertEntry {k : String} {v : α} {e : String × α} :
    ∀ {entries : List (String × α)}, e ∈ insertEntry k v entries → e = (k, v) ∨ e ∈ entries
  | [], h => by simpa [insertEntry] using h
  | (k', v') :: rest, h => by
    rw [insertEntry] at h
    split at h
    · simpa using h
    · split at h
      · rcases List.mem_cons.1 h with h | h
        · exact .inr (by simp [h])
        · rcases mem_insertEntry h with h | h
          · exact .inl h
          · exact .inr (by simp [h])
      · rcases List.mem_cons.1 h with h | h
        · exact .inl h
        · exact .inr (by simp [h])

theorem increase_insertEntry (k : String) (v : α) :
    ∀ {entries : List (String × α)}, KeysIncrease entries → KeysIncrease (insertEntry k v entries)
  | [], _ => by simp [insertEntry, KeysIncrease]
  | (k', v') :: rest, h => by
    have ⟨hall, hrest⟩ := List.pairwise_cons.1 h
    rw [insertEntry]
    split
    · rename_i hlt
      refine List.pairwise_cons.2 ⟨fun e he => ?_, h⟩
      rcases List.mem_cons.1 he with rfl | he
      · exact hlt
      · exact String.lt_trans hlt (hall e he)
    · split
      · rename_i hgt
        refine List.pairwise_cons.2 ⟨fun e he => ?_, increase_insertEntry k v hrest⟩
        rcases mem_insertEntry he with rfl | he
        · exact hgt
        · exact hall e he
      · rename_i h1 h2
        have hk : k' = k := String.le_antisymm (String.not_lt.1 h1) (String.not_lt.1 h2)
        subst hk
        exact List.pairwise_cons.2 ⟨fun e he => hall e he, hrest⟩

theorem lookupEntry_insertEntry (k : String) (v : α) (j : String) :
    ∀ entries : List (String × α),
      lookupEntry j (insertEntry k v entries) = if k = j then some v else lookupEntry j entries
  | [] => by simp [insertEntry, lookupEntry]
  | (k', v') :: rest => by
    rw [insertEntry]
    split
    · rfl
    · split
      · rename_i hgt
        rw [lookupEntry, lookupEntry_insertEntry k v j rest, lookupEntry]
        have hne : k' ≠ k := fun h => String.lt_irrefl k (h ▸ hgt)
        grind
      · rename_i h1 h2
        have hk : k' = k := String.le_antisymm (String.not_lt.1 h1) (String.not_lt.1 h2)
        subst hk
        simp only [lookupEntry]
        split <;> rfl

theorem lookupEntry_eq_none {k : String} :
    ∀ {entries : List (String × α)}, (∀ e ∈ entries, e.1 ≠ k) → lookupEntry k entries = none
  | [], _ => rfl
  | (k', v) :: rest, h => by
    rw [lookupEntry, if_neg (h _ (List.mem_cons_self ..))]
    exact lookupEntry_eq_none fun e he => h e (List.mem_cons_of_mem _ he)

/-! ## The dictionary and its view -/

def empty : Dict α := ⟨[], List.Pairwise.nil⟩

instance : EmptyCollection (Dict α) := ⟨empty⟩
instance : Inhabited (Dict α) := ⟨empty⟩

/-- The value under a key. -/
def get? (d : Dict α) (k : String) : Option α := lookupEntry k d.entries

def contains (d : Dict α) (k : String) : Bool := (d.get? k).isSome

def insert (d : Dict α) (k : String) (v : α) : Dict α :=
  ⟨insertEntry k v d.entries, increase_insertEntry k v d.increasing⟩

def erase (d : Dict α) (k : String) : Dict α :=
  ⟨d.entries.filter (fun e => e.1 != k), d.increasing.filter _⟩

/-- Keep the entries whose key passes a test. -/
def filterKeys (p : String → Bool) (d : Dict α) : Dict α :=
  ⟨d.entries.filter (fun e => p e.1), d.increasing.filter _⟩

def mapValues (f : α → β) (d : Dict α) : Dict β :=
  ⟨d.entries.map (fun e => (e.1, f e.2)), by
    unfold KeysIncrease; rw [List.pairwise_map]; exact d.increasing⟩

/-- The keys in increasing order. -/
def keys (d : Dict α) : List String := d.entries.map (·.1)

/-- Put every entry of a list, later ones over earlier ones. -/
def insertAll (d : Dict α) (entries : List (String × α)) : Dict α :=
  entries.foldl (fun d e => d.insert e.1 e.2) d

/-- The dictionary of a list of entries; of entries with one key the last counts. -/
def ofEntries (entries : List (String × α)) : Dict α := insertAll empty entries

def isEmpty (d : Dict α) : Bool := d.entries.isEmpty

@[simp] theorem get?_empty (k : String) : (empty : Dict α).get? k = none := rfl

@[simp] theorem get?_insert (d : Dict α) (k : String) (v : α) (j : String) :
    (d.insert k v).get? j = if k = j then some v else d.get? j :=
  lookupEntry_insertEntry k v j d.entries

theorem lookupEntry_filter (p : String → Bool) (j : String) :
    ∀ entries : List (String × α),
      lookupEntry j (entries.filter (fun e => p e.1)) =
        if p j then lookupEntry j entries else none
  | [] => by simp [lookupEntry]
  | (k, v) :: rest => by
    rw [List.filter_cons]
    have ih := lookupEntry_filter p j rest
    split <;> simp only [lookupEntry, ih] <;> grind

@[simp] theorem get?_filterKeys (p : String → Bool) (d : Dict α) (j : String) :
    (d.filterKeys p).get? j = if p j then d.get? j else none :=
  lookupEntry_filter p j d.entries

@[simp] theorem get?_erase (d : Dict α) (k j : String) :
    (d.erase k).get? j = if k = j then none else d.get? j := by
  have h := lookupEntry_filter (· != k) j d.entries
  simp only [get?, erase, h]
  by_cases hk : k = j
  · simp [hk]
  · simp [hk, Ne.symm hk]

theorem lookupEntry_map (f : α → β) (j : String) : ∀ entries : List (String × α),
    lookupEntry j (entries.map fun e => (e.1, f e.2)) = (lookupEntry j entries).map f
  | [] => rfl
  | (k, v) :: rest => by
    rw [List.map_cons, lookupEntry, lookupEntry, lookupEntry_map f j rest]
    split <;> rfl

@[simp] theorem get?_mapValues (f : α → β) (d : Dict α) (j : String) :
    (d.mapValues f).get? j = (d.get? j).map f :=
  lookupEntry_map f j d.entries

theorem ext_entries : ∀ {a b : List (String × α)}, KeysIncrease a → KeysIncrease b →
    (∀ k, lookupEntry k a = lookupEntry k b) → a = b
  | [], [], _, _, _ => rfl
  | [], (k, v) :: _, _, _, h => by simpa [lookupEntry] using h k
  | (k, v) :: _, [], _, _, h => by simpa [lookupEntry] using h k
  | (k, v) :: a, (k', v') :: b, ha, hb, h => by
    have ⟨ha1, ha2⟩ := List.pairwise_cons.1 ha
    have ⟨hb1, hb2⟩ := List.pairwise_cons.1 hb
    have hkk : k = k' := by
      apply String.le_antisymm <;> apply String.not_lt.1 <;> intro hlt
      · have := h k'
        rw [lookupEntry, lookupEntry, if_pos rfl, if_neg (ne_of_text_lt hlt).symm,
          lookupEntry_eq_none fun e he =>
            (ne_of_text_lt (String.lt_trans hlt (ha1 e he))).symm] at this
        simp at this
      · have := h k
        rw [lookupEntry, lookupEntry, if_pos rfl, if_neg (ne_of_text_lt hlt).symm,
          lookupEntry_eq_none fun e he =>
            (ne_of_text_lt (String.lt_trans hlt (hb1 e he))).symm] at this
        simp at this
    subst hkk
    have hv : v = v' := by simpa [lookupEntry] using h k
    subst hv
    congr 1
    refine ext_entries ha2 hb2 fun j => ?_
    by_cases hj : k = j
    · subst hj
      rw [lookupEntry_eq_none fun e he => (ne_of_text_lt (ha1 e he)).symm,
        lookupEntry_eq_none fun e he => (ne_of_text_lt (hb1 e he)).symm]
    · simpa [lookupEntry, hj] using h j

/-- The look-up view determines the dictionary. -/
theorem ext_get? {a b : Dict α} (h : ∀ k, a.get? k = b.get? k) : a = b := by
  cases a with
  | mk as ha =>
    cases b with
    | mk bs hb =>
      have : as = bs := ext_entries ha hb h
      subst this
      rfl

/-- At most one entry has a key. -/
theorem filter_entries (d : Dict α) (key : String) :
    d.entries.filter (fun e => e.1 = key) = ((d.get? key).map (key, ·)).toList := by
  obtain ⟨entries, hincreasing⟩ := d
  simp only [get?]
  induction entries with
  | nil => rfl
  | cons e rest ih =>
    obtain ⟨k, v⟩ := e
    obtain ⟨hall, hrest⟩ := List.pairwise_cons.1 hincreasing
    rw [List.filter_cons, lookupEntry]
    by_cases hk : k = key
    · subst hk
      have hnone : rest.filter (fun e => e.1 = k) = [] := by
        rw [List.filter_eq_nil_iff]
        intro x hx hxk
        exact ne_of_text_lt (hall x hx) (of_decide_eq_true hxk).symm
      simp [hnone]
    · simpa [hk] using ih hrest

theorem mem_entries {d : Dict α} {e : String × α} : e ∈ d.entries ↔ d.get? e.1 = some e.2 := by
  have hfilter : e ∈ d.entries ↔ e ∈ d.entries.filter (fun x => x.1 = e.1) := by simp
  rw [hfilter, filter_entries]
  cases d.get? e.1 with
  | none => simp
  | some v => simp [Prod.ext_iff, eq_comm]

theorem get?_insertAll (d : Dict α) (entries : List (String × α)) (j : String) :
    KeysIncrease entries →
      (d.insertAll entries).get? j = (lookupEntry j entries).or (d.get? j) := by
  induction entries generalizing d with
  | nil => intro _; rfl
  | cons e rest ih =>
    intro h
    have ⟨hall, hrest⟩ := List.pairwise_cons.1 h
    show ((d.insert e.1 e.2).insertAll rest).get? j = _
    rw [ih _ hrest, get?_insert]
    by_cases hj : e.1 = j
    · subst hj
      rw [lookupEntry_eq_none fun x hx => (ne_of_text_lt (hall x hx)).symm]
      simp [lookupEntry]
    · simp [lookupEntry, hj]

/-- Rebuilding a dictionary from its own entries gives it back. -/
@[simp] theorem ofEntries_entries (d : Dict α) : ofEntries d.entries = d :=
  ext_get? fun k => by
    rw [ofEntries, get?_insertAll _ _ _ d.increasing]
    show (lookupEntry k d.entries).or none = lookupEntry k d.entries
    simp

instance [DecidableEq α] : DecidableEq (Dict α) := fun a b =>
  if h : a.entries = b.entries then
    .isTrue (by cases a; cases b; cases h; rfl)
  else .isFalse (fun e => h (e ▸ rfl))

end Dict

end Replica
