/-!
# String-keyed dictionaries

String-keyed dictionaries. A dictionary is its list of entries in strictly increasing key order (by
code points), so two dictionaries with the same content are equal and every listing is in key order.
-/

namespace MapStyle

universe u

/-- A finite map from strings, listed in key order. -/
structure Dictionary (β : Type u) where
  entries : List (String × β)
  sorted : entries.Pairwise fun a b => a.1 < b.1

namespace Dictionary

variable {β : Type u}

/-- The entries with `key` bound to `value`, whatever it was bound to before. -/
def insertEntry (key : String) (value : β) : List (String × β) → List (String × β)
  | [] => [(key, value)]
  | (k, v) :: rest =>
    if key < k then (key, value) :: (k, v) :: rest
    else if k < key then (k, v) :: insertEntry key value rest
    else (key, value) :: rest

theorem eq_of_not_lt {a b : String} (hab : ¬a < b) (hba : ¬b < a) : a = b :=
  String.le_antisymm (String.not_lt.1 hba) (String.not_lt.1 hab)

theorem fst_mem_insertEntry {key k : String} {value : β} {es : List (String × β)}
    (h : k ∈ (insertEntry key value es).map Prod.fst) : k = key ∨ k ∈ es.map Prod.fst := by
  induction es with
  | nil => simpa [insertEntry] using h
  | cons e es ih =>
    rw [insertEntry] at h
    split at h
    · simpa using h
    · split at h
      · simp only [List.map_cons, List.mem_cons] at h ⊢
        rcases h with h | h
        · exact .inr (.inl h)
        · exact (ih h).imp_right .inr
      · simp only [List.map_cons, List.mem_cons] at h ⊢
        exact h.imp_right .inr

theorem sorted_insertEntry {es : List (String × β)} (h : es.Pairwise fun a b => a.1 < b.1)
    (key : String) (value : β) :
    (insertEntry key value es).Pairwise fun a b => a.1 < b.1 := by
  induction es with
  | nil => simp [insertEntry]
  | cons e es ih =>
    rw [List.pairwise_cons] at h
    rw [insertEntry]
    split
    · next hlt =>
      refine List.pairwise_cons.2 ⟨fun a ha => ?_, List.pairwise_cons.2 h⟩
      rcases List.mem_cons.1 ha with rfl | ha
      · exact hlt
      · exact String.lt_trans hlt (h.1 a ha)
    · next hnot =>
      split
      · next hgt =>
        refine List.pairwise_cons.2 ⟨fun a ha => ?_, ih h.2⟩
        rcases fst_mem_insertEntry (List.mem_map_of_mem ha) with heq | hmem
        · exact heq ▸ hgt
        · obtain ⟨b, hb, hba⟩ := List.mem_map.1 hmem
          exact hba ▸ h.1 b hb
      · next hngt =>
        exact List.pairwise_cons.2 ⟨fun a ha => eq_of_not_lt hngt hnot ▸ h.1 a ha, h.2⟩

theorem lookup_cons_eq (k k' : String) (v : β) (es : List (String × β)) :
    ((k', v) :: es).lookup k = if k = k' then some v else es.lookup k := by
  rw [List.lookup_cons]
  by_cases h : k = k'
  · rw [beq_iff_eq.2 h, if_pos h]
  · rw [beq_eq_false_iff_ne.2 h, if_neg h]

theorem lookup_insertEntry (key k : String) (value : β) (es : List (String × β)) :
    (insertEntry key value es).lookup k = if k = key then some value else es.lookup k := by
  induction es with
  | nil => exact lookup_cons_eq k key value []
  | cons e es ih =>
    obtain ⟨k', v⟩ := e
    rw [insertEntry]
    split
    · exact lookup_cons_eq k key value _
    · next hnot =>
      split
      · next hgt =>
        rw [lookup_cons_eq, lookup_cons_eq, ih]
        by_cases h : k = k'
        · have hne : k' ≠ key := fun heq => String.lt_irrefl key (heq ▸ hgt)
          rw [if_pos h, if_pos h, h, if_neg hne]
        · rw [if_neg h, if_neg h]
      · next hngt =>
        rw [eq_of_not_lt hngt hnot, lookup_cons_eq, lookup_cons_eq]
        by_cases h : k = key
        · rw [if_pos h, if_pos h]
        · rw [if_neg h, if_neg h, if_neg h]

def empty : Dictionary β := ⟨[], .nil⟩

/-- Binds `key` to `value`, whatever it was bound to before. -/
def insert (d : Dictionary β) (key : String) (value : β) : Dictionary β :=
  ⟨insertEntry key value d.entries, sorted_insertEntry d.sorted key value⟩

def find? (d : Dictionary β) (key : String) : Option β :=
  d.entries.lookup key

/-- Binds the keys of `pairs` in turn; of two values for one key the later stays. -/
def ofList (pairs : List (String × β)) : Dictionary β :=
  pairs.foldl (fun d p => d.insert p.1 p.2) empty

def size (d : Dictionary β) : Nat :=
  d.entries.length

theorem entries_insert (d : Dictionary β) (key : String) (value : β) :
    (d.insert key value).entries = insertEntry key value d.entries := rfl

@[simp]
theorem find?_empty (key : String) : (empty : Dictionary β).find? key = none := rfl

theorem find?_insert (d : Dictionary β) (key k : String) (value : β) :
    (d.insert key value).find? k = if k = key then some value else d.find? k :=
  lookup_insertEntry key k value d.entries

theorem ext_entries {d e : Dictionary β} (h : d.entries = e.entries) : d = e := by
  cases d; cases e; simp_all

end Dictionary

end MapStyle
