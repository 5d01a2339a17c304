import Mathlib.Data.List.Nodup

/-!
# Insertion-ordered maps

`LinkedMap κ ν` is a finite map that iterates its entries in the order in which the keys were
first inserted: writing a key that is present replaces its value in place, writing a new key
appends the entry, and removing a key keeps the order of the others. Distinctness of the keys
is a field of the structure.

The characterisations `mem_put_iff` and `mem_remove_iff` are all that proofs about clients
need; the entry lists themselves are not unfolded.
-/

namespace Reactive

/-- A finite map that remembers the order of first insertion. -/
structure LinkedMap (κ ν : Type*) where
  /-- The entries, oldest key first. -/
  entries : List (κ × ν)
  /-- No key occurs twice. -/
  nodup : (entries.map Prod.fst).Nodup

namespace LinkedMap

variable {κ ν : Type*}

/-- The map without entries. -/
def empty : LinkedMap κ ν := ⟨[], List.nodup_nil⟩

/-- Whether the map has no entries. -/
def isEmpty (m : LinkedMap κ ν) : Bool := m.entries.isEmpty

/-- Whether `k` is a key of the map. -/
def containsKey [DecidableEq κ] (m : LinkedMap κ ν) (k : κ) : Bool :=
  decide (k ∈ m.entries.map Prod.fst)

/-- Write `k` in a list of entries: in place when present, at the end otherwise. -/
def putEntries [DecidableEq κ] (k : κ) (v : ν) : List (κ × ν) → List (κ × ν)
  | [] => [(k, v)]
  | e :: es => if e.1 = k then (k, v) :: es else e :: putEntries k v es

/-- The keys after a write: unchanged when the key was present, extended otherwise. -/
theorem map_fst_putEntries [DecidableEq κ] (k : κ) (v : ν) (es : List (κ × ν)) :
    (putEntries k v es).map Prod.fst =
      if k ∈ es.map Prod.fst then es.map Prod.fst else es.map Prod.fst ++ [k] := by
  induction es with
  | nil => simp [putEntries]
  | cons e es ih =>
    by_cases h : e.1 = k
    · simp [putEntries, h]
    -- the head is kept, and whether `k` is present is decided by the rest
    · have h' : ¬ k = e.1 := fun hk => h hk.symm
      simp only [putEntries, if_neg h, List.map_cons, ih, List.mem_cons, h', false_or]
      split <;> rfl

/-- Write the key `k`. -/
def put [DecidableEq κ] (m : LinkedMap κ ν) (k : κ) (v : ν) : LinkedMap κ ν where
  entries := putEntries k v m.entries
  nodup := by
    rw [map_fst_putEntries]
    split
    · exact m.nodup
    next h =>
      rw [← List.concat_eq_append]
      exact m.nodup.concat h

/-- Remove the key `k`. -/
def remove [DecidableEq κ] (m : LinkedMap κ ν) (k : κ) : LinkedMap κ ν where
  entries := m.entries.filter fun e => e.1 ≠ k
  nodup := m.nodup.sublist (List.filter_sublist.map Prod.fst)

/-- The value under the key `k`. -/
def get? [DecidableEq κ] (m : LinkedMap κ ν) (k : κ) : Option ν :=
  (m.entries.find? fun e => decide (e.1 = k)).map Prod.snd

/-- The empty map has no entries. -/
@[simp]
theorem entries_empty : (empty : LinkedMap κ ν).entries = [] := rfl

/-- A map is empty exactly when its entry list is. -/
@[simp]
theorem isEmpty_iff (m : LinkedMap κ ν) : m.isEmpty = true ↔ m.entries = [] := by
  simp [isEmpty]

/-- A key is contained exactly when it has an entry. -/
theorem containsKey_iff [DecidableEq κ] (m : LinkedMap κ ν) (k : κ) :
    m.containsKey k = true ↔ ∃ v, (k, v) ∈ m.entries := by
  simp [containsKey]

/-- Under distinct keys, the entries after a write are the written one and those of the
other keys. -/
theorem mem_putEntries_iff [DecidableEq κ] (k : κ) (v : ν) {es : List (κ × ν)}
    (hnodup : (es.map Prod.fst).Nodup) (e : κ × ν) :
    e ∈ putEntries k v es ↔ e = (k, v) ∨ (e.1 ≠ k ∧ e ∈ es) := by
  induction es with
  | nil => simp [putEntries]
  | cons e' es ih =>
    obtain ⟨hnotin, hnodup'⟩ := List.nodup_cons.mp hnodup
    by_cases h : e'.1 = k
    · -- the key of `e'` is `k`, so no later entry has that key
      have hlater : e ∈ es → e.1 ≠ k := by
        intro he hk
        exact hnotin (by rw [h, ← hk]; exact List.mem_map_of_mem he)
      simp only [putEntries, if_pos h, List.mem_cons]
      constructor
      · rintro (rfl | he)
        · exact Or.inl rfl
        · exact Or.inr ⟨hlater he, Or.inr he⟩
      · rintro (rfl | ⟨hne, rfl | he⟩)
        · exact Or.inl rfl
        · exact absurd h hne
        · exact Or.inr he
    · simp only [putEntries, if_neg h, List.mem_cons, ih hnodup']
      constructor
      · rintro (rfl | rfl | ⟨hne, he⟩)
        · exact Or.inr ⟨h, Or.inl rfl⟩
        · exact Or.inl rfl
        · exact Or.inr ⟨hne, Or.inr he⟩
      · rintro (rfl | ⟨hne, rfl | he⟩)
        · exact Or.inr (Or.inl rfl)
        · exact Or.inl rfl
        · exact Or.inr (Or.inr ⟨hne, he⟩)

/-- The entries after `put`. -/
theorem mem_put_iff [DecidableEq κ] (m : LinkedMap κ ν) (k : κ) (v : ν) (e : κ × ν) :
    e ∈ (m.put k v).entries ↔ e = (k, v) ∨ (e.1 ≠ k ∧ e ∈ m.entries) :=
  mem_putEntries_iff k v m.nodup e

/-- The entries after `remove`. -/
theorem mem_remove_iff [DecidableEq κ] (m : LinkedMap κ ν) (k : κ) (e : κ × ν) :
    e ∈ (m.remove k).entries ↔ e.1 ≠ k ∧ e ∈ m.entries := by
  simp [remove, and_comm]

/-- A map that was just written is not empty. -/
@[simp]
theorem put_entries_ne_nil [DecidableEq κ] (m : LinkedMap κ ν) (k : κ) (v : ν) :
    (m.put k v).entries ≠ [] := by
  intro h
  have hmem := (mem_put_iff m k v (k, v)).mpr (Or.inl rfl)
  rw [h] at hmem
  cases hmem

/-- Removing an absent key changes nothing. -/
theorem remove_of_not_containsKey [DecidableEq κ] {m : LinkedMap κ ν} {k : κ}
    (h : m.containsKey k = false) : m.remove k = m := by
  -- the filter drops nothing
  have hkeep : m.entries.filter (fun e => e.1 ≠ k) = m.entries := by
    rw [List.filter_eq_self]
    intro e he
    simp only [ne_eq, decide_not, Bool.not_eq_eq_eq_not, Bool.not_true, decide_eq_false_iff_not]
    intro hk
    have hmem : m.containsKey k = true := (containsKey_iff m k).mpr ⟨e.2, by rw [← hk]; exact he⟩
    rw [h] at hmem
    cases hmem
  obtain ⟨entries, nodup⟩ := m
  simp only [remove, mk.injEq]
  exact hkeep

theorem putEntries_of_not_mem [DecidableEq κ] {es : List (κ × ν)} {k : κ} (v : ν)
    (h : k ∉ es.map Prod.fst) : putEntries k v es = es ++ [(k, v)] := by
  induction es with
  | nil => rfl
  | cons e es ih =>
    have hne : e.1 ≠ k := fun he => h (he ▸ List.mem_cons_self)
    rw [putEntries, if_neg hne, ih fun hmem => h (List.mem_cons_of_mem _ hmem), List.cons_append]

/-- A new key is appended. -/
theorem entries_put_of_not_mem [DecidableEq κ] {m : LinkedMap κ ν} {k : κ} (v : ν)
    (h : k ∉ m.entries.map Prod.fst) : (m.put k v).entries = m.entries ++ [(k, v)] :=
  putEntries_of_not_mem v h

/-- A key finds the value of its entry. -/
theorem get?_eq_some_iff [DecidableEq κ] {m : LinkedMap κ ν} {k : κ} {v : ν} :
    m.get? k = some v ↔ (k, v) ∈ m.entries := by
  rw [get?, Option.map_eq_some_iff]
  constructor
  · rintro ⟨e, he, rfl⟩
    have hk : e.1 = k := by simpa using List.find?_some he
    rw [← hk]
    exact List.mem_of_find?_eq_some he
  · intro h
    have hsome : (m.entries.find? fun e => decide (e.1 = k)).isSome := by
      rw [List.find?_isSome]
      exact ⟨(k, v), h, by simp⟩
    obtain ⟨e, he⟩ := Option.isSome_iff_exists.mp hsome
    have hk : e.1 = k := by simpa using List.find?_some he
    -- distinct keys: the entry found is the one given
    have heq : e = (k, v) :=
      List.inj_on_of_nodup_map m.nodup (List.mem_of_find?_eq_some he) h hk
    exact ⟨e, he, by rw [heq]⟩

@[simp]
theorem get?_empty [DecidableEq κ] (k : κ) : (empty : LinkedMap κ ν).get? k = none := rfl

/-- A key that finds nothing has no entry. -/
theorem get?_eq_none_iff [DecidableEq κ] {m : LinkedMap κ ν} {k : κ} :
    m.get? k = none ↔ ∀ v, (k, v) ∉ m.entries := by
  simp only [← get?_eq_some_iff, Option.eq_none_iff_forall_ne_some, ne_eq]

/-- Maps with the same entries, in whatever order, agree on every key. -/
theorem get?_eq_of_perm [DecidableEq κ] {m m' : LinkedMap κ ν} (h : m.entries.Perm m'.entries)
    (k : κ) : m.get? k = m'.get? k := by
  apply Option.ext
  intro v
  rw [get?_eq_some_iff, get?_eq_some_iff]
  exact h.mem_iff

/-- Looking up after a write. -/
theorem get?_put [DecidableEq κ] (m : LinkedMap κ ν) (k k' : κ) (v : ν) :
    (m.put k v).get? k' = if k' = k then some v else m.get? k' := by
  apply Option.ext
  intro w
  rw [get?_eq_some_iff, mem_put_iff]
  by_cases h : k' = k
  · simp [h, eq_comm]
  · simp [h, get?_eq_some_iff]

/-- Writing the value that is there changes no lookup. -/
theorem get?_put_self [DecidableEq κ] {m : LinkedMap κ ν} {k : κ} {v : ν} (h : m.get? k = some v)
    (k' : κ) : (m.put k v).get? k' = m.get? k' := by
  rw [get?_put]
  split
  next hk => rw [hk, h]
  · rfl

/-- Looking up after a removal. -/
theorem get?_remove [DecidableEq κ] (m : LinkedMap κ ν) (k k' : κ) :
    (m.remove k).get? k' = if k' = k then none else m.get? k' := by
  apply Option.ext
  intro w
  rw [get?_eq_some_iff, mem_remove_iff]
  by_cases h : k' = k
  · simp [h]
  · simp [h, get?_eq_some_iff]

/-- Write a key, or remove it. -/
def write [DecidableEq κ] (m : LinkedMap κ ν) (k : κ) : Option ν → LinkedMap κ ν
  | some v => m.put k v
  | none => m.remove k

theorem get?_write [DecidableEq κ] (m : LinkedMap κ ν) (k k' : κ) (v : Option ν) :
    (m.write k v).get? k' = if k' = k then v else m.get? k' := by
  cases v with
  | none => exact get?_remove m k k'
  | some v => exact get?_put m k k' v

/-- Several writes, one after another. -/
def writeAll [DecidableEq κ] (m : LinkedMap κ ν) (written : List (κ × Option ν)) : LinkedMap κ ν :=
  written.foldl (fun m w => m.write w.1 w.2) m

theorem get?_writeAll_of_not_mem [DecidableEq κ] {m : LinkedMap κ ν}
    {written : List (κ × Option ν)} {k : κ} (h : k ∉ written.map Prod.fst) :
    (m.writeAll written).get? k = m.get? k := by
  induction written generalizing m with
  | nil => rfl
  | cons w written ih =>
    rw [List.map_cons, List.mem_cons, not_or] at h
    exact (ih h.2).trans ((get?_write m w.1 k w.2).trans (if_neg h.1))

/-- If no key is written twice, a key holds what was written under it. -/
theorem get?_writeAll [DecidableEq κ] {m : LinkedMap κ ν} {written : List (κ × Option ν)}
    (hnodup : (written.map Prod.fst).Nodup) {w : κ × Option ν} (hw : w ∈ written) :
    (m.writeAll written).get? w.1 = w.2 := by
  induction written generalizing m with
  | nil => cases hw
  | cons w' written ih =>
    obtain ⟨hnew, hnodup'⟩ := List.nodup_cons.mp hnodup
    rcases List.mem_cons.mp hw with rfl | hw
    · exact (get?_writeAll_of_not_mem hnew).trans ((get?_write m w.1 w.1 w.2).trans (if_pos rfl))
    · exact ih hnodup' hw

end LinkedMap

end Reactive
