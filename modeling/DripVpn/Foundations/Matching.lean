import DripVpn.Foundations.Text

/-!
# Patterns in texts

What is needed to write a regular expression as a function: `splits` are the ways to cut a text at
a character, from the shortest first part to the longest, so a lazy group takes the first of them
that works and a greedy group the last; `findAll` collects the matches of a pattern from left to
right, each search starting where the last match ended.
-/

namespace Text

/-! ## Groups -/

/-- The ways to cut a text at a `c`, the shortest first part first. -/
def splits (c : Char) : Text → List (Text × Text)
  | [] => []
  | x :: t =>
    if x = c then ([], t) :: (splits c t).map fun parts => (x :: parts.1, parts.2)
    else (splits c t).map fun parts => (x :: parts.1, parts.2)

theorem mem_splits_iff {c : Char} {t a b : Text} : (a, b) ∈ splits c t ↔ t = a ++ c :: b := by
  induction t generalizing a with
  | nil => simp [splits]
  | cons x t ih =>
    have hlonger : (a, b) ∈ (splits c t).map (fun parts => (x :: parts.1, parts.2)) ↔
        ∃ a', a = x :: a' ∧ t = a' ++ c :: b := by
      rw [List.mem_map]
      constructor
      · rintro ⟨⟨a', b'⟩, hmem, hparts⟩
        obtain ⟨rfl, rfl⟩ := Prod.mk.inj hparts
        exact ⟨a', rfl, ih.mp hmem⟩
      · rintro ⟨a', rfl, ht⟩
        exact ⟨(a', b), ih.mpr ht, rfl⟩
    rw [splits]
    by_cases hx : x = c
    · rw [if_pos hx, List.mem_cons, hlonger]
      constructor
      · rintro (hparts | ⟨a', rfl, ht⟩)
        · obtain ⟨rfl, rfl⟩ := Prod.mk.inj hparts
          rw [hx]
          rfl
        · rw [ht]
          rfl
      · intro ht
        cases a with
        | nil =>
          obtain ⟨-, rfl⟩ := List.cons.inj ht
          exact Or.inl rfl
        | cons y a =>
          obtain ⟨rfl, hrest⟩ := List.cons.inj ht
          exact Or.inr ⟨a, rfl, hrest⟩
    · rw [if_neg hx, hlonger]
      constructor
      · rintro ⟨a', rfl, ht⟩
        rw [ht]
        rfl
      · intro ht
        cases a with
        | nil => exact absurd (List.cons.inj ht).1 hx
        | cons y a =>
          obtain ⟨rfl, hrest⟩ := List.cons.inj ht
          exact ⟨a, rfl, hrest⟩

/-- The first cut is at the first `c`. -/
theorem splits_of_notMem_left {c : Char} {a : Text} (h : c ∉ a) (b : Text) :
    ∃ rest, splits c (a ++ c :: b) = (a, b) :: rest := by
  induction a with
  | nil => exact ⟨_, by rw [List.nil_append, splits, if_pos rfl]⟩
  | cons x a ih =>
    rw [List.mem_cons, not_or] at h
    obtain ⟨rest, hrest⟩ := ih h.2
    exact ⟨_, by rw [List.cons_append, splits, if_neg fun hx => h.1 hx.symm, hrest, List.map_cons]⟩

theorem splits_of_notMem {c : Char} {t : Text} (h : c ∉ t) : splits c t = [] := by
  refine List.eq_nil_iff_forall_not_mem.mpr ?_
  rintro ⟨a, b⟩ hmem
  rw [mem_splits_iff.mp hmem] at h
  simp at h

/-- The last cut is at the last `c`. -/
theorem splits_of_notMem_right {c : Char} (a : Text) {b : Text} (h : c ∉ b) :
    ∃ rest, splits c (a ++ c :: b) = rest ++ [(a, b)] := by
  induction a with
  | nil => exact ⟨[], by rw [List.nil_append, splits, if_pos rfl, splits_of_notMem h]; rfl⟩
  | cons x a ih =>
    obtain ⟨rest, hrest⟩ := ih
    rw [List.cons_append, splits, hrest, List.map_append]
    split
    · exact ⟨_ :: _, rfl⟩
    · exact ⟨_, rfl⟩

/-! ## All matches -/

section FindAll

variable (matchAt : Text → Option Text)

/-- The matches in a text, after the first characters are skipped. -/
def findAllFrom : ℕ → Text → List Text
  | _, [] => []
  | skip + 1, _ :: t => findAllFrom skip t
  | 0, c :: t =>
    match matchAt (c :: t) with
    | some found => found :: findAllFrom (found.length - 1) t
    | none => findAllFrom 0 t

/-- The matches in a text; `matchAt` is the match at the start of a text, and not empty. -/
def findAll (t : Text) : List Text := findAllFrom matchAt 0 t

variable {matchAt}

theorem findAllFrom_length (s t : Text) : findAllFrom matchAt s.length (s ++ t) =
    findAll matchAt t := by
  induction s with
  | nil => rfl
  | cons c s ih => exact ih

/-- The search goes on after a match. -/
theorem findAll_of_match {found t : Text} (hne : found ≠ []) (h : matchAt (found ++ t) = some found) :
    findAll matchAt (found ++ t) = found :: findAll matchAt t := by
  obtain ⟨c, s, rfl⟩ := List.exists_cons_of_ne_nil hne
  rw [List.cons_append] at h ⊢
  rw [findAll, findAllFrom, h]
  exact congrArg _ (findAllFrom_length s t)

/-- The search passes characters at which no match starts. -/
theorem findAll_append_of_forall {s t : Text}
    (h : ∀ u v, s = u ++ v → v ≠ [] → matchAt (v ++ t) = none) :
    findAll matchAt (s ++ t) = findAll matchAt t := by
  induction s with
  | nil => rfl
  | cons c s ih =>
    have hnone : matchAt (c :: (s ++ t)) = none := h [] (c :: s) rfl (List.cons_ne_nil c s)
    rw [List.cons_append, findAll, findAllFrom, hnone]
    exact ih fun u v huv hv => h (c :: u) v (by rw [huv]; rfl) hv

end FindAll

end Text
