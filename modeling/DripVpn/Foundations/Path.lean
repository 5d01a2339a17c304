import DripVpn.Foundations.Text

/-!
# Paths

A path is the sequence of its names, which slashes separate. `resolve` removes the names `.` and
`..` lexically. `climb` does the same for a path on its own: it counts how often the path leaves the
directory it starts from, and what it names after that; `inside_iff` reads off from the two whether
a path that starts from a directory ends inside of it.
-/

namespace Path

/-- The names of a path. Repeated slashes, and those at the ends, do not count. -/
def names (path : Text) : List Text := (path.splitOn '/').filter (· ≠ [])

/-- The text of the absolute path with the given names. -/
def absolute (names : List Text) : Text :=
  if names = [] then ['/'] else names.flatMap ('/' :: ·)

/-- The directory that a name leads to. -/
def enter (dir : List Text) (name : Text) : List Text :=
  if name = ['.'] then dir else if name = ['.', '.'] then dir.dropLast else dir ++ [name]

/-- An absolute path without `.` and `..`. -/
def resolve (names : List Text) : List Text := names.foldl enter []

/-- One name of a path that has left its directory `ups` times and named `rest` since. -/
def climbStep (climbed : ℕ × List Text) (name : Text) : ℕ × List Text :=
  if name = ['.'] then climbed
  else if name = ['.', '.'] then
    if climbed.2 = [] then (climbed.1 + 1, []) else (climbed.1, climbed.2.dropLast)
  else (climbed.1, climbed.2 ++ [name])

/-- How often a path leaves the directory it starts from, and what it names after that. -/
def climb (names : List Text) : ℕ × List Text := names.foldl climbStep (0, [])

/-- The names lead to a place strictly inside the directory. -/
def Inside (dir names : List Text) : Prop :=
  dir <+: resolve (dir ++ names) ∧ dir ≠ resolve (dir ++ names)

instance (dir names : List Text) : Decidable (Inside dir names) :=
  inferInstanceAs (Decidable (_ ∧ _))

/-- The directory is named without `.` and `..`. -/
def IsResolved (dir : List Text) : Prop := ∀ name ∈ dir, name ≠ ['.'] ∧ name ≠ ['.', '.']

variable {dir : List Text}

theorem foldl_enter (h : IsResolved dir) (start : List Text) :
    dir.foldl enter start = start ++ dir := by
  induction dir generalizing start with
  | nil => exact (List.append_nil start).symm
  | cons name dir ih =>
    obtain ⟨hdot, hdots⟩ := h name List.mem_cons_self
    rw [List.foldl_cons, ih fun n hn => h n (List.mem_cons_of_mem _ hn), enter, if_neg hdot,
      if_neg hdots, List.append_assoc]
    rfl

/-- A path climbs out of a directory and names something from there. -/
theorem foldl_enter_climbed (names : List Text) (climbed : ℕ × List Text) :
    names.foldl enter (dir.take (dir.length - climbed.1) ++ climbed.2) =
      dir.take (dir.length - (names.foldl climbStep climbed).1) ++
        (names.foldl climbStep climbed).2 := by
  induction names generalizing climbed with
  | nil => rfl
  | cons name names ih =>
    have hstep : enter (dir.take (dir.length - climbed.1) ++ climbed.2) name =
        dir.take (dir.length - (climbStep climbed name).1) ++ (climbStep climbed name).2 := by
      rw [enter, climbStep]
      by_cases hdot : name = ['.']
      · rw [if_pos hdot, if_pos hdot]
      rw [if_neg hdot, if_neg hdot]
      by_cases hdots : name = ['.', '.']
      · rw [if_pos hdots, if_pos hdots]
        by_cases hrest : climbed.2 = []
        · rw [if_pos hrest, hrest, List.append_nil, List.append_nil, List.dropLast_eq_take,
            List.take_take, List.length_take]
          congr 1
          omega
        · rw [if_neg hrest, List.dropLast_append_of_ne_nil hrest]
      · rw [if_neg hdots, if_neg hdots, List.append_assoc]
    rw [List.foldl_cons, List.foldl_cons, hstep, ih]

theorem resolve_append (h : IsResolved dir) (names : List Text) :
    resolve (dir ++ names) =
      dir.take (dir.length - (climb names).1) ++ (climb names).2 := by
  have hstart : dir = dir.take (dir.length - 0) ++ [] := by
    rw [Nat.sub_zero, List.take_length, List.append_nil]
  rw [resolve, List.foldl_append, foldl_enter h, List.nil_append]
  nth_rewrite 1 [hstart]
  exact foldl_enter_climbed names (0, [])

/-- A path ends inside the directory exactly if it comes back to it after it has left it, and goes
on from there. -/
theorem inside_iff (h : IsResolved dir) (names : List Text) :
    Inside dir names ↔ dir.drop (dir.length - (climb names).1) <+: (climb names).2 ∧
      dir.drop (dir.length - (climb names).1) ≠ (climb names).2 := by
  have hsplit : ∀ front back rest : List Text,
      (front ++ back <+: front ++ rest ∧ front ++ back ≠ front ++ rest) ↔
        (back <+: rest ∧ back ≠ rest) := by
    intro front back rest
    rw [List.prefix_append_right_inj, ne_eq, List.append_cancel_left_eq]
  have hdir := hsplit (dir.take (dir.length - (climb names).1))
    (dir.drop (dir.length - (climb names).1)) (climb names).2
  rw [List.take_append_drop] at hdir
  rw [Inside, resolve_append h]
  exact hdir

/-- The absolute path of something below a directory begins with that of the directory. -/
theorem absolute_prefix_iff (hdir : dir ≠ []) (names : List Text) :
    absolute dir ++ ['/'] <+: absolute (dir ++ names) ↔ names ≠ [] := by
  have happend : dir ++ names ≠ [] := List.append_ne_nil_of_left_ne_nil hdir names
  rw [absolute, absolute, if_neg hdir, if_neg happend, List.flatMap_append,
    List.prefix_append_right_inj]
  cases names with
  | nil => simp
  | cons name names =>
    rw [List.flatMap_cons, List.cons_append]
    exact ⟨fun _ => List.cons_ne_nil _ _, fun _ => List.prefix_append ['/'] _⟩

end Path
