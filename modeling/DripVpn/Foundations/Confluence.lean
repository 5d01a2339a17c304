import Mathlib.Logic.Basic

/-!
# Processes whose steps commute

Several processes take steps on a common state, in any order. If steps of different processes commute,
the order does not matter: once one schedule leads to a state in which no process can go on, every
schedule does, after the same number of steps (`Commutes.joins`).
-/

namespace Reactive

variable {σ ι : Type*} {step : σ → ι → Option σ} {s s' t f : σ} {i j : ι} {is js : List ι}

/-- Some steps, each of a process. -/
def steps (step : σ → ι → Option σ) (s : σ) : List ι → Option σ
  | [] => some s
  | i :: is => (step s i).bind fun s' => steps step s' is

theorem steps_cons_iff : steps step s (i :: is) = some t ↔
    ∃ s', step s i = some s' ∧ steps step s' is = some t := Option.bind_eq_some_iff

theorem steps_append_iff : steps step s (is ++ js) = some t ↔
    ∃ s', steps step s is = some s' ∧ steps step s' js = some t := by
  induction is generalizing s with
  | nil => exact ⟨fun h => ⟨s, rfl, h⟩, fun ⟨s', hs, h⟩ => Option.some.inj hs ▸ h⟩
  | cons i is ih =>
    rw [List.cons_append, steps_cons_iff]
    constructor
    · rintro ⟨s₁, hstep, hrest⟩
      obtain ⟨s', hs', ht⟩ := ih.mp hrest
      exact ⟨s', steps_cons_iff.mpr ⟨s₁, hstep, hs'⟩, ht⟩
    · rintro ⟨s', hs', ht⟩
      obtain ⟨s₁, hstep, hrest⟩ := steps_cons_iff.mp hs'
      exact ⟨s₁, hstep, ih.mpr ⟨s', hrest, ht⟩⟩

/-- What every step keeps holds at the end of a schedule. -/
theorem steps_invariant {P : σ → Prop} (hstep : ∀ s s' i, step s i = some s' → P s → P s')
    (hsteps : steps step s is = some t) (hs : P s) : P t := by
  induction is generalizing s with
  | nil =>
    cases hsteps
    exact hs
  | cons i is ih =>
    obtain ⟨s', hi, hrest⟩ := steps_cons_iff.mp hsteps
    exact ih hrest (hstep s s' i hi hs)

/-- Some schedule leads from one state to another. -/
def Leads (step : σ → ι → Option σ) (s t : σ) : Prop := ∃ is, steps step s is = some t

theorem Leads.refl (s : σ) : Leads step s s := ⟨[], rfl⟩

theorem Leads.trans (h : Leads step s s') (h' : Leads step s' t) : Leads step s t := by
  obtain ⟨is, his⟩ := h
  obtain ⟨js, hjs⟩ := h'
  exact ⟨is ++ js, steps_append_iff.mpr ⟨s', his, hjs⟩⟩

/-- Steps of different processes do not get in each other's way. -/
def Commutes (step : σ → ι → Option σ) : Prop :=
  ∀ ⦃s s₁ s₂ i j⦄, step s i = some s₁ → step s j = some s₂ → i ≠ j →
    ∃ s', step s₁ j = some s' ∧ step s₂ i = some s'

/-- At the end there is nothing to schedule. -/
theorem eq_of_steps (hs : ∀ i, step s i = none) (his : steps step s is = some t) : s = t := by
  cases is with
  | nil => exact Option.some.inj his
  | cons i is =>
    obtain ⟨s', hi, -⟩ := steps_cons_iff.mp his
    rw [hs i] at hi
    cases hi

/-- A schedule to the end can be rearranged so that any process that can go on goes first. -/
theorem Commutes.goes_first (h : Commutes step) (hf : ∀ i, step f i = none)
    (his : steps step s is = some f) (hj : step s j = some s') :
    ∃ js, steps step s' js = some f ∧ is.length = js.length + 1 := by
  induction is generalizing s s' with
  | nil =>
    cases his
    rw [hf j] at hj
    cases hj
  | cons i is ih =>
    obtain ⟨s₁, hi, hrest⟩ := steps_cons_iff.mp his
    by_cases hij : i = j
    · subst hij
      rw [hj] at hi
      exact ⟨is, Option.some.inj hi ▸ hrest, rfl⟩
    · -- the step of `j` is moved over that of `i`
      obtain ⟨s₂, hj', hi'⟩ := h hi hj hij
      obtain ⟨js, hjs, hlength⟩ := ih hrest hj'
      exact ⟨i :: js, steps_cons_iff.mpr ⟨s₂, hi', hjs⟩, congrArg (· + 1) hlength⟩

/-- **All schedules agree.** If some schedule comes to an end, every other one can be continued to the
same end, and takes as many steps to get there. -/
theorem Commutes.joins (h : Commutes step) (hf : ∀ i, step f i = none)
    (his : steps step s is = some f) (hjs : steps step s js = some t) :
    ∃ ks, steps step t ks = some f ∧ is.length = js.length + ks.length := by
  induction js generalizing s is with
  | nil =>
    cases hjs
    exact ⟨is, his, (Nat.zero_add _).symm⟩
  | cons j js ih =>
    obtain ⟨s', hj, hrest⟩ := steps_cons_iff.mp hjs
    obtain ⟨is', his', hlength⟩ := h.goes_first hf his hj
    obtain ⟨ks, hks, hlength'⟩ := ih his' hrest
    exact ⟨ks, hks, by rw [List.length_cons]; omega⟩

end Reactive
