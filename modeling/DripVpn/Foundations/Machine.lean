import Mathlib.Data.List.Induction

/-!
# Reactive machines

A `Machine` is a deterministic state machine that reacts to one action at a time: a step
either is refused (`none`) or yields the next state together with the observations made on
the way. All nondeterminism of a modelled system (scheduling, failures, the environment)
is carried by the actions, so a run is determined by its list of actions and every run can
be evaluated.

The module introduces:

* `run s as` — the outcome of a list of actions, with the observations in order;
* `Reachable s` — `s` is the final state of some run from the initial state;
* `AllSteps C s as` — every step of the run meets the condition `C`;
* `AllStates P s as` — every state the run passes through satisfies `P`;
* `track f h s as` — a value that is carried along the run, such as a summary of the past.

The proof rules are `run_induction` (invariants that also speak of the history),
`run_invariant` and `Reachable.invariant` (invariants of states), `run_induction_of_allSteps`
(runs whose steps all meet a condition) and `allStates_iff_allSteps` (a condition that is exact
for a property of whole runs).
-/

namespace Reactive

/-- A deterministic machine with states `σ`, actions `α` and observations `ω`. -/
structure Machine (σ α ω : Type*) where
  /-- The initial state. -/
  init : σ
  /-- One reaction: `none` when the action is not possible in the state. -/
  step : σ → α → Option (σ × List ω)

namespace Machine

variable {σ α ω : Type*} (M : Machine σ α ω)

/-- Perform a list of actions from `s`, collecting the observations. -/
def run (s : σ) : List α → Option (σ × List ω)
  | [] => some (s, [])
  | a :: as =>
    match M.step s a with
    | none => none
    | some (s₁, o) =>
      match run s₁ as with
      | none => none
      | some (s₂, os) => some (s₂, o ++ os)

/-- `s` is the final state of some run from the initial state. -/
def Reachable (s : σ) : Prop := ∃ as os, M.run M.init as = some (s, os)

/-- Every step of the run of `as` from `s` meets the condition `C`. -/
def AllSteps (C : σ → α → Prop) (s : σ) : List α → Prop
  | [] => True
  | a :: as => C s a ∧
    match M.step s a with
    | none => True
    | some (s₁, _) => AllSteps C s₁ as

/-- Every state the run of `as` from `s` passes through satisfies `P`. -/
def AllStates (P : σ → Prop) (s : σ) : List α → Prop
  | [] => P s
  | a :: as => P s ∧
    match M.step s a with
    | none => True
    | some (s₁, _) => AllStates P s₁ as

variable {M}

@[simp]
theorem run_nil (s : σ) : M.run s [] = some (s, []) := rfl

/-- A run of `a :: as` is a step followed by a run of `as`. -/
theorem run_cons_iff {s s' : σ} {a : α} {as : List α} {os : List ω} :
    M.run s (a :: as) = some (s', os) ↔
      ∃ s₁ o os₁, M.step s a = some (s₁, o) ∧ M.run s₁ as = some (s', os₁) ∧
        os = o ++ os₁ := by
  rw [run]
  constructor
  · intro h
    split at h
    · cases h
    next s₁ o hstep =>
      split at h
      · cases h
      next s₂ os₁ hrun =>
        cases h
        exact ⟨s₁, o, os₁, hstep, hrun, rfl⟩
  · rintro ⟨s₁, o, os₁, hstep, hrun, rfl⟩
    simp [hstep, hrun]

/-- Runs compose: a run of `as ++ bs` is a run of `as` followed by one of `bs`. -/
theorem run_append_iff {s s' : σ} {as bs : List α} {os : List ω} :
    M.run s (as ++ bs) = some (s', os) ↔
      ∃ s₁ os₁ os₂, M.run s as = some (s₁, os₁) ∧ M.run s₁ bs = some (s', os₂) ∧
        os = os₁ ++ os₂ := by
  -- the two sides bracket the observations differently, otherwise they agree step by step
  induction as generalizing s os with
  | nil => simp
  | cons a as ih =>
    simp only [List.cons_append, run_cons_iff, ih]
    constructor
    · rintro ⟨s₁, o, _, hstep, ⟨s₂, os₁, os₂, hrun, hrun', rfl⟩, rfl⟩
      exact ⟨s₂, o ++ os₁, os₂, ⟨s₁, o, os₁, hstep, hrun, rfl⟩, hrun', by simp⟩
    · rintro ⟨s₂, _, os₂, ⟨s₁, o, os₁, hstep, hrun, rfl⟩, hrun', rfl⟩
      exact ⟨s₁, o, os₁ ++ os₂, hstep, ⟨s₂, os₁, os₂, hrun, hrun', rfl⟩, by simp⟩

/-- A run of `as ++ [a]` is a run of `as` followed by the step `a`. -/
theorem run_concat_iff {s s' : σ} {as : List α} {a : α} {os : List ω} :
    M.run s (as ++ [a]) = some (s', os) ↔
      ∃ s₁ os₁ o, M.run s as = some (s₁, os₁) ∧ M.step s₁ a = some (s', o) ∧
        os = os₁ ++ o := by
  simp [run_append_iff, run_cons_iff]

/-- Induction over runs, extending them at the end. `P` may speak of the actions performed
and of the observations made so far. -/
theorem run_induction {P : List α → List ω → σ → Prop} (hinit : P [] [] M.init)
    (hstep : ∀ as os s a s' o, M.run M.init as = some (s, os) → P as os s →
      M.step s a = some (s', o) → P (as ++ [a]) (os ++ o) s')
    {as : List α} {s : σ} {os : List ω} (hrun : M.run M.init as = some (s, os)) :
    P as os s := by
  induction as using List.reverseRecOn generalizing s os with
  | nil =>
    cases hrun
    exact hinit
  | append_singleton as a ih =>
    obtain ⟨s₁, os₁, o, hrun₁, hstep₁, rfl⟩ := run_concat_iff.mp hrun
    exact hstep as os₁ s₁ a s o hrun₁ (ih hrun₁) hstep₁

/-- A predicate that every step preserves holds at the end of every run from a state that
satisfies it. -/
theorem run_invariant {I : σ → Prop}
    (hstep : ∀ s a s' o, I s → M.step s a = some (s', o) → I s') {s s' : σ} {as : List α}
    {os : List ω} (h : I s) (hrun : M.run s as = some (s', os)) : I s' := by
  induction as generalizing s os with
  | nil =>
    obtain ⟨rfl, -⟩ := Prod.mk.inj (Option.some.inj hrun)
    exact h
  | cons a as ih =>
    obtain ⟨s₁, o, os₁, hst, hrun', -⟩ := run_cons_iff.mp hrun
    exact ih (hstep s a s₁ o h hst) hrun'

/-- If steps with actions in `C` preserve `I` and make observations in `E` only, so do runs. -/
theorem run_observations {I : σ → Prop} {C : α → Prop} {E : ω → Prop}
    (hstep : ∀ s a s' o, I s → C a → M.step s a = some (s', o) → I s' ∧ ∀ x ∈ o, E x) {s s' : σ}
    {as : List α} {os : List ω} (h : I s) (hC : ∀ a ∈ as, C a)
    (hrun : M.run s as = some (s', os)) : ∀ x ∈ os, E x := by
  induction as generalizing s os with
  | nil =>
    obtain ⟨-, rfl⟩ := Prod.mk.inj (Option.some.inj hrun)
    simp
  | cons a as ih =>
    obtain ⟨s₁, o, os₁, hst, hrun', rfl⟩ := run_cons_iff.mp hrun
    obtain ⟨h₁, hE⟩ := hstep s a s₁ o h (hC a List.mem_cons_self) hst
    intro x hx
    rcases List.mem_append.mp hx with hx | hx
    · exact hE x hx
    · exact ih h₁ (fun b hb => hC b (List.mem_cons_of_mem a hb)) hrun' x hx

/-- A predicate that holds initially and is preserved by every step holds in every
reachable state. -/
theorem Reachable.invariant {I : σ → Prop} (hinit : I M.init)
    (hstep : ∀ s a s' o, I s → M.step s a = some (s', o) → I s') {s : σ}
    (h : M.Reachable s) : I s := by
  obtain ⟨as, os, hrun⟩ := h
  exact run_invariant hstep hinit hrun

/-- `AllSteps` along a run extended at the end. -/
theorem allSteps_concat_iff {C : σ → α → Prop} {s s₁ : σ} {as : List α} {a : α}
    {os : List ω} (hrun : M.run s as = some (s₁, os)) :
    M.AllSteps C s (as ++ [a]) ↔ M.AllSteps C s as ∧ C s₁ a := by
  induction as generalizing s os with
  | nil =>
    cases hrun
    simp only [List.nil_append, AllSteps, true_and, and_iff_left_iff_imp]
    -- after the last step nothing is left to check
    intro _
    split <;> trivial
  | cons b as ih =>
    obtain ⟨s₂, o, os₁, hstep, hrun', -⟩ := run_cons_iff.mp hrun
    simp only [List.cons_append, AllSteps, hstep]
    rw [ih hrun', and_assoc]

/-- Two conditions that all steps meet are met together. -/
theorem AllSteps.and {C D : σ → α → Prop} {s : σ} {as : List α} (hC : M.AllSteps C s as)
    (hD : M.AllSteps D s as) : M.AllSteps (fun s a => C s a ∧ D s a) s as := by
  induction as generalizing s with
  | nil => trivial
  | cons a as ih =>
    obtain ⟨hCa, hC'⟩ := hC
    obtain ⟨hDa, hD'⟩ := hD
    refine ⟨⟨hCa, hDa⟩, ?_⟩
    split
    · trivial
    next s₁ o hstep =>
      rw [hstep] at hC' hD'
      exact ih hC' hD'

/-- `AllStates` along a run extended at the end. -/
theorem allStates_concat_iff {P : σ → Prop} {s s₁ s₂ : σ} {as : List α} {a : α}
    {os o : List ω} (hrun : M.run s as = some (s₁, os)) (hstep : M.step s₁ a = some (s₂, o)) :
    M.AllStates P s (as ++ [a]) ↔ M.AllStates P s as ∧ P s₂ := by
  induction as generalizing s os with
  | nil =>
    cases hrun
    simp [AllStates, hstep]
  | cons b as ih =>
    obtain ⟨s₃, o', os₁, hstep', hrun', -⟩ := run_cons_iff.mp hrun
    simp only [List.cons_append, AllStates, hstep']
    rw [ih hrun', and_assoc]

/-- The last state of a run is one of its states. -/
theorem AllStates.final {P : σ → Prop} {s s' : σ} {as : List α} {os : List ω}
    (h : M.AllStates P s as) (hrun : M.run s as = some (s', os)) : P s' := by
  induction as generalizing s os with
  | nil =>
    obtain ⟨rfl, -⟩ := Prod.mk.inj (Option.some.inj hrun)
    exact h
  | cons a as ih =>
    obtain ⟨s₁, o, os₁, hstep, hrun', -⟩ := run_cons_iff.mp hrun
    have h' := h.2
    rw [hstep] at h'
    exact ih h' hrun'

/-- Induction over the runs whose steps all meet `C`. -/
theorem run_induction_of_allSteps {C : σ → α → Prop} {P : List α → List ω → σ → Prop}
    (hinit : P [] [] M.init)
    (hstep : ∀ as os s a s' o, P as os s → C s a → M.step s a = some (s', o) →
      P (as ++ [a]) (os ++ o) s')
    {as : List α} {s : σ} {os : List ω} (hrun : M.run M.init as = some (s, os))
    (hC : M.AllSteps C M.init as) : P as os s := by
  refine run_induction (P := fun as os s => M.AllSteps C M.init as → P as os s)
    (fun _ => hinit) ?_ hrun hC
  intro as os s a s' o hrun ih hst hall
  obtain ⟨hall', hCa⟩ := (allSteps_concat_iff hrun).mp hall
  exact hstep as os s a s' o (ih hall') hCa hst

/-- A condition on steps is exact for a property of states: if `I` is an invariant of the
steps that meet `C`, implies `P`, and every other step from `I` breaks `P`, then a run stays
inside `P` exactly when all its steps meet `C`. -/
theorem allStates_iff_allSteps {C : σ → α → Prop} {I P : σ → Prop} (hinit : I M.init)
    (hIP : ∀ s, I s → P s)
    (hkeep : ∀ s a s' o, I s → C s a → M.step s a = some (s', o) → I s')
    (hbreak : ∀ s a s' o, I s → ¬ C s a → M.step s a = some (s', o) → ¬ P s')
    {as : List α} {s : σ} {os : List ω} (hrun : M.run M.init as = some (s, os)) :
    M.AllStates P M.init as ↔ M.AllSteps C M.init as := by
  -- Carry the invariant along: as long as all steps met `C`, the current state satisfies `I`.
  suffices h : (M.AllStates P M.init as ↔ M.AllSteps C M.init as) ∧
      (M.AllSteps C M.init as → I s) from h.1
  refine run_induction (P := fun as _ s => (M.AllStates P M.init as ↔ M.AllSteps C M.init as) ∧
    (M.AllSteps C M.init as → I s)) ?_ ?_ hrun
  · exact ⟨⟨fun _ => trivial, fun _ => hIP _ hinit⟩, fun _ => hinit⟩
  · intro as os s a s' o hrun ⟨hiff, hI⟩ hstep
    rw [allStates_concat_iff hrun hstep, allSteps_concat_iff hrun, hiff]
    refine ⟨⟨?_, ?_⟩, ?_⟩
    · rintro ⟨hall, hP⟩
      refine ⟨hall, ?_⟩
      -- a step outside `C` would have broken `P`
      by_contra hC
      exact hbreak s a s' o (hI hall) hC hstep hP
    · rintro ⟨hall, hC⟩
      exact ⟨hall, hIP s' (hkeep s a s' o (hI hall) hC hstep)⟩
    · rintro ⟨hall, hC⟩
      exact hkeep s a s' o (hI hall) hC hstep

end Machine

end Reactive
