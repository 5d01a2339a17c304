import DripVpn.Foundations.Machine

/-!
# Simulations between machines

Two machines that take the same actions and make the same kind of observations can be two levels of
one design. A `Simulation` relates their states so that every step of the first is a step of the
second with the same observations; `Simulation.run` extends this to whole runs, so that whatever the
first machine shows, the second one shows too.
-/

namespace Reactive.Machine

variable {σ τ α ω : Type*} {M : Machine σ α ω} {N : Machine τ α ω} {R : σ → τ → Prop}

/-- `R` relates the states of `M` to those of `N` so that `N` follows every step of `M`. -/
structure Simulation (M : Machine σ α ω) (N : Machine τ α ω) (R : σ → τ → Prop) : Prop where
  init : R M.init N.init
  step : ∀ {s t a s' o}, R s t → M.step s a = some (s', o) →
    ∃ t', N.step t a = some (t', o) ∧ R s' t'

/-- A run of the first machine is a run of the second with the same observations. -/
theorem Simulation.run (h : M.Simulation N R) {as : List α} {s : σ} {os : List ω}
    (hrun : M.run M.init as = some (s, os)) :
    ∃ t, N.run N.init as = some (t, os) ∧ R s t := by
  refine run_induction (P := fun as os s => ∃ t, N.run N.init as = some (t, os) ∧ R s t)
    ⟨N.init, rfl, h.init⟩ ?_ hrun
  intro as os s a s' o _ ⟨t, hrun', hR⟩ hstep
  obtain ⟨t', hstep', hR'⟩ := h.step hR hstep
  exact ⟨t', run_concat_iff.mpr ⟨t, os, o, hrun', hstep', rfl⟩, hR'⟩

/-- A machine that refuses no action has a run for every list of actions. -/
theorem exists_run (htotal : ∀ s a, ∃ s' o, M.step s a = some (s', o)) (s : σ) (as : List α) :
    ∃ s' os, M.run s as = some (s', os) := by
  induction as generalizing s with
  | nil => exact ⟨s, [], rfl⟩
  | cons a as ih =>
    obtain ⟨s₁, o, hstep⟩ := htotal s a
    obtain ⟨s', os, hrun⟩ := ih s₁
    exact ⟨s', o ++ os, run_cons_iff.mpr ⟨s₁, o, os, hstep, hrun, rfl⟩⟩

end Reactive.Machine
