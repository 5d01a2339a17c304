/-!
# Computations that throw and keep what they did

`Fallible σ ε α` is a computation on a state `σ` that returns a value or throws an `ε`. Unlike
with a transaction, an exception keeps the changes made before it: this is how a method that
throws half-way leaves its object.

`Ensures P m Q E` says of a computation started in a state that satisfies `P` that `Q` holds of
the value and the state when it returns, and `E` of the exception and the state when it throws.
The rules (`ensures_bind`, `ensures_modify`, `ensures_guard` and so on) take a program apart along
its text.
-/

namespace Reactive

/-- A computation on `σ` that returns an `α` or throws an `ε`. -/
def Fallible (σ ε α : Type) : Type := σ → Except ε α × σ

namespace Fallible

variable {σ ε α β : Type}

instance : Monad (Fallible σ ε) where
  pure a s := (.ok a, s)
  bind m f s :=
    -- an exception skips `f` and keeps the state it was thrown in
    match m s with
    | (.ok a, s₁) => f a s₁
    | (.error e, s₁) => (.error e, s₁)

/-- Change the state. -/
def modify (f : σ → σ) : Fallible σ ε Unit := fun s => (.ok (), f s)

/-- The current state. -/
def get : Fallible σ ε σ := fun s => (.ok s, s)

/-- Throw. -/
def throw (e : ε) : Fallible σ ε α := fun s => (.error e, s)

/-- Throw when there is something to throw: a call whose outcome the environment decides. -/
def guard : Option ε → Fallible σ ε Unit
  | none => pure ()
  | some e => throw e

/-- Throw `e` if the condition holds. -/
def throwIf (c : Bool) (e : ε) : Fallible σ ε Unit := if c then throw e else pure ()

/-- Executing a sequence whose first part returns. -/
theorem bind_of_ok {m : Fallible σ ε α} {f : α → Fallible σ ε β} {s s₁ : σ} {a : α}
    (h : m s = (.ok a, s₁)) : (m >>= f) s = f a s₁ := by
  simp only [Bind.bind, h]

/-- Started where `P` holds, `m` returns with `Q` or throws with `E`. -/
def Ensures (P : σ → Prop) (m : Fallible σ ε α) (Q : α → σ → Prop) (E : ε → σ → Prop) : Prop :=
  ∀ s, P s →
    match m s with
    | (.ok a, s₁) => Q a s₁
    | (.error e, s₁) => E e s₁

variable {P P' : σ → Prop} {Q Q' : α → σ → Prop} {E E' : ε → σ → Prop}

/-- Returning a value changes nothing. -/
theorem ensures_pure (a : α) (h : ∀ s, P s → Q a s) :
    Ensures P (pure a : Fallible σ ε α) Q E := h

/-- Throwing changes nothing. -/
theorem ensures_throw (e : ε) (h : ∀ s, P s → E e s) :
    Ensures P (throw e : Fallible σ ε α) Q E := h

/-- A change of the state. -/
theorem ensures_modify (f : σ → σ) {Q : Unit → σ → Prop} (h : ∀ s, P s → Q () (f s)) :
    Ensures P (modify f : Fallible σ ε Unit) Q E := h

/-- Reading the state. -/
theorem ensures_get {Q : σ → σ → Prop} (h : ∀ s, P s → Q s s) :
    Ensures P (get : Fallible σ ε σ) Q E := h

/-- A call of the environment either returns or throws, and leaves the state alone. -/
theorem ensures_guard (o : Option ε) {Q : Unit → σ → Prop} (hQ : ∀ s, P s → Q () s)
    (hE : ∀ e s, P s → E e s) : Ensures P (guard o) Q E := by
  cases o with
  | none => exact hQ
  | some e => exact hE e

/-- A check either throws or does nothing. -/
theorem ensures_throwIf (c : Bool) (e : ε) {Q : Unit → σ → Prop}
    (hQ : ∀ s, P s → c = false → Q () s) (hE : ∀ s, P s → E e s) :
    Ensures P (throwIf c e) Q E := by
  cases c with
  | false => exact fun s hs => hQ s hs rfl
  | true => exact hE

/-- Sequential composition. -/
theorem ensures_bind {m : Fallible σ ε α} {f : α → Fallible σ ε β} {R : β → σ → Prop}
    (hm : Ensures P m Q E) (hf : ∀ a, Ensures (Q a) (f a) R E) : Ensures P (m >>= f) R E := by
  intro s hs
  have hm' := hm s hs
  -- spell out `>>=`, so that both matches are on `m s`
  change match (match m s with
    | (.ok a, s₁) => f a s₁
    | (.error e, s₁) => (.error e, s₁)) with
    | (.ok a, s₁) => R a s₁
    | (.error e, s₁) => E e s₁
  revert hm'
  rcases m s with ⟨_ | a, s₁⟩
  · exact id
  · intro ha
    exact hf a s₁ ha

/-- Weaken the conditions of a computation. -/
theorem Ensures.of_imp {m : Fallible σ ε α} (h : Ensures P m Q E) (hP : ∀ s, P' s → P s)
    (hQ : ∀ a s, Q a s → Q' a s) (hE : ∀ e s, E e s → E' e s) : Ensures P' m Q' E' := by
  intro s hs
  have h' := h s (hP s hs)
  revert h'
  rcases m s with ⟨e | a, s₁⟩
  · exact hE e s₁
  · exact hQ a s₁

end Fallible

end Reactive
