import DripVpn.Foundations.Fallible

/-!
# Programs that call a shared service

`Calls R α` is a program that makes calls to a service and finally returns an `α`; `R c` is the
type of the answer to the call `c`. The service stands outside: `exec` performs all calls at
once against one implementation, while a scheduler can perform them one at a time and let other
programs call in between.

`Session R σ ε α` adds what belongs to the caller alone: variables `σ` and exceptions `ε` that
keep the changes made before them. `Session.run` executes a session on the caller's variables
together with the state of the service.

`Session.Ensures` is a logic of pre- and postconditions for sessions of a `Service`, under the
assumption that every call of the session is answered as the service accepts (`AllAccepted`), for
instance not with a failure. There is one rule for each operation, and `ensures_forM` for loops.
-/

namespace Reactive

/-- A program with calls `c`, answered by an `R c`, that returns an `α`. -/
inductive Calls {κ : Type} (R : κ → Type) (α : Type) : Type where
  | done (a : α)
  | call (c : κ) (k : R c → Calls R α)

namespace Calls

variable {κ : Type} {R : κ → Type} {α β δ : Type}

/-- Continue with `f` after the last call. -/
def bind (p : Calls R α) (f : α → Calls R β) : Calls R β :=
  match p with
  | done a => f a
  | call c k => call c fun r => (k r).bind f

/-- Perform all calls on the state `d` of the service. -/
def exec (perform : (c : κ) → δ → R c × δ) : Calls R α → δ → α × δ
  | done a, d => (a, d)
  | call c k, d =>
    let (r, d') := perform c d
    (k r).exec perform d'

/-- Calls are performed in the order of the text. -/
theorem exec_bind (perform : (c : κ) → δ → R c × δ) (p : Calls R α) (f : α → Calls R β) (d : δ) :
    (p.bind f).exec perform d = (f (p.exec perform d).1).exec perform (p.exec perform d).2 := by
  induction p generalizing d with
  | done a => rfl
  | call c k ih => exact ih _ _

end Calls

/-- A service: how calls are performed, and which answers count as accepted. -/
structure Service {κ : Type} (R : κ → Type) (δ : Type) where
  perform : (c : κ) → δ → R c × δ
  Accepts : (c : κ) → R c → Prop

namespace Calls

variable {κ : Type} {R : κ → Type} {α β δ : Type} (S : Service R δ)

/-- Every call the program makes has an accepted answer. -/
def AllAccepted : Calls R α → δ → Prop
  | done _, _ => True
  | call c k, d =>
    S.Accepts c (S.perform c d).1 ∧ (k (S.perform c d).1).AllAccepted (S.perform c d).2

instance decidableAllAccepted [h : ∀ c r, Decidable (S.Accepts c r)] :
    (p : Calls R α) → (d : δ) → Decidable (p.AllAccepted S d)
  | done _, _ => .isTrue trivial
  | call c k, d =>
    @instDecidableAnd _ _ (h c (S.perform c d).1)
      (decidableAllAccepted (k (S.perform c d).1) (S.perform c d).2)

/-- The calls of a sequence are those of its parts. -/
theorem allAccepted_bind (p : Calls R α) (f : α → Calls R β) (d : δ) :
    (p.bind f).AllAccepted S d ↔
      p.AllAccepted S d ∧
        (f (p.exec S.perform d).1).AllAccepted S (p.exec S.perform d).2 := by
  induction p generalizing d with
  | done a => simp [bind, AllAccepted, exec]
  | call c k ih => simp [bind, AllAccepted, exec, ih, and_assoc]

end Calls

/-- A program with its own variables `σ` and exceptions `ε`. -/
def Session {κ : Type} (R : κ → Type) (σ ε α : Type) : Type := σ → Calls R (Except ε α × σ)

namespace Session

variable {κ : Type} {R : κ → Type} {σ ε ε' α β δ : Type}

instance : Monad (Session R σ ε) where
  pure a s := .done (.ok a, s)
  bind m f s := (m s).bind fun
    | (.ok a, s₁) => f a s₁
    -- an exception skips `f` and keeps the variables
    | (.error e, s₁) => .done (.error e, s₁)

/-- Call the service. -/
def call (c : κ) : Session R σ ε (R c) := fun s => .call c fun r => .done (.ok r, s)

/-- Throw. -/
def throw (e : ε) : Session R σ ε α := fun s => .done (.error e, s)

/-- The variables. -/
def get : Session R σ ε σ := fun s => .done (.ok s, s)

/-- Change the variables. -/
def modify (f : σ → σ) : Session R σ ε Unit := fun s => .done (.ok (), f s)

/-- `try { m } catch (_) { }`. -/
def attempt (m : Session R σ ε Unit) : Session R σ ε Unit := fun s =>
  (m s).bind fun (_, s₁) => .done (.ok (), s₁)

/-- `m`, with another result or exception in place of its own. -/
def handle (g : Except ε α → Except ε' β) (m : Session R σ ε α) : Session R σ ε' β := fun s =>
  (m s).bind fun r => .done (g r.1, r.2)

/-- `try { m } catch (e) { … }`: the exception, if there is one. -/
def caught (m : Session R σ ε Unit) : Session R σ ε' (Option ε) :=
  handle (fun
    | .ok _ => .ok none
    | .error e => .ok (some e)) m

/-- `m` as part of a program with more exceptions. -/
def mapException (f : ε → ε') (m : Session R σ ε α) : Session R σ ε' α :=
  handle (Except.mapError f) m

/-- Visit all elements, also after an exception; the exceptions in their order. -/
def exceptions (f : β → Session R σ ε Unit) : List β → Session R σ ε' (List ε)
  | [] => pure []
  | x :: l => do
    let e ← caught (f x)
    let es ← exceptions f l
    pure (e.toList ++ es)

/-- Visit all elements and then throw the first exception, with the others as suppressed ones. -/
def forEachTry (l : List β) (f : β → Session R σ ε Unit) : Session R σ (ε × List ε) Unit := do
  match ← exceptions f l with
  | [] => pure ()
  | e :: es => throw (e, es)

/-- Execute a session on the variables and the state of the service. -/
def run (perform : (c : κ) → δ → R c × δ) (m : Session R σ ε α) : Fallible (σ × δ) ε α :=
  fun s =>
    let r := (m s.1).exec perform s.2
    (r.1.1, (r.1.2, r.2))

variable (perform : (c : κ) → δ → R c × δ)

@[simp]
theorem run_pure (a : α) : (pure a : Session R σ ε α).run perform = pure a := rfl

@[simp]
theorem run_throw (e : ε) : (throw e : Session R σ ε α).run perform = Fallible.throw e := rfl

@[simp]
theorem run_get : (get : Session R σ ε σ).run perform = fun s => (.ok s.1, s) := rfl

@[simp]
theorem run_modify (f : σ → σ) :
    (modify f : Session R σ ε Unit).run perform = Fallible.modify fun s => (f s.1, s.2) := rfl

@[simp]
theorem run_call (c : κ) :
    (call c : Session R σ ε (R c)).run perform =
      fun s => (.ok (perform c s.2).1, (s.1, (perform c s.2).2)) := rfl

/-- Executing a sequence executes its parts in turn. -/
@[simp]
theorem run_bind (m : Session R σ ε α) (f : α → Session R σ ε β) :
    (m >>= f).run perform = m.run perform >>= fun a => (f a).run perform := by
  funext ⟨s, d⟩
  simp only [run, Bind.bind, Calls.exec_bind]
  rcases (m s).exec perform d with ⟨⟨_ | a, s₁⟩, d₁⟩
  · rfl
  · rfl

/-- Executing a sequence whose first part returns. -/
theorem run_bind_of_ok {m : Session R σ ε α} {f : α → Session R σ ε β} {x y : σ × δ} {a : α}
    (h : m.run perform x = (.ok a, y)) : (m >>= f).run perform x = (f a).run perform y := by
  rw [run_bind]
  simp only [Bind.bind, h]

/-! ## Pre- and postconditions -/

/-- `Q` of a result and the state it leaves, `E` of an exception. -/
def Outcome (Q : α → σ → δ → Prop) (E : ε → σ → δ → Prop) : (Except ε α × σ) × δ → Prop
  | ((.ok a, s), d) => Q a s d
  | ((.error e, s), d) => E e s d

/-- Started where `P` holds and answered as accepted, `m` returns with `Q` or throws with `E`. -/
def Ensures (S : Service R δ) (P : σ → δ → Prop) (m : Session R σ ε α) (Q : α → σ → δ → Prop)
    (E : ε → σ → δ → Prop) : Prop :=
  ∀ s d, P s d → (m s).AllAccepted S d → Outcome Q E ((m s).exec S.perform d)

variable {S : Service R δ} {P P' : σ → δ → Prop} {Q Q' : α → σ → δ → Prop}
  {E E' : ε → σ → δ → Prop}

theorem ensures_pure (a : α) (h : ∀ s d, P s d → Q a s d) :
    Ensures S P (pure a : Session R σ ε α) Q E := fun s d hP _ => h s d hP

theorem ensures_throw (e : ε) (h : ∀ s d, P s d → E e s d) :
    Ensures S P (throw e : Session R σ ε α) Q E := fun s d hP _ => h s d hP

theorem ensures_get {Q : σ → σ → δ → Prop} (h : ∀ s d, P s d → Q s s d) :
    Ensures S P (get : Session R σ ε σ) Q E := fun s d hP _ => h s d hP

theorem ensures_modify (f : σ → σ) {Q : Unit → σ → δ → Prop} (h : ∀ s d, P s d → Q () (f s) d) :
    Ensures S P (modify f : Session R σ ε Unit) Q E := fun s d hP _ => h s d hP

theorem ensures_call (c : κ) {Q : R c → σ → δ → Prop}
    (h : ∀ s d, P s d → S.Accepts c (S.perform c d).1 →
      Q (S.perform c d).1 s (S.perform c d).2) :
    Ensures S P (call c : Session R σ ε (R c)) Q E := fun s d hP hall => h s d hP hall.1

/-- Sequential composition. -/
theorem ensures_bind {m : Session R σ ε α} {f : α → Session R σ ε β} {Q' : β → σ → δ → Prop}
    (hm : Ensures S P m Q E) (hf : ∀ a, Ensures S (Q a) (f a) Q' E) :
    Ensures S P (m >>= f) Q' E := by
  intro s d hP hall
  obtain ⟨hall₁, hall₂⟩ := (Calls.allAccepted_bind S (m s) _ d).mp hall
  have h₁ := hm s d hP hall₁
  show Outcome Q' E (((m s).bind _).exec S.perform d)
  rw [Calls.exec_bind]
  revert h₁ hall₂
  rcases (m s).exec S.perform d with ⟨⟨_ | a, s₁⟩, d₁⟩
  · intro _ h₁
    exact h₁
  · intro hall₂ h₁
    exact hf a s₁ d₁ h₁ hall₂

/-- The result or the exception is exchanged. -/
theorem ensures_handle {g : Except ε α → Except ε' β} {m : Session R σ ε α}
    {Q' : β → σ → δ → Prop} {E' : ε' → σ → δ → Prop}
    (hm : Ensures S P m (fun a s d => Outcome Q' E' ((g (.ok a), s), d))
      (fun e s d => Outcome Q' E' ((g (.error e), s), d))) : Ensures S P (handle g m) Q' E' := by
  intro s d hP hall
  have h₁ := hm s d hP ((Calls.allAccepted_bind S (m s) _ d).mp hall).1
  show Outcome Q' E' (((m s).bind _).exec S.perform d)
  rw [Calls.exec_bind]
  revert h₁
  rcases (m s).exec S.perform d with ⟨⟨_ | a, s₁⟩, d₁⟩
  · exact id
  · exact id

/-- A caught exception. -/
theorem ensures_attempt {m : Session R σ ε Unit} {Q : σ → δ → Prop}
    (hm : Ensures S P m (fun _ => Q) (fun _ => Q)) :
    Ensures S P (attempt m) (fun _ => Q) E :=
  ensures_handle (g := fun _ => .ok ()) hm

/-- A caught exception that is looked at. -/
theorem ensures_caught {m : Session R σ ε Unit} {Q : Option ε → σ → δ → Prop}
    {E' : ε' → σ → δ → Prop} (hm : Ensures S P m (fun _ => Q none) (fun e => Q (some e))) :
    Ensures S P (caught m) Q E' := ensures_handle hm

theorem ensures_mapException {f : ε → ε'} {m : Session R σ ε α} {E' : ε' → σ → δ → Prop}
    (hm : Ensures S P m Q (fun e => E' (f e))) : Ensures S P (mapException f m) Q E' :=
  ensures_handle hm

/-- Sessions that do the same where the precondition holds. -/
theorem ensures_congr {m m' : Session R σ ε α} (hm : ∀ s d, P s d → m s = m' s)
    (h : Ensures S P m' Q E) : Ensures S P m Q E := by
  intro s d hP
  rw [hm s d hP]
  exact h s d hP

/-- Weaken the conditions of a session. -/
theorem Ensures.of_imp {m : Session R σ ε α} (h : Ensures S P m Q E)
    (hP : ∀ s d, P' s d → P s d) (hQ : ∀ a s d, Q a s d → Q' a s d)
    (hE : ∀ e s d, E e s d → E' e s d) : Ensures S P' m Q' E' := by
  intro s d hs hall
  have h' := h s d (hP s d hs) hall
  revert h'
  rcases (m s).exec S.perform d with ⟨⟨e | a, s₁⟩, d₁⟩
  · exact hE e s₁ d₁
  · exact hQ a s₁ d₁

/-- A fact of the precondition that does not speak of the state. -/
theorem ensures_of_fact {m : Session R σ ε α} {fact : Prop} (h : fact → Ensures S P m Q E) :
    Ensures S (fun s d => fact ∧ P s d) m Q E := by
  rintro s d ⟨hfact, hP⟩
  exact h hfact s d hP

/-- A loop over a list: the invariant speaks of the elements already visited. -/
theorem ensures_forM {l : List β} {f : β → Session R σ ε Unit} {I : List β → σ → δ → Prop}
    (h : ∀ pre x post, l = pre ++ x :: post →
      Ensures S (I pre) (f x) (fun _ => I (pre ++ [x])) E) :
    Ensures S (I []) (l.forM f) (fun _ => I l) E := by
  suffices hrest : ∀ post pre, l = pre ++ post →
      Ensures S (I pre) (post.forM f) (fun _ => I l) E from hrest l [] rfl
  intro post
  induction post with
  | nil =>
    intro pre hl
    rw [List.append_nil] at hl
    rw [hl]
    exact ensures_pure () fun _ _ hI => hI
  | cons x post ih =>
    intro pre hl
    refine ensures_bind (h pre x post hl) fun _ => ih (pre ++ [x]) ?_
    rw [hl, List.append_assoc, List.singleton_append]

/-- A loop that goes on after an exception: the invariant speaks of the elements already visited and
of the exceptions so far. -/
theorem ensures_forEachTry {l : List β} {f : β → Session R σ ε Unit}
    {I : List β → List ε → σ → δ → Prop}
    (h : ∀ pre x post es, l = pre ++ x :: post →
      Ensures S (I pre es) (f x) (fun _ => I (pre ++ [x]) es)
        (fun e => I (pre ++ [x]) (es ++ [e]))) :
    Ensures S (I [] []) (forEachTry l f) (fun _ => I l []) (fun e => I l (e.1 :: e.2)) := by
  suffices hrest : ∀ post pre es, l = pre ++ post →
      Ensures S (I pre es) (exceptions f post) (fun es' => I l (es ++ es'))
        (fun e : ε × List ε => I l (e.1 :: e.2)) by
    refine ensures_bind (hrest l [] [] rfl) fun es => ?_
    cases es with
    | nil => exact ensures_pure () fun _ _ hI => hI
    | cons e es => exact ensures_throw (e, es) fun _ _ hI => hI
  intro post
  induction post with
  | nil =>
    intro pre es hl
    rw [List.append_nil] at hl
    rw [hl]
    exact ensures_pure [] fun _ _ hI => by rwa [List.append_nil]
  | cons x post ih =>
    intro pre es hl
    have hl' : l = (pre ++ [x]) ++ post := by rw [hl, List.append_assoc, List.singleton_append]
    refine ensures_bind (Q := fun e => I (pre ++ [x]) (es ++ e.toList))
      (ensures_caught ((h pre x post es hl).of_imp (fun _ _ hI => hI) (fun _ _ _ hI => ?_)
        (fun _ _ _ hI => hI))) fun e => ?_
    · simpa using hI
    · refine ensures_bind (ih (pre ++ [x]) (es ++ e.toList) hl') fun es' => ?_
      exact ensures_pure _ fun _ _ hI => by rwa [← List.append_assoc]

end Session

end Reactive
