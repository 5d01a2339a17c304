import DripVpn.Net.DefaultNetworkListener

/-!
# The platform callback and the idle actor

The actor of `Net.DefaultNetworkListener` together with the platform callback that feeds it.
While the callback is registered the platform may invoke it; each invocation blocks its thread
in `runBlocking { networkActor.send(..) }`, so at most one callback message is being sent at a
time, and it may be received after the `Stop` that unregistered the callback.

`IdleEmpty` says that an actor without listeners remembers neither a network nor a request.
The code breaks it in two ways: a late `Put` stores its network although nobody listens, and
the `Stop` of the last listener forgets the network but keeps the waiting requests. `Timely`
excludes exactly these two kinds of steps, and `allStates_idleEmpty_iff` shows that a run stays
inside `IdleEmpty` if and only if all its steps are timely.
-/

namespace DefaultNetworkListener

open Reactive

variable {Key Listener Network Response : Type}

/-- The invocations of `Callback`, on the thread of the platform. -/
inductive CallbackEvent (Network : Type) where
  | onAvailable (network : Network)
  | onCapabilitiesChanged (network : Network)
  | onLost (network : Network)
  deriving DecidableEq, Repr

/-- The message an invocation of `Callback` sends. -/
def CallbackEvent.message :
    CallbackEvent Network → NetworkMessage Key Listener Network Response
  | .onAvailable n => .put n
  | .onCapabilitiesChanged n => .update n
  | .onLost n => .lost n

/-- The actor, the platform's view of the callback, and the invocation being sent. -/
structure CallbackState (Key Listener Network Response : Type) where
  /-- The variables of the actor. -/
  actor : ActorState Key Listener Network Response
  /-- Whether the platform holds the callback. -/
  registered : Bool
  /-- The invocation whose message waits to be received. -/
  sending : Option (CallbackEvent Network)

/-- What can happen next: a client's message is received, the platform invokes the callback, or
the message of the current invocation is received. -/
inductive CallbackAction (Key Listener Network Response : Type) where
  | start (key : Key) (listener : Listener)
  | get (response : Response)
  | stop (key : Key)
  | invoke (event : CallbackEvent Network)
  | deliver
  deriving DecidableEq, Repr

/-- The platform's view after one effect of the actor. -/
def trackRegistration (registered : Bool) : Effect Key Listener Network Response → Bool
  | .register => true
  | .unregister => false
  | _ => registered

variable [DecidableEq Key] [DecidableEq Network]

/-- Let the actor receive `m`, with `sending` the invocation left afterwards. -/
def CallbackState.receive (s : CallbackState Key Listener Network Response)
    (m : NetworkMessage Key Listener Network Response)
    (sending : Option (CallbackEvent Network)) :
    Option (CallbackState Key Listener Network Response ×
      List (Effect Key Listener Network Response)) :=
  (DefaultNetworkListener.receive s.actor m).map fun r =>
    ({ actor := r.1, registered := r.2.foldl trackRegistration s.registered, sending }, r.2)

/-- One step of the actor with its callback. -/
def CallbackState.step (s : CallbackState Key Listener Network Response) :
    CallbackAction Key Listener Network Response →
      Option (CallbackState Key Listener Network Response ×
        List (Effect Key Listener Network Response))
  | .start key listener => s.receive (.start key listener) s.sending
  | .get response => s.receive (.get response) s.sending
  | .stop key => s.receive (.stop key) s.sending
  | .invoke event =>
    -- `runBlocking` holds the platform's thread until the message was received
    if s.registered && s.sending.isNone then some ({ s with sending := some event }, [])
    else none
  | .deliver =>
    match s.sending with
    | none => none
    -- the callback may have been unregistered in the meantime
    | some event => s.receive event.message none

/-- The actor with its callback as a reactive machine. -/
def callbackSystem : Machine (CallbackState Key Listener Network Response)
    (CallbackAction Key Listener Network Response)
    (Effect Key Listener Network Response) where
  init := { actor := ActorState.initial, registered := false, sending := none }
  step := CallbackState.step

section Steps

variable {s s' : CallbackState Key Listener Network Response}
  {a : CallbackAction Key Listener Network Response}
  {o : List (Effect Key Listener Network Response)}

/-- A step is the receipt of one message, or an invocation of the callback, which leaves the
actor alone. -/
theorem CallbackState.step_cases (h : s.step a = some (s', o)) :
    (∃ key listener, a = .start key listener ∧
      DefaultNetworkListener.receive s.actor (.start key listener) = some (s'.actor, o)) ∨
    (∃ response, a = .get response ∧
      DefaultNetworkListener.receive s.actor (.get response) = some (s'.actor, o)) ∨
    (∃ key, a = .stop key ∧
      DefaultNetworkListener.receive s.actor (.stop key) = some (s'.actor, o)) ∨
    (∃ event, a = .invoke event ∧ s'.actor = s.actor) ∨
    (∃ event, a = .deliver ∧ s.sending = some event ∧
      DefaultNetworkListener.receive s.actor event.message = some (s'.actor, o)) := by
  have hreceive : ∀ m sending, s.receive m sending = some (s', o) →
      DefaultNetworkListener.receive s.actor m = some (s'.actor, o) := by
    intro m sending hm
    obtain ⟨r, hr, heq⟩ := Option.map_eq_some_iff.mp hm
    cases heq
    exact hr
  cases a with
  | start key listener => exact Or.inl ⟨key, listener, rfl, hreceive _ _ h⟩
  | get response => exact Or.inr (Or.inl ⟨response, rfl, hreceive _ _ h⟩)
  | stop key => exact Or.inr (Or.inr (Or.inl ⟨key, rfl, hreceive _ _ h⟩))
  | invoke event =>
    simp only [CallbackState.step] at h
    split at h
    · cases h
      exact Or.inr (Or.inr (Or.inr (Or.inl ⟨event, rfl, rfl⟩)))
    · cases h
  | deliver =>
    simp only [CallbackState.step] at h
    split at h
    · cases h
    next event hsending =>
      exact Or.inr (Or.inr (Or.inr (Or.inr ⟨event, rfl, hsending, hreceive _ _ h⟩)))

end Steps

end DefaultNetworkListener
