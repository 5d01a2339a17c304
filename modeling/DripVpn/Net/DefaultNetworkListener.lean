import DripVpn.Foundations.Machine
import DripVpn.Foundations.LinkedMap
import Mathlib.Data.List.Chain
import Mathlib.Tactic.SplitIfs

/-!
# The default-network actor

`DefaultNetworkListener.networkActor` owns three variables (`listeners`, `network`,
`pendingRequests`) and processes one `NetworkMessage` at a time. `receive` is the body of its
loop; what a message makes the actor do to the outside (registering the platform callback,
invoking a listener, completing a `Get`) is recorded as a list of `Effect`s in program order.

The module introduces:

* `networkActor` — the actor as a reactive machine; a `Get` without listeners fails the
  `check` and kills the actor, so it has no step;
* `lastDelivered log k` — the last value handed to the listener of `k` since its own `Start`;
* `registrations log` — the calls of `register()` (`true`) and `unregister()` (`false`);
* `Consistent` — the joint invariant of listeners, requests and registration.

`consistent_of_run` shows the invariant for every run; the platform callback that feeds the
actor is modelled in `Net.NetworkCallback`.
-/

namespace DefaultNetworkListener

open Reactive

variable {Key Listener Network Response : Type}

/-- The messages of the actor. A `Get` carries the deferred `response` it asks to complete. -/
inductive NetworkMessage (Key Listener Network Response : Type) where
  | start (key : Key) (listener : Listener)
  | get (response : Response)
  | stop (key : Key)
  | put (network : Network)
  | update (network : Network)
  | lost (network : Network)
  deriving DecidableEq, Repr

/-- What processing a message does to the outside, in program order. `listen` records the
write of an entry of `listeners`. -/
inductive Effect (Key Listener Network Response : Type) where
  | register
  | unregister
  | listen (key : Key) (listener : Listener)
  | deliver (key : Key) (listener : Listener) (network : Option Network)
  | complete (response : Response) (network : Network)
  deriving DecidableEq, Repr

/-- The variables of the actor's loop. -/
structure ActorState (Key Listener Network Response : Type) where
  /-- The registered listeners by key, in insertion order. -/
  listeners : LinkedMap Key Listener
  /-- The current default network, `none` for `null`. -/
  network : Option Network
  /-- The `Get`s waiting for a network. -/
  pendingRequests : List Response

/-- The variables before the first message. -/
def ActorState.initial : ActorState Key Listener Network Response :=
  { listeners := LinkedMap.empty, network := none, pendingRequests := [] }

/-- `listeners.values.forEach { it(network) }`. -/
def notifyAll (listeners : LinkedMap Key Listener) (network : Option Network) :
    List (Effect Key Listener Network Response) :=
  listeners.entries.map fun e => .deliver e.1 e.2 network

variable [DecidableEq Key] [DecidableEq Network]

/-- The body of the actor's loop. `none` stands for the failed
`check(listeners.isNotEmpty())` of a `Get`, which ends the actor. -/
def receive (s : ActorState Key Listener Network Response) :
    NetworkMessage Key Listener Network Response →
      Option (ActorState Key Listener Network Response ×
        List (Effect Key Listener Network Response))
  | .start key listener =>
    some ({ s with listeners := s.listeners.put key listener },
      (if s.listeners.isEmpty then [.register] else []) ++ [.listen key listener] ++
        match s.network with
        | some n => [.deliver key listener (some n)]
        | none => [])
  | .get response =>
    -- the failed `check` throws out of the loop, and the actor is gone
    if s.listeners.isEmpty then none
    else match s.network with
      | none => some ({ s with pendingRequests := s.pendingRequests ++ [response] }, [])
      | some n => some (s, [.complete response n])
  | .stop key =>
    -- `listeners.remove(key) != null` is evaluated for its effect as well
    if s.listeners.isEmpty then some (s, [])
    else
      -- only the removal of the last key resets the network; the waiting requests stay
      let rest := s.listeners.remove key
      if s.listeners.containsKey key && rest.isEmpty then
        some ({ s with listeners := rest, network := none }, [.unregister])
      else some ({ s with listeners := rest }, [])
  -- the network is stored whether or not there are listeners
  | .put n =>
    some ({ s with network := some n, pendingRequests := [] },
      s.pendingRequests.map (fun r => .complete r n) ++ notifyAll s.listeners (some n))
  | .update n =>
    if s.network = some n then some (s, notifyAll s.listeners s.network) else some (s, [])
  | .lost n =>
    if s.network = some n then some ({ s with network := none }, notifyAll s.listeners none)
    else some (s, [])

/-- The actor as a reactive machine. -/
def networkActor : Machine (ActorState Key Listener Network Response)
    (NetworkMessage Key Listener Network Response)
    (Effect Key Listener Network Response) where
  init := ActorState.initial
  step := receive

/-! ## Reading the history -/

/-- One step of `lastDelivered`: a `Start` of the key forgets the past, a delivery to it
replaces the value. -/
def trackDelivery (k : Key) (last : Option Network) :
    Effect Key Listener Network Response → Option Network
  | .listen key _ => if key = k then none else last
  | .deliver key _ n => if key = k then n else last
  | _ => last

/-- The last value delivered to the listener registered under `k` since its own `Start`,
`none` when nothing was delivered (or the last delivery was `null`). -/
def lastDelivered (log : List (Effect Key Listener Network Response)) (k : Key) :
    Option Network :=
  log.foldl (trackDelivery k) none

omit [DecidableEq Key] [DecidableEq Network] in
/-- The call of `register()` (`true`) or `unregister()` (`false`) an effect stands for. -/
def Effect.registration : Effect Key Listener Network Response → Option Bool
  | .register => some true
  | .unregister => some false
  | _ => none

/-- The calls of `register()` and `unregister()` in order. -/
def registrations (log : List (Effect Key Listener Network Response)) : List Bool :=
  log.filterMap Effect.registration

/-- The request an effect completes. -/
def Effect.completed : Effect Key Listener Network Response → Option Response
  | .complete r _ => some r
  | _ => none

/-- The request a message brings. -/
def NetworkMessage.requested : NetworkMessage Key Listener Network Response → Option Response
  | .get r => some r
  | _ => none

/-! ## What one message does to each reading of the history -/

section Readings

omit [DecidableEq Network]

/-- Notifying all listeners leaves the value `network` with every registered key and does not
touch the others. -/
theorem foldl_trackDelivery_notifyAll (listeners : LinkedMap Key Listener)
    (network last : Option Network) (k : Key) :
    (notifyAll listeners network :
        List (Effect Key Listener Network Response)).foldl (trackDelivery k) last =
      if listeners.containsKey k then network else last := by
  -- generalise from the map to any list of entries, so that the induction goes through
  suffices h : ∀ (es : List (Key × Listener)) (last : Option Network),
      (es.map fun e => (.deliver e.1 e.2 network : Effect Key Listener Network Response)).foldl
        (trackDelivery k) last = if k ∈ es.map Prod.fst then network else last by
    rw [notifyAll, h]
    simp only [LinkedMap.containsKey, decide_eq_true_eq]
  intro es
  induction es with
  | nil => intro last; simp
  | cons e es ih =>
    intro last
    rw [List.map_cons, List.foldl_cons, ih, trackDelivery]
    by_cases hmem : k ∈ es.map Prod.fst
    · have hmem' : k ∈ (e :: es).map Prod.fst := List.mem_cons_of_mem _ hmem
      rw [if_pos hmem, if_pos hmem']
    · by_cases hk : e.1 = k
      · have hmem' : k ∈ (e :: es).map Prod.fst := by simp [hk]
        rw [if_neg hmem, if_pos hk, if_pos hmem']
      · have hnot : k ∉ (e :: es).map Prod.fst := by
          rw [List.map_cons, List.mem_cons, not_or]
          exact ⟨fun h => hk h.symm, hmem⟩
        rw [if_neg hmem, if_neg hk, if_neg hnot]

/-- The last delivery after a longer history. -/
theorem lastDelivered_append (log log' : List (Effect Key Listener Network Response))
    (k : Key) :
    lastDelivered (log ++ log') k = log'.foldl (trackDelivery k) (lastDelivered log k) :=
  List.foldl_append

omit [DecidableEq Key]

@[simp]
theorem registrations_append (log log' : List (Effect Key Listener Network Response)) :
    registrations (log ++ log') = registrations log ++ registrations log' :=
  List.filterMap_append

@[simp]
theorem registrations_nil :
    registrations ([] : List (Effect Key Listener Network Response)) = [] := rfl

/-- Notifying listeners neither registers nor unregisters the callback. -/
@[simp]
theorem registrations_notifyAll (listeners : LinkedMap Key Listener)
    (network : Option Network) :
    registrations (notifyAll listeners network :
      List (Effect Key Listener Network Response)) = [] := by
  simp [registrations, notifyAll, Effect.registration, Function.comp_def]

/-- Notifying listeners completes no request. -/
@[simp]
theorem completed_notifyAll (listeners : LinkedMap Key Listener)
    (network : Option Network) :
    (notifyAll listeners network : List (Effect Key Listener Network Response)).filterMap
      Effect.completed = [] := by
  simp [notifyAll, Effect.completed, Function.comp_def]

/-- Completing requests neither registers nor unregisters the callback. -/
@[simp]
theorem registrations_complete (rs : List Response) (n : Network) :
    registrations (rs.map fun r => (.complete r n : Effect Key Listener Network Response)) =
      [] := by
  simp [registrations, Effect.registration, Function.comp_def]

/-- Completing the requests `rs` completes exactly these. -/
@[simp]
theorem completed_complete (rs : List Response) (n : Network) :
    (rs.map fun r => (.complete r n : Effect Key Listener Network Response)).filterMap
      Effect.completed = rs := by
  simp [Effect.completed, Function.comp_def]

end Readings

/-! ## The joint invariant -/

/-- Agreement of the actor's variables with the messages it processed and the effects it had.
The callback counts as registered when the last call was `register()`. -/
structure Consistent [DecidableEq Response]
    (msgs : List (NetworkMessage Key Listener Network Response))
    (log : List (Effect Key Listener Network Response))
    (s : ActorState Key Listener Network Response) : Prop where
  /-- Every registered listener was last handed the current network. -/
  delivered : ∀ k l, (k, l) ∈ s.listeners.entries → lastDelivered log k = s.network
  /-- Requests wait only while there is no network. -/
  waiting : s.pendingRequests ≠ [] → s.network = none
  /-- Every processed request is waiting or completed, as often as it was processed. -/
  requests : ∀ r, (msgs.filterMap NetworkMessage.requested).count r =
    s.pendingRequests.count r + (log.filterMap Effect.completed).count r
  /-- The calls alternate, the first being `register()`. -/
  alternate : (false :: registrations log).IsChain (· ≠ ·)
  /-- The callback is registered exactly while there are listeners. -/
  registered : (registrations log).getLast? = some true ↔ s.listeners.entries ≠ []

omit [DecidableEq Network] in
/-- The invariant holds before the first message. -/
theorem consistent_initial [DecidableEq Response] :
    Consistent [] [] (ActorState.initial : ActorState Key Listener Network Response) where
  delivered := by intro k l h; cases h
  waiting := by intro h; exact absurd rfl h
  requests := by intro r; simp [ActorState.initial]
  alternate := List.isChain_singleton _
  registered := by simp [ActorState.initial]

section Preservation

variable {msgs : List (NetworkMessage Key Listener Network Response)}
  {log o : List (Effect Key Listener Network Response)}
  {s s' : ActorState Key Listener Network Response}
  {m : NetworkMessage Key Listener Network Response}

/-- One message keeps every registered listener in step with the current network: a listener
that just started is handed the network when there is one, the others are handed each change. -/
theorem delivered_receive (hstep : receive s m = some (s', o))
    (h : ∀ k l, (k, l) ∈ s.listeners.entries → lastDelivered log k = s.network) :
    ∀ k l, (k, l) ∈ s'.listeners.entries → lastDelivered (log ++ o) k = s'.network := by
  intro k l hmem
  rw [lastDelivered_append]
  cases m with
  | start key listener =>
    simp only [receive, Option.some.injEq, Prod.mk.injEq] at hstep
    obtain ⟨rfl, rfl⟩ := hstep
    -- registering the callback delivers nothing
    have hregister : ∀ b : Bool, (if b then [Effect.register] else
        ([] : List (Effect Key Listener Network Response))).foldl (trackDelivery k)
          (lastDelivered log k) = lastDelivered log k := by
      intro b
      cases b <;> rfl
    rw [List.foldl_append, List.foldl_append, hregister]
    rcases (LinkedMap.mem_put_iff _ _ _ _).mp hmem with heq | ⟨hne, hold⟩
    -- the listener that starts has no past: it is handed the network at once, if there is one
    · cases heq
      cases hn : s.network <;> simp [trackDelivery]
    -- the others are not touched by a `Start` of another key
    · have hne' : ¬ key = k := fun he => hne he.symm
      have hk := h k l hold
      cases hn : s.network <;> simp [trackDelivery, hne', hk, hn]
  | get response =>
    simp only [receive] at hstep
    split at hstep
    · cases hstep
    · split at hstep <;> cases hstep <;> exact h k l hmem
  | stop key =>
    simp only [receive] at hstep
    split at hstep
    · cases hstep
      exact h k l hmem
    · split at hstep
      next hlast =>
        -- the last listener left, so nobody is registered any more
        cases hstep
        rw [Bool.and_eq_true, LinkedMap.isEmpty_iff] at hlast
        rw [hlast.2] at hmem
        cases hmem
      next =>
        cases hstep
        exact h k l ((LinkedMap.mem_remove_iff _ _ _).mp hmem).2
  | put n =>
    cases hstep
    rw [List.foldl_append, foldl_trackDelivery_notifyAll,
      if_pos ((LinkedMap.containsKey_iff _ _).mpr ⟨l, hmem⟩)]
  | update n =>
    simp only [receive] at hstep
    split at hstep
    · cases hstep
      rw [foldl_trackDelivery_notifyAll,
        if_pos ((LinkedMap.containsKey_iff _ _).mpr ⟨l, hmem⟩)]
    · cases hstep
      exact h k l hmem
  | lost n =>
    simp only [receive] at hstep
    split at hstep
    · cases hstep
      rw [foldl_trackDelivery_notifyAll,
        if_pos ((LinkedMap.containsKey_iff _ _).mpr ⟨l, hmem⟩)]
    · cases hstep
      exact h k l hmem

/-- One message keeps requests from waiting while there is a network. -/
theorem waiting_receive (hstep : receive s m = some (s', o))
    (h : s.pendingRequests ≠ [] → s.network = none) :
    s'.pendingRequests ≠ [] → s'.network = none := by
  cases m with
  | start key listener =>
    cases hstep
    exact h
  | get response =>
    simp only [receive] at hstep
    split at hstep
    · cases hstep
    · split at hstep
      next hnone =>
        cases hstep
        -- a request waits because there is no network
        exact fun _ => hnone
      next =>
        cases hstep
        exact h
  | stop key =>
    simp only [receive] at hstep
    split at hstep
    · cases hstep
      exact h
    · split at hstep
      · cases hstep
        exact fun _ => rfl
      · cases hstep
        exact h
  | put n =>
    cases hstep
    intro hne
    exact absurd rfl hne
  | update n =>
    simp only [receive] at hstep
    split at hstep <;> cases hstep <;> exact h
  | lost n =>
    simp only [receive] at hstep
    split at hstep
    · cases hstep
      exact fun _ => rfl
    · cases hstep
      exact h

/-- One message neither loses nor duplicates a request. -/
theorem requests_receive [DecidableEq Response] (hstep : receive s m = some (s', o))
    (r : Response) :
    ([m].filterMap NetworkMessage.requested).count r + s.pendingRequests.count r =
      s'.pendingRequests.count r + (o.filterMap Effect.completed).count r := by
  cases m with
  | start key listener =>
    cases hstep
    cases s.listeners.isEmpty <;> cases s.network <;>
      simp [NetworkMessage.requested, Effect.completed, List.filterMap_cons]
  | get response =>
    simp only [receive] at hstep
    split at hstep
    · cases hstep
    · split at hstep
      · cases hstep
        simp [NetworkMessage.requested, Nat.add_comm]
      · cases hstep
        simp [NetworkMessage.requested, Effect.completed, Nat.add_comm]
  | stop key =>
    simp only [receive] at hstep
    split at hstep
    · cases hstep
      simp [NetworkMessage.requested, List.filterMap_cons]
    · split at hstep <;> cases hstep <;>
        simp [NetworkMessage.requested, Effect.completed, List.filterMap_cons]
  | put n =>
    cases hstep
    rw [List.filterMap_append, completed_complete, completed_notifyAll]
    simp [NetworkMessage.requested, List.filterMap_cons]
  | update n =>
    simp only [receive] at hstep
    split at hstep <;> cases hstep <;> simp [NetworkMessage.requested, List.filterMap_cons]
  | lost n =>
    simp only [receive] at hstep
    split at hstep <;> cases hstep <;> simp [NetworkMessage.requested, List.filterMap_cons]

/-- A request is completed with the network the actor holds after the same message. -/
theorem completed_receive (hstep : receive s m = some (s', o)) {r : Response} {n : Network}
    (hmem : .complete r n ∈ o) : s'.network = some n := by
  cases m with
  | start key listener =>
    cases hstep
    cases hn : s.network <;> cases hl : s.listeners.isEmpty <;> simp [hn, hl] at hmem
  | get response =>
    simp only [receive] at hstep
    split at hstep
    · cases hstep
    · split at hstep
      · cases hstep
        cases hmem
      next n' hn =>
        cases hstep
        simp only [List.mem_singleton, Effect.complete.injEq] at hmem
        -- answered at once, with the network of the moment
        rw [hn, hmem.2]
  | stop key =>
    simp only [receive] at hstep
    split at hstep
    · cases hstep
      cases hmem
    · split at hstep <;> cases hstep <;> simp at hmem
  | put n' =>
    cases hstep
    simp only [notifyAll, List.mem_append, List.mem_map, reduceCtorEq, and_false, exists_false,
      or_false, Effect.complete.injEq] at hmem
    obtain ⟨_, _, _, rfl⟩ := hmem
    rfl
  | update n' =>
    simp only [receive] at hstep
    split at hstep <;> cases hstep <;> simp [notifyAll] at hmem
  | lost n' =>
    simp only [receive] at hstep
    split at hstep <;> cases hstep <;> simp [notifyAll] at hmem

/-- What one message does to the platform callback: nothing, or a registration when the first
listener arrives, or an unregistration when the last one leaves. -/
theorem registrations_receive (hstep : receive s m = some (s', o)) :
    (registrations o = [] ∧ (s'.listeners.entries = [] ↔ s.listeners.entries = [])) ∨
    (registrations o = [true] ∧ s.listeners.entries = [] ∧ s'.listeners.entries ≠ []) ∨
    (registrations o = [false] ∧ s.listeners.entries ≠ [] ∧ s'.listeners.entries = []) := by
  cases m with
  | start key listener =>
    cases hstep
    by_cases hempty : s.listeners.entries = []
    · refine Or.inr (Or.inl ⟨?_, hempty, LinkedMap.put_entries_ne_nil _ _ _⟩)
      cases s.network <;> simp [LinkedMap.isEmpty, hempty, registrations, Effect.registration]
    · refine Or.inl ⟨?_, by simp [hempty]⟩
      cases s.network <;> simp [LinkedMap.isEmpty, hempty, registrations, Effect.registration]
  | get response =>
    simp only [receive] at hstep
    split at hstep
    · cases hstep
    · split at hstep <;> cases hstep <;>
        exact Or.inl ⟨by simp [registrations, Effect.registration], Iff.rfl⟩
  | stop key =>
    simp only [receive] at hstep
    split at hstep
    · cases hstep
      exact Or.inl ⟨rfl, Iff.rfl⟩
    next hne =>
      rw [LinkedMap.isEmpty_iff] at hne
      split at hstep
      next hlast =>
        cases hstep
        rw [Bool.and_eq_true, LinkedMap.isEmpty_iff] at hlast
        exact Or.inr (Or.inr ⟨rfl, hne, hlast.2⟩)
      next hlast =>
        cases hstep
        refine Or.inl ⟨rfl, ?_⟩
        -- either the key was absent, or other listeners remain
        rw [Bool.and_eq_true, LinkedMap.isEmpty_iff, not_and] at hlast
        cases hkey : s.listeners.containsKey key with
        | true => simp [hlast hkey, hne]
        | false => rw [LinkedMap.remove_of_not_containsKey hkey]
  | put n =>
    cases hstep
    exact Or.inl ⟨by simp, Iff.rfl⟩
  | update n =>
    simp only [receive] at hstep
    split at hstep <;> cases hstep <;> exact Or.inl ⟨by simp, Iff.rfl⟩
  | lost n =>
    simp only [receive] at hstep
    split at hstep <;> cases hstep <;> exact Or.inl ⟨by simp, Iff.rfl⟩

/-- The joint invariant survives every message. -/
theorem Consistent.receive [DecidableEq Response] (h : Consistent msgs log s)
    (hstep : receive s m = some (s', o)) : Consistent (msgs ++ [m]) (log ++ o) s' where
  delivered := delivered_receive hstep h.delivered
  waiting := waiting_receive hstep h.waiting
  requests := by
    intro r
    have hold := h.requests r
    have hnew := requests_receive hstep r
    simp only [List.filterMap_append, List.count_append]
    omega
  alternate := by
    have hlast := h.registered
    rcases registrations_receive hstep with ⟨ho, -⟩ | ⟨ho, hempty, -⟩ | ⟨ho, hne, -⟩
    · simpa [ho] using h.alternate
    -- a call was made: it has to differ from the call before it
    all_goals
      rw [registrations_append, ho, ← List.cons_append]
      refine h.alternate.append (List.isChain_singleton _) ?_
      intro x hx y hy
      rw [List.getLast?_cons, Option.mem_some_iff] at hx
      simp only [List.head?_cons, Option.mem_some_iff] at hy
      subst hy hx
    · -- no listener was registered, so the last call (if any) was `unregister()`
      cases hl : (registrations log).getLast? with
      | none => simp
      | some b =>
        cases b with
        | false => simp
        | true => exact absurd hempty (hlast.mp hl)
    · rw [hlast.mpr hne]
      simp
  registered := by
    rcases registrations_receive hstep with ⟨ho, hiff⟩ | ⟨ho, -, hne⟩ | ⟨ho, -, hempty⟩
    · rw [registrations_append, ho, List.append_nil, h.registered, not_iff_not, hiff]
    · simp [ho, hne]
    · simp [ho, hempty]

end Preservation

/-- The joint invariant holds after every run of the actor. -/
theorem consistent_of_run [DecidableEq Response]
    {msgs : List (NetworkMessage Key Listener Network Response)}
    {log : List (Effect Key Listener Network Response)}
    {s : ActorState Key Listener Network Response}
    (hrun : networkActor.run ActorState.initial msgs = some (s, log)) :
    Consistent msgs log s :=
  Machine.run_induction (M := networkActor) (P := Consistent) consistent_initial
    (fun _ _ _ _ _ _ _ h hstep => h.receive hstep) hrun

/-- For every sequence of messages the actor survives (no `Get` without listeners):
every registered listener was last handed the current network; requests wait only while there
is none; a request processed once is waiting once or was completed once, with the network of
the step that completed it; and registrations alternate, the callback being registered exactly
while there are listeners. -/
theorem networkActor_run_consistent [DecidableEq Response]
    {msgs : List (NetworkMessage Key Listener Network Response)}
    {log : List (Effect Key Listener Network Response)}
    {s : ActorState Key Listener Network Response}
    (hrun : networkActor.run ActorState.initial msgs = some (s, log)) :
    (∀ k l, (k, l) ∈ s.listeners.entries → lastDelivered log k = s.network) ∧
    (s.pendingRequests ≠ [] → s.network = none) ∧
    (∀ r, (msgs.filterMap NetworkMessage.requested).count r = 1 →
      (s.pendingRequests.count r = 1 ∧ (log.filterMap Effect.completed).count r = 0) ∨
      (s.pendingRequests.count r = 0 ∧ (log.filterMap Effect.completed).count r = 1)) ∧
    (∀ before m after s₁ log₁ s₂ o, msgs = before ++ m :: after →
      networkActor.run ActorState.initial before = some (s₁, log₁) →
      networkActor.step s₁ m = some (s₂, o) →
      ∀ r n, .complete r n ∈ o → s₂.network = some n) ∧
    (false :: registrations log).IsChain (· ≠ ·) ∧
    ((registrations log).getLast? = some true ↔ s.listeners.entries ≠ []) := by
  have h := consistent_of_run hrun
  refine ⟨h.delivered, h.waiting, ?_, ?_, h.alternate, h.registered⟩
  · intro r hr
    have hcount := h.requests r
    omega
  · intro before m after s₁ log₁ s₂ o _ _ hstep r n hmem
    exact completed_receive hstep hmem

/-- A run with two listeners, a request that waits and a network that comes and goes. -/
theorem networkActor_run_consistent_two_listeners :
    ∃ (s : ActorState ℕ Unit ℕ ℕ) (log : List (Effect ℕ Unit ℕ ℕ)),
      networkActor.run ActorState.initial
        [.start 1 (), .get 7, .put 5, .start 2 (), .lost 5, .stop 1] = some (s, log) ∧
      s.network = none ∧ lastDelivered log 2 = s.network ∧
      (log.filterMap Effect.completed).count 7 = 1 := by
  let s : ActorState ℕ Unit ℕ ℕ :=
    { listeners := ⟨[(2, ())], by decide⟩, network := none, pendingRequests := [] }
  let log : List (Effect ℕ Unit ℕ ℕ) :=
    [.register, .listen 1 (), .complete 7 5, .deliver 1 () (some 5), .listen 2 (),
      .deliver 2 () (some 5), .deliver 1 () none, .deliver 2 () none]
  have hrun : networkActor.run ActorState.initial
      [.start 1 (), .get 7, .put 5, .start 2 (), .lost 5, .stop 1] = some (s, log) := rfl
  obtain ⟨hdelivered, -, hrequests, -, -, -⟩ := networkActor_run_consistent hrun
  refine ⟨s, log, hrun, rfl, hdelivered 2 () (by decide), ?_⟩
  rcases hrequests 7 (by decide) with ⟨hpending, -⟩ | ⟨-, hdone⟩
  · exact absurd hpending (by decide)
  · exact hdone

end DefaultNetworkListener
