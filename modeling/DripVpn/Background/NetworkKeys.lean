import DripVpn.Background.Lifecycle
import DripVpn.Net.NetworkCallback

/-!
# The keys under which services listen for networks

Any number of services share the actor of `DefaultNetworkListener`. A service registers from
`preInit`, where `this` is the service, and deregisters from a coroutine that `killProcesses`
launches. Inside the block given to `launch`, `this` is the coroutine, so the key of the `Stop` is
never one that was registered, and the actor ignores it.

The machine `fleet` runs the services of `Background.BaseService` against the actor and its
platform callback of `Net.NetworkCallback`. `Listening` is the invariant this leads to: the keys of
the actor are exactly the services whose `Start` it ever received. So a stopped service is deaf
(`Deaf`) exactly when its `Start` was never received, see `stopped_deaf_iff`.
-/

open Reactive BaseService DefaultNetworkListener

namespace NetworkKeys

/-- The objects passed as keys, with the number of the service they belong to. -/
abbrev Key := ℕ × This

variable {Network Response : Type}

/-- The message the actor receives when service `i` has the effect. The listener of a service
assigns its `underlyingNetwork` and is named by the service. -/
def message (i : ℕ) : ServiceEffect → Option (NetworkMessage Key ℕ Network Response)
  | .startListener key => some (.start (i, key) i)
  | .stopListener key => some (.stop (i, key))
  | _ => none

/-- The services, and the actor with its callback. -/
structure Fleet (Network Response : Type) where
  services : ℕ → Service
  net : CallbackState Key ℕ Network Response

/-- What can happen next: a service moves on, a `Get` is received, or the platform invokes the
callback. -/
inductive FleetAction (Network Response : Type) where
  | service (i : ℕ) (a : Service.Action)
  | get (response : Response)
  | invoke (event : CallbackEvent Network)
  | deliver

section Model

variable [DecidableEq Network]

/-- Let the actor receive a list of messages. -/
def receiveAll (net : CallbackState Key ℕ Network Response) :
    List (NetworkMessage Key ℕ Network Response) →
      Option (CallbackState Key ℕ Network Response × List (Effect Key ℕ Network Response))
  | [] => some (net, [])
  | m :: ms =>
    (net.receive m net.sending).bind fun r =>
      (receiveAll r.1 ms).map fun r' => (r'.1, r.2 ++ r'.2)

/-- One step of the services and the actor; observed are the effects of the actor. -/
def Fleet.step (s : Fleet Network Response) :
    FleetAction Network Response →
      Option (Fleet Network Response × List (Effect Key ℕ Network Response))
  | .service i a =>
    -- the messages of a service are received in the step in which the actor takes them
    ((s.services i).step a).bind fun r =>
      (receiveAll s.net (r.2.filterMap (message i))).map fun r' =>
        ({ services := fun j => if j = i then r.1 else s.services j, net := r'.1 }, r'.2)
  | .get response => (s.net.step (.get response)).map fun r => ({ s with net := r.1 }, r.2)
  | .invoke event => (s.net.step (.invoke event)).map fun r => ({ s with net := r.1 }, r.2)
  | .deliver => (s.net.step .deliver).map fun r => ({ s with net := r.1 }, r.2)

/-- The services, none of them started yet, with their actor. -/
def fleet : Machine (Fleet Network Response) (FleetAction Network Response)
    (Effect Key ℕ Network Response) where
  init := { services := fun _ => service.init, net := callbackSystem.init }
  step := Fleet.step

end Model

/-- The actor receives the `Start` of service `i` in one of the actions. -/
def StartedIn (i : ℕ) (as : List (FleetAction Network Response)) : Prop :=
  ∃ id, .service i (.startReceived id) ∈ as

/-- Service `i` does not listen: its key is not registered, and until the actor receives a `Start`
of it again its listener is not invoked. -/
structure Deaf [DecidableEq Network] (i : ℕ) (s : Fleet Network Response) : Prop where
  not_registered : s.net.actor.listeners.containsKey (i, .service) = false
  not_invoked : ∀ bs s' os, fleet.run s bs = some (s', os) → ¬ StartedIn i bs →
    ∀ key network, .deliver key i network ∉ os

/-! ## The messages of a service -/

/-- No effect is a message to the actor. -/
def Silent (o : List ServiceEffect) : Prop :=
  ∀ key, .startListener key ∉ o ∧ .stopListener key ∉ o

section Messages

variable {d d' : Service} {o : List ServiceEffect} {a : Service.Action}

theorem silent_nil : Silent [] := fun _ => by simp

/-- Effects one after the other. -/
theorem Silent.append {o' : List ServiceEffect} (h : Silent o) (h' : Silent o') :
    Silent (o ++ o') := by
  intro key
  simp [h key, h' key]

/-- A change of the state sends nothing. -/
theorem silent_changeState (d : Service) (s : State) (msg : Option String) :
    Silent (d.changeState s msg).2 := by
  unfold Service.changeState
  split
  · exact silent_nil
  · intro key
    simp

/-- A stop request sends nothing yet. -/
theorem silent_stopRunner (d : Service) (restart : Bool) (msg : Option String) :
    Silent (d.stopRunner restart msg).2 := by
  unfold Service.stopRunner
  split
  · exact silent_nil
  · have hreport := silent_changeState d .stopping none
    dsimp only
    split
    · exact hreport
    -- the clean-up launches the coroutine of the `Stop`, which the actor receives later
    · exact hreport.append fun key => by simp [Service.cleanUp]

/-- A reload sends nothing yet. -/
theorem silent_forceLoad (d : Service) : Silent d.forceLoad.2 := by
  unfold Service.forceLoad
  split
  · intro key
    simp [Service.startRunner]
  · split
    · exact silent_stopRunner d true none
    · exact silent_nil

/-- A start command sends nothing yet: `preInit` runs in the connecting job. -/
theorem silent_onStartCommand (d : Service) (env : Service.StartEnv) :
    Silent (d.onStartCommand env).2 := by
  unfold Service.onStartCommand
  split
  · unfold Service.onStartCommandInterface
    split
    · exact silent_nil
    · split
      · exact silent_stopRunner _ _ _
      · split
        · exact silent_stopRunner _ _ _
        · split
          · exact silent_stopRunner _ _ _
          · exact silent_changeState _ _ _
  · exact silent_stopRunner d false none

/-- The end of a connecting job sends nothing. -/
theorem silent_failConnecting (d : Service) (id : ℕ) (e : Throwable) :
    Silent (d.failConnecting id e).2 := by
  cases e with
  | cancellation => exact silent_nil
  | exception readableMessage => exact silent_stopRunner d false _

/-- A connecting job sends its `Start` only where it is suspended in `preInit`. -/
theorem silent_resumeJob {job : ConnectingJob} {env : Service.BodyEnv}
    {resumption : Service.Resumption} (h : d.resumeJob job env resumption = some (d', o)) :
    Silent o := by
  cases resumption with
  | cancelled =>
    simp only [Service.resumeJob] at h
    split at h
    · exact absurd h (by simp)
    · split at h
      · obtain ⟨-, rfl⟩ := Prod.mk.inj (Option.some.inj h)
        exact silent_nil
      · obtain ⟨-, rfl⟩ := Prod.mk.inj (Option.some.inj h)
        exact silent_nil
  | throws e =>
    simp only [Service.resumeJob] at h
    split at h
    · exact absurd h (by simp)
    · have hsilent := silent_failConnecting d job.id e
      rw [Option.some.inj h] at hsilent
      exact hsilent
  | returns =>
    simp only [Service.resumeJob] at h
    split at h
    · exact absurd h (by simp)
    -- between two suspension points the job reports at most a change of the state
    · have hsilent : Silent (d.runBody job env).2 := by
        unfold Service.runBody
        split
        · exact silent_nil
        · exact silent_changeState _ _ _
        · exact silent_failConnecting _ _ _
      rw [Option.some.inj h] at hsilent
      exact hsilent

/-- A stop job sends its `Stop` only from the coroutine it launched. -/
theorem silent_resumeStopJob {i : ℕ} {job : StopJob} (h : d.resumeStopJob i job = some (d', o)) :
    Silent o := by
  simp only [Service.resumeStopJob] at h
  split at h
  · split at h
    · exact absurd h (by simp)
    · obtain ⟨-, rfl⟩ := Prod.mk.inj (Option.some.inj h)
      intro key
      simp [Service.cleanUp]
  · split at h
    · have hsilent : ∀ d : Service, Silent (d.finishStop job).2 := by
        intro d
        unfold Service.finishStop
        dsimp only
        split
        · exact (silent_changeState _ _ _).append fun key => by simp [Service.startRunner]
        · exact (silent_changeState _ _ _).append fun key => by simp
      have hout := hsilent { d with stopJobs := d.stopJobs.eraseIdx i }
      rw [Option.some.inj h] at hout
      exact hout
    · exact absurd h (by simp)

/-- All a service ever sends: `Start` with itself as the key, and `Stop` with a coroutine. -/
theorem effects_cases (hstep : d.step a = some (d', o)) :
    Silent o ∧ (∀ id, a ≠ .startReceived id) ∨
      (∃ id, a = .startReceived id) ∧ o = [.startListener .service] ∨
      (∀ id, a ≠ .startReceived id) ∧ ∃ n, o = [.stopListener (.coroutine n)] := by
  -- two actions are receipts by the actor, all others are silent
  cases a with
  | startReceived id =>
    right; left
    simp only [Service.step] at hstep
    split at hstep
    · simp only [Option.ite_none_right_eq_some, Option.some.injEq, Prod.mk.injEq] at hstep
      exact ⟨⟨id, rfl⟩, hstep.2.2.symm⟩
    · exact absurd hstep (by simp)
  | stopReceived i =>
    right; right
    obtain ⟨job, -, hreceive⟩ := Option.bind_eq_some_iff.mp hstep
    simp only [Service.receiveStop] at hreceive
    split at hreceive
    next n _ => exact ⟨by simp, n, (Prod.mk.inj (Option.some.inj hreceive)).2.symm⟩
    next => exact absurd hreceive (by simp)
  | startService =>
    obtain ⟨-, rfl⟩ := Prod.mk.inj (Option.some.inj hstep)
    exact .inl ⟨silent_nil, by simp⟩
  | onStartCommand env =>
    simp only [Service.step, Option.ite_none_left_eq_some, Option.some.injEq] at hstep
    have hsilent := silent_onStartCommand { d with intents := d.intents - 1 } env
    rw [hstep.2] at hsilent
    exact .inl ⟨hsilent, by simp⟩
  | close =>
    simp only [Service.step, Option.ite_none_right_eq_some, Option.some.injEq] at hstep
    have hsilent := silent_stopRunner d false none
    rw [hstep.2] at hsilent
    exact .inl ⟨hsilent, by simp⟩
  | reload =>
    simp only [Service.step, Option.ite_none_right_eq_some, Option.some.injEq] at hstep
    have hsilent := silent_forceLoad d
    rw [hstep.2] at hsilent
    exact .inl ⟨hsilent, by simp⟩
  | shutdown =>
    simp only [Service.step, Option.ite_none_right_eq_some, Option.some.injEq,
      Prod.mk.injEq] at hstep
    obtain ⟨-, -, rfl⟩ := hstep
    exact .inl ⟨fun key => by simp, by simp⟩
  | onRevoke =>
    have hsilent := silent_stopRunner d false none
    rw [Option.some.inj hstep] at hsilent
    exact .inl ⟨hsilent, by simp⟩
  | onFatal readableMessage =>
    have hsilent := silent_stopRunner d false (some readableMessage)
    rw [Option.some.inj hstep] at hsilent
    exact .inl ⟨hsilent, by simp⟩
  | restartCallbackFails msg =>
    have hsilent := silent_stopRunner d false msg
    rw [Option.some.inj hstep] at hsilent
    exact .inl ⟨hsilent, by simp⟩
  | resumeConnecting id resumption env =>
    simp only [Service.step] at hstep
    split at hstep
    · exact .inl ⟨silent_resumeJob hstep, by simp⟩
    · exact absurd hstep (by simp)
  | resumeStop i =>
    obtain ⟨job, -, hresume⟩ := Option.bind_eq_some_iff.mp hstep
    exact .inl ⟨silent_resumeStopJob hresume, by simp⟩

/-- A silent service sends no message. -/
theorem Silent.messages_eq_nil (h : Silent o) (i : ℕ) :
    o.filterMap (message i : ServiceEffect → Option (NetworkMessage Key ℕ Network Response)) =
      [] := by
  rw [List.filterMap_eq_nil_iff]
  intro e he
  cases e with
  | startListener key => exact absurd he (h key).1
  | stopListener key => exact absurd he (h key).2
  | _ => rfl

end Messages

/-! ## What a step does to the listeners -/

section Steps

variable [DecidableEq Network] {net net' : CallbackState Key ℕ Network Response}
  {sending : Option (CallbackEvent Network)} {e : List (Effect Key ℕ Network Response)}

omit [DecidableEq Network] in
/-- Notifying all listeners and completing requests does not register the callback. -/
theorem foldl_trackRegistration_of_forall (registered : Bool)
    (h : ∀ x ∈ e, x ≠ .register ∧ x ≠ .unregister) :
    e.foldl trackRegistration registered = registered := by
  induction e generalizing registered with
  | nil => rfl
  | cons x e ih =>
    rw [List.foldl_cons, ih _ fun y hy => h y (List.mem_cons_of_mem x hy)]
    have hx := h x List.mem_cons_self
    cases x <;> simp_all [trackRegistration]

omit [DecidableEq Network] in
/-- The listeners are notified, and nobody else. -/
theorem deliver_mem_notifyAll {listeners : LinkedMap Key ℕ} {network network' : Option Network}
    {key : Key} {l : ℕ}
    (h : (.deliver key l network' : Effect Key ℕ Network Response) ∈ notifyAll listeners network) :
    (key, l) ∈ listeners.entries := by
  obtain ⟨entry, hentry, heq⟩ := List.mem_map.mp h
  obtain ⟨rfl, rfl, -⟩ := Effect.deliver.inj heq
  exact hentry

/-- A message that is neither `Start` nor `Stop` leaves the listeners and the registration alone
and is delivered to registered listeners only. -/
theorem receive_other {m : NetworkMessage Key ℕ Network Response}
    (h : net.receive m sending = some (net', e)) (hstart : ∀ key l, m ≠ .start key l)
    (hstop : ∀ key, m ≠ .stop key) :
    net'.actor.listeners = net.actor.listeners ∧ net'.registered = net.registered ∧
      ∀ key l n, .deliver key l n ∈ e → (key, l) ∈ net.actor.listeners.entries := by
  obtain ⟨⟨actor, o⟩, hr, heq⟩ := Option.map_eq_some_iff.mp h
  obtain ⟨rfl, rfl⟩ := Prod.mk.inj heq
  -- every branch returns the same listeners; its effects are completions and notifications
  suffices hkey : actor.listeners = net.actor.listeners ∧
      (∀ x ∈ o, x ≠ .register ∧ x ≠ .unregister) ∧
      ∀ key l n, .deliver key l n ∈ o → (key, l) ∈ net.actor.listeners.entries by
    exact ⟨hkey.1, foldl_trackRegistration_of_forall _ hkey.2.1, hkey.2.2⟩
  cases m with
  | start key l => exact absurd rfl (hstart key l)
  | stop key => exact absurd rfl (hstop key)
  | get response =>
    simp only [receive] at hr
    split_ifs at hr
    split at hr
    · obtain ⟨rfl, rfl⟩ := Prod.mk.inj (Option.some.inj hr)
      simp
    · obtain ⟨rfl, rfl⟩ := Prod.mk.inj (Option.some.inj hr)
      simp
  | put n =>
    obtain ⟨rfl, rfl⟩ := Prod.mk.inj (Option.some.inj hr)
    refine ⟨rfl, ?_, ?_⟩
    · intro x hx
      rcases List.mem_append.mp hx with hx | hx
      · obtain ⟨r, -, rfl⟩ := List.mem_map.mp hx
        simp
      · obtain ⟨entry, -, rfl⟩ := List.mem_map.mp hx
        simp
    · intro key l n' hx
      rcases List.mem_append.mp hx with hx | hx
      · obtain ⟨r, -, heq⟩ := List.mem_map.mp hx
        exact absurd heq (by simp)
      · exact deliver_mem_notifyAll hx
  | update n | lost n =>
    simp only [receive] at hr
    split_ifs at hr
    · obtain ⟨rfl, rfl⟩ := Prod.mk.inj (Option.some.inj hr)
      refine ⟨rfl, ?_, fun key l n' hx => deliver_mem_notifyAll hx⟩
      intro x hx
      obtain ⟨entry, -, rfl⟩ := List.mem_map.mp hx
      simp
    · obtain ⟨rfl, rfl⟩ := Prod.mk.inj (Option.some.inj hr)
      simp

/-- A `Start` registers its listener, and the callback with the first one. -/
theorem receive_start {key : Key} {l : ℕ}
    (h : net.receive (.start key l) sending = some (net', e)) :
    net'.actor.listeners = net.actor.listeners.put key l ∧
      net'.registered = (net.actor.listeners.isEmpty || net.registered) ∧
      ∀ key' l' n, .deliver key' l' n ∈ e → l' = l := by
  obtain ⟨rfl, rfl⟩ := Prod.mk.inj (Option.some.inj h)
  refine ⟨rfl, ?_, ?_⟩
  · cases net.actor.listeners.isEmpty <;> cases net.actor.network <;> simp [trackRegistration]
  -- of the three groups of effects only the last one delivers, and to the new listener
  · intro key' l' n hmem
    rcases List.mem_append.mp hmem with hmem | hmem
    · rcases List.mem_append.mp hmem with hmem | hmem
      · split at hmem <;> simp at hmem
      · simp at hmem
    · split at hmem
      · exact (Effect.deliver.inj (List.mem_singleton.mp hmem)).2.1
      · simp at hmem

/-- A `Stop` with an unknown key is ignored. -/
theorem receive_stop_of_unknown {key : Key}
    (hkey : net.actor.listeners.containsKey key = false) :
    net.receive (.stop key) sending = some ({ net with sending }, []) := by
  have hrest := LinkedMap.remove_of_not_containsKey hkey
  simp [CallbackState.receive, receive, hkey, hrest]

variable {s s' : Fleet Network Response} {a : FleetAction Network Response}

/-- Only services are registered, each with its own listener. -/
def ServiceKeys (s : Fleet Network Response) : Prop :=
  ∀ entry ∈ s.net.actor.listeners.entries, entry.1 = (entry.2, .service)

/-- The step leaves the listeners and the registration alone and delivers to registered listeners
only. -/
structure StepNet (s s' : Fleet Network Response) (e : List (Effect Key ℕ Network Response)) :
    Prop where
  listeners : s'.net.actor.listeners = s.net.actor.listeners
  registered : s'.net.registered = s.net.registered
  delivered : ∀ key l n, .deliver key l n ∈ e → (key, l) ∈ s.net.actor.listeners.entries

/-- Only the `Start` of a service changes the listeners: the `Stop`s are ignored. -/
theorem Fleet.step_cases (hkeys : ServiceKeys s) (hstep : s.step a = some (s', e)) :
    (∃ i id, a = .service i (.startReceived id) ∧
      s'.net.actor.listeners = s.net.actor.listeners.put (i, .service) i ∧
      s'.net.registered = (s.net.actor.listeners.isEmpty || s.net.registered) ∧
      ∀ key l n, .deliver key l n ∈ e → l = i) ∨
    ((∀ i id, a ≠ .service i (.startReceived id)) ∧ StepNet s s' e) := by
  cases a with
  | service i a =>
    obtain ⟨⟨d, o⟩, hd, hr⟩ := Option.bind_eq_some_iff.mp hstep
    obtain ⟨⟨net, e'⟩, hnet, heq⟩ := Option.map_eq_some_iff.mp hr
    obtain ⟨rfl, rfl⟩ := Prod.mk.inj heq
    rcases effects_cases hd with ⟨hsilent, hne⟩ | ⟨⟨id, rfl⟩, rfl⟩ | ⟨hne, n, rfl⟩
    · right
      rw [hsilent.messages_eq_nil] at hnet
      obtain ⟨rfl, rfl⟩ := Prod.mk.inj (Option.some.inj hnet)
      exact ⟨fun j id h => hne id (FleetAction.service.inj h).2, rfl, rfl, by simp⟩
    · left
      simp only [List.filterMap_cons, message, List.filterMap_nil, receiveAll,
        Option.bind_eq_some_iff, Option.map_eq_some_iff, Option.some.injEq] at hnet
      obtain ⟨⟨net₁, e₁⟩, hreceive, -, rfl, heq⟩ := hnet
      obtain ⟨rfl, rfl⟩ := Prod.mk.inj heq
      obtain ⟨hl, hreg, hdel⟩ := receive_start hreceive
      exact ⟨i, id, rfl, hl, hreg, by simpa using hdel⟩
    · right
      -- the key of the `Stop` is a coroutine, and only services are registered
      have hunknown : s.net.actor.listeners.containsKey (i, .coroutine n) = false := by
        rw [Bool.eq_false_iff, ne_eq, LinkedMap.containsKey_iff]
        rintro ⟨l, hl⟩
        exact absurd (hkeys _ hl) (by simp)
      simp only [List.filterMap_cons, message, List.filterMap_nil, receiveAll,
        receive_stop_of_unknown hunknown, Option.bind_some, Option.map_some,
        Option.some.injEq] at hnet
      obtain ⟨rfl, rfl⟩ := Prod.mk.inj hnet
      exact ⟨fun j id h => hne id (FleetAction.service.inj h).2, rfl, rfl, by simp⟩
  | get response =>
    right
    obtain ⟨⟨net, e'⟩, hnet, heq⟩ := Option.map_eq_some_iff.mp hstep
    obtain ⟨rfl, rfl⟩ := Prod.mk.inj heq
    obtain ⟨hl, hreg, hdel⟩ := receive_other hnet (by simp) (by simp)
    exact ⟨by simp, hl, hreg, hdel⟩
  | invoke event =>
    right
    obtain ⟨⟨net, e'⟩, hnet, heq⟩ := Option.map_eq_some_iff.mp hstep
    obtain ⟨rfl, rfl⟩ := Prod.mk.inj heq
    simp only [CallbackState.step, Option.ite_none_right_eq_some, Option.some.injEq,
      Prod.mk.injEq] at hnet
    obtain ⟨-, rfl, rfl⟩ := hnet
    exact ⟨by simp, rfl, rfl, by simp⟩
  | deliver =>
    right
    obtain ⟨⟨net, e'⟩, hnet, heq⟩ := Option.map_eq_some_iff.mp hstep
    obtain ⟨rfl, rfl⟩ := Prod.mk.inj heq
    simp only [CallbackState.step] at hnet
    split at hnet
    · exact absurd hnet (by simp)
    next event _ =>
      obtain ⟨hl, hreg, hdel⟩ := receive_other hnet
        (by cases event <;> simp [CallbackEvent.message])
        (by cases event <;> simp [CallbackEvent.message])
      exact ⟨by simp, hl, hreg, hdel⟩

/-- Coroutines never become keys. -/
theorem ServiceKeys.step (hkeys : ServiceKeys s) (hstep : s.step a = some (s', e)) :
    ServiceKeys s' := by
  intro entry hentry
  rcases Fleet.step_cases hkeys hstep with ⟨i, id, -, hl, -⟩ | ⟨-, hl, -⟩
  · rw [hl, LinkedMap.mem_put_iff] at hentry
    rcases hentry with rfl | ⟨-, hentry⟩
    · rfl
    · exact hkeys entry hentry
  · rw [hl] at hentry
    exact hkeys entry hentry

/-- The listener of service `i` is registered under no key. -/
structure Unheard (i : ℕ) (s : Fleet Network Response) : Prop where
  keys : ServiceKeys s
  absent : ∀ key, (key, i) ∉ s.net.actor.listeners.entries

/-- Without a `Start` of the service, its listener stays unregistered and is not invoked. -/
theorem Unheard.step {i : ℕ} (h : Unheard i s) (ha : ∀ id, a ≠ .service i (.startReceived id))
    (hstep : s.step a = some (s', e)) :
    Unheard i s' ∧ ∀ x ∈ e, ∀ key n, x ≠ .deliver key i n := by
  rcases Fleet.step_cases h.keys hstep with ⟨j, id, rfl, hl, -, hdel⟩ | ⟨-, hl, -, hdel⟩
  · have hij : i ≠ j := by
      rintro rfl
      exact ha id rfl
    refine ⟨⟨h.keys.step hstep, ?_⟩, ?_⟩
    · intro key hkey
      rw [hl, LinkedMap.mem_put_iff] at hkey
      rcases hkey with heq | ⟨-, hkey⟩
      · exact hij (Prod.mk.inj heq).2
      · exact h.absent key hkey
    · rintro x hx key n rfl
      exact hij (hdel key i n hx)
  · refine ⟨⟨h.keys.step hstep, by rw [hl]; exact h.absent⟩, ?_⟩
    rintro x hx key n rfl
    exact h.absent key (hdel key i n hx)

end Steps

/-! ## Whole runs -/

section Runs

variable [DecidableEq Network] {s s' : Fleet Network Response}
  {as : List (FleetAction Network Response)} {os : List (Effect Key ℕ Network Response)}

/-- Who listens after the actions `as`: the keys are services, each with its own listener, namely
those whose `Start` was received, and the callback is registered while there are any. -/
structure Listening (as : List (FleetAction Network Response)) (s : Fleet Network Response) :
    Prop where
  keys : ServiceKeys s
  containsKey_iff : ∀ i, s.net.actor.listeners.containsKey (i, .service) = true ↔ StartedIn i as
  registered_iff : s.net.registered = true ↔ s.net.actor.listeners.entries ≠ []

/-- Before anything happened nobody listens. -/
theorem listening_init : Listening [] (fleet : Machine (Fleet Network Response) _ _).init where
  keys := by simp [ServiceKeys, fleet, callbackSystem, ActorState.initial]
  containsKey_iff i := by
    simp [fleet, callbackSystem, ActorState.initial, StartedIn, LinkedMap.containsKey]
  registered_iff := by simp [fleet, callbackSystem, ActorState.initial]

/-- One more step. -/
theorem Listening.step (h : Listening as s) {a : FleetAction Network Response}
    {o : List (Effect Key ℕ Network Response)} (hstep : s.step a = some (s', o)) :
    Listening (as ++ [a]) s' := by
  rcases Fleet.step_cases h.keys hstep with ⟨i, id, rfl, hl, hreg, -⟩ | ⟨hne, hl, hreg, -⟩
  · -- the `Start` of service `i`
    refine ⟨h.keys.step hstep, ?_, ?_⟩
    · intro j
      have hput : (s.net.actor.listeners.put (i, .service) i).containsKey (j, .service) = true ↔
          j = i ∨ s.net.actor.listeners.containsKey (j, .service) = true := by
        simp only [LinkedMap.containsKey_iff, LinkedMap.mem_put_iff]
        by_cases hj : j = i <;> simp [hj]
      rw [hl, hput, h.containsKey_iff]
      simp only [StartedIn, List.mem_append, List.mem_singleton, FleetAction.service.injEq]
      constructor
      · rintro (rfl | ⟨id', hmem⟩)
        · exact ⟨id, .inr ⟨rfl, rfl⟩⟩
        · exact ⟨id', .inl hmem⟩
      · rintro ⟨id', hmem | ⟨rfl, -⟩⟩
        · exact .inr ⟨id', hmem⟩
        · exact .inl rfl
    · rw [hl, hreg]
      simp only [LinkedMap.put_entries_ne_nil, ne_eq, not_false_eq_true, iff_true,
        Bool.or_eq_true, LinkedMap.isEmpty_iff, h.registered_iff]
      -- the callback is registered by this `Start`, or was before
      exact Classical.em _
  -- any other action leaves the listeners alone and is no `Start`
  · refine ⟨h.keys.step hstep, ?_, by rw [hl, hreg]; exact h.registered_iff⟩
    intro i
    rw [hl, h.containsKey_iff]
    simp only [StartedIn, List.mem_append, List.mem_singleton]
    constructor
    · rintro ⟨id, hmem⟩
      exact ⟨id, .inl hmem⟩
    · rintro ⟨id, hmem | heq⟩
      · exact ⟨id, hmem⟩
      · exact absurd heq.symm (hne i id)

/-- Who listens after a run. -/
theorem listening_of_run (hrun : fleet.run fleet.init as = some (s, os)) : Listening as s := by
  refine Machine.run_induction (P := fun as _ s => Listening as s) listening_init ?_ hrun
  intro as os s a s' o _ h hstep
  exact h.step hstep

/-- A service whose key is not registered is deaf. -/
theorem deaf_of_not_containsKey {i : ℕ} (h : Listening as s)
    (hkey : s.net.actor.listeners.containsKey (i, .service) = false) : Deaf i s := by
  refine ⟨hkey, ?_⟩
  intro bs s' os hrun hnot key network hmem
  have hunheard : Unheard i s := by
    refine ⟨h.keys, fun k hk => ?_⟩
    obtain rfl : k = (i, .service) := h.keys _ hk
    exact absurd ((LinkedMap.containsKey_iff _ _).mpr ⟨i, hk⟩) (by simp [hkey])
  -- carried along the continuation: the listener stays unregistered, so nothing is delivered
  have hnever := Machine.run_observations (M := fleet) (I := Unheard i)
    (C := fun a => ∀ id, a ≠ .service i (.startReceived id))
    (E := fun x => ∀ k n, x ≠ .deliver k i n)
    (fun s a s' o hs ha hstep => hs.step ha hstep) hunheard
    (fun a ha id heq => hnot ⟨id, heq ▸ ha⟩) hrun
  exact hnever _ hmem key network rfl

/-- After every run of any number of services: a stopped service is deaf if and only if the actor
never received a `Start` of it, and when all services are stopped the callback is unregistered if
and only if the actor never received a `Start` at all. -/
theorem stopped_deaf_iff (hrun : fleet.run fleet.init as = some (s, os)) :
    (∀ i, (s.services i).state = .stopped → (Deaf i s ↔ ¬ StartedIn i as)) ∧
      ((∀ i, (s.services i).state = .stopped) →
        (s.net.registered = false ↔ ∀ i, ¬ StartedIn i as)) := by
  have h := listening_of_run hrun
  have hkey : ∀ i, s.net.actor.listeners.containsKey (i, .service) = false ↔ ¬ StartedIn i as := by
    intro i
    rw [← h.containsKey_iff, Bool.not_eq_true]
  refine ⟨fun i _ => ⟨fun hdeaf => (hkey i).mp hdeaf.not_registered, fun hnot => ?_⟩, fun _ => ?_⟩
  · exact deaf_of_not_containsKey h ((hkey i).mpr hnot)
  -- the callback is registered while the map has an entry, and every entry is a started service
  · rw [← Bool.not_eq_true, h.registered_iff, not_not]
    constructor
    · intro hempty i
      rw [← hkey i, Bool.eq_false_iff, ne_eq, LinkedMap.containsKey_iff, hempty]
      simp
    · intro hnot
      rw [List.eq_nil_iff_forall_not_mem]
      intro entry hentry
      refine hnot entry.2 ((h.containsKey_iff entry.2).mp ?_)
      rw [LinkedMap.containsKey_iff]
      exact ⟨entry.2, by rw [← h.keys entry hentry]; exact hentry⟩

end Runs

/-- The actions of a service that is started and revoked before its connecting job runs. -/
def revokedActions : List Service.Action :=
  [.startService, .onStartCommand defaultStart, .onRevoke, .resumeConnecting 0 .cancelled smooth,
    .resumeStop 0, .stopReceived 0, .resumeStop 0]

/-- A service that was revoked before `preInit` is deaf. -/
theorem stopped_deaf_iff_revoked :
    ∃ s os, (fleet : Machine (Fleet ℕ ℕ) _ _).run fleet.init
        (revokedActions.map (.service 0)) = some (s, os) ∧
      (s.services 0).state = .stopped ∧ Deaf 0 s := by
  refine ⟨_, _, rfl, rfl, ?_⟩
  have hiff := stopped_deaf_iff (show (fleet : Machine (Fleet ℕ ℕ) _ _).run fleet.init
    (revokedActions.map (.service 0)) = some (_, _) from rfl)
  refine (hiff.1 0 rfl).mpr ?_
  rintro ⟨id, hmem⟩
  simp [revokedActions] at hmem

/-- The actions of a service that connects and is then stopped for good. -/
def connectAndStopActions : List Service.Action :=
  connectActions 0 ++ [.close, .stopReceived 0, .resumeStop 0]

/-- A service that was connected and stopped, the only one ever started, is still registered and
so is the callback, and the next network is delivered to its listener. -/
theorem not_deaf_connectAndStop :
    ∃ s os, (fleet : Machine (Fleet ℕ ℕ) _ _).run fleet.init
        (connectAndStopActions.map (.service 0)) = some (s, os) ∧
      (∀ i, (s.services i).state = .stopped) ∧
      s.net.actor.listeners.containsKey (0, .service) = true ∧ s.net.registered = true ∧
      ¬ Deaf 0 s ∧
      ∃ s', fleet.run s [.invoke (.onAvailable 5), .deliver] =
        some (s', [.deliver (0, .service) 0 (some 5)]) := by
  refine ⟨_, _, rfl, ?_, rfl, rfl, ?_, ⟨_, rfl⟩⟩
  · intro i
    by_cases hi : i = 0
    · subst hi
      rfl
    · simp [hi, service, fleet]
  · intro hdeaf
    exact absurd hdeaf.not_registered (by decide)

end NetworkKeys
