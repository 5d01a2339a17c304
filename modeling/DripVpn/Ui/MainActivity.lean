import DripVpn.Background.Lifecycle
import DripVpn.Ui.Event

/-!
# The activity and the service it controls

`MainActivity` runs in another process than the service. It issues start intents and stop
broadcasts, each after a delay in a coroutine of its own, and hears of the service through the
reports of `stateChanged`, which arrive in the order they were sent. What it tells Flutter are
`VpnStateEvent`s: its own announcements (`Connecting`, `Stopping`, `Switching`) and the reported
states.

The machine `app` runs the activity against the service of `Background.BaseService`, which may also
be started, stopped and reloaded by others and fail on its own. In a state at rest (`AtRest`)
nothing the activity issued is under way; the status shown should then be that of the last report
(`InStep`). Two things prevent it. While the status is `Switching`, `stateChanged` passes only
`Connected` on, so a switch that ends with a stopped service is never announced. And a start that
is announced while the service is connected is ignored by the service and leads to no report.
`Followed` excludes these two kinds of steps, and `inStep_of_followed` shows that nothing else can
go wrong.
-/

open Reactive BaseService

namespace MainActivity

/-- `BaseService.State.status`. -/
def status : State → VpnStatus
  | .idle => .idle
  | .connecting => .connecting
  | .connected => .connected
  | .stopping => .stopping
  | .stopped => .stopped

/-- The activity, the service and what is under way between them. -/
structure App where
  service : Service
  /-- The reports that were sent and have not arrived. -/
  queue : List State
  currentVpnState : State
  currentVpnStatus : VpnStatus
  /-- The last report that arrived. -/
  lastReport : Option State
  /-- The `startVpn` coroutines in their delay. -/
  starting : ℕ
  /-- The `stopVpn` coroutines in their delay. -/
  stopping : ℕ
  /-- The start intents of the activity that were not delivered. -/
  intents : ℕ
  /-- The stop broadcasts of the activity that were not delivered. -/
  broadcasts : ℕ

/-- What can happen next. -/
inductive AppAction where
  /-- The method `toggle`; `granted`: the VPN permission is there, otherwise it is asked for. -/
  | toggle (granted : Bool)
  /-- The method `switch`. -/
  | switch
  /-- The method `start`. -/
  | start
  /-- The method `stop`. -/
  | stop
  /-- The answer to the request for the VPN permission. -/
  | onActivityResult (ok : Bool)
  | onServiceConnected
  /-- The delay of a `startVpn` coroutine is over. -/
  | startDelayOver
  /-- The delay of a `stopVpn` coroutine is over. -/
  | stopDelayOver
  /-- A start intent of the activity is delivered. -/
  | deliverStart (env : Service.StartEnv)
  /-- A stop broadcast of the activity is delivered. -/
  | deliverStop
  /-- The next report arrives; `profile` is the main profile of `Core.currentProfile`. -/
  | stateChanged (profile : Option Profile)
  /-- Anything else that happens to the service. -/
  | service (a : Service.Action)

namespace App

/-- `startVpn`, up to its delay. -/
def startVpn (s : App) (isSwitchProfile : Bool) : App × List Event :=
  -- a switch broadcasts its stop at once and issues its start after the delay
  if isSwitchProfile then
    ({ s with currentVpnStatus := .switching, broadcasts := s.broadcasts + 1,
              starting := s.starting + 1 }, [.vpnStateEvent .switching])
  else ({ s with starting := s.starting + 1 }, [.vpnStateEvent .connecting])

/-- `stopVpn`, up to its delay. -/
def stopVpn (s : App) : App × List Event :=
  ({ s with stopping := s.stopping + 1 }, [.vpnStateEvent .stopping])

/-- `toggle` with the permission. -/
def toggle (s : App) : App × List Event :=
  if s.currentVpnState.canStop then s.stopVpn else s.startVpn false

/-- `stateChanged`. -/
def stateChanged (s : App) (state : State) (profile : Option Profile) : App × List Event :=
  let s := { s with currentVpnState := state, lastReport := some state }
  -- the state is taken over before the report is suppressed
  if s.currentVpnStatus = .switching ∧ (state = .stopping ∨ state = .stopped ∨ state = .connecting)
  then (s, [])
  else
    ({ s with currentVpnStatus := status state },
      [.vpnStateEvent (status state),
        .profileEvent (if state = .connected then profile else none)])

/-- The service makes a step; its reports are on their way. -/
def serviceStep (s : App) (a : Service.Action) : Option (App × List Event) :=
  (s.service.step a).map fun r =>
    ({ s with service := r.1, queue := s.queue ++ reports r.2 }, [])

/-- One step of the activity and the service. -/
def step (s : App) : AppAction → Option (App × List Event)
  | .toggle granted => some (if granted then s.toggle else (s, []))
  | .switch => some (s.startVpn true)
  | .start => some (s.startVpn false)
  | .stop => some ({ s with broadcasts := s.broadcasts + 1 }, [])
  | .onActivityResult ok => some (if ok then s.startVpn false else (s, []))
  -- Flutter is not told what the binder says
  | .onServiceConnected => some ({ s with currentVpnState := s.service.state }, [])
  | .startDelayOver =>
    if s.starting = 0 then none
    else { s with starting := s.starting - 1, intents := s.intents + 1 }.serviceStep .startService
  | .stopDelayOver =>
    if s.stopping = 0 then none
    else some ({ s with stopping := s.stopping - 1, broadcasts := s.broadcasts + 1 }, [])
  | .deliverStart env =>
    if s.intents = 0 then none
    else { s with intents := s.intents - 1 }.serviceStep (.onStartCommand env)
  | .deliverStop =>
    if s.broadcasts = 0 then none
    -- a broadcast without a receiver is dropped
    else if s.service.closeReceiverRegistered then
      { s with broadcasts := s.broadcasts - 1 }.serviceStep .close
    else some ({ s with broadcasts := s.broadcasts - 1 }, [])
  | .stateChanged profile =>
    match s.queue with
    | [] => none
    | state :: queue => some ({ s with queue }.stateChanged state profile)
  | .service a =>
    match a with
    -- the start intents of others are those that are not the activity's
    | .onStartCommand _ => if s.intents < s.service.intents then s.serviceStep a else none
    | _ => s.serviceStep a

end App

/-- The activity as it is created, bound to a service that was never started. -/
def app : Machine App AppAction Event where
  init :=
    { service := BaseService.service.init, queue := [], currentVpnState := .idle,
      currentVpnStatus := .idle, lastReport := none, starting := 0, stopping := 0, intents := 0,
      broadcasts := 0 }
  step := App.step

/-! ## Being in step with the service -/

/-- The statuses of the `VpnStateEvent`s. -/
def vpnStates (os : List Event) : List VpnStatus :=
  os.filterMap fun
    | .vpnStateEvent vpnStatus => some vpnStatus
    | _ => none

/-- The last report says that the service is stopped or connected, all reports have arrived, no
coroutine of the activity is in its delay, and the service has handled everything the activity
issued. -/
structure AtRest (s : App) : Prop where
  lastReport : s.lastReport = some .stopped ∨ s.lastReport = some .connected
  queue : s.queue = []
  starting : s.starting = 0
  stopping : s.stopping = 0
  intents : s.intents = 0
  broadcasts : s.broadcasts = 0

/-- The last status sent to Flutter is that of the last report. -/
def InStep (os : List Event) (s : App) : Prop :=
  (vpnStates os).getLast? = s.lastReport.map status

/-- The step is neither the arrival of a last report `Stopped` during a switch with no start under
way, nor a start announced to a service that is connected with neither a report nor a stop under
way. -/
def Followed (s : App) : AppAction → Prop
  | .stateChanged _ => s.currentVpnStatus = .switching → s.queue = [.stopped] →
      0 < s.starting + s.intents
  | .start => s.currentVpnState = .connected → s.queue = [] → 0 < s.stopping + s.broadcasts
  | .onActivityResult ok => ok = true → s.currentVpnState = .connected → s.queue = [] →
      0 < s.stopping + s.broadcasts
  | _ => True

/-- What holds as long as all steps are followed. -/
structure Tracked (os : List Event) (s : App) : Prop where
  coherent : s.service.Coherent
  /-- When all reports have arrived the last one is the state of the service. -/
  reported : s.queue = [] →
    s.lastReport = some s.service.state ∨ s.lastReport = none ∧ s.service.state = .stopped
  /-- The last report under way is the state of the service. -/
  queued : ∀ state, s.queue.getLast? = some state → state = s.service.state
  /-- When all reports have arrived the activity knows the state of the service. -/
  known : s.queue = [] →
    s.currentVpnState = s.service.state ∨
      s.currentVpnState = .idle ∧ s.service.state = .stopped
  /-- For a connected service, the status is right or a stop is under way. -/
  connected : s.queue = [] → s.service.state = .connected →
    InStep os s ∨ 0 < s.stopping + s.broadcasts
  /-- For a stopped service, the status is right or a start is under way. -/
  stopped : s.queue = [] → s.service.state = .stopped → s.lastReport = some .stopped →
    InStep os s ∨ 0 < s.starting + s.intents

/-! ## One step -/

section Step

variable {os os' : List Event} {s s' : App}

/-- A step after which the activity still waits for the same reports of the same state. -/
theorem Tracked.of_same (h : Tracked os s) (hcoherent : s'.service.Coherent)
    (hstate : s'.service.state = s.service.state) (hqueue : s'.queue = s.queue)
    (hlast : s'.lastReport = s.lastReport) (hcurrent : s'.currentVpnState = s.currentVpnState)
    (hconnected : s.queue = [] → s.service.state = .connected →
      InStep os' s' ∨ 0 < s'.stopping + s'.broadcasts)
    (hstopped : s.queue = [] → s.service.state = .stopped → s.lastReport = some .stopped →
      InStep os' s' ∨ 0 < s'.starting + s'.intents) : Tracked os' s' where
  coherent := hcoherent
  reported := by rw [hqueue, hlast, hstate]; exact h.reported
  queued := by rw [hqueue, hstate]; exact h.queued
  known := by rw [hqueue, hcurrent, hstate]; exact h.known
  connected := by rw [hqueue, hstate]; exact hconnected
  stopped := by rw [hqueue, hstate, hlast]; exact hstopped

/-- A step without events that leaves stops under way for a connected service and starts for a
stopped one. -/
theorem Tracked.of_le (h : Tracked os s) (hcoherent : s'.service.Coherent)
    (hstate : s'.service.state = s.service.state) (hqueue : s'.queue = s.queue)
    (hlast : s'.lastReport = s.lastReport) (hcurrent : s'.currentVpnState = s.currentVpnState)
    (hstops : s.service.state = .connected →
      s.stopping + s.broadcasts ≤ s'.stopping + s'.broadcasts)
    (hstarts : s.service.state = .stopped →
      s.starting + s.intents ≤ s'.starting + s'.intents) : Tracked os s' := by
  have hstep : InStep os s → InStep os s' := by
    unfold InStep
    rw [hlast]
    exact id
  refine h.of_same hcoherent hstate hqueue hlast hcurrent ?_ ?_
  · intro hq hs
    exact (h.connected hq hs).imp hstep fun hpos => Nat.lt_of_lt_of_le hpos (hstops hs)
  · intro hq hs hl
    exact (h.stopped hq hs hl).imp hstep fun hpos => Nat.lt_of_lt_of_le hpos (hstarts hs)

/-- A step of the service that changes its state puts a report under way. -/
theorem tracked_of_report (hcoherent : s'.service.Coherent)
    (hqueue : s'.queue = s.queue ++ [s'.service.state]) : Tracked os s' := by
  have hne : s'.queue ≠ [] := by simp [hqueue]
  refine ⟨hcoherent, fun hq => absurd hq hne, ?_, fun hq => absurd hq hne,
    fun hq => absurd hq hne, fun hq => absurd hq hne⟩
  intro state hlast
  rw [hqueue, List.getLast?_concat] at hlast
  exact (Option.some.inj hlast).symm

/-- A step of the service is a move of its lifecycle: the state changes and is reported, or nothing
changes for the activity. -/
theorem serviceStep_cases {a : Service.Action} {o : List Event} (hcoherent : s.service.Coherent)
    (hstep : s.serviceStep a = some (s', o)) :
    o = [] ∧ s'.service.Coherent ∧
      Moves s.service.phase s.service.intents s'.service.phase s'.service.intents a ∧
      (s' = { s with service := s'.service } ∧ s'.service.state = s.service.state ∨
        s'.queue = s.queue ++ [s'.service.state]) := by
  obtain ⟨⟨d, o'⟩, hd, heq⟩ := Option.map_eq_some_iff.mp hstep
  obtain ⟨rfl, rfl⟩ := Prod.mk.inj heq
  obtain ⟨p, n, hmoves, hout⟩ := hcoherent.step hd
  obtain rfl : d.phase = p := hout.phase
  obtain rfl : d.intents = n := hout.intents
  refine ⟨rfl, hout.coherent, hmoves, ?_⟩
  have hreports := hout.reports
  rw [hout.coherent.phase_state] at hreports
  by_cases hsame : d.state = s.service.state
  · left
    rw [if_pos hsame] at hreports
    exact ⟨by simp [hreports], hsame⟩
  · right
    rw [if_neg hsame] at hreports
    rw [hreports]

/-- A step of the service that leaves the state as it is must leave the activity tracked; one that
changes the state always does. -/
theorem tracked_serviceStep {a : Service.Action} {o : List Event}
    (hstep : s.serviceStep a = some (s', o)) (hcoherent : s.service.Coherent)
    (hsame : ∀ d : Service, d.Coherent → d.state = s.service.state →
      Moves s.service.phase s.service.intents d.phase d.intents a →
      Tracked os { s with service := d }) :
    Tracked (os ++ o) s' := by
  obtain ⟨rfl, hcoherent', hmoves, ⟨heq, hstate⟩ | hqueue⟩ := serviceStep_cases hcoherent hstep
  · rw [heq, List.append_nil]
    exact hsame s'.service hcoherent' hstate hmoves
  · exact tracked_of_report hcoherent' hqueue

/-- A start command never leaves a stopped service stopped. -/
theorem moves_onStartCommand_ne {p : Phase} {n n' : ℕ} {env : Service.StartEnv}
    (h : Moves .stopped n p n' (.onStartCommand env)) : p ≠ .stopped := by
  rintro rfl
  obtain ⟨-, h⟩ := h
  simp only [ne_eq, not_true_eq_false, if_false, Phase.stop] at h
  split_ifs at h

/-- A stop request never leaves a connected service connected. -/
theorem moves_close_ne {p : Phase} {n n' : ℕ} (h : Moves .connected n p n' .close) :
    p ≠ .connected := by
  rintro rfl
  exact absurd h.1 (by simp [Phase.stop])

/-- `startVpn`: the start that is announced is under way. -/
theorem Tracked.startVpn (h : Tracked os s) (isSwitchProfile : Bool)
    (hstop : isSwitchProfile = false → s.queue = [] → s.service.state = .connected →
      0 < s.stopping + s.broadcasts) :
    Tracked (os ++ (s.startVpn isSwitchProfile).2) (s.startVpn isSwitchProfile).1 := by
  cases isSwitchProfile with
  | false =>
    -- a connected service ignores the start, so a stop has to be under way already
    exact h.of_same h.coherent rfl rfl rfl rfl (fun hq hs => .inr (hstop rfl hq hs))
      fun _ _ _ => .inr (Nat.add_pos_left (Nat.succ_pos _) _)
  | true =>
    exact h.of_same h.coherent rfl rfl rfl rfl
      -- a switch brings its own stop and its own start
      (fun _ _ => .inr (Nat.add_pos_right _ (Nat.succ_pos _)))
      fun _ _ _ => .inr (Nat.add_pos_left (Nat.succ_pos _) _)

/-- `toggle`: what is announced is under way, and is what the service needs. -/
theorem Tracked.toggle (h : Tracked os s) : Tracked (os ++ s.toggle.2) s.toggle.1 := by
  unfold App.toggle
  cases hcan : s.currentVpnState.canStop with
  | true =>
    refine h.of_same h.coherent rfl rfl rfl rfl
      (fun _ _ => .inr (Nat.add_pos_left (Nat.succ_pos _) _)) fun hq hs _ => ?_
    -- the activity would know that the service is stopped
    rcases h.known hq with hknown | ⟨hknown, -⟩
    · rw [hknown, hs] at hcan
      exact absurd hcan (by decide)
    · rw [hknown] at hcan
      exact absurd hcan (by decide)
  | false =>
    -- the activity would know that the service is connected
    refine h.startVpn false fun _ hq hs => ?_
    rcases h.known hq with hknown | ⟨-, hstopped⟩
    · rw [hknown, hs] at hcan
      exact absurd hcan (by decide)
    · exact absurd (hs.symm.trans hstopped) (by decide)

/-- The arrival of a report. -/
theorem Tracked.stateChanged (h : Tracked os s) {state : State} {queue : List State}
    (hq : s.queue = state :: queue) (profile : Option Profile)
    (hfollowed : s.currentVpnStatus = .switching → s.queue = [.stopped] →
      0 < s.starting + s.intents) :
    Tracked (os ++ (App.stateChanged { s with queue } state profile).2)
      (App.stateChanged { s with queue } state profile).1 := by
  -- the last report under way is the state of the service, whichever of them it is
  have hlast : queue = [] → state = s.service.state := by
    rintro rfl
    exact h.queued state (by rw [hq]; rfl)
  have hqueued : ∀ state', queue.getLast? = some state' → state' = s.service.state := by
    intro state' hstate'
    refine h.queued state' ?_
    rw [hq, List.getLast?_cons, hstate']
    rfl
  unfold App.stateChanged
  dsimp only
  split
  next hsuppressed =>
    -- the report is not passed on; `Connected` never is suppressed
    refine ⟨h.coherent, fun he => .inl (congrArg some (hlast he)), hqueued,
      fun he => .inl (hlast he), fun he hs => ?_, fun he _ hl => ?_⟩
    · rw [← hlast he] at hs
      rcases hsuppressed.2 with hs' | hs' | hs' <;> exact absurd (hs.symm.trans hs') (by decide)
    · obtain rfl : state = .stopped := Option.some.inj hl
      obtain rfl : queue = [] := he
      exact .inr (hfollowed hsuppressed.1 hq)
  next =>
    -- the report is passed on: the status shown is right
    have hshown : InStep (os ++ [.vpnStateEvent (status state),
        .profileEvent (if state = .connected then profile else none)])
        { s with queue, currentVpnState := state, lastReport := some state,
                 currentVpnStatus := status state } := by
      simp [InStep, vpnStates]
    exact ⟨h.coherent, fun he => .inl (congrArg some (hlast he)), hqueued,
      fun he => .inl (hlast he), fun _ _ => .inl hshown, fun _ _ _ => .inl hshown⟩

/-- The activity knows of a connected service when all reports have arrived. -/
theorem Tracked.knows_connected (h : Tracked os s) (hq : s.queue = [])
    (hs : s.service.state = .connected) : s.currentVpnState = .connected := by
  rcases h.known hq with hknown | ⟨-, hstopped⟩
  · exact hknown.trans hs
  · exact absurd (hs.symm.trans hstopped) (by decide)

/-- The delivery of a start intent: a stopped service reports, any other has no need of it. -/
theorem Tracked.deliverStart (h : Tracked os s) {env : Service.StartEnv} {o : List Event}
    (hstep : App.serviceStep { s with intents := s.intents - 1 } (.onStartCommand env) =
      some (s', o)) : Tracked (os ++ o) s' := by
  refine tracked_serviceStep hstep h.coherent fun d hd hstate hmoves => ?_
  refine h.of_le hd hstate rfl rfl rfl (fun _ => Nat.le_refl _) fun hs => ?_
  -- if the state did not change, the service was not stopped
  have hphase : s.service.phase = .stopped := by rw [Service.phase, hs]
  have hphase' : d.phase = .stopped := by rw [Service.phase, hstate, hs]
  rw [hphase, hphase'] at hmoves
  exact absurd rfl (moves_onStartCommand_ne hmoves)

/-- The delivery of a stop broadcast: a connected service has a receiver for it and reports, any
other has no need of it. -/
theorem Tracked.deliverStop (h : Tracked os s) {o : List Event}
    (hstep : App.serviceStep { s with broadcasts := s.broadcasts - 1 } .close = some (s', o)) :
    Tracked (os ++ o) s' := by
  refine tracked_serviceStep hstep h.coherent fun d hd hstate hmoves => ?_
  refine h.of_le hd hstate rfl rfl rfl (fun hs => ?_) fun _ => Nat.le_refl _
  -- if the state did not change, the service was not connected
  have hphase : s.service.phase = .connected := by rw [Service.phase, hs]
  have hphase' : d.phase = .connected := by rw [Service.phase, hstate, hs]
  rw [hphase, hphase'] at hmoves
  exact absurd rfl (moves_close_ne hmoves)

/-- A step of the service that the activity did not cause. -/
theorem Tracked.serviceStep (h : Tracked os s) {a : Service.Action} {o : List Event}
    (hstep : s.serviceStep a = some (s', o)) : Tracked (os ++ o) s' :=
  tracked_serviceStep hstep h.coherent fun _ hd hstate _ =>
    h.of_le hd hstate rfl rfl rfl (fun _ => Nat.le_refl _) fun _ => Nat.le_refl _

/-- Every followed step keeps the activity tracked. -/
theorem Tracked.step (h : Tracked os s) {a : AppAction} {o : List Event} (ha : Followed s a)
    (hstep : s.step a = some (s', o)) : Tracked (os ++ o) s' := by
  cases a with
  | toggle granted =>
    cases granted with
    | true =>
      have htracked := h.toggle
      rw [show s.toggle = (s', o) from Option.some.inj hstep] at htracked
      exact htracked
    | false =>
      obtain ⟨rfl, rfl⟩ := Prod.mk.inj (Option.some.inj hstep)
      rwa [List.append_nil]
  | switch =>
    obtain ⟨rfl, rfl⟩ := Prod.mk.inj (Option.some.inj hstep)
    exact h.startVpn true (by simp)
  | start =>
    obtain ⟨rfl, rfl⟩ := Prod.mk.inj (Option.some.inj hstep)
    exact h.startVpn false fun _ hq hs => ha (h.knows_connected hq hs) hq
  | stop =>
    obtain ⟨rfl, rfl⟩ := Prod.mk.inj (Option.some.inj hstep)
    rw [List.append_nil]
    exact h.of_le h.coherent rfl rfl rfl rfl (fun _ => Nat.le_succ _) fun _ => Nat.le_refl _
  | onActivityResult ok =>
    cases ok with
    | true =>
      obtain ⟨rfl, rfl⟩ := Prod.mk.inj (Option.some.inj hstep)
      exact h.startVpn false fun _ hq hs => ha rfl (h.knows_connected hq hs) hq
    | false =>
      obtain ⟨rfl, rfl⟩ := Prod.mk.inj (Option.some.inj hstep)
      rwa [List.append_nil]
  -- the binder tells the state of the service itself, no older one
  | onServiceConnected =>
    obtain ⟨rfl, rfl⟩ := Prod.mk.inj (Option.some.inj hstep)
    rw [List.append_nil]
    exact ⟨h.coherent, h.reported, h.queued, fun _ => .inl rfl, h.connected, h.stopped⟩
  | startDelayOver =>
    simp only [App.step, Option.ite_none_left_eq_some] at hstep
    obtain ⟨hpos, hstep⟩ := hstep
    refine tracked_serviceStep hstep h.coherent fun d hd hstate _ => ?_
    refine h.of_le hd hstate rfl rfl rfl (fun _ => Nat.le_refl _) fun _ => ?_
    -- the start moves on from the coroutine to the intent
    change s.starting + s.intents ≤ s.starting - 1 + (s.intents + 1)
    omega
  | stopDelayOver =>
    simp only [App.step, Option.ite_none_left_eq_some, Option.some.injEq, Prod.mk.injEq] at hstep
    obtain ⟨hpos, rfl, rfl⟩ := hstep
    rw [List.append_nil]
    refine h.of_le h.coherent rfl rfl rfl rfl (fun _ => ?_) fun _ => Nat.le_refl _
    -- the stop moves on from the coroutine to the broadcast
    change s.stopping + s.broadcasts ≤ s.stopping - 1 + (s.broadcasts + 1)
    omega
  | deliverStart env =>
    simp only [App.step, Option.ite_none_left_eq_some] at hstep
    exact h.deliverStart hstep.2
  | deliverStop =>
    simp only [App.step, Option.ite_none_left_eq_some] at hstep
    obtain ⟨-, hstep⟩ := hstep
    split at hstep
    · exact h.deliverStop hstep
    next hreceiver =>
      obtain ⟨rfl, rfl⟩ := Prod.mk.inj (Option.some.inj hstep)
      rw [List.append_nil]
      refine h.of_le h.coherent rfl rfl rfl rfl (fun hs => ?_) fun _ => Nat.le_refl _
      -- a connected service has a receiver
      exact absurd (h.coherent.receiver_of_connected hs) hreceiver
  | stateChanged profile =>
    simp only [App.step] at hstep
    split at hstep
    · exact absurd hstep (by simp)
    next state queue hq =>
      have htracked := h.stateChanged hq profile ha
      rw [Option.some.inj hstep] at htracked
      exact htracked
  | service a =>
    simp only [App.step] at hstep
    split at hstep
    · simp only [Option.ite_none_right_eq_some] at hstep
      exact h.serviceStep hstep.2
    · exact h.serviceStep hstep

end Step

/-! ## Whole runs -/

/-- The activity before anything happened. -/
theorem tracked_init : Tracked [] app.init where
  coherent := Service.coherent_init
  reported _ := .inr ⟨rfl, rfl⟩
  queued state h := absurd h (by simp [app])
  known _ := .inr ⟨rfl, rfl⟩
  connected _ h := absurd h (by simp [app, service])
  stopped _ _ h := absurd h (by simp [app])

/-- In every run whose steps are all followed, in every state at rest the last status sent to
Flutter is that of the last report; in particular it is not `Switching`, `Connecting` or
`Stopping`. -/
theorem inStep_of_followed {as : List AppAction} {s : App} {os : List Event}
    (hrun : app.run app.init as = some (s, os)) (hfollowed : app.AllSteps Followed app.init as)
    (hrest : AtRest s) :
    InStep os s ∧ (vpnStates os).getLast? ≠ some .switching ∧
      (vpnStates os).getLast? ≠ some .connecting ∧ (vpnStates os).getLast? ≠ some .stopping := by
  have h : Tracked os s :=
    Machine.run_induction_of_allSteps (P := fun _ os s => Tracked os s) tracked_init
      (fun _ _ _ _ _ _ h ha hstep => h.step ha hstep) hrun hfollowed
  -- nothing is under way, so only the first alternative of the invariant is left
  have hin : InStep os s := by
    rcases h.reported hrest.queue with hlast | ⟨hlast, -⟩
    · rcases hrest.lastReport with hl | hl
      · have hs : s.service.state = .stopped := Option.some.inj (hlast.symm.trans hl)
        refine (h.stopped hrest.queue hs hl).resolve_right ?_
        simp [hrest.starting, hrest.intents]
      · have hs : s.service.state = .connected := Option.some.inj (hlast.symm.trans hl)
        refine (h.connected hrest.queue hs).resolve_right ?_
        simp [hrest.stopping, hrest.broadcasts]
    · rcases hrest.lastReport with hl | hl <;> exact absurd (hlast.symm.trans hl) (by simp)
  refine ⟨hin, ?_⟩
  rw [hin]
  rcases hrest.lastReport with hl | hl <;> simp [hl, status]

/-- The user starts the service, which connects. -/
def startActions : List AppAction :=
  [.toggle true, .startDelayOver, .deliverStart defaultStart, .stateChanged none,
    .service (.resumeConnecting 0 .returns smooth), .service (.startReceived 0),
    .service (.resumeConnecting 0 .returns smooth), .service (.resumeConnecting 0 .returns smooth),
    .stateChanged none]

/-- A start that succeeds is announced. -/
theorem inStep_of_followed_start :
    ∃ s os, app.run app.init startActions = some (s, os) ∧ AtRest s ∧
      vpnStates os = [.connecting, .connecting, .connected] ∧ InStep os s := by
  refine ⟨_, _, rfl, ⟨.inr rfl, rfl, rfl, rfl, rfl, rfl⟩, rfl, ?_⟩
  refine (inStep_of_followed (show app.run app.init startActions = some (_, _) from rfl) ?_
    ⟨.inr rfl, rfl, rfl, rfl, rfl, rfl⟩).1
  -- the two reports that arrive do not belong to a switch
  exact ⟨trivial, trivial, trivial, fun h => absurd h (by decide), trivial, trivial, trivial,
    trivial, fun h => absurd h (by decide), trivial⟩

/-- The process of the proxy cannot be started. -/
def proxyFails : Service.BodyEnv :=
  { smooth with throws := fun call =>
      if call = .proxyStart then some (.exception "Permission denied") else none }

/-- The user switches to another profile, and the connection attempt fails. -/
def failedSwitchActions : List AppAction :=
  [.switch, .deliverStop, .startDelayOver, .deliverStart defaultStart, .stateChanged none,
    .service (.resumeConnecting 0 .returns smooth), .service (.startReceived 0),
    .service (.resumeConnecting 0 .returns proxyFails), .stateChanged none,
    .service (.resumeStop 0), .service (.stopReceived 0), .service (.resumeStop 0),
    .stateChanged none]

/-- The two ways the activity is left behind: after a switch whose connection attempt fails the
status stays `Switching`, and after a start that is announced to a connected service it stays
`Connecting`. -/
theorem not_inStep :
    (∃ s os, app.run app.init failedSwitchActions = some (s, os) ∧ AtRest s ∧
      s.lastReport = some .stopped ∧ (vpnStates os).getLast? = some .switching ∧ ¬ InStep os s) ∧
    (∃ s os, app.run app.init (startActions ++
        [.start, .startDelayOver, .deliverStart defaultStart]) = some (s, os) ∧ AtRest s ∧
      s.lastReport = some .connected ∧ (vpnStates os).getLast? = some .connecting ∧
      ¬ InStep os s) := by
  refine ⟨⟨_, _, rfl, ⟨.inl rfl, rfl, rfl, rfl, rfl, rfl⟩, rfl, rfl, ?_⟩,
    ⟨_, _, rfl, ⟨.inr rfl, rfl, rfl, rfl, rfl, rfl⟩, rfl, rfl, ?_⟩⟩
  · intro h
    exact absurd (show some VpnStatus.switching = some .stopped from h) (by decide)
  · intro h
    exact absurd (show some VpnStatus.connecting = some .connected from h) (by decide)

end MainActivity
