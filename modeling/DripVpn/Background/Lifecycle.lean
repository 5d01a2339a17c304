import DripVpn.Background.BaseService

/-!
# The lifecycle of the service

What the service is for, in five phases: it is stopped, it connects (with or without a connecting
job under way), it is connected, or it stops, to be restarted or not. `Moves` says how each action
moves the phase and the number of undelivered start intents.

`Coherent` is the invariant that ties the variables and the coroutines of the code to the phase:
there is at most one connecting job and at most one stop job, a connecting job of a service that
stops is cancelled, and what a phase does not need is null. `Coherent.step` shows that every step
of the code, from any coherent state, is a move of the lifecycle that keeps the variables coherent
and reports exactly the change of the state.
-/

open Reactive

namespace BaseService

/-! ## The abstract lifecycle -/

/-- The phases of the service. -/
inductive Phase where
  | stopped
  /-- `attempting`: the connecting job has not completed. -/
  | connecting (attempting : Bool)
  | connected
  /-- `restart`: a start intent follows when the stop has completed. -/
  | stopping (restart : Bool)
  deriving DecidableEq, Repr

/-- The state that is reported in a phase. -/
def Phase.state : Phase → State
  | .stopped => .stopped
  | .connecting _ => .connecting
  | .connected => .connected
  | .stopping _ => .stopping

/-- A stop request; one stop is not overtaken by another. -/
def Phase.stop (restart : Bool) : Phase → Phase
  | .stopping r => .stopping r
  | _ => .stopping restart

/-- The profile of a start is accepted. -/
def Service.StartEnv.accepts (env : Service.StartEnv) : Bool :=
  match env.currentProfile with
  | none => false
  | some expanded =>
    (ProxyInstance.create env.base64Size expanded.main expanded.main.route).toBool &&
      (Service.createFallback env expanded).toBool

/-- The service runs in VPN mode and has the permission to do so. -/
def Service.StartEnv.permitted (env : Service.StartEnv) : Bool := env.modeVpn && env.prepared

/-- Where an action leads from the phase `p` with `n` undelivered start intents. -/
def Moves (p : Phase) (n : ℕ) (p' : Phase) (n' : ℕ) : Service.Action → Prop
  | .startService => p' = p ∧ n' = n + 1
  | .onStartCommand env => n = n' + 1 ∧
      if env.permitted then
        p' = if p ≠ .stopped then p else if env.accepts then .connecting true else .stopping false
      else p' = p.stop false
  -- all of these call `stopRunner()`
  | .close | .onRevoke | .onFatal _ | .restartCallbackFails _ => p' = p.stop false ∧ n' = n
  | .reload => p' = p.stop true ∧ n' = n
  -- the attempt goes on, is given up by a `CancellationException`, succeeds or fails
  | .resumeConnecting _ _ _ => n' = n ∧ (p' = p ∨
      p = .connecting true ∧ (p' = .connecting false ∨ p' = .connected ∨ p' = .stopping false))
  | .resumeStop _ => p' = p ∧ n' = n ∨
      ∃ restart, p = .stopping restart ∧ p' = .stopped ∧ n' = n + restart.toNat
  | .shutdown | .startReceived _ | .stopReceived _ => p' = p ∧ n' = n

/-! ## The invariant -/

namespace Service

/-- The phase of the service. -/
def phase (d : Service) : Phase :=
  match d.state with
  -- `Idle` is never assigned
  | .idle => .stopped
  | .connecting => .connecting !d.jobs.isEmpty
  | .connected => .connected
  | .stopping => .stopping (d.stopJobs.any StopJob.restart)
  | .stopped => .stopped

/-- Nothing of a connection is left. -/
structure Cleared (d : Service) : Prop where
  processes : d.processes = none
  proxy : d.proxy = none
  udpFallback : d.udpFallback = none
  localDns : d.localDns = none
  notification : d.notification = none
  closeReceiverRegistered : d.closeReceiverRegistered = false

/-- The processes of a connection are there. -/
structure Started (d : Service) : Prop where
  processes : d.processes ≠ none
  localDns : d.localDns ≠ none

/-- The connecting job `job` is under way and nobody has cancelled it. -/
structure Attempting (d : Service) (job : ConnectingJob) : Prop where
  jobs : d.jobs = [job]
  not_cancelled : job.cancelled = false
  connectingJob : d.connectingJob = some job.id
  started : ∀ tries, job.suspendedAt = .sendFd tries → d.Started

/-- The variables and coroutines agree with the phase. -/
inductive Coherent (d : Service) : Prop where
  | connecting (hstate : d.state = .connecting) (hstop : d.stopJobs = []) (hproxy : d.proxy ≠ none)
      (hreceiver : d.closeReceiverRegistered = true)
      (hjobs : d.jobs = [] ∨ ∃ job, d.Attempting job)
  | connected (hstate : d.state = .connected) (hstop : d.stopJobs = []) (hproxy : d.proxy ≠ none)
      (hreceiver : d.closeReceiverRegistered = true) (hjobs : d.jobs = []) (hstarted : d.Started)
  | joining (stop : StopJob) (id : ℕ) (hstate : d.state = .stopping) (hstop : d.stopJobs = [stop])
      (hphase : stop.phase = .joining id)
      (hjobs : d.jobs = [] ∨ ∃ job, d.jobs = [job] ∧ job.id = id ∧ job.cancelled = true)
  | cleaning (stop : StopJob) (coroutine : ℕ) (received : Bool) (hstate : d.state = .stopping)
      (hstop : d.stopJobs = [stop]) (hphase : stop.phase = .cleaning coroutine received)
      (hjobs : d.jobs = []) (hcleared : d.Cleared)
  | stopped (hstate : d.state = .stopped) (hstop : d.stopJobs = []) (hjobs : d.jobs = [])
      (hcleared : d.Cleared)

end Service

/-- The states reported to the callbacks. -/
def reports (o : List ServiceEffect) : List State :=
  o.filterMap fun
    | .stateChanged s _ _ => some s
    | _ => none

/-- The step from `d` with the result `r` keeps the variables coherent, leads to the phase `p` with
`n` start intents, and reports the change of the state, if there is one. -/
structure Outcome (d : Service) (r : Service × List ServiceEffect) (p : Phase) (n : ℕ) : Prop where
  coherent : r.1.Coherent
  phase : r.1.phase = p
  intents : r.1.intents = n
  reports : reports r.2 = if p.state = d.state then [] else [p.state]

namespace Service

variable {d d' : Service} {restart : Bool} {msg : Option String}

/-- The reported state is the state of the phase. -/
theorem Coherent.phase_state (h : d.Coherent) : d.phase.state = d.state := by
  cases h <;> simp [phase, Phase.state, *]

/-- A connected service listens to broadcasts. -/
theorem Coherent.receiver_of_connected (h : d.Coherent) (hstate : d.state = .connected) :
    d.closeReceiverRegistered = true := by
  cases h <;> simp_all

/-- A step without effects on the lifecycle. -/
theorem Coherent.outcome_self (h : d.Coherent) {o : List ServiceEffect} (ho : reports o = []) :
    Outcome d (d, o) d.phase d.intents := by
  refine ⟨h, rfl, rfl, ?_⟩
  rw [if_pos h.phase_state, ho]

/-- The number of undelivered start intents is independent of everything else. -/
theorem Coherent.withIntents (h : d.Coherent) (n : ℕ) :
    Outcome d ({ d with intents := n }, []) d.phase n := by
  refine ⟨?_, rfl, rfl, by rw [if_pos h.phase_state]; rfl⟩
  -- no field of the invariant mentions the intents
  have hcleared : d.Cleared → Cleared { d with intents := n } := fun hc =>
    ⟨hc.processes, hc.proxy, hc.udpFallback, hc.localDns, hc.notification,
      hc.closeReceiverRegistered⟩
  cases h with
  | connecting hstate hstop hproxy hreceiver hjobs =>
    refine .connecting hstate hstop hproxy hreceiver (hjobs.imp id ?_)
    rintro ⟨job, hjob⟩
    refine ⟨job, hjob.jobs, hjob.not_cancelled, hjob.connectingJob, fun tries hat => ?_⟩
    exact ⟨(hjob.started tries hat).processes, (hjob.started tries hat).localDns⟩
  | connected hstate hstop hproxy hreceiver hjobs hstarted =>
    exact .connected hstate hstop hproxy hreceiver hjobs ⟨hstarted.processes, hstarted.localDns⟩
  | joining stop id hstate hstop hphase hjobs => exact .joining stop id hstate hstop hphase hjobs
  | cleaning stop coroutine received hstate hstop hphase hjobs hc =>
    exact .cleaning stop coroutine received hstate hstop hphase hjobs (hcleared hc)
  | stopped hstate hstop hjobs hc => exact .stopped hstate hstop hjobs (hcleared hc)

/-! ## Stop requests -/

/-- A stop request is dropped while the service stops. -/
theorem stopRunner_of_stopping (h : d.state = .stopping) : d.stopRunner restart msg = (d, []) := by
  simp [stopRunner, h]

/-- A stop request while no connecting job is under way cleans up at once. -/
theorem stopRunner_of_noJob (h : d.state ≠ .stopping) (hjobs : d.jobs = []) :
    d.stopRunner restart msg =
      ({ d.cleanUp.1 with
          state := .stopping,
          stopJobs := d.stopJobs ++ [{ restart, msg, phase := .cleaning d.nextCoroutine false }] },
        [.stateChanged .stopping d.profileName none, .trafficPersisted d.proxyIds]) := by
  -- `connectingJob` may still point to a job that has completed
  have hactive : d.connectingJob.filter (fun _ => false) = none := by
    cases d.connectingJob <;> rfl
  simp [stopRunner, changeState, h, activeConnectingJob, hjobs, hactive, cleanUp, killProcesses,
    proxyIds]

/-- A stop request cancels the connecting job and joins it. -/
theorem stopRunner_of_job {job : ConnectingJob} (h : d.state ≠ .stopping) (hjobs : d.jobs = [job])
    (hid : d.connectingJob = some job.id) :
    d.stopRunner restart msg =
      ({ d with state := .stopping, jobs := [{ job with cancelled := true }],
                stopJobs := d.stopJobs ++ [{ restart, msg, phase := .joining job.id }] },
        [.stateChanged .stopping d.profileName none]) := by
  simp [stopRunner, changeState, h, activeConnectingJob, hjobs, hid, cancelJob, Option.filter]

/-- A stop request in a service that neither stops nor has a connecting job. -/
theorem outcome_stopRunner_of_noJob (h : d.state ≠ .stopping) (hstop : d.stopJobs = [])
    (hjobs : d.jobs = []) (restart : Bool) (msg : Option String) :
    Outcome d (d.stopRunner restart msg) (.stopping restart) d.intents := by
  have hne : ¬ State.stopping = d.state := fun he => h he.symm
  rw [stopRunner_of_noJob h hjobs, hstop]
  refine ⟨?_, by simp [phase], rfl, by simp [reports, Phase.state, hne]⟩
  exact .cleaning _ d.nextCoroutine false rfl rfl rfl hjobs ⟨rfl, rfl, rfl, rfl, rfl, rfl⟩

/-- A stop request in a service that connects. -/
theorem Attempting.outcome_stopRunner {job : ConnectingJob} (hjob : d.Attempting job)
    (h : d.state ≠ .stopping) (hstop : d.stopJobs = []) :
    Outcome d (d.stopRunner restart msg) (.stopping restart) d.intents := by
  have hne : ¬ State.stopping = d.state := fun he => h he.symm
  rw [stopRunner_of_job h hjob.jobs hjob.connectingJob, hstop]
  refine ⟨?_, by simp [phase], rfl, by simp [reports, Phase.state, hne]⟩
  exact .joining _ job.id rfl rfl rfl (.inr ⟨_, rfl, rfl, rfl⟩)

/-- A stop request moves every phase but that of a stop under way. -/
theorem Coherent.outcome_stopRunner (h : d.Coherent) (restart : Bool) (msg : Option String) :
    Outcome d (d.stopRunner restart msg) (d.phase.stop restart) d.intents := by
  have hphase : d.state ≠ .stopping → d.phase.stop restart = .stopping restart := by
    intro hne
    cases h <;> simp_all [phase, Phase.stop]
  have hdropped : d.state = .stopping →
      Outcome d (d.stopRunner restart msg) (d.phase.stop restart) d.intents := by
    intro hs
    rw [stopRunner_of_stopping hs, show d.phase.stop restart = d.phase by
      simp [phase, hs, Phase.stop]]
    exact h.outcome_self rfl
  -- in every other phase the two cases are whether a connecting job has to be joined
  cases h with
  | connecting hstate hstop hproxy hreceiver hjobs =>
    have hne : d.state ≠ .stopping := by simp [hstate]
    rw [hphase hne]
    rcases hjobs with hjobs | ⟨job, hjob⟩
    · exact outcome_stopRunner_of_noJob hne hstop hjobs restart msg
    · exact hjob.outcome_stopRunner hne hstop
  | connected hstate hstop hproxy hreceiver hjobs hstarted =>
    have hne : d.state ≠ .stopping := by simp [hstate]
    rw [hphase hne]
    exact outcome_stopRunner_of_noJob hne hstop hjobs restart msg
  | joining stop id hstate hstop hp hjobs => exact hdropped hstate
  | cleaning stop coroutine received hstate hstop hp hjobs hcleared => exact hdropped hstate
  | stopped hstate hstop hjobs hcleared =>
    have hne : d.state ≠ .stopping := by simp [hstate]
    rw [hphase hne]
    exact outcome_stopRunner_of_noJob hne hstop hjobs restart msg

/-- A reload of a service whose receiver is registered, which a stopped one has not. -/
theorem Coherent.outcome_forceLoad (h : d.Coherent) (hreceiver : d.closeReceiverRegistered = true) :
    Outcome d d.forceLoad (d.phase.stop true) d.intents := by
  have hout := h.outcome_stopRunner true none
  unfold forceLoad
  cases h with
  | connecting hstate | connected hstate =>
    rw [if_neg (by simp [hstate]), if_pos (by simp [hstate, State.canStop])]
    exact hout
  | joining _ _ hstate | cleaning _ _ _ hstate =>
    rw [stopRunner_of_stopping hstate] at hout
    rw [if_neg (by simp [hstate]), if_neg (by simp [hstate, State.canStop])]
    exact hout
  | stopped _ _ _ hcleared =>
    exact absurd (hreceiver.symm.trans hcleared.closeReceiverRegistered) (by simp)

/-! ## Start commands -/

/-- A start whose profile is rejected stops the service again. -/
theorem outcome_reject (hstate : d.state = .stopped) (hstop : d.stopJobs = []) (hjobs : d.jobs = [])
    (proxy : Option ProxyInstance) (notification : Option String) (message : String) :
    Outcome d ({ d with proxy, notification }.stopRunner false (some message)) (.stopping false)
      d.intents := by
  have h := outcome_stopRunner_of_noJob (d := { d with proxy, notification })
    (by simp [hstate]) hstop hjobs false (some message)
  exact ⟨h.coherent, h.phase, h.intents, h.reports⟩

/-- A start whose profile is accepted launches a connecting job. -/
theorem outcome_connect (hstate : d.state = .stopped) (hstop : d.stopJobs = [])
    (hjobs : d.jobs = []) (env : StartEnv) (profile : Profile) (proxy : ProxyInstance)
    (udpFallback : Option ProxyInstance) :
    Outcome d (d.connect env profile proxy udpFallback) (.connecting true) d.intents := by
  have heq : d.connect env profile proxy udpFallback =
      ({ d with state := .connecting, proxy := some proxy, udpFallback,
                receiverEnabled := env.persistAcrossReboot, closeReceiverRegistered := true,
                notification := some profile.formattedName,
                jobs := [⟨d.nextJob, profile, .dispatched, false⟩],
                connectingJob := some d.nextJob, nextJob := d.nextJob + 1 },
        [.stateChanged .connecting (proxy.profile.name.getD "Idle") none]) := by
    simp [connect, changeState, hstate, hjobs, profileName]
  rw [heq]
  refine ⟨.connecting rfl hstop (by simp) rfl (.inr ⟨_, rfl, rfl, rfl, by simp⟩), rfl, rfl, ?_⟩
  simp [reports, Phase.state, hstate]

/-- `BaseService.Interface.onStartCommand` is ignored unless the service is stopped, and then
either connects or stops again. -/
theorem Coherent.outcome_onStartCommandInterface (h : d.Coherent) (env : StartEnv) :
    Outcome d (d.onStartCommandInterface env)
      (if d.phase ≠ .stopped then d.phase
        else if env.accepts then .connecting true else .stopping false) d.intents := by
  by_cases hstate : d.state = .stopped
  · obtain ⟨hstop, hjobs⟩ : d.stopJobs = [] ∧ d.jobs = [] := by
      cases h <;> simp_all
    have hphase : d.phase = .stopped := by simp [phase, hstate]
    have hstopped : ¬ d.state ≠ .stopped := not_not.mpr hstate
    rw [if_neg (not_not.mpr hphase), onStartCommandInterface, if_neg hstopped]
    -- the three rejections, and the one branch that connects
    cases hprofile : env.currentProfile with
    | none =>
      rw [show env.accepts = false by simp [StartEnv.accepts, hprofile]]
      exact outcome_reject hstate hstop hjobs d.proxy _ _
    | some expanded =>
      cases hproxy : ProxyInstance.create env.base64Size expanded.main expanded.main.route with
      | error message =>
        rw [show env.accepts = false by
          simp [StartEnv.accepts, hprofile, hproxy, Except.toBool]]
        simp only [hproxy]
        exact outcome_reject hstate hstop hjobs d.proxy _ _
      | ok proxy =>
        cases hfallback : createFallback env expanded with
        | error message =>
          rw [show env.accepts = false by
            simp [StartEnv.accepts, hprofile, hfallback, Except.toBool]]
          simp only [hproxy, hfallback]
          exact outcome_reject hstate hstop hjobs (some proxy) _ _
        | ok udpFallback =>
          rw [show env.accepts = true by
            simp [StartEnv.accepts, hprofile, hproxy, hfallback, Except.toBool]]
          simp only [hproxy, hfallback]
          exact outcome_connect hstate hstop hjobs env _ proxy udpFallback
  · have hphase : d.phase ≠ .stopped := by
      cases h <;> simp_all [phase]
    rw [if_pos hphase]
    simp only [onStartCommandInterface, ne_eq, hstate, not_false_eq_true, if_true]
    exact h.outcome_self rfl

/-- `DripVpnService.onStartCommand`. -/
theorem Coherent.outcome_onStartCommand (h : d.Coherent) (env : StartEnv) :
    Outcome d (d.onStartCommand env)
      (if env.permitted then
        (if d.phase ≠ .stopped then d.phase
          else if env.accepts then .connecting true else .stopping false)
      else d.phase.stop false) d.intents := by
  unfold onStartCommand StartEnv.permitted
  cases env.modeVpn && env.prepared with
  | false => exact h.outcome_stopRunner false none
  | true => exact h.outcome_onStartCommandInterface env

/-! ## The connecting job -/

/-- `d` differs from `d₀` only in what a connecting job creates. -/
def Frame (d₀ d : Service) : Prop :=
  ∃ processes worker localDns conn active,
    d = { d₀ with processes, worker, localDns, conn, active }

variable {d₀ : Service} {id : ℕ} {env : BodyEnv}

/-- `startVpn` changes `active` and `conn` only. -/
theorem ensures_startVpn :
    Fallible.Ensures (fun d => Frame d₀ d ∧ d.Started) (startVpn id env)
      (fun _ d => Frame d₀ d ∧ d.Started) (fun _ d => Frame d₀ d) := by
  -- one rule for each statement; the variables named in a `modify` are those of `Frame`
  refine Fallible.ensures_bind (Q := fun _ d => Frame d₀ d ∧ d.Started)
    (Fallible.ensures_guard _ (fun _ h => h) fun _ _ h => h.1) fun _ => ?_
  refine Fallible.ensures_bind (Q := fun _ d => Frame d₀ d ∧ d.Started)
    (Fallible.ensures_modify _ ?_) fun _ => ?_
  · rintro d ⟨⟨p, w, l, c, a, rfl⟩, hstarted⟩
    exact ⟨⟨p, w, l, c, true, rfl⟩, ⟨hstarted.processes, hstarted.localDns⟩⟩
  refine Fallible.ensures_bind (Q := fun _ d => Frame d₀ d ∧ d.Started)
    (Fallible.ensures_throwIf _ _ (fun _ h _ => h) fun _ h => h.1) fun _ => ?_
  refine Fallible.ensures_bind (Q := fun _ d => Frame d₀ d ∧ d.Started)
    (Fallible.ensures_modify _ ?_) fun _ => ?_
  · rintro d ⟨⟨p, w, l, c, a, rfl⟩, hstarted⟩
    exact ⟨⟨p, w, l, some id, a, rfl⟩, ⟨hstarted.processes, hstarted.localDns⟩⟩
  exact Fallible.ensures_guard _ (fun _ h => h) fun _ _ h => h.1

/-- The fallback changes no variable of the service. -/
theorem ensures_startFallback (P : Service → Prop) (udpFallback : Option ProxyInstance) :
    Fallible.Ensures P (startFallback env udpFallback) (fun _ => P) (fun _ => P) := by
  cases udpFallback with
  | none => exact Fallible.ensures_pure () fun _ h => h
  | some fallback =>
    exact Fallible.ensures_bind (Fallible.ensures_throwIf _ _ (fun _ h _ => h) fun _ h => h)
      fun _ => Fallible.ensures_guard _ (fun _ h => h) fun _ _ h => h

/-- `BaseService.Interface.startProcesses` leaves the DNS worker behind. -/
theorem ensures_startProcessesInterface :
    Fallible.Ensures (fun d => Frame d₀ d ∧ d.processes ≠ none) (startProcessesInterface id env)
      (fun _ d => Frame d₀ d ∧ d.Started) (fun _ d => Frame d₀ d) := by
  refine Fallible.ensures_bind (Q := fun _ d => Frame d₀ d ∧ d.processes ≠ none)
    (Fallible.ensures_get fun _ h => h) fun d => ?_
  refine Fallible.ensures_bind (Q := fun _ d => Frame d₀ d ∧ d.processes ≠ none)
    (Fallible.ensures_throwIf _ _ (fun _ h _ => h) fun _ h => h.1) fun _ => ?_
  refine Fallible.ensures_bind (Q := fun _ d => Frame d₀ d ∧ d.processes ≠ none)
    (Fallible.ensures_guard _ (fun _ h => h) fun _ _ h => h.1) fun _ => ?_
  refine Fallible.ensures_bind (Q := fun _ d => Frame d₀ d ∧ d.processes ≠ none) ?_ fun _ => ?_
  · exact (ensures_startFallback _ _).of_imp (fun _ h => h) (fun _ _ h => h) fun _ _ h => h.1
  refine Fallible.ensures_bind (Q := fun _ d => Frame d₀ d ∧ d.processes ≠ none)
    (Fallible.ensures_guard _ (fun _ h => h) fun _ _ h => h.1) fun _ => ?_
  refine Fallible.ensures_modify _ ?_
  rintro d ⟨⟨p, w, l, c, a, rfl⟩, hprocesses⟩
  exact ⟨⟨p, w, some id, c, a, rfl⟩, ⟨hprocesses, by simp⟩⟩

/-- Starting the processes changes nothing but what it creates, and when it returns the pool and
the DNS worker are there. -/
theorem ensures_startProcesses :
    Fallible.Ensures (fun d => d = d₀) (startProcesses id env) (fun _ d => Frame d₀ d ∧ d.Started)
      (fun _ d => Frame d₀ d) := by
  refine Fallible.ensures_bind (Q := fun _ d => Frame d₀ d ∧ d.processes ≠ none)
    (Fallible.ensures_modify _ ?_) fun _ => ?_
  · rintro d rfl
    exact ⟨⟨some id, d.worker, d.localDns, d.conn, d.active, rfl⟩, by simp⟩
  refine Fallible.ensures_bind (Q := fun _ d => Frame d₀ d ∧ d.processes ≠ none)
    (Fallible.ensures_guard _ (fun _ h => h) fun _ _ h => h.1) fun _ => ?_
  refine Fallible.ensures_bind (Q := fun _ d => Frame d₀ d ∧ d.processes ≠ none)
    (Fallible.ensures_modify _ ?_) fun _ => ?_
  · rintro d ⟨⟨p, w, l, c, a, rfl⟩, hprocesses⟩
    exact ⟨⟨p, some id, l, c, a, rfl⟩, hprocesses⟩
  exact Fallible.ensures_bind ensures_startProcessesInterface fun _ => ensures_startVpn

/-- What the next suspension point, or the end of the body, finds. -/
def Reached (d₀ : Service) (next : Option SuspensionPoint) (d : Service) : Prop :=
  Frame d₀ d ∧ ((next = none ∨ ∃ tries, next = some (.sendFd tries)) → d.Started)

/-- A stretch of the connecting job changes nothing but what it creates; where it waits to send the
descriptor, and where it ends, the processes are there. -/
theorem ensures_body {job : ConnectingJob} (env : BodyEnv)
    (hstarted : ∀ tries, job.suspendedAt = .sendFd tries → d₀.Started) :
    Fallible.Ensures (fun d => d = d₀) (body job env) (Reached d₀) (fun _ d => Frame d₀ d) := by
  have hself : Frame d₀ d₀ := ⟨_, _, _, _, _, rfl⟩
  -- the part shared by the two routes
  have hstart : Fallible.Ensures (fun d => d = d₀)
      (do startProcesses job.id env; return some (.sendFd 0)) (Reached d₀)
      (fun _ d => Frame d₀ d) :=
    Fallible.ensures_bind ensures_startProcesses fun _ =>
      Fallible.ensures_pure _ fun d hd => ⟨hd.1, fun _ => hd.2⟩
  unfold body
  cases hat : job.suspendedAt with
  | dispatched =>
    refine Fallible.ensures_bind (Q := fun _ d => d = d₀)
      (Fallible.ensures_guard _ (fun _ h => h) ?_) fun _ => Fallible.ensures_pure _ ?_
    · rintro e d rfl
      exact hself
    · rintro d rfl
      exact ⟨hself, by simp⟩
  | preInit received =>
    dsimp only
    split
    · refine Fallible.ensures_pure _ ?_
      rintro d rfl
      exact ⟨hself, by simp⟩
    · exact hstart
  | flatten => exact hstart
  | sendFd tries =>
    -- the processes were there when the job was suspended, and `sendFd` touches none of them
    have hthere := hstarted tries hat
    dsimp only
    cases env.attempt with
    | sent =>
      refine Fallible.ensures_bind (Q := fun _ d => d = d₀)
        (Fallible.ensures_guard _ (fun _ h => h) ?_) fun _ => Fallible.ensures_pure _ ?_
      · rintro e d rfl
        exact hself
      · rintro d rfl
        exact ⟨hself, fun _ => hthere⟩
    | ioException readableMessage =>
      dsimp only
      split
      · refine Fallible.ensures_throw _ ?_
        rintro d rfl
        exact hself
      · refine Fallible.ensures_pure _ ?_
        rintro d rfl
        exact ⟨hself, fun _ => hthere⟩
    | throws e =>
      refine Fallible.ensures_throw _ ?_
      rintro d rfl
      exact hself

/-- A connecting job that throws ends, and stops the service unless it was a cancellation. -/
theorem outcome_failConnecting {job : ConnectingJob} (hstate : d.state = .connecting)
    (hstop : d.stopJobs = []) (hproxy : d.proxy ≠ none)
    (hreceiver : d.closeReceiverRegistered = true) (hjobs : d.jobs = [job])
    (hid : d.connectingJob = some job.id) (e : Throwable) :
    Outcome d (d.failConnecting job.id e)
      (if e = .cancellation then .connecting false else .stopping false) d.intents := by
  cases e with
  | cancellation =>
    have hnone : (d.endConnecting job.id).jobs = [] := by simp [endConnecting, removeJob, hjobs]
    refine ⟨.connecting hstate hstop hproxy hreceiver (.inl hnone), ?_, rfl, ?_⟩
    · simp [failConnecting, phase, endConnecting, removeJob, hstate, hjobs]
    · simp [failConnecting, reports, Phase.state, hstate]
  | exception readableMessage =>
    -- the handler cancels the very job it runs in, which then ends
    have heq : d.failConnecting job.id (.exception readableMessage) =
        ({ d with state := .stopping, jobs := [], connectingJob := none,
                  stopJobs := [⟨false, some ("Failed: " ++ readableMessage), .joining job.id⟩] },
          [.stateChanged .stopping d.profileName none]) := by
      simp [failConnecting, stopRunner_of_job (d := d) (by simp [hstate]) hjobs hid, endConnecting,
        removeJob, hstop]
    rw [heq]
    refine ⟨.joining _ job.id rfl rfl rfl (.inl rfl), by simp [phase], rfl, ?_⟩
    simp [reports, Phase.state, hstate]

/-- A connecting job that runs on is suspended again, has connected, or has failed. -/
theorem Attempting.outcome_runBody {job : ConnectingJob} (hjob : d.Attempting job)
    (hstate : d.state = .connecting) (hstop : d.stopJobs = []) (hproxy : d.proxy ≠ none)
    (hreceiver : d.closeReceiverRegistered = true) (env : BodyEnv) :
    ∃ p, (p = .connecting true ∨ p = .connecting false ∨ p = .connected ∨ p = .stopping false) ∧
      Outcome d (d.runBody job env) p d.intents := by
  have hbody := ensures_body env hjob.started d rfl
  unfold runBody
  revert hbody
  rcases body job env d with ⟨e | _ | point, d'⟩
  · -- the body threw
    rintro ⟨p, w, l, c, a, rfl⟩
    have h := outcome_failConnecting
      (d := { d with processes := p, worker := w, localDns := l, conn := c, active := a })
      hstate hstop hproxy hreceiver hjob.jobs hjob.connectingJob e
    refine ⟨_, ?_, h.coherent, h.phase, h.intents, h.reports⟩
    split <;> simp
  · -- the body came to its end
    rintro ⟨⟨p, w, l, c, a, rfl⟩, hstarted⟩
    have hthere := hstarted (.inl rfl)
    refine ⟨.connected, by simp, .connected ?_ ?_ ?_ ?_ ?_ ?_, ?_, ?_, ?_⟩
    · simp [changeState, hstate, endConnecting, removeJob]
    · simp [changeState, hstate, endConnecting, removeJob, hstop]
    · simpa [changeState, hstate, endConnecting, removeJob] using hproxy
    · simp [changeState, hstate, endConnecting, removeJob, hreceiver]
    · simp [changeState, hstate, endConnecting, removeJob, hjob.jobs]
    · constructor
      · simpa [changeState, hstate, endConnecting, removeJob] using hthere.processes
      · simpa [changeState, hstate, endConnecting, removeJob] using hthere.localDns
    · simp [changeState, hstate, endConnecting, removeJob, phase]
    · simp [changeState, hstate, endConnecting, removeJob]
    · simp [changeState, hstate, reports, Phase.state]
  · -- the body is suspended again
    rintro ⟨⟨p, w, l, c, a, rfl⟩, hstarted⟩
    have hjobs : (suspendAt
        { d with processes := p, worker := w, localDns := l, conn := c, active := a }
        job.id point).jobs = [{ job with suspendedAt := point }] := by
      simp [suspendAt, hjob.jobs]
    refine ⟨.connecting true, .inl rfl, .connecting hstate hstop hproxy hreceiver
      (.inr ⟨_, hjobs, hjob.not_cancelled, hjob.connectingJob, ?_⟩), ?_, rfl, ?_⟩
    · rintro tries rfl
      have hthere := hstarted (.inr ⟨tries, rfl⟩)
      exact ⟨hthere.processes, hthere.localDns⟩
    · simp [phase, suspendAt, hstate, hjob.jobs]
    · simp [reports, Phase.state, hstate]

/-- A connecting job of a service that stops was cancelled: it only ends. -/
theorem outcome_resumeJob_of_joining {job : ConnectingJob} {stop : StopJob}
    (hstate : d.state = .stopping) (hstop : d.stopJobs = [stop])
    (hphase : stop.phase = .joining job.id) (hjobs : d.jobs = [job])
    (hcancelled : job.cancelled = true) {env : BodyEnv} {resumption : Resumption}
    {o : List ServiceEffect} (h : d.resumeJob job env resumption = some (d', o)) :
    Outcome d (d', o) d.phase d.intents := by
  -- whatever the resumption, the job is removed and nothing else but `connectingJob` changes
  obtain ⟨connectingJob, rfl, rfl⟩ : ∃ connectingJob,
      d' = { d with jobs := [], connectingJob } ∧ o = [] := by
    cases resumption with
    | returns => simp [resumeJob, hcancelled] at h
    | cancelled =>
      simp only [resumeJob, hcancelled, not_true_eq_false, if_false] at h
      split at h
      · obtain ⟨rfl, rfl⟩ := Prod.mk.inj (Option.some.inj h)
        exact ⟨d.connectingJob, by simp [removeJob, hjobs], rfl⟩
      · obtain ⟨rfl, rfl⟩ := Prod.mk.inj (Option.some.inj h)
        exact ⟨none, by simp [endConnecting, removeJob, hjobs], rfl⟩
    | throws e =>
      simp only [resumeJob] at h
      split at h
      · exact absurd h (by simp)
      · cases e with
        | cancellation =>
          obtain ⟨rfl, rfl⟩ := Prod.mk.inj (Option.some.inj h)
          exact ⟨none, by simp [endConnecting, removeJob, hjobs], rfl⟩
        | exception readableMessage =>
          -- the handler's stop request is dropped
          simp only [failConnecting, stopRunner_of_stopping hstate, Option.some.injEq,
            Prod.mk.injEq] at h
          obtain ⟨rfl, rfl⟩ := h
          exact ⟨none, by simp [endConnecting, removeJob, hjobs], rfl⟩
  refine ⟨.joining stop job.id hstate hstop hphase (.inl rfl), ?_, rfl, ?_⟩
  · simp [phase, hstate]
  · simp [reports, phase, hstate, Phase.state]

/-- The connecting job with the number `id`, when there is only one. -/
theorem find_job {job found : ConnectingJob} (hjobs : d.jobs = [job])
    (h : (d.jobs.find? fun j => j.id = id) = some found) : found = job ∧ job.id = id := by
  rw [hjobs, List.find?_singleton] at h
  split at h
  next hid => exact ⟨(Option.some.inj h).symm, of_decide_eq_true hid⟩
  next => exact absurd h (by simp)

/-- A connecting job resumes. -/
theorem Coherent.outcome_resumeConnecting (h : d.Coherent) {resumption : Resumption}
    {o : List ServiceEffect}
    (hstep : d.step (.resumeConnecting id resumption env) = some (d', o)) :
    ∃ p, (p = d.phase ∨ d.phase = .connecting true ∧
        (p = .connecting false ∨ p = .connected ∨ p = .stopping false)) ∧
      Outcome d (d', o) p d.intents := by
  simp only [step] at hstep
  split at hstep
  next found hfind =>
    -- only two phases have a connecting job: nobody has cancelled it yet, or a stop job joins it
    cases h with
    | connecting hstate hstop hproxy hreceiver hjobs =>
      rcases hjobs with hjobs | ⟨job, hjob⟩
      · simp [hjobs] at hfind
      obtain ⟨rfl, -⟩ := find_job hjob.jobs hfind
      have hphase : d.phase = .connecting true := by simp [phase, hstate, hjob.jobs]
      rw [hphase]
      cases resumption with
      | cancelled => simp [resumeJob, hjob.not_cancelled] at hstep
      | throws e =>
        simp only [resumeJob] at hstep
        split at hstep
        · exact absurd hstep (by simp)
        · rw [← Option.some.inj hstep]
          refine ⟨_, ?_, outcome_failConnecting hstate hstop hproxy hreceiver hjob.jobs
            hjob.connectingJob e⟩
          split <;> simp
      | returns =>
        simp only [resumeJob] at hstep
        split at hstep
        · exact absurd hstep (by simp)
        · rw [← Option.some.inj hstep]
          obtain ⟨p, hp, hrun⟩ := hjob.outcome_runBody hstate hstop hproxy hreceiver env
          refine ⟨p, ?_, hrun⟩
          rcases hp with rfl | hp
          · exact .inl rfl
          · exact .inr ⟨rfl, hp⟩
    | joining stop id hstate hstop hphase hjobs =>
      rcases hjobs with hjobs | ⟨job, hjobs, rfl, hcancelled⟩
      · simp [hjobs] at hfind
      obtain ⟨rfl, -⟩ := find_job hjobs hfind
      exact ⟨d.phase, .inl rfl,
        outcome_resumeJob_of_joining hstate hstop hphase hjobs hcancelled hstep⟩
    | connected _ _ _ _ hjobs | cleaning _ _ _ _ _ _ hjobs | stopped _ _ hjobs =>
      simp [hjobs] at hfind
  next => exact absurd hstep (by simp)

/-- The network actor receives the `Start` of a connecting job. -/
theorem Coherent.outcome_startReceived (h : d.Coherent) {o : List ServiceEffect}
    (hstep : d.step (.startReceived id) = some (d', o)) : Outcome d (d', o) d.phase d.intents := by
  simp only [step] at hstep
  split at hstep
  next found hfind =>
    simp only [Option.ite_none_right_eq_some, Option.some.injEq, Prod.mk.injEq] at hstep
    obtain ⟨⟨hat, hactive⟩, rfl, rfl⟩ := hstep
    cases h with
    | connecting hstate hstop hproxy hreceiver hjobs =>
      rcases hjobs with hjobs | ⟨job, hjob⟩
      · simp [hjobs] at hfind
      obtain ⟨rfl, rfl⟩ := find_job hjob.jobs hfind
      have hjobs : (d.suspendAt found.id (.preInit true)).jobs =
          [{ found with suspendedAt := .preInit true }] := by
        simp [suspendAt, hjob.jobs]
      refine ⟨.connecting hstate hstop hproxy hreceiver
        (.inr ⟨_, hjobs, hactive, hjob.connectingJob, by simp⟩), ?_, rfl, ?_⟩
      · simp [phase, suspendAt, hstate]
      · simp [reports, phase, Phase.state, hstate]
    | joining stop id hstate hstop hphase hjobs =>
      rcases hjobs with hjobs | ⟨job, hjobs, rfl, hcancelled⟩
      · simp [hjobs] at hfind
      obtain ⟨rfl, -⟩ := find_job hjobs hfind
      -- a cancelled job is not waiting for the actor any more
      exact absurd (hactive.symm.trans hcancelled) (by simp)
    | connected _ _ _ _ hjobs | cleaning _ _ _ _ _ _ hjobs | stopped _ _ hjobs =>
      simp [hjobs] at hfind
  next => exact absurd hstep (by simp)

/-- The only stop job. -/
theorem getElem?_stopJob {stop found : StopJob} {i : ℕ} (hstop : d.stopJobs = [stop])
    (h : d.stopJobs[i]? = some found) : i = 0 ∧ found = stop := by
  rw [hstop] at h
  obtain ⟨hi, rfl⟩ := List.getElem?_eq_some_iff.mp h
  obtain rfl : i = 0 := by simpa using hi
  exact ⟨rfl, rfl⟩

/-- The network actor receives the `Stop` of a stop job. -/
theorem Coherent.outcome_stopReceived (h : d.Coherent) {i : ℕ} {o : List ServiceEffect}
    (hstep : d.step (.stopReceived i) = some (d', o)) : Outcome d (d', o) d.phase d.intents := by
  obtain ⟨found, hfound, hreceive⟩ := Option.bind_eq_some_iff.mp hstep
  simp only [receiveStop] at hreceive
  cases h with
  | joining stop id hstate hstop hphase hjobs =>
    obtain ⟨rfl, rfl⟩ := getElem?_stopJob hstop hfound
    simp [hphase] at hreceive
  | cleaning stop coroutine received hstate hstop hphase hjobs hcleared =>
    obtain ⟨rfl, rfl⟩ := getElem?_stopJob hstop hfound
    split at hreceive
    next current hphase' =>
      obtain ⟨rfl, rfl⟩ := Prod.mk.inj (Option.some.inj hreceive)
      refine ⟨.cleaning { found with phase := .cleaning current true } current true hstate ?_ rfl
        hjobs ?_, ?_, rfl, ?_⟩
      · simp [setStopJob, hstop]
      · exact ⟨hcleared.processes, hcleared.proxy, hcleared.udpFallback, hcleared.localDns,
          hcleared.notification, hcleared.closeReceiverRegistered⟩
      · simp [phase, setStopJob, hstate, hstop]
      · simp [reports, phase, Phase.state, hstate]
    next => exact absurd hreceive (by simp)
  | connecting _ hstop | connected _ hstop | stopped _ hstop => simp [hstop] at hfound

/-- The end of a stop job. -/
theorem finishStop_eq {job : StopJob} (h : d.state = .stopping) :
    d.finishStop job =
      ({ d with state := .stopped, intents := d.intents + job.restart.toNat,
                receiverEnabled := job.restart && d.receiverEnabled },
        [.stateChanged .stopped d.profileName job.msg,
          if job.restart then .startRunner else .stopSelf]) := by
  cases hrestart : job.restart <;> simp [finishStop, changeState, startRunner, h, hrestart]

/-- A stop job resumes: it cleans up, or it ends. -/
theorem Coherent.outcome_resumeStop (h : d.Coherent) {i : ℕ} {o : List ServiceEffect}
    (hstep : d.step (.resumeStop i) = some (d', o)) :
    Outcome d (d', o) d.phase d.intents ∨
      ∃ restart, d.phase = .stopping restart ∧
        Outcome d (d', o) .stopped (d.intents + restart.toNat) := by
  obtain ⟨found, hfound, hresume⟩ := Option.bind_eq_some_iff.mp hstep
  simp only [resumeStopJob] at hresume
  cases h with
  | joining stop id hstate hstop hphase hjobs =>
    -- the connecting job has completed, and the clean-up begins
    left
    obtain ⟨rfl, rfl⟩ := getElem?_stopJob hstop hfound
    simp only [hphase, Option.ite_none_left_eq_some, Option.some.injEq, Prod.mk.injEq] at hresume
    obtain ⟨hended, rfl, rfl⟩ := hresume
    have hnone : d.jobs = [] := by
      rcases hjobs with hjobs | ⟨job, hjobs, rfl, -⟩
      · exact hjobs
      · simp [hjobs] at hended
    refine ⟨.cleaning { found with phase := .cleaning d.nextCoroutine false } d.nextCoroutine false
      hstate ?_ rfl hnone ⟨rfl, rfl, rfl, rfl, rfl, rfl⟩, ?_, rfl, ?_⟩
    · simp [setStopJob, cleanUp, killProcesses, hstop]
    · simp [phase, setStopJob, cleanUp, killProcesses, hstate, hstop]
    · simp [reports, cleanUp, phase, Phase.state, hstate]
  | cleaning stop coroutine received hstate hstop hphase hjobs hcleared =>
    -- the clean-up is complete, and the stop ends
    right
    obtain ⟨rfl, rfl⟩ := getElem?_stopJob hstop hfound
    simp only [hphase, Option.ite_none_right_eq_some, Option.some.injEq] at hresume
    obtain ⟨-, hresume⟩ := hresume
    rw [finishStop_eq (d := { d with stopJobs := d.stopJobs.eraseIdx 0 }) hstate] at hresume
    obtain ⟨rfl, rfl⟩ := Prod.mk.inj hresume
    refine ⟨found.restart, by simp [phase, hstate, hstop], ?_⟩
    refine ⟨.stopped rfl (by simp [hstop]) hjobs ?_, rfl, rfl, ?_⟩
    · exact ⟨hcleared.processes, hcleared.proxy, hcleared.udpFallback, hcleared.localDns,
        hcleared.notification, hcleared.closeReceiverRegistered⟩
    · cases found.restart <;> simp [reports, Phase.state, hstate]
  | connecting _ hstop | connected _ hstop | stopped _ hstop => simp [hstop] at hfound

/-- Every step of the code is a move of the lifecycle, keeps the variables coherent and reports
the change of the state. -/
theorem Coherent.step (h : d.Coherent) {a : Action} {o : List ServiceEffect}
    (hstep : d.step a = some (d', o)) :
    ∃ p n, Moves d.phase d.intents p n a ∧ Outcome d (d', o) p n := by
  cases a with
  | startService =>
    obtain ⟨rfl, rfl⟩ := Prod.mk.inj (Option.some.inj hstep)
    exact ⟨d.phase, d.intents + 1, ⟨rfl, rfl⟩, h.withIntents (d.intents + 1)⟩
  | onStartCommand env =>
    simp only [Service.step, Option.ite_none_left_eq_some, Option.some.injEq] at hstep
    obtain ⟨hpos, hstep⟩ := hstep
    rw [← hstep]
    -- the delivery of the intent, then the command itself
    have hout := (h.withIntents (d.intents - 1)).coherent.outcome_onStartCommand env
    refine ⟨_, d.intents - 1, ⟨by omega, ?_⟩, hout.coherent, hout.phase, hout.intents,
      hout.reports⟩
    split <;> rfl
  | close =>
    simp only [Service.step, Option.ite_none_right_eq_some, Option.some.injEq] at hstep
    rw [← hstep.2]
    exact ⟨_, _, ⟨rfl, rfl⟩, h.outcome_stopRunner false none⟩
  | reload =>
    simp only [Service.step, Option.ite_none_right_eq_some, Option.some.injEq] at hstep
    rw [← hstep.2]
    exact ⟨_, _, ⟨rfl, rfl⟩, h.outcome_forceLoad hstep.1⟩
  | shutdown =>
    simp only [Service.step, Option.ite_none_right_eq_some, Option.some.injEq] at hstep
    obtain ⟨rfl, rfl⟩ := Prod.mk.inj hstep.2
    exact ⟨_, _, ⟨rfl, rfl⟩, h.outcome_self rfl⟩
  | onRevoke =>
    rw [← Option.some.inj hstep]
    exact ⟨_, _, ⟨rfl, rfl⟩, h.outcome_stopRunner false none⟩
  | onFatal readableMessage =>
    rw [← Option.some.inj hstep]
    exact ⟨_, _, ⟨rfl, rfl⟩, h.outcome_stopRunner false (some readableMessage)⟩
  | restartCallbackFails msg =>
    rw [← Option.some.inj hstep]
    exact ⟨_, _, ⟨rfl, rfl⟩, h.outcome_stopRunner false msg⟩
  | startReceived id => exact ⟨_, _, ⟨rfl, rfl⟩, h.outcome_startReceived hstep⟩
  | resumeConnecting id resumption env =>
    obtain ⟨p, hp, hout⟩ := h.outcome_resumeConnecting hstep
    exact ⟨p, _, ⟨rfl, hp⟩, hout⟩
  | stopReceived i => exact ⟨_, _, ⟨rfl, rfl⟩, h.outcome_stopReceived hstep⟩
  | resumeStop i =>
    rcases h.outcome_resumeStop hstep with hout | ⟨restart, hp, hout⟩
    · exact ⟨_, _, .inl ⟨rfl, rfl⟩, hout⟩
    · exact ⟨_, _, .inr ⟨restart, hp, rfl, rfl⟩, hout⟩

/-- A service that was just created is coherent. -/
theorem coherent_init : service.init.Coherent :=
  .stopped rfl rfl rfl ⟨rfl, rfl, rfl, rfl, rfl, rfl⟩

/-- Every reachable state is coherent. -/
theorem coherent_of_reachable (h : service.Reachable d) : d.Coherent := by
  refine Machine.Reachable.invariant coherent_init ?_ h
  intro d a d' o hd hstep
  obtain ⟨p, n, -, hout⟩ := hd.step hstep
  exact hout.coherent

end Service

/-! ## Main result -/

/-- No move leads from a service that stops or is stopped to a connected one. -/
theorem Moves.not_connected {p p' : Phase} {n n' : ℕ} {a : Service.Action}
    (h : Moves p n p' n' a) (hp : p = .stopped ∨ ∃ restart, p = .stopping restart) :
    p' ≠ .connected := by
  rintro rfl
  cases a with
  | onStartCommand env =>
    obtain ⟨-, h⟩ := h
    rcases hp with rfl | ⟨restart, rfl⟩
    · simp only [ne_eq, not_true_eq_false, if_false, Phase.stop] at h
      split_ifs at h
    · simp [Phase.stop] at h
  | resumeConnecting id resumption env =>
    obtain ⟨-, rfl | ⟨rfl, -⟩⟩ := h
    · simp at hp
    · simp at hp
  | resumeStop i =>
    rcases h with ⟨rfl, -⟩ | ⟨restart, -, h, -⟩
    · simp at hp
    · simp at h
  | startService | shutdown | startReceived | stopReceived =>
    obtain ⟨rfl, -⟩ := h
    simp at hp
  | close | reload | onRevoke | onFatal | restartCallbackFails =>
    rcases hp with rfl | ⟨restart, rfl⟩ <;> simp [Moves, Phase.stop] at h

/-- The lifecycle of the service, in every state reachable by any order of its steps: a stopped
service has nothing of a connection left and no connecting job; it is stopping exactly while one
stop job is in flight; a connected service has no stop job and everything a connection needs. And
no step leads from a service that stops or is stopped to a connected one, so a connecting job that
was overtaken by a stop never connects. -/
theorem lifecycle_of_reachable {d : Service} (h : service.Reachable d) :
    (d.state = .stopped → d.processes = none ∧ d.proxy = none ∧ d.udpFallback = none ∧
      d.localDns = none ∧ d.notification = none ∧ d.closeReceiverRegistered = false ∧
      d.jobs = []) ∧
    (d.state = .stopping ↔ d.stopJobs.length = 1) ∧
    (d.state = .connected → d.stopJobs = [] ∧ d.proxy ≠ none ∧ d.processes ≠ none ∧
      d.localDns ≠ none) ∧
    (d.state = .stopping ∨ d.state = .stopped →
      ∀ a d' o, d.step a = some (d', o) → d'.state ≠ .connected) := by
  have hd := Service.coherent_of_reachable h
  refine ⟨?_, ?_, ?_, ?_⟩
  · intro hstate
    cases hd with
    | stopped _ _ hjobs hcleared =>
      exact ⟨hcleared.processes, hcleared.proxy, hcleared.udpFallback, hcleared.localDns,
        hcleared.notification, hcleared.closeReceiverRegistered, hjobs⟩
    | _ => simp_all
  · cases hd <;> simp_all
  · intro hstate
    cases hd with
    | connected _ hstop hproxy _ _ hstarted =>
      exact ⟨hstop, hproxy, hstarted.processes, hstarted.localDns⟩
    | _ => simp_all
  · intro hstate a d' o hstep hconnected
    obtain ⟨p, n, hmoves, hout⟩ := hd.step hstep
    -- the move lemma speaks of phases, the statement of states
    have hphase : d.phase = .stopped ∨ ∃ restart, d.phase = .stopping restart := by
      rcases hstate with hstate | hstate
      · exact .inr ⟨_, by rw [Service.phase, hstate]⟩
      · exact .inl (by rw [Service.phase, hstate])
    refine hmoves.not_connected hphase ?_
    rw [← hout.phase, Service.phase, hconnected]

/-- A start in VPN mode, with the permission and with the default profile. -/
def defaultStart : Service.StartEnv :=
  { modeVpn := true, prepared := true, currentProfile := some { main := {}, udpFallback := none },
    base64Size := fun _ => none, persistAcrossReboot := false }

/-- A stretch of the connecting job in which no call throws. -/
def smooth : Service.BodyEnv :=
  { throws := fun _ => none, fallbackPlugin := false, established := true, attempt := .sent }

/-- The actions of a connection that is set up without failures, by the connecting job `id`. -/
def connectActions (id : ℕ) : List Service.Action :=
  [.startService, .onStartCommand defaultStart, .resumeConnecting id .returns smooth,
    .startReceived id, .resumeConnecting id .returns smooth, .resumeConnecting id .returns smooth]

/-- A service that has connected is as the lifecycle says. -/
theorem lifecycle_of_reachable_connected :
    ∃ d os, service.run service.init (connectActions 0) = some (d, os) ∧ d.state = .connected ∧
      d.stopJobs = [] ∧ d.proxy ≠ none ∧ d.processes ≠ none ∧ d.localDns ≠ none := by
  refine ⟨_, _, rfl, rfl, ?_⟩
  exact (lifecycle_of_reachable ⟨connectActions 0, _, rfl⟩).2.2.1 rfl

end BaseService
