import DripVpn.Db.ProfileManager
import DripVpn.Foundations.Fallible
import DripVpn.Foundations.Machine

/-!
# The VPN service

`BaseService.Interface` as `DripVpnService` implements it: the variables of `BaseService.Data` and
of the service, the entry points that run on the main thread, and the two kinds of coroutines that
share these variables, the connecting job and the stop job.

The module introduces:

* `Service` — the variables, with the coroutines that are suspended at present;
* `Service.stopRunner`, `Service.onStartCommand`, `Service.forceLoad` — the entry points;
* `Service.body` — the connecting job between two of its suspension points;
* `service` — the service as a reactive machine. An action is one stretch of main-thread code up
  to the next suspension, together with what the environment contributes to it: the stored
  profile, the exceptions of the calls made on the way, the way a suspended call ends.

A coroutine that was cancelled resumes with a `CancellationException` or with the exception of the
call it waits for, never normally, and the body of one that was cancelled before its first
dispatch does not run at all, its `finally` block included.
-/

open Reactive

namespace BaseService

/-! ## Variables -/

/-- `BaseService.State`. -/
inductive State where
  /-- Only reported for a service that is not there. -/
  | idle
  | connecting
  | connected
  | stopping
  | stopped
  deriving DecidableEq, Repr

/-- `State.canStop`. -/
def State.canStop : State → Bool
  | .connecting => true
  | .connected => true
  | _ => false

/-- What a call of the connecting job throws: a `CancellationException`, or any other exception
with its `readableMessage`. -/
inductive Throwable where
  | cancellation
  | exception (readableMessage : String)
  deriving DecidableEq, Repr

/-- `ProxyInstance`. -/
structure ProxyInstance where
  profile : Profile
  route : String
  deriving DecidableEq

/-- The first password part that is not the Base64 form of 16 or 32 bytes, as the message of the
exception; `base64Size` is the number of bytes `Base64.decode` returns, `none` when it throws. -/
def checkKeys (base64Size : String → Option ℕ) : List String → Except String Unit
  | [] => .ok ()
  | pwd :: rest =>
    match base64Size pwd with
    | none => .error "bad base-64"
    | some n => if n = 16 ∨ n = 32 then checkKeys base64Size rest
      else .error "The Base64 Key is invalid."

/-- The constructor of `ProxyInstance`, with the message of the `IllegalArgumentException` it may
throw. -/
def ProxyInstance.create (base64Size : String → Option ℕ) (profile : Profile) (route : String) :
    Except String ProxyInstance :=
  if profile.host = "" ∨ (profile.method ≠ "none" ∧ profile.password = "") then .error ""
  else if profile.method ∈ ["aes-192-gcm", "chacha20", "salsa20"] then
    .error ("cipher " ++ profile.method ++ " is deprecated.")
  else if profile.method ∈ ["2022-blake3-aes-128-gcm", "2022-blake3-aes-256-gcm",
      "2022-blake3-chacha20-poly1305"] then
    (checkKeys base64Size (profile.password.splitOn ":")).map fun _ => { profile, route }
  else .ok { profile, route }

/-- The object that `this` denotes where a key is passed to `DefaultNetworkListener`. -/
inductive This where
  | service
  /-- A coroutine, which is the receiver of the block given to `launch`. -/
  | coroutine (n : ℕ)
  deriving DecidableEq, Repr

/-- Where the connecting job is suspended. -/
inductive SuspensionPoint where
  /-- Waiting for its first dispatch. -/
  | dispatched
  /-- Sending `Start` to the network actor, which may have received it already. -/
  | preInit (received : Bool)
  /-- In `withContext(Dispatchers.IO)`, flattening the custom rules. -/
  | flatten
  /-- In the `delay` of `sendFd`. -/
  | sendFd (tries : ℕ)
  deriving DecidableEq, Repr

/-- A connecting job that has not completed. -/
structure ConnectingJob where
  id : ℕ
  /-- The main profile it connects to. -/
  profile : Profile
  /-- Where it is suspended. -/
  suspendedAt : SuspensionPoint
  cancelled : Bool
  deriving DecidableEq

/-- Where a stop job is suspended. -/
inductive StopPhase where
  /-- Joining a connecting job that has not completed. -/
  | joining (id : ℕ)
  /-- At the end of `coroutineScope`, waiting for the coroutines of the clean-up, one of which,
  `coroutine`, sends `Stop` to the network actor. -/
  | cleaning (coroutine : ℕ) (received : Bool)
  deriving DecidableEq, Repr

/-- A stop job that has not completed. -/
structure StopJob where
  restart : Bool
  msg : Option String
  phase : StopPhase
  deriving DecidableEq

/-- The variables of `BaseService.Data` and of `DripVpnService`, and the coroutines that have not
completed. Objects the code creates while connecting are numbered by the connecting job. -/
structure Service where
  state : State
  processes : Option ℕ
  proxy : Option ProxyInstance
  udpFallback : Option ProxyInstance
  localDns : Option ℕ
  /-- The title of the notification. -/
  notification : Option String
  closeReceiverRegistered : Bool
  connectingJob : Option ℕ
  conn : Option ℕ
  worker : Option ℕ
  active : Bool
  /-- `DripVpnReceiver.enabled`. -/
  receiverEnabled : Bool
  /-- The connecting jobs that have not completed. -/
  jobs : List ConnectingJob
  /-- The stop jobs that have not completed. -/
  stopJobs : List StopJob
  /-- The number of connecting jobs launched so far. -/
  nextJob : ℕ
  /-- The number of clean-up coroutines launched so far. -/
  nextCoroutine : ℕ
  /-- The start intents that were issued and not delivered yet. -/
  intents : ℕ
  deriving DecidableEq

/-- What the service does to the outside. -/
inductive ServiceEffect where
  /-- `binder.stateChanged`: the report to the registered callbacks. -/
  | stateChanged (s : State) (profileName : String) (msg : Option String)
  | trafficPersisted (ids : List Int64)
  | persistStats (ids : List Int64)
  /-- The network actor receives `Start`. -/
  | startListener (key : This)
  /-- The network actor receives `Stop`. -/
  | stopListener (key : This)
  | startRunner
  | stopSelf
  deriving DecidableEq

/-! ## Entry points -/

namespace Service

/-- `binder.profileName`. -/
def profileName (d : Service) : String := (d.proxy.bind fun p => p.profile.name).getD "Idle"

/-- The ids of `listOfNotNull(data.proxy, data.udpFallback)`. -/
def proxyIds (d : Service) : List Int64 :=
  (d.proxy.toList ++ d.udpFallback.toList).map fun p => p.profile.id

/-- `Data.changeState`. -/
def changeState (d : Service) (s : State) (msg : Option String) : Service × List ServiceEffect :=
  -- a state that does not change is reported again only when there is a message
  if d.state = s ∧ msg = none then (d, [])
  else ({ d with state := s }, [.stateChanged s d.profileName msg])

/-- `startRunner`: issue a start intent. -/
def startRunner (d : Service) : Service × List ServiceEffect :=
  ({ d with intents := d.intents + 1 }, [.startRunner])

/-- `killProcesses`; it launches the coroutine `d.nextCoroutine`. -/
def killProcesses (d : Service) : Service :=
  { d with processes := none, localDns := none, active := false, worker := none, conn := none,
           nextCoroutine := d.nextCoroutine + 1 }

/-- The block `coroutineScope` of the stop job up to its end, where it waits for its children. -/
def cleanUp (d : Service) : Service × List ServiceEffect :=
  ({ d.killProcesses with closeReceiverRegistered := false, notification := none, proxy := none,
                          udpFallback := none }, [.trafficPersisted d.proxyIds])

/-- The connecting job to cancel and join, when it has not completed. -/
def activeConnectingJob (d : Service) : Option ℕ :=
  d.connectingJob.filter fun id => d.jobs.any fun j => j.id = id

/-- Cancel a connecting job. -/
def cancelJob (d : Service) (id : ℕ) : Service :=
  { d with jobs := d.jobs.map fun j => if j.id = id then { j with cancelled := true } else j }

/-- `stopRunner`, with the stop job up to its first suspension. -/
def stopRunner (d : Service) (restart : Bool) (msg : Option String) :
    Service × List ServiceEffect :=
  if d.state = .stopping then (d, [])
  else
    let (d, reports) := d.changeState .stopping none
    match d.activeConnectingJob with
    -- `cancelAndJoin` suspends the stop job until the connecting job has completed
    | some id =>
      ({ d.cancelJob id with stopJobs := d.stopJobs ++ [{ restart, msg, phase := .joining id }] },
        reports)
    -- on `Dispatchers.Main.immediate` the stop job runs at once to the end of `coroutineScope`
    | none =>
      ({ d.cleanUp.1 with
          stopJobs := d.stopJobs ++ [{ restart, msg, phase := .cleaning d.nextCoroutine false }] },
        reports ++ d.cleanUp.2)

/-- `forceLoad`. -/
def forceLoad (d : Service) : Service × List ServiceEffect :=
  if d.state = .stopped then d.startRunner
  else if d.state.canStop then d.stopRunner true none
  -- a reload while the service stops is only logged
  else (d, [])

/-- The end of a stop job, after all its children have completed. -/
def finishStop (d : Service) (job : StopJob) : Service × List ServiceEffect :=
  let (d, reports) := d.changeState .stopped job.msg
  if job.restart then
    let (d, effects) := d.startRunner
    (d, reports ++ effects)
  else ({ d with receiverEnabled := false }, reports ++ [.stopSelf])

/-- Stop job `i` moves on. -/
def setStopJob (d : Service) (i : ℕ) (job : StopJob) (phase : StopPhase) : Service :=
  { d with stopJobs := d.stopJobs.set i { job with phase } }

/-- The network actor receives the `Stop` that a coroutine of stop job `i` sends. -/
def receiveStop (d : Service) (i : ℕ) (job : StopJob) : Option (Service × List ServiceEffect) :=
  match job.phase with
  | .cleaning coroutine false =>
    -- inside the block given to `launch`, `this` is the coroutine
    some (d.setStopJob i job (.cleaning coroutine true), [.stopListener (.coroutine coroutine)])
  | _ => none

/-- Stop job `i` resumes. -/
def resumeStopJob (d : Service) (i : ℕ) (job : StopJob) :
    Option (Service × List ServiceEffect) :=
  match job.phase with
  | .joining id =>
    if d.jobs.any fun j => j.id = id then none
    else some (d.cleanUp.1.setStopJob i job (.cleaning d.nextCoroutine false), d.cleanUp.2)
  | .cleaning _ received =>
    -- `coroutineScope` returns when the coroutines launched in it have completed
    if received then some ({ d with stopJobs := d.stopJobs.eraseIdx i }.finishStop job) else none

/-- What a start intent finds when it is delivered. -/
structure StartEnv where
  /-- `DataStore.serviceMode == Key.modeVpn`. -/
  modeVpn : Bool
  /-- `prepare(this) == null`. -/
  prepared : Bool
  /-- `Core.currentProfile`. -/
  currentProfile : Option ExpandedProfile
  /-- The number of bytes `Base64.decode` returns. -/
  base64Size : String → Option ℕ
  /-- `DataStore.persistAcrossReboot`. -/
  persistAcrossReboot : Bool

/-- `if (fallback == null) null else ProxyInstance(fallback, profile.route)`. -/
def createFallback (env : StartEnv) (expanded : ExpandedProfile) :
    Except String (Option ProxyInstance) :=
  match expanded.udpFallback with
  | none => .ok none
  | some fallback => (ProxyInstance.create env.base64Size fallback expanded.main.route).map some

/-- The second half of `onStartCommand`: everything is accepted, launch the connecting job. -/
def connect (d : Service) (env : StartEnv) (profile : Profile) (proxy : ProxyInstance)
    (udpFallback : Option ProxyInstance) : Service × List ServiceEffect :=
  let d := { d with proxy := some proxy, udpFallback,
                    receiverEnabled := env.persistAcrossReboot, closeReceiverRegistered := true,
                    notification := some profile.formattedName }
  let (d, reports) := d.changeState .connecting none
  -- on `Dispatchers.Main` the job is dispatched: none of its body has run yet
  let job : ConnectingJob :=
    { id := d.nextJob, profile, suspendedAt := .dispatched, cancelled := false }
  ({ d with jobs := d.jobs ++ [job], connectingJob := some job.id, nextJob := d.nextJob + 1 },
    reports)

/-- `BaseService.Interface.onStartCommand`. -/
def onStartCommandInterface (d : Service) (env : StartEnv) : Service × List ServiceEffect :=
  if d.state ≠ .stopped then (d, [])
  else
    match env.currentProfile with
    -- there is no profile: shut down gracefully
    | none => { d with notification := some "" }.stopRunner false (some "")
    | some expanded =>
      match ProxyInstance.create env.base64Size expanded.main expanded.main.route with
      | .error message => { d with notification := some "" }.stopRunner false (some message)
      | .ok proxy =>
        match createFallback env expanded with
        | .error message =>
          -- the main proxy was assigned before the fallback was rejected
          { d with proxy := some proxy, notification := some "" }.stopRunner false (some message)
        | .ok udpFallback => d.connect env expanded.main proxy udpFallback

/-- `DripVpnService.onStartCommand`. -/
def onStartCommand (d : Service) (env : StartEnv) : Service × List ServiceEffect :=
  if env.modeVpn && env.prepared then d.onStartCommandInterface env
  else d.stopRunner false none

/-! ## The connecting job -/

/-- The calls of the connecting job that may throw. -/
inductive Call where
  | killAll
  | protectWorker
  | proxyStart
  | udpFallbackStart
  | localDns
  | builder
  | processStart
  | scheduleUpdate
  deriving DecidableEq, Repr

/-- One attempt of `sendFd` to pass the descriptor on. -/
inductive Attempt where
  | sent
  | ioException (readableMessage : String)
  | throws (e : Throwable)
  deriving DecidableEq, Repr

/-- What the connecting job meets between two suspension points. -/
structure BodyEnv where
  /-- What each call throws. -/
  throws : Call → Option Throwable
  /-- `udpFallback.plugin != null`. -/
  fallbackPlugin : Bool
  /-- `builder.establish() != null`. -/
  established : Bool
  /-- The attempt of `sendFd`. -/
  attempt : Attempt

/-- `DripVpnService.startVpn`. -/
def startVpn (id : ℕ) (env : BodyEnv) : Fallible Service Throwable Unit := do
  Fallible.guard (env.throws .builder)
  Fallible.modify fun d => { d with active := true }
  -- `active` stays set when the interface cannot be established
  Fallible.throwIf (!env.established)
    (.exception "Failed to start VPN service. You might need to reboot your device.")
  Fallible.modify fun d => { d with conn := some id }
  Fallible.guard (env.throws .processStart)

/-- The part of `startProcesses` about the fallback. -/
def startFallback (env : BodyEnv) : Option ProxyInstance → Fallible Service Throwable Unit
  | none => pure ()
  | some _ => do
    Fallible.throwIf env.fallbackPlugin (.exception "UDP fallback cannot have plugins")
    Fallible.guard (env.throws .udpFallbackStart)

/-- `BaseService.Interface.startProcesses`. -/
def startProcessesInterface (id : ℕ) (env : BodyEnv) : Fallible Service Throwable Unit := do
  -- the fallback is read before the main proxy starts
  let d ← Fallible.get
  Fallible.throwIf d.proxy.isNone (.exception "java.lang.NullPointerException")
  Fallible.guard (env.throws .proxyStart)
  startFallback env d.udpFallback
  Fallible.guard (env.throws .localDns)
  Fallible.modify fun d => { d with localDns := some id }

/-- The connecting job from the creation of the process pool to the first `delay` of `sendFd`,
through `DripVpnService.startProcesses`. -/
def startProcesses (id : ℕ) (env : BodyEnv) : Fallible Service Throwable Unit := do
  Fallible.modify fun d => { d with processes := some id }
  Fallible.guard (env.throws .protectWorker)
  Fallible.modify fun d => { d with worker := some id }
  startProcessesInterface id env
  startVpn id env

/-- The connecting job from where it is suspended to the next suspension point, or to the end of
its body (`none`), where it changes the state to `Connected`. -/
def body (job : ConnectingJob) (env : BodyEnv) :
    Fallible Service Throwable (Option SuspensionPoint) :=
  match job.suspendedAt with
  | .dispatched => do
    Fallible.guard (env.throws .killAll)
    return some (.preInit false)
  | .preInit _ =>
    if job.profile.route = "custom-rules" then return some .flatten
    else do
      startProcesses job.id env
      return some (.sendFd 0)
  | .flatten => do
    startProcesses job.id env
    return some (.sendFd 0)
  | .sendFd tries =>
    match env.attempt with
    | .sent => do
      Fallible.guard (env.throws .scheduleUpdate)
      return none
    | .ioException readableMessage =>
      -- `tries` counts the failed attempts, and the seventh failure is passed on
      if tries > 5 then Fallible.throw (.exception readableMessage)
      else return some (.sendFd (tries + 1))
    | .throws e => Fallible.throw e

/-- The job has completed. -/
def removeJob (d : Service) (id : ℕ) : Service :=
  { d with jobs := d.jobs.filter fun j => j.id ≠ id }

/-- The `finally` block of the connecting job, and its end. -/
def endConnecting (d : Service) (id : ℕ) : Service :=
  { d.removeJob id with connectingJob := none }

/-- The handlers of the connecting job, the `finally` block, and its end. -/
def failConnecting (d : Service) (id : ℕ) : Throwable → Service × List ServiceEffect
  -- calling `stopRunner` is up to whoever cancelled the job
  | .cancellation => (d.endConnecting id, [])
  | .exception readableMessage =>
    -- the stop job joins the job it is launched from, which the `finally` block then ends
    let (d, effects) := d.stopRunner false (some ("Failed: " ++ readableMessage))
    (d.endConnecting id, effects)

/-- The job is suspended again. -/
def suspendAt (d : Service) (id : ℕ) (point : SuspensionPoint) : Service :=
  { d with jobs := d.jobs.map fun j => if j.id = id then { j with suspendedAt := point } else j }

/-- How the call that a connecting job waits for ends. -/
inductive Resumption where
  | returns
  | throws (e : Throwable)
  | cancelled
  deriving DecidableEq, Repr

/-- The connecting job runs on from a call that returned. -/
def runBody (d : Service) (job : ConnectingJob) (env : BodyEnv) : Service × List ServiceEffect :=
  match body job env d with
  | (.ok (some point), d) => (d.suspendAt job.id point, [])
  | (.ok none, d) =>
    let (d, reports) := d.changeState .connected none
    (d.endConnecting job.id, reports)
  | (.error e, d) => d.failConnecting job.id e

/-- The connecting job resumes. -/
def resumeJob (d : Service) (job : ConnectingJob) (env : BodyEnv) :
    Resumption → Option (Service × List ServiceEffect)
  | .cancelled =>
    if ¬ job.cancelled then none
    -- a coroutine that was cancelled before its first dispatch never enters its `try`
    else if job.suspendedAt = .dispatched then some (d.removeJob job.id, [])
    else some (d.failConnecting job.id .cancellation)
  | .throws e => if job.suspendedAt = .dispatched then none else some (d.failConnecting job.id e)
  | .returns =>
    -- a rendezvous `send` returns after the actor has received the message
    if job.cancelled ∨ job.suspendedAt = .preInit false then none else some (d.runBody job env)

/-! ## The machine -/

/-- One stretch of main-thread code. -/
inductive Action where
  /-- Somebody issues a start intent. -/
  | startService
  /-- The oldest start intent is delivered. -/
  | onStartCommand (env : StartEnv)
  /-- The broadcast `Action.CLOSE`. -/
  | close
  /-- The broadcast `Action.RELOAD`. -/
  | reload
  /-- The broadcast `Intent.ACTION_SHUTDOWN`. -/
  | shutdown
  | onRevoke
  /-- `onFatal` of a process pool, of this or of an earlier connection. -/
  | onFatal (readableMessage : String)
  /-- The restart callback of `tun2socks` fails with an `ErrnoException`. -/
  | restartCallbackFails (msg : Option String)
  /-- The network actor receives the `Start` of a connecting job. -/
  | startReceived (id : ℕ)
  /-- A connecting job resumes. -/
  | resumeConnecting (id : ℕ) (resumption : Resumption) (env : BodyEnv)
  /-- The network actor receives the `Stop` of stop job `i`. -/
  | stopReceived (i : ℕ)
  /-- Stop job `i` resumes: from joining, or after its last child completed. -/
  | resumeStop (i : ℕ)

/-- One step of the service. -/
def step (d : Service) : Action → Option (Service × List ServiceEffect)
  | .startService => some ({ d with intents := d.intents + 1 }, [])
  | .onStartCommand env =>
    if d.intents = 0 then none
    else some ({ d with intents := d.intents - 1 }.onStartCommand env)
  | .close => if d.closeReceiverRegistered then some (d.stopRunner false none) else none
  | .reload => if d.closeReceiverRegistered then some d.forceLoad else none
  | .shutdown =>
    if d.closeReceiverRegistered then some (d, [.persistStats d.proxyIds]) else none
  | .onRevoke => some (d.stopRunner false none)
  -- `onFatal` and the restart callback do not look at the state of the service
  | .onFatal readableMessage => some (d.stopRunner false (some readableMessage))
  | .restartCallbackFails msg => some (d.stopRunner false msg)
  | .startReceived id =>
    match d.jobs.find? fun j => j.id = id with
    | some job =>
      -- the message of a cancelled sender is taken out of the channel
      if job.suspendedAt = .preInit false ∧ job.cancelled = false then
        some (d.suspendAt id (.preInit true), [.startListener .service])
      else none
    | none => none
  | .resumeConnecting id resumption env =>
    match d.jobs.find? fun j => j.id = id with
    | some job => d.resumeJob job env resumption
    | none => none
  | .stopReceived i => d.stopJobs[i]?.bind (d.receiveStop i)
  | .resumeStop i => d.stopJobs[i]?.bind (d.resumeStopJob i)

end Service

/-- The service, as it is when it is created, as a reactive machine. -/
def service : Machine Service Service.Action ServiceEffect where
  init :=
    { state := .stopped, processes := none, proxy := none, udpFallback := none, localDns := none,
      notification := none, closeReceiverRegistered := false, connectingJob := none, conn := none,
      worker := none, active := false, receiverEnabled := false, jobs := [], stopJobs := [],
      nextJob := 0, nextCoroutine := 0, intents := 0 }
  step := Service.step

end BaseService
