import DripVpn.Background.BaseService
import DripVpn.Foundations.Fallible
import DripVpn.Foundations.LinkedMap
import DripVpn.Foundations.Machine

/-!
# The bandwidth loop

`BaseService.Binder`: clients register callbacks for the traffic of the service, each with the time
it wants between two updates, and a coroutine, the looper, sends the updates as long as somebody
listens.

Every method launches its work on the main thread, as a child of the job of the binder, so one
action of the machine is one such piece of work, a wake-up of a loop or the death of a client. An
exception that the work does not catch cancels the job and with it every loop, and nothing that is
launched afterwards runs. `startListeningForBandwidth` sends a first update without catching the
`RemoteException` of a dead client; `allStates_listening_iff` says that this is the only thing that
goes wrong.
-/

open Reactive

namespace BandwidthLoop

/-- A callback, identified by its binder. -/
abbrev IBinder : Type := ℕ

/-- The loop that a job runs. -/
inductive Loop where
  /-- Launched by work that has not returned yet. -/
  | launched
  /-- In `delay`. -/
  | sleeping (timeout : Int64)
  | returned
  | cancelled
  deriving DecidableEq, Repr

/-- `Job.isActive`. -/
def Loop.isActive : Loop → Bool
  | .launched | .sleeping _ => true
  | .returned | .cancelled => false

/-- `Job.cancel`. -/
def Loop.cancel (l : Loop) : Loop := if l.isActive then .cancelled else l

/-- What the work of a method throws. -/
inductive Uncaught where
  | remoteException
  /-- `check(looper == null)`. -/
  | illegalState
  /-- `looper!!`. -/
  | nullPointer
  deriving DecidableEq, Repr

/-- The variables of `Binder`. -/
structure Binder where
  callbacks : List IBinder := []
  bandwidthListeners : LinkedMap IBinder Int64 := .empty
  looper : Option ℕ := none
  /-- The loops that were launched; a job is its place in the list. -/
  loops : List Loop := []
  /-- Whether the job of the binder is active. -/
  active : Bool := true
  /-- The callbacks whose process died. -/
  dead : List IBinder := []
  uncaught : List Uncaught := []

/-- What `data` shows. -/
structure DataView where
  state : BaseService.State
  /-- `data.proxy != null`. -/
  proxy : Bool
  /-- `data.udpFallback != null`. -/
  udpFallback : Bool
  /-- Whether some `requestUpdate` has news. -/
  updated : Bool

/-- Whether the first update of a new listener is sent at all. -/
def DataView.reports (data : DataView) : Bool := data.state = .connected && data.proxy

/-- What clients see, and how long a loop sleeps. -/
inductive Effect where
  /-- A successful `trafficUpdated`. -/
  | trafficUpdated (cb : IBinder)
  | delay (loop : ℕ) (timeout : Int64)
  deriving DecidableEq, Repr

namespace Binder

/-- Whether the job runs a loop. -/
def isActive (s : Binder) (job : ℕ) : Bool := (s.loops[job]?.map Loop.isActive).getD false

/-- `minOrNull`. -/
def minOrNull : List Int64 → Option Int64
  | [] => none
  | t :: ts => some (ts.foldl (fun min t => if t < min then t else min) t)

/-- The head of the loop: `delay(bandwidthListeners.values.minOrNull() ?: return)`. -/
def enterLoop (s : Binder) (job : ℕ) : Binder × List Effect :=
  match minOrNull (s.bandwidthListeners.entries.map Prod.snd) with
  | some timeout => ({ s with loops := s.loops.set job (.sleeping timeout) }, [.delay job timeout])
  | none => ({ s with loops := s.loops.set job .returned }, [])

/-- Loops that were launched start when the work that launched them returns. -/
def startLaunched (s : Binder) : Binder × List Effect :=
  match s.loops.findIdx? (· = .launched) with
  | some job => s.enterLoop job
  | none => (s, [])

/-- An exception of a child cancels the job and all its children. -/
def fail (s : Binder) (e : Uncaught) : Binder :=
  { s with
    loops := s.loops.map Loop.cancel
    active := false
    uncaught := s.uncaught ++ [e] }

/-- `launch`. -/
def launch (s : Binder) (work : Fallible Binder Uncaught (List Effect)) : Binder × List Effect :=
  if s.active then
    match work s with
    | (.ok effects, s') => (s'.startLaunched.1, effects ++ s'.startLaunched.2)
    | (.error e, s') => (s'.fail e, [])
  else (s, [])

/-- `looper = launch { loop() }`. -/
def launchLoop (s : Binder) : Binder :=
  { s with looper := some s.loops.length, loops := s.loops ++ [.launched] }

/-- The first update of a new listener. -/
def report (cb : IBinder) (data : DataView) : Fallible Binder Uncaught (List Effect) := fun s =>
  if data.reports then
    -- the calls for the proxy, for the fallback and for the sum
    if cb ∈ s.dead then (.error .remoteException, s)
    else (.ok (List.replicate (if data.udpFallback then 3 else 2) (.trafficUpdated cb)), s)
  else (.ok [], s)

/-- The condition of `startListeningForBandwidth`, on the state before the listener is put: both
operands of `and` are evaluated, the first one before the second puts the listener. -/
def isFirst (s : Binder) (cb : IBinder) : Bool :=
  s.bandwidthListeners.isEmpty && (s.bandwidthListeners.get? cb).isNone

/-- The work of `startListeningForBandwidth`. -/
def startListening (cb : IBinder) (timeout : Int64) (data : DataView) :
    Fallible Binder Uncaught (List Effect) := fun s =>
  let s' := { s with bandwidthListeners := s.bandwidthListeners.put cb timeout }
  if s.isFirst cb then
    if s'.looper.isSome then (.error .illegalState, s') else report cb data s'.launchLoop
  else report cb data s'

/-- The condition of `stopListeningForBandwidth`, on the state before the listener is removed. -/
def isLast (s : Binder) (cb : IBinder) : Bool :=
  (s.bandwidthListeners.get? cb).isSome && (s.bandwidthListeners.remove cb).isEmpty

/-- The work of `stopListeningForBandwidth`. -/
def stopListening (cb : IBinder) : Fallible Binder Uncaught (List Effect) := fun s =>
  let s' := { s with bandwidthListeners := s.bandwidthListeners.remove cb }
  if s.isLast cb then
    match s'.looper with
    | none => (.error .nullPointer, s')
    | some job => (.ok [], { s' with loops := s'.loops.modify job Loop.cancel, looper := none })
  else (.ok [], s')

/-- The broadcast of a wake-up; exceptions of dead clients are caught. -/
def broadcast (s : Binder) (data : DataView) : List Effect :=
  if data.updated ∧ data.state = .connected ∧ s.bandwidthListeners.isEmpty = false then
    (s.callbacks.filter fun cb => cb ∉ s.dead ∧ (s.bandwidthListeners.get? cb).isSome).map
      .trafficUpdated
  else []

end Binder

/-! ## The machine -/

/-- One piece of work on the main thread, a wake-up or the death of a client. -/
inductive Action where
  | registerCallback (cb : IBinder)
  | unregisterCallback (cb : IBinder)
  | startListeningForBandwidth (cb : IBinder) (timeout : Int64) (data : DataView)
  | stopListeningForBandwidth (cb : IBinder)
  /-- The process of a callback dies. -/
  | died (cb : IBinder)
  /-- The death of a registered callback becomes known. -/
  | onCallbackDied (cb : IBinder)
  /-- The delay of a loop ends. -/
  | wakeUp (job : ℕ) (data : DataView)

/-- One action. A timeout is positive. -/
def step (s : Binder) : Action → Option (Binder × List Effect)
  | .registerCallback cb =>
    -- `linkToDeath` fails for a dead process
    some ({ s with callbacks := if cb ∈ s.dead then s.callbacks else s.callbacks.insert cb }, [])
  | .unregisterCallback cb =>
    let r := s.launch (Binder.stopListening cb)
    some ({ r.1 with callbacks := r.1.callbacks.erase cb }, r.2)
  | .startListeningForBandwidth cb timeout data =>
    if 0 < timeout then some (s.launch (Binder.startListening cb timeout data)) else none
  | .stopListeningForBandwidth cb => some (s.launch (Binder.stopListening cb))
  | .died cb => some ({ s with dead := s.dead.insert cb }, [])
  | .onCallbackDied cb =>
    if cb ∈ s.dead ∧ cb ∈ s.callbacks then
      -- `RemoteCallbackList` forgets the callback before it calls `onCallbackDied`
      some ({ s with callbacks := s.callbacks.erase cb }.launch (Binder.stopListening cb))
    else none
  | .wakeUp job data =>
    match s.loops[job]? with
    -- the rest of the body of the loop, and its head again
    | some (.sleeping _) => some ((s.enterLoop job).1, s.broadcast data ++ (s.enterLoop job).2)
    | _ => none

/-- The binder before `close()`. -/
def machine : Machine Binder Action Effect where
  init := {}
  step := step

/-- The loop runs exactly while somebody listens, it is the only one, and no assertion failed. -/
structure Listening (s : Binder) : Prop where
  running : (∃ job, s.looper = some job ∧ s.isActive job = true) ↔
    s.bandwidthListeners.entries ≠ []
  single : ∀ i j, s.isActive i = true → s.isActive j = true → i = j
  check_looper : .illegalState ∉ s.uncaught
  looper_ne_null : .nullPointer ∉ s.uncaught

/-- No update is sent to a client that starts to listen after its process died. -/
def Careful (s : Binder) : Action → Prop
  | .startListeningForBandwidth cb _ data => ¬ (cb ∈ s.dead ∧ data.reports = true)
  | _ => True

/-! ## The invariant -/

/-- As long as nothing was thrown: somebody listens exactly if the looper is there, it sleeps, and
no other loop is active. -/
structure Kept (s : Binder) : Prop where
  active : s.active = true
  uncaught : s.uncaught = []
  idle : s.bandwidthListeners.entries = [] → s.looper = none
  busy : s.bandwidthListeners.entries ≠ [] →
    ∃ job timeout, s.looper = some job ∧ s.loops[job]? = some (.sleeping timeout)
  only : ∀ job loop, s.loops[job]? = some loop → loop.isActive = true → s.looper = some job

/-- After an exception: nothing is launched and no loop is active. -/
structure Broken (s : Binder) : Prop where
  active : s.active = false
  loops : ∀ loop ∈ s.loops, loop.isActive = false

variable {s : Binder}

theorem isActive_iff {job : ℕ} :
    s.isActive job = true ↔ ∃ loop, s.loops[job]? = some loop ∧ loop.isActive = true := by
  rw [Binder.isActive]
  cases s.loops[job]? with
  | none => simp
  | some loop => simp

/-- The loop that is active is the looper, which sleeps. -/
theorem Kept.sleeping (h : Kept s) {job : ℕ} {loop : Loop} (hloop : s.loops[job]? = some loop)
    (hactive : loop.isActive = true) :
    s.looper = some job ∧ s.bandwidthListeners.entries ≠ [] ∧
      ∃ timeout, loop = .sleeping timeout := by
  have hlooper := h.only job loop hloop hactive
  have hne : s.bandwidthListeners.entries ≠ [] := by
    intro hempty
    rw [h.idle hempty] at hlooper
    cases hlooper
  obtain ⟨job', timeout, hjob', hsleeping⟩ := h.busy hne
  obtain rfl : job' = job := Option.some.inj (hjob'.symm.trans hlooper)
  exact ⟨hlooper, hne, timeout, Option.some.inj (hloop.symm.trans hsleeping)⟩

theorem Kept.listening (h : Kept s) : Listening s := by
  refine ⟨⟨?_, ?_⟩, ?_, ?_, ?_⟩
  · rintro ⟨job, hlooper, hactive⟩ hempty
    rw [h.idle hempty] at hlooper
    cases hlooper
  · intro hne
    obtain ⟨job, timeout, hlooper, hsleeping⟩ := h.busy hne
    exact ⟨job, hlooper, isActive_iff.mpr ⟨_, hsleeping, rfl⟩⟩
  · intro i j hi hj
    obtain ⟨_, hloop, hactive⟩ := isActive_iff.mp hi
    obtain ⟨_, hloop', hactive'⟩ := isActive_iff.mp hj
    exact Option.some.inj ((h.only i _ hloop hactive).symm.trans (h.only j _ hloop' hactive'))
  · rw [h.uncaught]
    simp
  · rw [h.uncaught]
    simp

/-- Between two actions no loop waits to be started. -/
theorem Kept.startLaunched (h : Kept s) : s.startLaunched = (s, []) := by
  have hnone : s.loops.findIdx? (· = .launched) = none := by
    rw [List.findIdx?_eq_none_iff]
    intro loop hloop
    rw [decide_eq_false_iff_not]
    rintro rfl
    obtain ⟨job, hjob⟩ := List.getElem?_of_mem hloop
    obtain ⟨-, -, timeout, heq⟩ := h.sleeping hjob rfl
    cases heq
  rw [Binder.startLaunched, hnone]

/-! ## The timeouts -/

/-- `minOrNull` is the least of some values. -/
theorem minOrNull_spec {ts : List Int64} (hne : ts ≠ []) :
    ∃ t, Binder.minOrNull ts = some t ∧ t ∈ ts ∧ ∀ u ∈ ts, t ≤ u := by
  obtain ⟨t, ts, rfl⟩ := List.exists_cons_of_ne_nil hne
  refine ⟨_, rfl, ?_⟩
  clear hne
  induction ts generalizing t with
  | nil => simp
  | cons v ts ih =>
    rw [List.foldl_cons]
    obtain ⟨hmem, hle⟩ := ih (if v < t then v else t)
    have hmin : (if v < t then v else t) ≤ t ∧ (if v < t then v else t) ≤ v := by
      split
      next hlt => exact ⟨Int64.le_of_lt hlt, Int64.le_refl v⟩
      next hnot => exact ⟨Int64.le_refl t, Int64.not_lt.mp hnot⟩
    constructor
    · rcases List.mem_cons.mp hmem with heq | hmem
      · rw [heq]
        split
        · exact List.mem_cons_of_mem _ List.mem_cons_self
        · exact List.mem_cons_self
      · exact List.mem_cons_of_mem _ (List.mem_cons_of_mem _ hmem)
    · have hhead := hle _ List.mem_cons_self
      intro u hu
      rcases List.mem_cons.mp hu with rfl | hu
      · exact Int64.le_trans hhead hmin.1
      · rcases List.mem_cons.mp hu with rfl | hu
        · exact Int64.le_trans hhead hmin.2
        · exact hle u (List.mem_cons_of_mem _ hu)

/-- A loop that enters `delay` while somebody listens sleeps for the least timeout. -/
theorem enterLoop_spec (job : ℕ) (hne : s.bandwidthListeners.entries ≠ []) :
    ∃ timeout, s.enterLoop job =
        ({ s with loops := s.loops.set job (.sleeping timeout) }, [.delay job timeout]) ∧
      timeout ∈ s.bandwidthListeners.entries.map Prod.snd ∧
      ∀ u ∈ s.bandwidthListeners.entries.map Prod.snd, timeout ≤ u := by
  have hts : s.bandwidthListeners.entries.map Prod.snd ≠ [] := by simpa using hne
  obtain ⟨t, ht, hmem, hle⟩ := minOrNull_spec hts
  refine ⟨t, ?_, hmem, hle⟩
  rw [Binder.enterLoop, ht]

/-! ## One action -/

/-- The loop of the looper goes to sleep. -/
theorem kept_sleep {job : ℕ} {timeout : Int64} (hactive : s.active = true)
    (huncaught : s.uncaught = []) (hne : s.bandwidthListeners.entries ≠ [])
    (hlooper : s.looper = some job) (hlt : job < s.loops.length)
    (honly : ∀ j loop, s.loops[j]? = some loop → loop.isActive = true → j = job) :
    Kept { s with loops := s.loops.set job (.sleeping timeout) } := by
  refine ⟨hactive, huncaught, fun hempty => absurd hempty hne, fun _ => ?_, ?_⟩
  · exact ⟨job, timeout, hlooper, List.getElem?_set_self hlt⟩
  · intro j loop hloop hloopActive
    by_cases hj : job = j
    · rw [← hj]
      exact hlooper
    · replace hloop : (s.loops.set job (.sleeping timeout))[j]? = some loop := hloop
      rw [List.getElem?_set_ne hj] at hloop
      exact absurd (honly j loop hloop hloopActive).symm hj

/-- `report` sends an update or throws. -/
theorem report_eq (cb : IBinder) (data : DataView) (s : Binder) :
    (cb ∈ s.dead ∧ data.reports = true ∧
        Binder.report cb data s = (.error .remoteException, s)) ∨
      (¬ (cb ∈ s.dead ∧ data.reports = true) ∧
        ∃ effects, Binder.report cb data s = (.ok effects, s)) := by
  unfold Binder.report
  split
  next hreports =>
    split
    next hdead => exact Or.inl ⟨hdead, hreports, rfl⟩
    next hdead => exact Or.inr ⟨fun h => hdead h.1, _, rfl⟩
  next hreports => exact Or.inr ⟨fun h => hreports h.2, _, rfl⟩

theorem entries_put_ne_nil (cb : IBinder) (timeout : Int64) :
    (s.bandwidthListeners.put cb timeout).entries ≠ [] :=
  LinkedMap.put_entries_ne_nil _ _ _

/-- A failed start leaves the listener without a loop. -/
theorem broken_fail (s : Binder) (e : Uncaught) : Broken (s.fail e) := by
  refine ⟨rfl, ?_⟩
  intro loop hloop
  obtain ⟨loop', -, rfl⟩ := List.mem_map.mp hloop
  rw [Loop.cancel]
  cases loop' with
  | launched => rfl
  | sleeping timeout => rfl
  | returned => rfl
  | cancelled => rfl

theorem Broken.not_listening (h : Broken s) (hne : s.bandwidthListeners.entries ≠ []) :
    ¬ Listening s := by
  intro hlistening
  obtain ⟨job, -, hactive⟩ := hlistening.running.mpr hne
  obtain ⟨loop, hloop, hloopActive⟩ := isActive_iff.mp hactive
  rw [h.loops loop (List.mem_of_getElem? hloop)] at hloopActive
  cases hloopActive

/-- While nobody listens no loop is active. -/
theorem Kept.inactive (h : Kept s) (hempty : s.bandwidthListeners.entries = []) {j : ℕ}
    {loop : Loop} (hloop : s.loops[j]? = some loop) : loop.isActive = false := by
  by_contra hactive
  exact (h.sleeping hloop (by simpa using hactive)).2.1 hempty

/-- The first listener is put and the loop launched: it goes to sleep. -/
theorem Kept.startLaunched_first (h : Kept s) (hempty : s.bandwidthListeners.entries = [])
    (cb : IBinder) (timeout : Int64) :
    Kept ({ s with bandwidthListeners := s.bandwidthListeners.put cb timeout } :
      Binder).launchLoop.startLaunched.1 := by
  have hne := @entries_put_ne_nil s cb timeout
  -- the new loop is the only one that waits to be started
  have hnew : (s.loops ++ [Loop.launched]).findIdx? (· = .launched) = some s.loops.length := by
    have hnone : s.loops.findIdx? (· = .launched) = none := by
      rw [List.findIdx?_eq_none_iff]
      intro loop hloop
      obtain ⟨j, hj⟩ := List.getElem?_of_mem hloop
      rw [decide_eq_false_iff_not]
      rintro rfl
      cases h.inactive hempty hj
    rw [List.findIdx?_append, hnone]
    simp
  obtain ⟨least, henter, -⟩ := enterLoop_spec (s := ({ s with
    bandwidthListeners := s.bandwidthListeners.put cb timeout } : Binder).launchLoop)
    s.loops.length hne
  rw [Binder.startLaunched]
  simp only [Binder.launchLoop] at henter ⊢
  rw [hnew]
  simp only [henter]
  refine kept_sleep (s := ({ s with
    bandwidthListeners := s.bandwidthListeners.put cb timeout } : Binder).launchLoop)
    h.active h.uncaught hne rfl (by simp [Binder.launchLoop]) ?_
  intro j loop hloop hactive
  replace hloop : (s.loops ++ [Loop.launched])[j]? = some loop := hloop
  by_cases hj : j < s.loops.length
  · rw [List.getElem?_append_left hj] at hloop
    rw [h.inactive hempty hloop] at hactive
    cases hactive
  · have hlt := (List.getElem?_eq_some_iff.mp hloop).1
    rw [List.length_append, List.length_singleton] at hlt
    omega

/-- The state in which the first update is sent: the listener is put, and the loop launched if it is
the first one. -/
theorem Kept.beforeReport (h : Kept s) (cb : IBinder) (timeout : Int64) :
    ∃ s₁ : Binder, (∀ data, Binder.startListening cb timeout data s = Binder.report cb data s₁) ∧
      s₁.dead = s.dead ∧ s₁.bandwidthListeners.entries ≠ [] ∧ Kept s₁.startLaunched.1 := by
  have hne := @entries_put_ne_nil s cb timeout
  by_cases hempty : s.bandwidthListeners.entries = []
  · have hfirst : s.isFirst cb = true := by
      have hnone : s.bandwidthListeners.get? cb = none := by
        rw [LinkedMap.get?_eq_none_iff, hempty]
        simp
      rw [Binder.isFirst, hnone, Bool.and_eq_true, LinkedMap.isEmpty_iff]
      exact ⟨hempty, rfl⟩
    refine ⟨({ s with bandwidthListeners := s.bandwidthListeners.put cb timeout } :
      Binder).launchLoop, ?_, rfl, hne, h.startLaunched_first hempty cb timeout⟩
    intro data
    -- `check(looper == null)`
    simp only [Binder.startListening, hfirst, if_true, h.idle hempty, Option.isSome_none]
    rfl
  · have hfirst : s.isFirst cb = false := by
      rw [Binder.isFirst, Bool.and_eq_false_iff]
      left
      rw [Bool.eq_false_iff, ne_eq, LinkedMap.isEmpty_iff]
      exact hempty
    -- the loop that sleeps is not told about the new timeout
    have hkept : Kept { s with bandwidthListeners := s.bandwidthListeners.put cb timeout } :=
      ⟨h.active, h.uncaught, fun hnil => absurd hnil hne, fun _ => h.busy hempty, h.only⟩
    refine ⟨{ s with bandwidthListeners := s.bandwidthListeners.put cb timeout }, ?_, rfl, hne,
      by rw [hkept.startLaunched]; exact hkept⟩
    intro data
    simp only [Binder.startListening, hfirst, Bool.false_eq_true, if_false]

/-- `startListeningForBandwidth` keeps the invariant if it does not throw. -/
theorem Kept.start (h : Kept s) {cb : IBinder} {data : DataView} (timeout : Int64)
    (hcareful : ¬ (cb ∈ s.dead ∧ data.reports = true)) :
    Kept (s.launch (Binder.startListening cb timeout data)).1 := by
  obtain ⟨s₁, hwork, hdead, -, hkept⟩ := h.beforeReport cb timeout
  rcases report_eq cb data s₁ with ⟨hd, hreports, -⟩ | ⟨-, effects, hreport⟩
  · exact absurd ⟨hdead ▸ hd, hreports⟩ hcareful
  · rw [Binder.launch, if_pos h.active, hwork, hreport]
    exact hkept

/-- A start that throws leaves a listener without a loop. -/
theorem Kept.start_dead (h : Kept s) {cb : IBinder} {data : DataView} (timeout : Int64)
    (hdead : cb ∈ s.dead ∧ data.reports = true) :
    Broken (s.launch (Binder.startListening cb timeout data)).1 ∧
      ¬ Listening (s.launch (Binder.startListening cb timeout data)).1 := by
  obtain ⟨s₁, hwork, hsame, hne, -⟩ := h.beforeReport cb timeout
  rcases report_eq cb data s₁ with ⟨-, -, hreport⟩ | ⟨hnot, -⟩
  · rw [Binder.launch, if_pos h.active, hwork, hreport]
    exact ⟨broken_fail s₁ _, (broken_fail s₁ _).not_listening hne⟩
  · exact absurd ⟨hsame.symm ▸ hdead.1, hdead.2⟩ hnot

/-- A listener that is the last one was there, so there is a looper. -/
theorem Kept.busy_of_isLast (h : Kept s) {cb : IBinder} (hlast : s.isLast cb = true) :
    ∃ job timeout, s.looper = some job ∧ s.loops[job]? = some (.sleeping timeout) := by
  apply h.busy
  intro hempty
  obtain ⟨hsome, -⟩ := (Bool.and_eq_true _ _).mp hlast
  obtain ⟨timeout, htimeout⟩ := Option.isSome_iff_exists.mp hsome
  rw [LinkedMap.get?_eq_some_iff, hempty] at htimeout
  cases htimeout

/-- Without its last listener the binder cancels the looper, and no loop is active. -/
theorem Kept.cancel_looper (h : Kept s) {cb : IBinder} (hlast : s.isLast cb = true) {job : ℕ}
    {timeout : Int64} (hlooper : s.looper = some job)
    (hsleeping : s.loops[job]? = some (.sleeping timeout)) :
    Kept { s with
      bandwidthListeners := s.bandwidthListeners.remove cb
      loops := s.loops.modify job Loop.cancel
      looper := none } := by
  obtain ⟨-, hremoved⟩ := (Bool.and_eq_true _ _).mp hlast
  rw [LinkedMap.isEmpty_iff] at hremoved
  refine ⟨h.active, h.uncaught, fun _ => rfl, fun hnot => absurd hremoved hnot, ?_⟩
  intro j loop hloop hactive
  replace hloop : (s.loops.modify job Loop.cancel)[j]? = some loop := hloop
  rw [List.getElem?_modify] at hloop
  by_cases hj : job = j
  · subst hj
    simp only [if_true, hsleeping] at hloop
    obtain rfl := Option.some.inj hloop
    cases hactive
  · simp only [if_neg hj, id_map'] at hloop
    have hsame := h.only j loop hloop hactive
    rw [hlooper] at hsame
    exact absurd (Option.some.inj hsame) hj

/-- A listener that is not the last one leaves others behind, if there were any. -/
theorem entries_eq_nil_of_not_isLast {cb : IBinder} (hlast : ¬ s.isLast cb = true)
    (hremoved : (s.bandwidthListeners.remove cb).entries = []) :
    s.bandwidthListeners.entries = [] := by
  by_contra hne
  apply hlast
  rw [Binder.isLast, Bool.and_eq_true, LinkedMap.isEmpty_iff]
  refine ⟨?_, hremoved⟩
  obtain ⟨⟨cb', timeout⟩, rest, hentries⟩ := List.exists_cons_of_ne_nil hne
  have hmem : (cb', timeout) ∈ s.bandwidthListeners.entries := by rw [hentries]; simp
  by_cases hcb : cb' = cb
  · rw [Option.isSome_iff_exists]
    exact ⟨timeout, LinkedMap.get?_eq_some_iff.mpr (hcb ▸ hmem)⟩
  · have hstays := (LinkedMap.mem_remove_iff s.bandwidthListeners cb _).mpr ⟨hcb, hmem⟩
    rw [hremoved] at hstays
    cases hstays

theorem Kept.remove (h : Kept s) {cb : IBinder} (hlast : ¬ s.isLast cb = true) :
    Kept { s with bandwidthListeners := s.bandwidthListeners.remove cb } := by
  refine ⟨h.active, h.uncaught,
    fun hremoved => h.idle (entries_eq_nil_of_not_isLast hlast hremoved), ?_, h.only⟩
  intro hne
  apply h.busy
  intro hnil
  apply hne
  show s.bandwidthListeners.entries.filter _ = []
  rw [hnil]
  rfl

/-- `stopListeningForBandwidth` keeps the invariant. -/
theorem Kept.stop (h : Kept s) (cb : IBinder) : Kept (s.launch (Binder.stopListening cb)).1 := by
  have hreturns : ∀ s', Binder.stopListening cb s = (.ok [], s') → Kept s' →
      Kept (s.launch (Binder.stopListening cb)).1 := by
    intro s' hwork hkept
    rw [Binder.launch, if_pos h.active, hwork]
    simp only [hkept.startLaunched]
    exact hkept
  by_cases hlast : s.isLast cb = true
  -- `looper!!`
  · obtain ⟨job, timeout, hlooper, hsleeping⟩ := h.busy_of_isLast hlast
    refine hreturns _ ?_ (h.cancel_looper hlast hlooper hsleeping)
    simp only [Binder.stopListening, hlast, if_true, hlooper]
  · refine hreturns _ ?_ (h.remove hlast)
    simp only [Binder.stopListening, hlast, if_false, Bool.false_eq_true]

/-- A wake-up keeps the invariant, and the loop sleeps for the least timeout again. -/
theorem Kept.wakeUp (h : Kept s) {job : ℕ} {timeout : Int64}
    (hsleeping : s.loops[job]? = some (.sleeping timeout)) :
    Kept (s.enterLoop job).1 ∧ ∃ least, (s.enterLoop job).2 = [.delay job least] ∧
      least ∈ s.bandwidthListeners.entries.map Prod.snd ∧
      ∀ u ∈ s.bandwidthListeners.entries.map Prod.snd, least ≤ u := by
  obtain ⟨hlooper, hne, -⟩ := h.sleeping hsleeping rfl
  obtain ⟨least, henter, hmem, hle⟩ := enterLoop_spec job hne
  rw [henter]
  refine ⟨?_, least, rfl, hmem, hle⟩
  apply kept_sleep h.active h.uncaught hne hlooper (List.getElem?_eq_some_iff.mp hsleeping).1
  intro j loop hloop hactive
  exact Option.some.inj ((h.only j loop hloop hactive).symm.trans hlooper)

theorem Broken.launch (h : Broken s) (work : Fallible Binder Uncaught (List Effect)) :
    s.launch work = (s, []) := by
  rw [Binder.launch, if_neg (by rw [h.active]; decide)]

/-- Which callbacks there are and which of them are dead does not matter. -/
theorem Kept.of_callbacks (h : Kept s) (callbacks dead : List IBinder) :
    Kept { s with callbacks, dead } := ⟨h.active, h.uncaught, h.idle, h.busy, h.only⟩

/-- An action that is careful keeps the invariant. -/
theorem Kept.step (h : Kept s) {a : Action} {s' : Binder} {o : List Effect} (hcareful : Careful s a)
    (hstep : BandwidthLoop.step s a = some (s', o)) : Kept s' := by
  cases a with
  | registerCallback cb =>
    cases hstep
    exact h.of_callbacks _ s.dead
  | unregisterCallback cb =>
    simp only [BandwidthLoop.step, Option.some.injEq, Prod.mk.injEq] at hstep
    obtain ⟨rfl, -⟩ := hstep
    exact (h.stop cb).of_callbacks _ _
  | startListeningForBandwidth cb timeout data =>
    rw [BandwidthLoop.step] at hstep
    split at hstep
    · have hs' : _ = s' := congrArg Prod.fst (Option.some.inj hstep)
      exact hs' ▸ h.start timeout hcareful
    · cases hstep
  | stopListeningForBandwidth cb =>
    have hs' : _ = s' := congrArg Prod.fst (Option.some.inj hstep)
    exact hs' ▸ h.stop cb
  | died cb =>
    cases hstep
    exact h.of_callbacks s.callbacks _
  | onCallbackDied cb =>
    rw [BandwidthLoop.step] at hstep
    split at hstep
    · have hs' : _ = s' := congrArg Prod.fst (Option.some.inj hstep)
      exact hs' ▸ (h.of_callbacks (s.callbacks.erase cb) s.dead).stop cb
    · cases hstep
  | wakeUp job data =>
    rw [BandwidthLoop.step] at hstep
    split at hstep
    next timeout hsleeping =>
      have hs' : _ = s' := congrArg Prod.fst (Option.some.inj hstep)
      exact hs' ▸ (h.wakeUp hsleeping).1
    · cases hstep

/-- After an exception nothing starts again. -/
theorem Broken.step (h : Broken s) {a : Action} {s' : Binder} {o : List Effect}
    (hstep : BandwidthLoop.step s a = some (s', o)) : Broken s' := by
  have hcallbacks : ∀ callbacks dead, Broken { s with callbacks, dead } :=
    fun callbacks dead => ⟨h.active, h.loops⟩
  cases a with
  | registerCallback cb =>
    cases hstep
    exact hcallbacks _ s.dead
  | unregisterCallback cb =>
    simp only [BandwidthLoop.step, h.launch] at hstep
    cases hstep
    exact hcallbacks _ s.dead
  | startListeningForBandwidth cb timeout data =>
    rw [BandwidthLoop.step, h.launch] at hstep
    split at hstep
    · cases hstep
      exact h
    · cases hstep
  | stopListeningForBandwidth cb =>
    rw [BandwidthLoop.step, h.launch] at hstep
    cases hstep
    exact h
  | died cb =>
    cases hstep
    exact hcallbacks s.callbacks _
  | onCallbackDied cb =>
    rw [BandwidthLoop.step, (hcallbacks (s.callbacks.erase cb) s.dead).launch] at hstep
    split at hstep
    · cases hstep
      exact hcallbacks _ s.dead
    · cases hstep
  | wakeUp job data =>
    rw [BandwidthLoop.step] at hstep
    split at hstep
    next timeout hsleeping =>
      cases h.loops _ (List.mem_of_getElem? hsleeping)
    · cases hstep

/-- An action that is not careful leaves a listener without a loop. -/
theorem Kept.step_dead (h : Kept s) {a : Action} {s' : Binder} {o : List Effect}
    (hcareful : ¬ Careful s a) (hstep : BandwidthLoop.step s a = some (s', o)) :
    Broken s' ∧ ¬ Listening s' := by
  cases a with
  | startListeningForBandwidth cb timeout data =>
    rw [BandwidthLoop.step] at hstep
    split at hstep
    · have hs' : _ = s' := congrArg Prod.fst (Option.some.inj hstep)
      exact hs' ▸ h.start_dead timeout (not_not.mp hcareful)
    · cases hstep
  | registerCallback | unregisterCallback | stopListeningForBandwidth | died | onCallbackDied
  | wakeUp => exact absurd trivial hcareful

theorem kept_init : Kept machine.init := by
  refine ⟨rfl, rfl, fun _ => rfl, fun hne => absurd rfl hne, ?_⟩
  intro job loop hloop
  cases hloop

/-- In every run the binder is as it should be, or nothing runs any more. -/
theorem kept_or_broken (h : machine.Reachable s) : Kept s ∨ Broken s := by
  refine Machine.Reachable.invariant (I := fun s => Kept s ∨ Broken s) (Or.inl kept_init) ?_ h
  rintro s a s' o (h | h) hstep
  · by_cases hcareful : Careful s a
    · exact Or.inl (h.step hcareful hstep)
    · exact Or.inr (h.step_dead hcareful hstep).1
  · exact Or.inr (h.step hstep)

/-- **Bandwidth loop.** In every state of a run the loop is active exactly while somebody listens,
and the assertions hold, if and only if no client starts to listen, and is sent an update, after its
process died. In every run a loop that wakes up sleeps for the least timeout that is registered. -/
theorem allStates_listening_iff {as : List Action} {s : Binder} {os : List Effect}
    (hrun : machine.run machine.init as = some (s, os)) :
    (machine.AllStates Listening machine.init as ↔ machine.AllSteps Careful machine.init as) ∧
      ∀ job data s' o, machine.step s (.wakeUp job data) = some (s', o) →
        ∃ least, o = s.broadcast data ++ [.delay job least] ∧
          s'.loops[job]? = some (.sleeping least) ∧
          least ∈ s.bandwidthListeners.entries.map Prod.snd ∧
          ∀ u ∈ s.bandwidthListeners.entries.map Prod.snd, least ≤ u := by
  refine ⟨Machine.allStates_iff_allSteps kept_init (fun s h => h.listening)
    (fun s a s' o h hcareful hstep => h.step hcareful hstep)
    (fun s a s' o h hcareful hstep => (h.step_dead hcareful hstep).2) hrun, ?_⟩
  intro job data s' o hstep
  replace hstep : BandwidthLoop.step s (.wakeUp job data) = some (s', o) := hstep
  rw [BandwidthLoop.step] at hstep
  split at hstep
  next timeout hsleeping =>
    rcases kept_or_broken ⟨as, os, hrun⟩ with h | h
    · obtain ⟨-, hne, -⟩ := h.sleeping hsleeping rfl
      obtain ⟨least, henter, hmem, hle⟩ := enterLoop_spec job hne
      rw [henter] at hstep
      cases hstep
      exact ⟨least, rfl, List.getElem?_set_self (List.getElem?_eq_some_iff.mp hsleeping).1, hmem,
        hle⟩
    · cases h.loops _ (List.mem_of_getElem? hsleeping)
  · cases hstep

/-- A client that listens twice, with a shorter timeout the second time, is sent updates, dies and
is forgotten. -/
theorem allStates_listening_iff_died :
    machine.AllStates Listening machine.init
      [.registerCallback 1, .startListeningForBandwidth 1 1000 ⟨.connected, true, true, true⟩,
        .startListeningForBandwidth 1 500 ⟨.connected, true, true, true⟩,
        .wakeUp 0 ⟨.connected, true, true, true⟩, .died 1,
        .wakeUp 0 ⟨.connected, true, true, true⟩, .onCallbackDied 1] := by
  refine (allStates_listening_iff (s := _) rfl).1.mpr ?_
  refine ⟨trivial, ?_, ?_, trivial, trivial, trivial, trivial, trivial⟩
  -- the process is alive when it starts to listen
  · rintro ⟨hdead, -⟩
    cases hdead
  · rintro ⟨hdead, -⟩
    cases hdead

/-- The second client dies before its call is processed: the update of its start is not caught, the
loop of the first one is cancelled and a third client gets none. -/
theorem not_allStates_listening :
    ∃ s os, machine.run machine.init
        [.startListeningForBandwidth 1 1000 ⟨.connected, true, false, true⟩, .died 2,
          .startListeningForBandwidth 2 1000 ⟨.connected, true, false, true⟩,
          .startListeningForBandwidth 3 1000 ⟨.connected, true, false, true⟩] = some (s, os) ∧
      s.bandwidthListeners.entries = [(1, 1000), (2, 1000)] ∧ s.loops = [.cancelled] ∧
      s.uncaught = [.remoteException] ∧
      ¬ machine.AllStates Listening machine.init
        [.startListeningForBandwidth 1 1000 ⟨.connected, true, false, true⟩, .died 2,
          .startListeningForBandwidth 2 1000 ⟨.connected, true, false, true⟩,
          .startListeningForBandwidth 3 1000 ⟨.connected, true, false, true⟩] := by
  refine ⟨_, _, rfl, rfl, rfl, rfl, ?_⟩
  intro hall
  have hlistening := Machine.AllStates.final hall rfl
  obtain ⟨job, hlooper, hactive⟩ := hlistening.running.mpr (List.cons_ne_nil _ _)
  obtain rfl : 0 = job := Option.some.inj hlooper
  cases hactive

end BandwidthLoop
