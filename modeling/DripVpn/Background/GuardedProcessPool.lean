import DripVpn.Foundations.Machine
import Mathlib.Data.Int.Notation

/-!
# The guard of a native process

`GuardedProcessPool.Guard.looper` keeps one native process alive: at the head of its loop it
starts a thread that watches the current process, waits for the exit code on a rendezvous
channel, starts the process again and runs the restart callback. When the guard is cancelled or
fails while the process runs, the `finally` block kills the process and waits for its exit code.

The module introduces:

* `Guard`, `Watcher`, `Looper`, `GuardState` — the guard, its watcher threads and the coroutine
  at its suspension points;
* `looper` — the guard as a reactive machine, where the actions carry the scheduling, the exits of
  the process, the clock, the outcomes of `start()` and of the callback, and cancellation;
* `Watched` — whoever waits for an exit code has exactly one watcher to get it from, and the
  coroutine can still come to its end.

Two things break `Watched`. The callback runs after the process was replaced and before the next
watcher is started, so a callback that fails or is cancelled sends the clean-up to a channel
nobody sends to. And `receive` has the prompt cancellation guarantee of coroutines: an exit code
that was handed over is lost when the cancellation or the timeout arrives before the coroutine
resumes. `Undisturbed` excludes exactly these steps, see `allStates_watched_iff`.
-/

open Reactive

namespace GuardedProcessPool

/-! ## The model -/

/-- `File(path).nameWithoutExtension`. -/
def nameWithoutExtension (path : String) : String :=
  -- `substringBeforeLast(".")` of the last component of the path
  let name := (path.toList.reverse.takeWhile (· ≠ '/')).reverse
  if '.' ∈ name then String.ofList (name.reverse.dropWhile (· ≠ '.')).tail.reverse
  else String.ofList name

/-- A guard with what its loop depends on. -/
structure Guard where
  /-- `cmd.first()`, the executable. -/
  executable : String
  /-- `Build.VERSION.SDK_INT`. -/
  sdk : ℕ
  /-- Whether an `onRestartCallback` was given. -/
  hasCallback : Bool

/-- The name the guard reports. -/
def Guard.cmdName (g : Guard) : String := nameWithoutExtension g.executable

/-- A stdout thread. It reads the variable `process` twice: for the stream to log, and when that
stream ends for the process to wait for. -/
inductive Watcher where
  /-- Started, nothing read yet. -/
  | spawned
  /-- Logging the output of the process `p`. -/
  | streaming (p : ℕ)
  /-- In `exitChannel.send(process.waitFor())` for the process `p`. -/
  | waiting (p : ℕ)
  /-- The exit code was handed over. -/
  | sent
  deriving DecidableEq, Repr

/-- The receives of the clean-up. -/
inductive Stage where
  /-- After `SIGTERM`, for at most 500 ms (before API 24). -/
  | terminating
  /-- After `destroy()`, for at most 1000 ms (from API 26 on). -/
  | destroying
  /-- The last one, without a timeout. -/
  | unbounded
  deriving DecidableEq, Repr

/-- Where the coroutine of the guard is suspended. -/
inductive Looper where
  /-- In the `exitChannel.receive()` of the loop. `handed` is an exit code that a watcher handed
  over and the coroutine has not resumed with, `struck` that the receive was cancelled. -/
  | receiving (startTime : ℤ) (handed : Option ℤ) (struck : Bool)
  /-- In `onRestartCallback`. -/
  | restarting
  /-- In a receive of the `finally` block. -/
  | cleaning (stage : Stage) (handed : Option ℤ)
  /-- The coroutine has ended. -/
  | finished
  deriving DecidableEq, Repr

/-- The guard with its threads and processes. Processes are numbered in the order they are
started. -/
structure GuardState where
  /-- The variable `process`. -/
  process : ℕ
  /-- The exit codes of the processes that have exited. -/
  exited : ℕ → Option ℤ
  /-- The stdout threads, in the order they were started. -/
  watchers : List Watcher
  /-- The coroutine. -/
  looper : Looper
  /-- The variable `running`. -/
  running : Bool
  /-- Whether the job of the pool is cancelled. -/
  cancelled : Bool
  /-- The number of exit codes taken from the channel. -/
  received : ℕ

/-- What the guard does to the outside. -/
inductive GuardEffect where
  | start (p : ℕ)
  | kill (p : ℕ)
  | destroy (p : ℕ)
  | destroyForcibly (p : ℕ)
  | onFatal (message : String)
  deriving DecidableEq, Repr

/-- The outcome of `start()`. -/
inductive StartOutcome where
  | started
  | ioException (message : String)
  | otherException
  deriving DecidableEq, Repr

/-- What can happen to a guard. -/
inductive GuardAction where
  /-- The process `p` exits. -/
  | exit (p : ℕ) (code : ℤ)
  /-- Watcher `i` evaluates `process.inputStream`. -/
  | openStream (i : ℕ)
  /-- The stream of watcher `i` ends and it evaluates `process.waitFor()`. -/
  | streamEnds (i : ℕ)
  /-- Watcher `i` meets the receiver. -/
  | handOver (i : ℕ)
  /-- The receive of the loop resumes at the time `now`; `next` is the time at the next head of
  the loop when there is no callback. -/
  | resume (now : ℤ) (outcome : StartOutcome) (next : ℤ)
  /-- The callback returns, at the time `now`. -/
  | callbackReturns (now : ℤ)
  /-- The callback throws an `IOException`. -/
  | callbackFails (message : String)
  /-- The callback is cancelled where it is suspended. -/
  | callbackCancelled
  /-- The pool is closed. -/
  | cancel
  /-- The receive of the loop resumes with the cancellation. -/
  | cancelResume
  /-- A receive of the clean-up times out. -/
  | timeout
  /-- A receive of the clean-up resumes with an exit code. -/
  | cleanupResume
  deriving DecidableEq, Repr

/-- The coroutine is suspended in a receive that has no exit code yet. -/
def Looper.waits : Looper → Bool
  | .receiving _ none _ => true
  | .cleaning _ none => true
  | _ => false

/-- The channel hands an exit code to the receiver; a receive that was cancelled has left it. -/
def Looper.accept (code : ℤ) : Looper → Option Looper
  | .receiving startTime none false => some (.receiving startTime (some code) false)
  | .cleaning stage none => some (.cleaning stage (some code))
  | _ => none

/-- The cancellation of the job reaches the receive of the loop. The clean-up is not cancellable
and a callback decides itself. -/
def Looper.strike : Looper → Looper
  | .receiving startTime handed _ => .receiving startTime handed true
  | looper => looper

namespace GuardState

/-- The head of the loop: start the watcher and call `receive`. -/
def loopHead (s : GuardState) (now : ℤ) : GuardState :=
  { s with watchers := s.watchers ++ [.spawned], looper := .receiving now none false }

/-- The `finally` block up to its first receive. -/
def finallyBlock (g : Guard) (s : GuardState) : GuardState × List GuardEffect :=
  if s.running then
    -- before API 24 the process is asked to terminate first, and destroyed when that times out
    if g.sdk < 24 then
      ({ s with looper := .cleaning .terminating none }, [.kill s.process])
    else if 26 ≤ g.sdk then
      ({ s with looper := .cleaning .destroying none }, [.destroy s.process])
    else ({ s with looper := .cleaning .unbounded none }, [.destroy s.process])
  -- the exit code was received already, so there is nothing to wait for
  else ({ s with looper := .finished }, [])

/-- The handler of an `IOException`, followed by the `finally` block. -/
def catchIOException (g : Guard) (s : GuardState) (message : String) :
    GuardState × List GuardEffect :=
  ((s.finallyBlock g).1, .onFatal message :: (s.finallyBlock g).2)

/-- The body of the loop after `receive` returned `exitCode`. -/
def afterExit (g : Guard) (s : GuardState) (startTime exitCode now : ℤ) (outcome : StartOutcome)
    (next : ℤ) : GuardState × List GuardEffect :=
  let stopped := { s with running := false }
  -- a process that lived for less than a second is not started again
  if now - startTime < 1000 then
    stopped.catchIOException g
      (g.cmdName ++ " exits too fast (exit code: " ++ toString exitCode ++ ")")
  else
    match outcome with
    | .ioException message => stopped.catchIOException g message
    | .otherException => stopped.finallyBlock g
    | .started =>
      -- the process is replaced here, its watcher is started at the next head of the loop
      let restarted := { s with process := s.process + 1, running := true }
      (if g.hasCallback then { restarted with looper := .restarting }
        else restarted.loopHead next, [.start restarted.process])

/-- One step of a guard. -/
def step (g : Guard) (s : GuardState) : GuardAction → Option (GuardState × List GuardEffect)
  | .exit p code =>
    if p ≤ s.process ∧ s.exited p = none then
      some ({ s with exited := fun q => if q = p then some code else s.exited q }, [])
    else none
  | .openStream i =>
    match s.watchers[i]? with
    | some .spawned => some ({ s with watchers := s.watchers.set i (.streaming s.process) }, [])
    | _ => none
  | .streamEnds i =>
    match s.watchers[i]? with
    -- `process` is read a second time, and may not be the one whose stream was logged
    | some (.streaming _) =>
      some ({ s with watchers := s.watchers.set i (.waiting s.process) }, [])
    | _ => none
  | .handOver i =>
    match s.watchers[i]? with
    | some (.waiting p) =>
      -- `waitFor` returns when the process has exited, `send` when there is a receiver
      match (s.exited p).bind fun code => s.looper.accept code with
      | some looper =>
        some ({ s with watchers := s.watchers.set i .sent, looper,
                       received := s.received + 1 }, [])
      | none => none
    | _ => none
  | .resume now outcome next =>
    match s.looper with
    | .receiving startTime (some exitCode) false =>
      some (s.afterExit g startTime exitCode now outcome next)
    | _ => none
  | .callbackReturns now => if s.looper = .restarting then some (s.loopHead now, []) else none
  | .callbackFails message =>
    if s.looper = .restarting then some (s.catchIOException g message) else none
  | .callbackCancelled =>
    if s.looper = .restarting ∧ s.cancelled then some (s.finallyBlock g) else none
  | .cancel =>
    if s.cancelled then some (s, [])
    else some ({ s with cancelled := true, looper := s.looper.strike }, [])
  | .cancelResume =>
    match s.looper with
    -- a receive called by a cancelled coroutine takes an exit code that is already there, so
    -- only a receive that was cancelled while suspended can lose one
    | .receiving _ handed struck =>
      if s.cancelled ∧ (struck ∨ handed = none) then some (s.finallyBlock g) else none
    | _ => none
  -- an exit code that was handed over and not resumed with is dropped by the timeout
  | .timeout =>
    match s.looper with
    | .cleaning .terminating _ =>
      some ({ s with looper := .cleaning .unbounded none }, [.destroy s.process])
    | .cleaning .destroying _ =>
      some ({ s with looper := .cleaning .unbounded none }, [.destroyForcibly s.process])
    | _ => none
  | .cleanupResume =>
    match s.looper with
    | .cleaning _ (some _) => some ({ s with looper := .finished }, [])
    | _ => none

end GuardState

/-- The coroutine of a guard whose process was started and whose loop begins at the time
`startTime`. -/
def looper (g : Guard) (startTime : ℤ) : Machine GuardState GuardAction GuardEffect where
  init :=
    { process := 0, exited := fun _ => none, watchers := [.spawned],
      looper := .receiving startTime none false, running := true, cancelled := false,
      received := 0 }
  step := GuardState.step g

/-! ## Watchers and the end of the coroutine -/

/-- The watchers that have not handed over their exit code. -/
def GuardState.unsent (s : GuardState) : List Watcher := s.watchers.filter (· ≠ .sent)

/-- The watcher watches the process `p`, or is about to read a variable `process` that holds
`p`. -/
def Watcher.Watches (p : ℕ) : Watcher → Prop
  | .spawned => True
  | .streaming q => q = p
  | .waiting q => q = p
  | .sent => False

variable {g : Guard} {startTime : ℤ}

/-- The coroutine can come to its end. -/
def CanFinish (g : Guard) (startTime : ℤ) (s : GuardState) : Prop :=
  ∃ as s' os, (looper g startTime).run s as = some (s', os) ∧ s'.looper = .finished

/-- Whoever waits for an exit code has a watcher to get it from. -/
structure Watched (g : Guard) (startTime : ℤ) (s : GuardState) : Prop where
  /-- A receive that waits has exactly one watcher that has not sent, and that one watches the
  current process. -/
  one_watcher : s.looper.waits = true → ∃ w, s.unsent = [w] ∧ w.Watches s.process
  /-- The exit codes received, together with the one waited for, are no more than the watchers,
  each of which sends one. -/
  received_le : s.received + s.looper.waits.toNat ≤ s.watchers.length
  /-- The job of the guard, which `close` joins, is not blocked for good. -/
  canFinish : CanFinish g startTime s

/-- The callback returns normally, and neither the cancellation nor a timeout hits a receive to
which an exit code was handed over already. -/
def Undisturbed (s : GuardState) : GuardAction → Prop
  | .callbackFails _ => False
  | .callbackCancelled => False
  | .cancel => s.cancelled = false →
      ∀ startTime code struck, s.looper ≠ .receiving startTime (some code) struck
  | .timeout => s.looper.waits = true
  | _ => True

/-- What holds as long as nothing was disturbed: there is a watcher left exactly while the
coroutine waits for one, and it watches the current process. -/
structure Guarded (s : GuardState) : Prop where
  running : s.looper ≠ .finished → s.running = true
  one_watcher : s.looper.waits = true → ∃ w, s.unsent = [w] ∧ w.Watches s.process
  no_watcher : s.looper.waits = false → s.unsent = []
  length_eq : s.watchers.length = s.received + s.unsent.length
  not_struck : ∀ startTime code, s.looper ≠ .receiving startTime (some code) true

/-- The coroutine waits, or is about to wait, for an exit code that nobody will send. -/
structure Stuck (s : GuardState) : Prop where
  running : s.running = true
  no_watcher : s.unsent = []
  blocked : (∃ stage, s.looper = .cleaning stage none) ∨
    ∃ startTime code, s.looper = .receiving startTime (some code) true

/-! ## What the parts of a step do -/

section Steps

variable {s s' : GuardState} {i : ℕ} {w x y : Watcher}

/-- A list with one element that satisfies `p`, after one that satisfies `p` was overwritten. -/
theorem filter_set_of_filter_eq_singleton {α : Type} {p : α → Bool} {l : List α} {w x : α}
    {i : ℕ} (hl : l.filter p = [w]) (hi : l[i]? = some x) (hx : p x = true) (y : α) :
    x = w ∧ (l.set i y).filter p = [y].filter p := by
  induction l generalizing i with
  | nil => simp at hl
  | cons z zs ih =>
    cases i with
    | zero =>
      obtain rfl : z = x := by simpa using hi
      rw [List.filter_cons_of_pos hx] at hl
      obtain ⟨rfl, hzs⟩ := List.cons_eq_cons.mp hl
      refine ⟨rfl, ?_⟩
      rw [List.set_cons_zero, ← List.singleton_append, List.filter_append, hzs, List.append_nil]
    | succ i =>
      have hi' : zs[i]? = some x := by simpa using hi
      -- the overwritten element lies in the tail, so the head cannot satisfy `p` as well
      have hz : ¬ p z = true := by
        intro hz
        rw [List.filter_cons_of_pos hz] at hl
        have hmem : x ∈ zs.filter p :=
          List.mem_filter.mpr ⟨List.mem_of_getElem? hi', hx⟩
        rw [(List.cons_eq_cons.mp hl).2] at hmem
        exact absurd hmem (by simp)
      rw [List.filter_cons_of_neg hz] at hl
      obtain ⟨hxw, hset⟩ := ih hl hi'
      refine ⟨hxw, ?_⟩
      rw [List.set_cons_succ, List.filter_cons_of_neg hz, hset]

/-- A watcher that has not sent is among the unsent ones. -/
theorem mem_unsent (hi : s.watchers[i]? = some x) (hx : x ≠ .sent) : x ∈ s.unsent :=
  List.mem_filter.mpr ⟨List.mem_of_getElem? hi, by simpa using hx⟩

/-- When one watcher is left, a watcher that moves on is that one. -/
theorem unsent_set (h : s.unsent = [w]) (hi : s.watchers[i]? = some x) (hx : x ≠ .sent)
    (y : Watcher) :
    x = w ∧ (s.watchers.set i y).filter (· ≠ .sent) = [y].filter (· ≠ .sent) :=
  filter_set_of_filter_eq_singleton h hi (by simpa using hx) y

/-- The clean-up of a process that runs ends up in a receive. -/
theorem finallyBlock_of_running (g : Guard) (h : s.running = true) :
    ∃ stage effects, s.finallyBlock g = ({ s with looper := .cleaning stage none }, effects) := by
  unfold GuardState.finallyBlock
  rw [if_pos h]
  split
  · exact ⟨_, _, rfl⟩
  · split
    · exact ⟨_, _, rfl⟩
    · exact ⟨_, _, rfl⟩

/-- There is no clean-up for a process that has exited. -/
theorem finallyBlock_of_not_running (g : Guard) (h : s.running = false) :
    s.finallyBlock g = ({ s with looper := .finished }, []) := by
  simp [GuardState.finallyBlock, h]

/-- After an exit code the guard has ended, runs the callback, or waits for the next exit. -/
theorem afterExit_cases (g : Guard) (s : GuardState) (startTime exitCode now : ℤ)
    (outcome : StartOutcome) (next : ℤ) :
    (s.afterExit g startTime exitCode now outcome next).1 =
        { s with running := false, looper := .finished } ∨
      (s.afterExit g startTime exitCode now outcome next).1 =
        { s with process := s.process + 1, running := true, looper := .restarting } ∨
      (s.afterExit g startTime exitCode now outcome next).1 =
        GuardState.loopHead { s with process := s.process + 1, running := true } next := by
  unfold GuardState.afterExit
  simp only [GuardState.catchIOException, finallyBlock_of_not_running]
  split
  · exact .inl rfl
  · cases outcome with
    | ioException message => exact .inl rfl
    | otherException => exact .inl rfl
    | started =>
      right
      cases g.hasCallback with
      | false => exact .inr rfl
      | true => exact .inl rfl

/-- Only a coroutine that waits accepts an exit code, and then it no longer waits. -/
theorem accept_eq_some {l l' : Looper} {code : ℤ} (h : l.accept code = some l') :
    l.waits = true ∧ l'.waits = false ∧ l ≠ .finished ∧
      ∀ startTime code, l' ≠ .receiving startTime (some code) true := by
  unfold Looper.accept at h
  split at h
  · obtain rfl := Option.some.inj h
    simp [Looper.waits]
  · obtain rfl := Option.some.inj h
    simp [Looper.waits]
  · exact absurd h (by simp)

end Steps

/-! ## Undisturbed steps keep the watchers right -/

section Invariant

variable {s s' : GuardState} {a : GuardAction} {o : List GuardEffect}

/-- The guard at the start of its loop. -/
theorem guarded_init : Guarded (looper g startTime).init where
  running _ := rfl
  one_watcher _ := ⟨.spawned, rfl, trivial⟩
  no_watcher h := absurd h (by simp [looper, Looper.waits])
  length_eq := rfl
  not_struck _ _ := by simp [looper]

/-- The coroutine moves from one receive to another, or from one other place to another. -/
theorem Guarded.withLooper (h : Guarded s) {l : Looper} (cancelled : Bool)
    (hrunning : l ≠ .finished → s.running = true) (hwaits : l.waits = s.looper.waits)
    (hstruck : ∀ startTime code, l ≠ .receiving startTime (some code) true) :
    Guarded { s with looper := l, cancelled } where
  running := hrunning
  one_watcher hw := h.one_watcher (hwaits.symm.trans hw)
  no_watcher hw := h.no_watcher (hwaits.symm.trans hw)
  length_eq := h.length_eq
  not_struck := hstruck

/-- The head of the loop, reached when all watchers have sent. -/
theorem guarded_loopHead (hrunning : s.running = true) (hunsent : s.unsent = [])
    (hlength : s.watchers.length = s.received + s.unsent.length) (now : ℤ) :
    Guarded (s.loopHead now) := by
  -- the thread that was just started is the only one that has not sent
  have hnew : (s.loopHead now).unsent = [.spawned] := by
    change (s.watchers ++ [Watcher.spawned]).filter (· ≠ Watcher.sent) = _
    rw [List.filter_append, show s.watchers.filter (· ≠ Watcher.sent) = [] from hunsent]
    rfl
  refine ⟨fun _ => hrunning, fun _ => ⟨.spawned, hnew, trivial⟩, ?_, ?_, ?_⟩
  · intro hw
    exact absurd hw (by simp [GuardState.loopHead, Looper.waits])
  · rw [hnew]
    rw [hunsent, List.length_nil, Nat.add_zero] at hlength
    simp [GuardState.loopHead, hlength]
  · intro startTime code
    simp [GuardState.loopHead]

/-- A watcher that reads `process` is the one that is left, and then watches the current
process. -/
theorem Guarded.watcherReads (h : Guarded s) {i : ℕ} {x y : Watcher}
    (hi : s.watchers[i]? = some x) (hx : x ≠ .sent) (hy : y ≠ .sent)
    (hwatches : y.Watches s.process) :
    Guarded { s with watchers := s.watchers.set i y } := by
  have hmem := mem_unsent hi hx
  -- a watcher that has not sent exists only while the coroutine waits for it
  cases hw : s.looper.waits with
  | false =>
    rw [h.no_watcher hw] at hmem
    exact absurd hmem (by simp)
  | true =>
    obtain ⟨w, hone, -⟩ := h.one_watcher hw
    have hset : GuardState.unsent { s with watchers := s.watchers.set i y } = [y] := by
      rw [GuardState.unsent, (unsent_set hone hi hx y).2]
      simp [hy]
    refine ⟨h.running, fun _ => ⟨y, hset, hwatches⟩, ?_, ?_, h.not_struck⟩
    · intro hw'
      exact absurd (hw.symm.trans hw') (by simp)
    · rw [hset, List.length_set, h.length_eq, hone]
      rfl

/-- A watcher that hands over its exit code was the last one. -/
theorem Guarded.handOver (h : Guarded s) {i p : ℕ} {code : ℤ} {l : Looper}
    (hi : s.watchers[i]? = some (.waiting p)) (haccept : s.looper.accept code = some l) :
    Guarded { s with watchers := s.watchers.set i .sent, looper := l,
                     received := s.received + 1 } := by
  obtain ⟨hwaits, hwaits', hfinished, hstruck⟩ := accept_eq_some haccept
  obtain ⟨w, hone, -⟩ := h.one_watcher hwaits
  have hset : (s.watchers.set i .sent).filter (· ≠ .sent) = [] :=
    (unsent_set hone hi (by simp) .sent).2
  refine ⟨fun _ => h.running hfinished, ?_, fun _ => hset, ?_, hstruck⟩
  · intro hw
    exact absurd (hwaits'.symm.trans hw) (by simp)
  · rw [GuardState.unsent, hset, List.length_set, h.length_eq, hone]
    simp

/-- Every undisturbed step keeps the invariant. -/
theorem Guarded.step (h : Guarded s) (ha : Undisturbed s a)
    (hstep : s.step g a = some (s', o)) : Guarded s' := by
  cases a with
  | exit p code =>
    simp only [GuardState.step, Option.ite_none_right_eq_some, Option.some.injEq,
      Prod.mk.injEq] at hstep
    obtain ⟨-, rfl, -⟩ := hstep
    exact ⟨h.running, h.one_watcher, h.no_watcher, h.length_eq, h.not_struck⟩
  | openStream i =>
    simp only [GuardState.step] at hstep
    split at hstep
    next hi =>
      obtain ⟨rfl, -⟩ := Prod.mk.inj (Option.some.inj hstep)
      exact h.watcherReads hi (by simp) (by simp) rfl
    next => exact absurd hstep (by simp)
  | streamEnds i =>
    simp only [GuardState.step] at hstep
    split at hstep
    next hi =>
      obtain ⟨rfl, -⟩ := Prod.mk.inj (Option.some.inj hstep)
      exact h.watcherReads hi (by simp) (by simp) rfl
    next => exact absurd hstep (by simp)
  | handOver i =>
    simp only [GuardState.step] at hstep
    split at hstep
    next p hi =>
      split at hstep
      next l hbind =>
        obtain ⟨code, -, haccept⟩ := Option.bind_eq_some_iff.mp hbind
        obtain ⟨rfl, -⟩ := Prod.mk.inj (Option.some.inj hstep)
        exact h.handOver hi haccept
      next => exact absurd hstep (by simp)
    next => exact absurd hstep (by simp)
  | resume now outcome next =>
    simp only [GuardState.step] at hstep
    split at hstep
    next startTime exitCode hl =>
      have hwaits : s.looper.waits = false := by rw [hl]; rfl
      have hunsent := h.no_watcher hwaits
      obtain rfl : (s.afterExit g startTime exitCode now outcome next).1 = s' :=
        congrArg Prod.fst (Option.some.inj hstep)
      -- the guard ends, runs the callback, or is at the head of the loop again
      rcases afterExit_cases g s startTime exitCode now outcome next with heq | heq | heq
      · rw [heq]
        exact ⟨fun hne => absurd rfl hne, fun hw => absurd hw (by simp [Looper.waits]),
          fun _ => hunsent, h.length_eq, by simp⟩
      · rw [heq]
        exact ⟨fun _ => rfl, fun hw => absurd hw (by simp [Looper.waits]),
          fun _ => hunsent, h.length_eq, by simp⟩
      · rw [heq]
        exact guarded_loopHead (s := { s with process := s.process + 1, running := true }) rfl
          hunsent h.length_eq next
    next => exact absurd hstep (by simp)
  | callbackReturns now =>
    simp only [GuardState.step, Option.ite_none_right_eq_some, Option.some.injEq,
      Prod.mk.injEq] at hstep
    obtain ⟨hl, rfl, -⟩ := hstep
    have hwaits : s.looper.waits = false := by rw [hl]; rfl
    exact guarded_loopHead (h.running (by simp [hl])) (h.no_watcher hwaits) h.length_eq now
  | callbackFails message => exact absurd ha id
  | callbackCancelled => exact absurd ha id
  | cancel =>
    simp only [GuardState.step] at hstep
    split at hstep
    next =>
      obtain ⟨rfl, -⟩ := Prod.mk.inj (Option.some.inj hstep)
      exact h
    next hc =>
      obtain ⟨rfl, -⟩ := Prod.mk.inj (Option.some.inj hstep)
      -- the cancellation finds a receive that has nothing to lose
      have hhanded := ha (by simpa using hc)
      cases hl : s.looper with
      | receiving t handed struck =>
        cases handed with
        | some code => exact absurd hl (hhanded t code struck)
        | none =>
          exact h.withLooper true (fun _ => h.running (by simp [hl])) (by rw [hl]; rfl)
            (by simp [Looper.strike])
      | restarting | cleaning | finished =>
        exact h.withLooper true (fun hne => h.running (by rw [hl]; exact hne))
          (by rw [hl]; rfl) (by simp [Looper.strike])
  | cancelResume =>
    simp only [GuardState.step] at hstep
    split at hstep
    next t handed struck hl =>
      simp only [Option.ite_none_right_eq_some] at hstep
      obtain ⟨⟨-, hstruck⟩, hstep⟩ := hstep
      have hrunning := h.running (by simp [hl])
      obtain ⟨stage, effects, heq⟩ := finallyBlock_of_running g hrunning
      obtain ⟨rfl, -⟩ := Prod.mk.inj (heq.symm.trans (Option.some.inj hstep))
      -- a receive that was struck had nothing handed over, by the invariant
      have hnone : handed = none := by
        rcases hstruck with rfl | hnone
        · cases handed with
          | none => rfl
          | some code => exact absurd hl (h.not_struck t code)
        · exact hnone
      exact h.withLooper s.cancelled (fun _ => hrunning) (by rw [hl, hnone]; rfl) (by simp)
    next => exact absurd hstep (by simp)
  | timeout =>
    simp only [GuardState.step] at hstep
    have hwaits : Looper.waits (.cleaning .unbounded none) = s.looper.waits := ha.symm
    split at hstep
    next hl =>
      obtain ⟨rfl, -⟩ := Prod.mk.inj (Option.some.inj hstep)
      exact h.withLooper s.cancelled (fun _ => h.running (by simp [hl])) hwaits (by simp)
    next hl =>
      obtain ⟨rfl, -⟩ := Prod.mk.inj (Option.some.inj hstep)
      exact h.withLooper s.cancelled (fun _ => h.running (by simp [hl])) hwaits (by simp)
    next => exact absurd hstep (by simp)
  | cleanupResume =>
    simp only [GuardState.step] at hstep
    split at hstep
    next hl =>
      obtain ⟨rfl, -⟩ := Prod.mk.inj (Option.some.inj hstep)
      exact h.withLooper s.cancelled (fun hne => absurd rfl hne) (by rw [hl]; rfl) (by simp)
    next => exact absurd hstep (by simp)

end Invariant

/-! ## Disturbed steps leave the coroutine stuck -/

section Stuck

variable {s s' : GuardState} {a : GuardAction} {o : List GuardEffect}

/-- A disturbed step ends with a coroutine that waits for nobody. -/
theorem Guarded.stuck_of_not_undisturbed (h : Guarded s) (ha : ¬ Undisturbed s a)
    (hstep : s.step g a = some (s', o)) : Stuck s' := by
  -- all four cases end in a receive with no watcher left
  cases a with
  | callbackFails message =>
    simp only [GuardState.step, Option.ite_none_right_eq_some, Option.some.injEq] at hstep
    obtain ⟨hl, hstep⟩ := hstep
    have hrunning := h.running (by simp [hl])
    obtain ⟨stage, effects, heq⟩ := finallyBlock_of_running g hrunning
    rw [GuardState.catchIOException, heq] at hstep
    obtain ⟨rfl, -⟩ := Prod.mk.inj hstep
    exact ⟨hrunning, h.no_watcher (by rw [hl]; rfl), .inl ⟨stage, rfl⟩⟩
  | callbackCancelled =>
    simp only [GuardState.step, Option.ite_none_right_eq_some, Option.some.injEq] at hstep
    obtain ⟨⟨hl, -⟩, hstep⟩ := hstep
    have hrunning := h.running (by simp [hl])
    obtain ⟨stage, effects, heq⟩ := finallyBlock_of_running g hrunning
    obtain ⟨rfl, -⟩ := Prod.mk.inj (heq.symm.trans hstep)
    exact ⟨hrunning, h.no_watcher (by rw [hl]; rfl), .inl ⟨stage, rfl⟩⟩
  | cancel =>
    -- the exit code that was handed over is the one the cancelled receive drops
    simp only [Undisturbed, not_forall, not_not] at ha
    obtain ⟨hc, t, code, struck, hl⟩ := ha
    simp only [GuardState.step, hc, Bool.false_eq_true, if_false, Option.some.injEq,
      Prod.mk.injEq] at hstep
    obtain ⟨rfl, -⟩ := hstep
    exact ⟨h.running (by simp [hl]), h.no_watcher (by rw [hl]; rfl),
      .inr ⟨t, code, by simp [hl, Looper.strike]⟩⟩
  | timeout =>
    have hwaits : s.looper.waits = false := by simpa [Undisturbed] using ha
    simp only [GuardState.step] at hstep
    split at hstep
    next hl =>
      obtain ⟨rfl, -⟩ := Prod.mk.inj (Option.some.inj hstep)
      exact ⟨h.running (by simp [hl]), h.no_watcher hwaits, .inl ⟨_, rfl⟩⟩
    next hl =>
      obtain ⟨rfl, -⟩ := Prod.mk.inj (Option.some.inj hstep)
      exact ⟨h.running (by simp [hl]), h.no_watcher hwaits, .inl ⟨_, rfl⟩⟩
    next => exact absurd hstep (by simp)
  | exit | openStream | streamEnds | handOver | resume | callbackReturns | cancelResume
  | cleanupResume => exact absurd trivial ha

/-- Nobody can hand over an exit code when all watchers have sent. -/
theorem Stuck.watchers_sent (h : Stuck s) {i : ℕ} {x : Watcher} (hi : s.watchers[i]? = some x) :
    x = .sent := by
  by_contra hx
  have hmem := mem_unsent hi hx
  rw [h.no_watcher] at hmem
  exact absurd hmem (by simp)

/-- No step helps a coroutine that is stuck. -/
theorem Stuck.step (h : Stuck s) (hstep : s.step g a = some (s', o)) : Stuck s' := by
  -- a new watcher is started at the head of the loop only, which a stuck coroutine never reaches
  cases a with
  | exit p code =>
    simp only [GuardState.step, Option.ite_none_right_eq_some, Option.some.injEq,
      Prod.mk.injEq] at hstep
    obtain ⟨-, rfl, -⟩ := hstep
    exact ⟨h.running, h.no_watcher, h.blocked⟩
  | openStream i =>
    simp only [GuardState.step] at hstep
    split at hstep
    next hi => exact absurd (h.watchers_sent hi) (by simp)
    next => exact absurd hstep (by simp)
  | streamEnds i =>
    simp only [GuardState.step] at hstep
    split at hstep
    next hi => exact absurd (h.watchers_sent hi) (by simp)
    next => exact absurd hstep (by simp)
  | handOver i =>
    simp only [GuardState.step] at hstep
    split at hstep
    next hi => exact absurd (h.watchers_sent hi) (by simp)
    next => exact absurd hstep (by simp)
  | resume | callbackReturns | callbackFails | callbackCancelled | cleanupResume =>
    -- the coroutine is neither in the callback nor resumes with an exit code
    rcases h.blocked with ⟨stage, hl⟩ | ⟨t, code, hl⟩ <;> simp [GuardState.step, hl] at hstep
  | cancel =>
    simp only [GuardState.step] at hstep
    split at hstep
    next =>
      obtain ⟨rfl, -⟩ := Prod.mk.inj (Option.some.inj hstep)
      exact h
    next =>
      obtain ⟨rfl, -⟩ := Prod.mk.inj (Option.some.inj hstep)
      refine ⟨h.running, h.no_watcher, ?_⟩
      rcases h.blocked with ⟨stage, hl⟩ | ⟨t, code, hl⟩
      · exact .inl ⟨stage, by simp [hl, Looper.strike]⟩
      · exact .inr ⟨t, code, by simp [hl, Looper.strike]⟩
  | cancelResume =>
    simp only [GuardState.step] at hstep
    split at hstep
    next =>
      simp only [Option.ite_none_right_eq_some] at hstep
      obtain ⟨stage, effects, heq⟩ := finallyBlock_of_running g h.running
      obtain ⟨rfl, -⟩ := Prod.mk.inj (heq.symm.trans (Option.some.inj hstep.2))
      exact ⟨h.running, h.no_watcher, .inl ⟨stage, rfl⟩⟩
    next => exact absurd hstep (by simp)
  | timeout =>
    simp only [GuardState.step] at hstep
    split at hstep
    next =>
      obtain ⟨rfl, -⟩ := Prod.mk.inj (Option.some.inj hstep)
      exact ⟨h.running, h.no_watcher, .inl ⟨_, rfl⟩⟩
    next =>
      obtain ⟨rfl, -⟩ := Prod.mk.inj (Option.some.inj hstep)
      exact ⟨h.running, h.no_watcher, .inl ⟨_, rfl⟩⟩
    next => exact absurd hstep (by simp)

/-- A coroutine that is stuck never comes to its end. -/
theorem Stuck.not_canFinish (h : Stuck s) : ¬ CanFinish g startTime s := by
  rintro ⟨as, s', os, hrun, hfinished⟩
  have h' : Stuck s' :=
    Machine.run_invariant (M := looper g startTime) (I := Stuck)
      (fun _ _ _ _ hs hstep => hs.step hstep) h hrun
  rcases h'.blocked with ⟨stage, hl⟩ | ⟨t, code, hl⟩ <;> simp [hl] at hfinished

end Stuck

/-! ## A guarded coroutine can come to its end -/

section Finish

variable {s s' : GuardState} {a : GuardAction} {o : List GuardEffect} {stage : Stage} {i : ℕ}

/-- One step towards the end. -/
theorem CanFinish.of_step (hstep : s.step g a = some (s', o)) (h : CanFinish g startTime s') :
    CanFinish g startTime s := by
  obtain ⟨as, s'', os, hrun, hfinished⟩ := h
  exact ⟨a :: as, s'', o ++ os, Machine.run_cons_iff.mpr ⟨s', o, os, hstep, hrun, rfl⟩,
    hfinished⟩

/-- The clean-up resumes with the exit code it was handed. -/
theorem canFinish_of_handed {code : ℤ} (hl : s.looper = .cleaning stage (some code)) :
    CanFinish g startTime s :=
  ⟨[.cleanupResume], { s with looper := .finished }, [], by
    simp [looper, Machine.run, GuardState.step, hl], rfl⟩

/-- A watcher waits for a process that has exited: it hands the exit code over. -/
theorem canFinish_of_exited {p : ℕ} {code : ℤ} (hl : s.looper = .cleaning stage none)
    (hi : s.watchers[i]? = some (.waiting p)) (hexited : s.exited p = some code) :
    CanFinish g startTime s := by
  have hstep : s.step g (.handOver i) =
      some ({ s with watchers := s.watchers.set i .sent, looper := .cleaning stage (some code),
                     received := s.received + 1 }, []) := by
    simp [GuardState.step, hi, hexited, hl, Looper.accept]
  exact CanFinish.of_step hstep (canFinish_of_handed rfl)

/-- A watcher waits for the current process, which was told to exit. -/
theorem canFinish_of_waiting (hl : s.looper = .cleaning stage none)
    (hi : s.watchers[i]? = some (.waiting s.process)) : CanFinish g startTime s := by
  cases hexited : s.exited s.process with
  | some code => exact canFinish_of_exited hl hi hexited
  | none =>
    have hstep : s.step g (.exit s.process 0) =
        some ({ s with exited := fun q => if q = s.process then some 0 else s.exited q }, []) := by
      simp [GuardState.step, hexited]
    exact CanFinish.of_step hstep (canFinish_of_exited hl hi (if_pos rfl))

/-- A watcher logs the output, which ends with the process. -/
theorem canFinish_of_streaming {p : ℕ} (hl : s.looper = .cleaning stage none)
    (hi : s.watchers[i]? = some (.streaming p)) : CanFinish g startTime s := by
  have hstep : s.step g (.streamEnds i) =
      some ({ s with watchers := s.watchers.set i (.waiting s.process) }, []) := by
    simp [GuardState.step, hi]
  have hlt : i < s.watchers.length := (List.getElem?_eq_some_iff.mp hi).1
  exact CanFinish.of_step hstep (canFinish_of_waiting hl (List.getElem?_set_self hlt))

/-- A watcher has just been started. -/
theorem canFinish_of_spawned (hl : s.looper = .cleaning stage none)
    (hi : s.watchers[i]? = some .spawned) : CanFinish g startTime s := by
  have hstep : s.step g (.openStream i) =
      some ({ s with watchers := s.watchers.set i (.streaming s.process) }, []) := by
    simp [GuardState.step, hi]
  have hlt : i < s.watchers.length := (List.getElem?_eq_some_iff.mp hi).1
  exact CanFinish.of_step hstep (canFinish_of_streaming hl (List.getElem?_set_self hlt))

/-- A clean-up with a watcher of the current process. -/
theorem canFinish_of_cleaning {w : Watcher} (hl : s.looper = .cleaning stage none)
    (hone : s.unsent = [w]) (hw : w.Watches s.process) : CanFinish g startTime s := by
  have hmem : w ∈ s.watchers :=
    (List.mem_filter.mp (show w ∈ s.unsent by rw [hone]; exact List.mem_singleton_self w)).1
  obtain ⟨i, hi⟩ := List.mem_iff_getElem?.mp hmem
  cases w with
  | spawned => exact canFinish_of_spawned hl hi
  | streaming p => exact canFinish_of_streaming hl hi
  | waiting p =>
    obtain rfl : p = s.process := hw
    exact canFinish_of_waiting hl hi
  | sent => exact absurd hw id

/-- A receive of the loop with a watcher: the pool can be closed. -/
theorem canFinish_of_receiving {w : Watcher} {t : ℤ} {struck : Bool}
    (hl : s.looper = .receiving t none struck) (hrunning : s.running = true)
    (hone : s.unsent = [w]) (hw : w.Watches s.process) : CanFinish g startTime s := by
  -- once cancelled, the receive ends and the clean-up begins
  have hcancelled : ∀ {s₁ : GuardState} {struck : Bool}, s₁.looper = .receiving t none struck →
      s₁.running = true → s₁.cancelled = true → s₁.unsent = [w] → w.Watches s₁.process →
      CanFinish g startTime s₁ := by
    intro s₁ struck hl hrunning hc hone hw
    obtain ⟨stage, effects, heq⟩ := finallyBlock_of_running g hrunning
    have hstep : s₁.step g .cancelResume =
        some ({ s₁ with looper := .cleaning stage none }, effects) := by
      simp [GuardState.step, hl, hc, heq]
    exact CanFinish.of_step hstep (canFinish_of_cleaning rfl hone hw)
  cases hc : s.cancelled with
  | true => exact hcancelled hl hrunning hc hone hw
  | false =>
    have hstep : s.step g .cancel =
        some ({ s with cancelled := true, looper := .receiving t none true }, []) := by
      simp [GuardState.step, hc, hl, Looper.strike]
    exact CanFinish.of_step hstep (hcancelled rfl hrunning rfl hone hw)

/-- A guarded coroutine can come to its end from wherever it is. -/
theorem Guarded.canFinish (h : Guarded s) : CanFinish g startTime s := by
  -- one way to the end for each place the coroutine can be suspended at
  cases hl : s.looper with
  | receiving t handed struck =>
    cases handed with
    | none =>
      obtain ⟨w, hone, hw⟩ := h.one_watcher (by rw [hl]; rfl)
      exact canFinish_of_receiving hl (h.running (by simp [hl])) hone hw
    | some code =>
      cases struck with
      | true => exact absurd hl (h.not_struck t code)
      | false =>
        -- a process that exits at once ends its guard
        have hstep : s.step g (.resume t .started t) =
            some (s.afterExit g t code t .started t) := by
          simp [GuardState.step, hl]
        have hfinished : (s.afterExit g t code t .started t).1.looper = .finished := by
          simp [GuardState.afterExit, GuardState.catchIOException, finallyBlock_of_not_running]
        exact CanFinish.of_step hstep ⟨[], _, [], rfl, hfinished⟩
  | restarting =>
    have hstep : s.step g (.callbackReturns 0) = some (s.loopHead 0, []) := by
      simp [GuardState.step, hl]
    have hhead := guarded_loopHead (h.running (by simp [hl]))
      (h.no_watcher (by rw [hl]; rfl)) h.length_eq 0
    obtain ⟨w, hone, hw⟩ := hhead.one_watcher rfl
    exact CanFinish.of_step hstep
      (canFinish_of_receiving rfl (h.running (by simp [hl])) hone hw)
  | cleaning stage handed =>
    cases handed with
    | none =>
      obtain ⟨w, hone, hw⟩ := h.one_watcher (by rw [hl]; rfl)
      exact canFinish_of_cleaning hl hone hw
    | some code => exact canFinish_of_handed hl
  | finished => exact ⟨[], s, [], rfl, hl⟩

/-- The invariant gives everything the guard relies on. -/
theorem Guarded.watched (h : Guarded s) : Watched g startTime s where
  one_watcher := h.one_watcher
  received_le := by
    rw [h.length_eq]
    cases hw : s.looper.waits with
    | false => simp
    | true =>
      obtain ⟨w, hone, -⟩ := h.one_watcher hw
      simp [hone]
  canFinish := h.canFinish

end Finish

/-! ## Main result -/

/-- In every run of a guard: a receive that waits always has exactly one watcher on the current
process, no more exit codes are awaited than watchers send, and the coroutine can always come to
its end, if and only if the callback always returns normally and no cancellation or timeout hits
a receive to which an exit code was handed over already. -/
theorem allStates_watched_iff {as : List GuardAction} {s : GuardState} {os : List GuardEffect}
    (hrun : (looper g startTime).run (looper g startTime).init as = some (s, os)) :
    (looper g startTime).AllStates (Watched g startTime) (looper g startTime).init as ↔
      (looper g startTime).AllSteps Undisturbed (looper g startTime).init as := by
  refine Machine.allStates_iff_allSteps (I := Guarded) guarded_init ?_ ?_ ?_ hrun
  · intro s h
    exact h.watched
  · intro s a s' o h ha hstep
    exact h.step ha hstep
  · intro s a s' o h ha hstep hwatched
    exact (h.stuck_of_not_undisturbed ha hstep).not_canFinish hwatched.canFinish

/-- The guard of `tun2socks` on API level 30. -/
def tun2socks : Guard :=
  { executable := "/data/app/lib/libtun2socks.so", sdk := 30, hasCallback := true }

/-- The process exits after five seconds, is started again, and the pool is closed while the
second process runs: the clean-up gets its exit code. -/
theorem allStates_watched_iff_closed :
    ∃ s, (looper tun2socks 0).run (looper tun2socks 0).init
        [.openStream 0, .exit 0 1, .streamEnds 0, .handOver 0, .resume 5000 .started 0,
          .callbackReturns 5100, .openStream 1, .cancel, .cancelResume, .exit 1 143,
          .streamEnds 1, .handOver 1, .cleanupResume] =
          some (s, [.start 1, .destroy 1]) ∧ s.looper = .finished ∧
      (looper tun2socks 0).AllStates (Watched tun2socks 0) (looper tun2socks 0).init
        [.openStream 0, .exit 0 1, .streamEnds 0, .handOver 0, .resume 5000 .started 0,
          .callbackReturns 5100, .openStream 1, .cancel, .cancelResume, .exit 1 143,
          .streamEnds 1, .handOver 1, .cleanupResume] := by
  refine ⟨_, rfl, rfl, (allStates_watched_iff rfl).mpr ?_⟩
  -- the only step with a condition is the cancellation, which finds no exit code handed over
  refine ⟨trivial, trivial, trivial, trivial, trivial, trivial, trivial, ?_, trivial, trivial,
    trivial, trivial, trivial, trivial⟩
  intro _ t code struck h
  exact absurd (Looper.receiving.inj h).2.1 (by simp)

/-- `sendFd` fails after a restart. The clean-up waits for the new process, which nobody watches,
and the guard never ends. -/
theorem callbackFails_not_watched :
    ∃ s, (looper tun2socks 0).run (looper tun2socks 0).init
        [.openStream 0, .exit 0 1, .streamEnds 0, .handOver 0, .resume 5000 .started 0,
          .callbackFails "Connection refused"] =
          some (s, [.start 1, .onFatal "Connection refused", .destroy 1]) ∧
      s.looper.waits = true ∧ s.unsent = [] ∧
      ¬ (looper tun2socks 0).AllStates (Watched tun2socks 0) (looper tun2socks 0).init
        [.openStream 0, .exit 0 1, .streamEnds 0, .handOver 0, .resume 5000 .started 0,
          .callbackFails "Connection refused"] ∧
      ∀ as s' os, (looper tun2socks 0).run s as = some (s', os) → s'.looper ≠ .finished := by
  have hstuck : Stuck
      { process := 1, exited := fun q => if q = 0 then some 1 else none, watchers := [.sent],
        looper := .cleaning .destroying none, running := true, cancelled := false,
        received := 1 } := ⟨rfl, rfl, .inl ⟨_, rfl⟩⟩
  refine ⟨_, rfl, rfl, rfl, ?_, ?_⟩
  · intro hall
    exact hstuck.not_canFinish (Machine.AllStates.final hall rfl).canFinish
  · intro as s' os hrun hfinished
    exact hstuck.not_canFinish ⟨as, s', os, hrun, hfinished⟩

end GuardedProcessPool
