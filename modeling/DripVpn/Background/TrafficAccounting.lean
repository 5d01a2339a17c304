import DripVpn.Foundations.Machine
import DripVpn.Background.TrafficMonitor

/-!
# Crediting a session to its profile

A session is any interleaving of stat reports and calls of `persistStats(id)`; the second caller
besides `ProxyInstance.shutdown` is the `ACTION_SHUTDOWN` broadcast. `session id st` is that
interleaving as a reactive machine over the monitor and the storage, with one observation per
call: the totals at the call and the row it leaves.

A call should leave the row as it was before the session plus the totals at the call
(`PersistCall.Credits`). As every call adds the full totals (`persistStats_found`), the row after
a call exceeds that by the totals of all earlier calls. `persistStats_credits_iff` states exactly
when a session is credited once: when all calls but the last find both totals at zero.
-/

open Reactive

namespace TrafficMonitor

/-- The steps of a session. -/
inductive SessionAction where
  /-- The stat socket is accepted; the argument is what the read returns. -/
  | accept (read : Option (List UInt8))
  /-- `persistStats(id)` is called. -/
  | persistStats
  deriving DecidableEq, Repr

/-- What a call of `persistStats` shows: the totals it found and the row it left. -/
structure PersistCall where
  current : TrafficStats
  row : Option Profile

/-- A session of a fresh monitor against the storage `st`. An `IOException` of `acceptInternal`
is logged by `LocalSocketListener.run`; an exception of `persistStats` ends the process. -/
def session (id : Int64) (st : Storage) :
    Machine (TrafficMonitor × Storage) SessionAction PersistCall where
  init := ({}, st)
  step s
    | .accept read =>
      match s.1.acceptInternal read with
      | .ok m => some ((m, s.2), [])
      -- the exception is logged and the listener goes on
      | .error _ => some (s, [])
    | .persistStats =>
      match s.1.persistStats id s.2 with
      | (.ok (), m, st) => some ((m, st), [⟨s.1.current, st.profiles.get id⟩])
      | (.error _, _, _) => none

/-- The call left the row `row` of before the session plus the totals at the call. -/
def PersistCall.Credits (row : Profile) (c : PersistCall) : Prop :=
  ∃ after, c.row = some after ∧ after.tx = row.tx + c.current.txTotal ∧
    after.rx = row.rx + c.current.rxTotal

/-- The call found nothing to add. -/
def PersistCall.Vacuous (c : PersistCall) : Prop :=
  c.current.txTotal = 0 ∧ c.current.rxTotal = 0

/-- The sum of one counter over all calls. -/
def creditedTotal (counter : TrafficStats → Int64) (calls : List PersistCall) : Int64 :=
  calls.foldl (fun total c => total + counter c.current) 0

@[simp]
theorem creditedTotal_nil (counter : TrafficStats → Int64) :
    creditedTotal counter [] = 0 := rfl

@[simp]
theorem creditedTotal_concat (counter : TrafficStats → Int64) (calls : List PersistCall)
    (c : PersistCall) :
    creditedTotal counter (calls ++ [c]) = creditedTotal counter calls + counter c.current := by
  simp [creditedTotal]

/-- Calls that found a counter at zero add nothing to it. -/
theorem creditedTotal_eq_zero {counter : TrafficStats → Int64} {calls : List PersistCall}
    (h : ∀ c ∈ calls, counter c.current = 0) : creditedTotal counter calls = 0 := by
  induction calls using List.reverseRecOn with
  | nil => rfl
  | append_singleton calls c ih =>
    rw [creditedTotal_concat, ih fun d hd => h d (List.mem_append_left _ hd),
      h c (by simp), Int64.add_zero]

section Session

variable {id : Int64} {st : Storage} {row : Profile}

/-- A step is a report, which leaves the storage alone, or a call that adds the totals to the
row. -/
theorem session_step_cases {s s' : TrafficMonitor × Storage} {a : SessionAction}
    {o : List PersistCall} {r : Profile} (haccess : s.2.access = .succeeds)
    (hrow : s.2.profiles.get id = some r) (h : (session id st).step s a = some (s', o)) :
    (s'.2 = s.2 ∧ o = []) ∨
    (∃ r', s'.2.access = .succeeds ∧ s'.2.profiles.get id = some r' ∧
      r'.tx = r.tx + s.1.current.txTotal ∧ r'.rx = r.rx + s.1.current.rxTotal ∧
      o = [⟨s.1.current, some r'⟩]) := by
  cases a with
  | accept read =>
    simp only [session] at h
    split at h <;> cases h <;> exact Or.inl ⟨rfl, rfl⟩
  | persistStats =>
    obtain ⟨profiles, hcall, hget⟩ := persistStats_found (m := s.1) haccess hrow
    simp only [session, hcall, Option.some.injEq, Prod.mk.injEq] at h
    obtain ⟨rfl, rfl⟩ := h
    exact Or.inr ⟨_, haccess, hget, rfl, rfl, by simp [hget]⟩

/-- The state of the storage after a session: the row is found and has grown by the totals of
all calls, and the calls are credited exactly when all but the last were vacuous. -/
theorem session_invariant (haccess : st.access = .succeeds) (hrow : st.profiles.get id = some row)
    {as : List SessionAction} {s : TrafficMonitor × Storage} {calls : List PersistCall}
    (hrun : (session id st).run (session id st).init as = some (s, calls)) :
    s.2.access = .succeeds ∧
    (∃ r, s.2.profiles.get id = some r ∧
      r.tx = row.tx + creditedTotal TrafficStats.txTotal calls ∧
      r.rx = row.rx + creditedTotal TrafficStats.rxTotal calls) ∧
    ((∀ c ∈ calls, c.Credits row) ↔ ∀ c ∈ calls.dropLast, c.Vacuous) := by
  -- the sums of the calls are the reason for the last part, so all three are carried together
  refine Machine.run_induction (M := session id st) (P := fun _ calls s => s.2.access = .succeeds ∧
    (∃ r, s.2.profiles.get id = some r ∧
      r.tx = row.tx + creditedTotal TrafficStats.txTotal calls ∧
      r.rx = row.rx + creditedTotal TrafficStats.rxTotal calls) ∧
    ((∀ c ∈ calls, c.Credits row) ↔ ∀ c ∈ calls.dropLast, c.Vacuous)) ?_ ?_ hrun
  · exact ⟨haccess, ⟨row, hrow, by simp, by simp⟩, by simp⟩
  · rintro as calls s a s' o - ⟨hs, ⟨r, hr, htx, hrx⟩, hiff⟩ hstep
    rcases session_step_cases hs hr hstep with ⟨hst, rfl⟩ | ⟨r', hs', hr', htx', hrx', rfl⟩
    · rw [List.append_nil, hst]
      exact ⟨hs, ⟨r, hr, htx, hrx⟩, hiff⟩
    · refine ⟨hs', ⟨r', hr', ?_, ?_⟩, ?_⟩
      · rw [creditedTotal_concat, htx', htx, Int64.add_assoc]
      · rw [creditedTotal_concat, hrx', hrx, Int64.add_assoc]
      -- the new call is credited iff the earlier ones added nothing
      have hnew : (PersistCall.mk s.1.current (some r')).Credits row ↔
          creditedTotal TrafficStats.txTotal calls = 0 ∧
            creditedTotal TrafficStats.rxTotal calls = 0 := by
        simp only [PersistCall.Credits, Option.some.injEq, exists_eq_left', htx', htx, hrx', hrx,
          Int64.add_left_inj, Int64.add_eq_left]
      simp only [List.mem_append, List.mem_singleton, List.dropLast_concat]
      constructor
      · intro hall
        have hvac := hiff.mp fun c hc => hall c (Or.inl hc)
        obtain ⟨hzero, hzero'⟩ := hnew.mp (hall _ (Or.inr rfl))
        -- all but the last of the earlier calls are vacuous, so the last one is their sum
        rcases List.eq_nil_or_concat calls with rfl | ⟨before, last, rfl⟩
        · simp
        · rw [List.concat_eq_append] at hvac hzero hzero' ⊢
          rw [List.dropLast_concat] at hvac
          rw [creditedTotal_concat, creditedTotal_eq_zero fun c hc => (hvac c hc).1,
            Int64.zero_add] at hzero
          rw [creditedTotal_concat, creditedTotal_eq_zero fun c hc => (hvac c hc).2,
            Int64.zero_add] at hzero'
          intro c hc
          rcases List.mem_append.mp hc with hc | hc
          · exact hvac c hc
          · rw [List.mem_singleton.mp hc]
            exact ⟨hzero, hzero'⟩
      · intro hvac c hc
        rcases hc with hc | rfl
        · exact hiff.mpr (fun d hd => hvac d (List.dropLast_subset _ hd)) c hc
        · exact hnew.mpr ⟨creditedTotal_eq_zero fun d hd => (hvac d hd).1,
            creditedTotal_eq_zero fun d hd => (hvac d hd).2⟩

/-- In every session whose calls find the row, each call leaves the row of before the session
plus the totals at the call (so a repeated call changes nothing and a later one adds the
difference) if and only if all calls but the last find both totals at zero. -/
theorem persistStats_credits_iff (haccess : st.access = .succeeds)
    (hrow : st.profiles.get id = some row)
    {as : List SessionAction} {s : TrafficMonitor × Storage} {calls : List PersistCall}
    (hrun : (session id st).run (session id st).init as = some (s, calls)) :
    (∀ c ∈ calls, c.Credits row) ↔ ∀ c ∈ calls.dropLast, c.Vacuous :=
  (session_invariant haccess hrow hrun).2.2

end Session

/-- A storage with the profile `1`, for runs on fixed inputs. -/
def sampleStorage : Storage where
  access := .succeeds
  profiles := { rows := [{ id := 1, tx := 100, rx := 200 }], nodup := by decide }
  directBootAware := false
  directBootProfile := none
  listeningForUnlock := false

/-- The stat message with the counters `5` and `7`. -/
def sampleStat : List UInt8 := [5, 0, 0, 0, 0, 0, 0, 0, 7, 0, 0, 0, 0, 0, 0, 0]

/-- A report followed by one call: the only call is credited. -/
theorem persistStats_credits_iff_single :
    ∃ s calls, (session 1 sampleStorage).run (session 1 sampleStorage).init
        [.accept (some sampleStat), .persistStats] = some (s, calls) ∧
      ∀ c ∈ calls, c.Credits { id := 1, tx := 100, rx := 200 } := by
  have hrun : ∃ r, (session 1 sampleStorage).run (session 1 sampleStorage).init
      [.accept (some sampleStat), .persistStats] = some r ∧ r.2.length = 1 := ⟨_, rfl, rfl⟩
  obtain ⟨⟨s, calls⟩, hrun, hlength⟩ := hrun
  refine ⟨s, calls, hrun, (persistStats_credits_iff rfl rfl hrun).mpr ?_⟩
  obtain ⟨call, hcalls⟩ := List.length_eq_one_iff.mp hlength
  simp [show calls = [call] from hcalls]

/-- The broadcast of `ACTION_SHUTDOWN` followed by `ProxyInstance.shutdown` credits the session
twice. -/
theorem persistStats_twice_not_credits :
    ∃ s calls, (session 1 sampleStorage).run (session 1 sampleStorage).init
        [.accept (some sampleStat), .persistStats, .persistStats] = some (s, calls) ∧
      s.1.current.txTotal = 5 ∧
      (∃ r, s.2.profiles.get 1 = some r ∧ r.tx = 100 + 5 + 5 ∧ r.rx = 200 + 7 + 7) ∧
      ¬ ∀ c ∈ calls, c.Credits { id := 1, tx := 100, rx := 200 } := by
  refine ⟨_, _, rfl, rfl, ⟨_, rfl, rfl, rfl⟩, ?_⟩
  intro hall
  obtain ⟨after, hafter, htx, -⟩ := hall _ (List.mem_cons_of_mem _ (List.mem_singleton.mpr rfl))
  cases hafter
  exact absurd htx (by decide)

end TrafficMonitor
