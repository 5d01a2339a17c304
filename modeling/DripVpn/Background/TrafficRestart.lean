import DripVpn.Background.TrafficAccounting
import Mathlib.Data.Int.Order.Basic
import Mathlib.Order.Basic

/-!
# Traffic accounting across restarts of the proxy process

`GuardedProcessPool` restarts `ss-local` without telling the `TrafficMonitor`, whose counters are
then overwritten by those of a process that counts from zero again. `restartingSession` runs one
monitor against any number of incarnations of the process; the machine only admits the reports
assumed of `ss-local` (counters of one incarnation start at zero and never decrease) and updates
at non-decreasing times. It also keeps, as a history variable, the last counters of each
incarnation.

`restarts_accounted_iff` shows that the accounting is right (what `persistStats` would add is the
sum over all incarnations, no rate is negative, no total decreases) exactly in the runs where no
incarnation reports after an earlier one reported a non-zero counter. `RateFits` keeps the product
of the rate computation inside a `Long`.
-/

open Reactive

namespace TrafficMonitor

/-- A monitor together with the history of the incarnations it listened to. -/
structure RestartState where
  monitor : TrafficMonitor
  /-- The sum of the last `tx` counters of the incarnations that ended. -/
  finishedTx : ℤ
  /-- The sum of the last `rx` counters of the incarnations that ended. -/
  finishedRx : ℤ
  /-- The last counters of the present incarnation, zero before its first report. -/
  tx : Int64
  rx : Int64

/-- The steps of a session with restarts. -/
inductive RestartAction where
  /-- The guard starts a new incarnation of the process. -/
  | restart
  /-- The present incarnation reports its counters. -/
  | report (tx rx : Int64)
  /-- `requestUpdate` is called at the time `now`. -/
  | requestUpdate (now : Int64)
  deriving DecidableEq, Repr

/-- A session with restarts, observing what `requestUpdate` returns. -/
def restartingSession : Machine RestartState RestartAction TrafficStats where
  init := { monitor := {}, finishedTx := 0, finishedRx := 0, tx := 0, rx := 0 }
  step s
    -- the monitor is not told; only the history variables notice
    | .restart =>
      some ({ s with
        finishedTx := s.finishedTx + s.tx.toInt
        finishedRx := s.finishedRx + s.rx.toInt
        tx := 0
        rx := 0 }, [])
    | .report tx rx =>
      -- assumed of `ss-local`: the counters of one incarnation never decrease
      if s.tx ≤ tx ∧ s.rx ≤ rx then
        some ({ s with monitor := s.monitor.report tx rx, tx, rx }, [])
      else none
    | .requestUpdate now =>
      if s.monitor.timestampLast ≤ now then
        let r := s.monitor.requestUpdate now
        some ({ s with monitor := r.2 }, [r.1.1])
      else none

/-- A call of `persistStats` would add the sum of the last counters of all incarnations. -/
def RestartState.Credited (s : RestartState) : Prop :=
  ∀ (id : Int64) (st : Storage) (row : Profile), st.access = .succeeds →
    st.profiles.get id = some row →
    ∃ m' st' row', s.monitor.persistStats id st = (.ok (), m', st') ∧
      st'.profiles.get id = some row' ∧
      (row'.tx - row.tx).toInt = s.finishedTx + s.tx.toInt ∧
      (row'.rx - row.rx).toInt = s.finishedRx + s.rx.toInt

/-- The counters of the monitor are the sums over all incarnations. -/
def RestartState.Accounted (s : RestartState) : Prop :=
  s.monitor.current.txTotal.toInt = s.finishedTx + s.tx.toInt ∧
    s.monitor.current.rxTotal.toInt = s.finishedRx + s.rx.toInt

/-- A report arrives only while all earlier incarnations ended at zero. -/
def FirstIncarnation (s : RestartState) : RestartAction → Prop
  | .report _ _ => s.finishedTx = 0 ∧ s.finishedRx = 0
  | _ => True

/-- The largest growth of a counter whose thousandfold is a `Long`. -/
def maxGrowth : ℤ := 9223372036854775

/-- If an update at the time `now` computes rates, both counters grew by at most `maxGrowth` since
the totals that were last handed out. -/
def GrowthFits (m : TrafficMonitor) (now : Int64) : Prop :=
  m.timestampLast ≠ now →
    m.current.txTotal.toInt - m.out.txTotal.toInt ≤ maxGrowth ∧
      m.current.rxTotal.toInt - m.out.rxTotal.toInt ≤ maxGrowth

/-- An update does not overflow in its rate computation. -/
def RateFits (s : RestartState) : RestartAction → Prop
  | .requestUpdate now => s.monitor.GrowthFits now
  | _ => True

/-- What `persistStats` would add is decided by the counters of the monitor. -/
theorem credited_iff_accounted (s : RestartState) : s.Credited ↔ s.Accounted := by
  have hadd : ∀ a b : Int64, a + b - a = b := by
    intro a b
    rw [Int64.add_comm, Int64.add_sub_cancel]
  constructor
  · intro h
    -- one storage is enough to read the counters off the row
    obtain ⟨m', st', row', hcall, hget, htx, hrx⟩ :=
      h 1 sampleStorage { id := 1, tx := 100, rx := 200 } rfl rfl
    obtain ⟨profiles, hcall', hget'⟩ := persistStats_found (m := s.monitor)
      (show sampleStorage.access = .succeeds from rfl)
      (show sampleStorage.profiles.get 1 = some { id := 1, tx := 100, rx := 200 } from rfl)
    rw [hcall] at hcall'
    cases hcall'
    rw [hget] at hget'
    cases hget'
    simp only [credit, Profile.stored, hadd] at htx hrx
    exact ⟨htx, hrx⟩
  · rintro ⟨htx, hrx⟩ id st row haccess hrow
    obtain ⟨profiles, hcall, hget⟩ := persistStats_found (m := s.monitor) haccess hrow
    refine ⟨_, _, _, hcall, hget, ?_, ?_⟩
    · simpa [credit, Profile.stored, hadd] using htx
    · simpa [credit, Profile.stored, hadd] using hrx

section Steps

variable {s s' : RestartState} {a : RestartAction} {o : List TrafficStats}

/-- `requestUpdate` does not touch the counters. -/
@[simp]
theorem requestUpdate_current (m : TrafficMonitor) (now : Int64) :
    (m.requestUpdate now).2.current = m.current := by
  simp only [requestUpdate]
  split
  · split <;> rfl
  · rfl

/-- A step that meets `FirstIncarnation` keeps the counters equal to the sums. -/
theorem accounted_step (h : s.Accounted) (hC : FirstIncarnation s a)
    (hstep : restartingSession.step s a = some (s', o)) : s'.Accounted := by
  cases a with
  | restart =>
    cases hstep
    simpa [RestartState.Accounted] using h
  | report tx rx =>
    simp only [restartingSession] at hstep
    split at hstep
    · cases hstep
      -- earlier incarnations counted nothing, so the new counters are the sums
      obtain ⟨htx, hrx⟩ := hC
      simp [RestartState.Accounted, htx, hrx]
    · cases hstep
  | requestUpdate now =>
    simp only [restartingSession] at hstep
    split at hstep
    · cases hstep
      simpa [RestartState.Accounted] using h
    · cases hstep

/-- A report after an earlier incarnation ended above zero loses what that one counted. -/
theorem not_accounted_step (hC : ¬ FirstIncarnation s a)
    (hstep : restartingSession.step s a = some (s', o)) : ¬ s'.Accounted := by
  rintro ⟨htx, hrx⟩
  cases a with
  | restart => exact hC trivial
  | requestUpdate now => exact hC trivial
  | report tx rx =>
    simp only [restartingSession] at hstep
    split at hstep
    · cases hstep
      simp only [report_current] at htx hrx
      -- equal sums would mean that the earlier incarnations counted nothing
      exact hC ⟨by omega, by omega⟩
    · cases hstep

end Steps

/-! ## Rates and totals handed to the listeners -/

/-- One counter of a monitor: what was last handed out is at most the present value, and the last
rate is not negative. -/
structure SoundCounter (current out rate : Int64) : Prop where
  out_nonneg : 0 ≤ out.toInt
  out_le : out.toInt ≤ current.toInt
  rate_nonneg : 0 ≤ rate.toInt

/-- Both counters are sound and the clock started at zero. -/
structure Sound (m : TrafficMonitor) : Prop where
  time : 0 ≤ m.timestampLast.toInt
  tx : SoundCounter m.current.txTotal m.out.txTotal m.out.txRate
  rx : SoundCounter m.current.rxTotal m.out.rxTotal m.out.rxRate

/-- The difference of two ordered non-negative `Long`s does not overflow. -/
theorem toInt_sub_of_le {a b : Int64} (hb : 0 ≤ b.toInt) (h : b.toInt ≤ a.toInt) :
    (a - b).toInt = a.toInt - b.toInt :=
  Int64.toInt_sub_of_le a b (Int64.le_iff_toInt_le.mpr hb) (Int64.le_iff_toInt_le.mpr h)

/-- The rate of a sound counter is not negative: neither the difference nor its thousandfold
overflows. -/
theorem rate_nonneg {current out rate delta : Int64} (h : SoundCounter current out rate)
    (hgrowth : current.toInt - out.toInt ≤ maxGrowth) (hdelta : 0 < delta.toInt) :
    0 ≤ ((current - out) * 1000 / delta).toInt := by
  have hsub := toInt_sub_of_le h.out_nonneg h.out_le
  have hmul : ((current - out) * 1000).toInt = (current.toInt - out.toInt) * 1000 := by
    rw [Int64.toInt_mul, hsub, show (1000 : Int64).toInt = 1000 from rfl]
    have hdiff := h.out_le
    unfold maxGrowth at hgrowth
    exact Int.bmod_eq_of_le (by omega) (by omega)
  -- the quotient of `Long`s overflows for the divisor `-1` only
  have hne : delta ≠ -1 := by
    rintro rfl
    exact absurd hdelta (by decide)
  rw [Int64.toInt_div_of_ne_right _ _ hne, hmul]
  have hdiff := h.out_le
  exact Int.tdiv_nonneg (by omega) hdelta.le

/-- An update at a later time hands out what the monitor then keeps in `out`, keeps the monitor
sound and does not hand out smaller totals than before. -/
theorem requestUpdate_sound {m : TrafficMonitor} {now : Int64} (h : m.Sound)
    (hnow : m.timestampLast ≤ now) (hfits : m.GrowthFits now) :
    (m.requestUpdate now).2.Sound ∧ (m.requestUpdate now).1.1 = (m.requestUpdate now).2.out ∧
      m.out.txTotal ≤ (m.requestUpdate now).2.out.txTotal ∧
      m.out.rxTotal ≤ (m.requestUpdate now).2.out.rxTotal := by
  rw [Int64.le_iff_toInt_le] at hnow
  have htime := h.time
  have hdelta := toInt_sub_of_le htime hnow
  simp only [requestUpdate]
  -- the three branches: a new rate, a rate set to zero, nothing at all
  split
  next hne =>
    have hpos : 0 < (now - m.timestampLast).toInt := by
      have hne' : (now - m.timestampLast).toInt ≠ 0 := fun h0 => hne (Int64.toInt_inj.mp h0)
      omega
    have hlater : m.timestampLast ≠ now := by
      rintro rfl
      omega
    obtain ⟨htx, hrx⟩ := hfits hlater
    split
    · refine ⟨⟨htime.trans hnow, ?_, ?_⟩, rfl, ?_, ?_⟩
      · exact ⟨h.tx.out_nonneg.trans h.tx.out_le, le_refl _, rate_nonneg h.tx htx hpos⟩
      · exact ⟨h.rx.out_nonneg.trans h.rx.out_le, le_refl _, rate_nonneg h.rx hrx hpos⟩
      · exact Int64.le_iff_toInt_le.mpr h.tx.out_le
      · exact Int64.le_iff_toInt_le.mpr h.rx.out_le
    · exact ⟨⟨htime.trans hnow, { h.tx with rate_nonneg := le_refl _ },
        { h.rx with rate_nonneg := le_refl _ }⟩, rfl, Int64.le_refl _, Int64.le_refl _⟩
  · exact ⟨⟨htime.trans hnow, h.tx, h.rx⟩, rfl, Int64.le_refl _, Int64.le_refl _⟩

/-- Everything the listeners were handed: no negative rate, no total above the present one, and
no total below an earlier one. -/
structure SoundUpdates (updates : List TrafficStats) (m : TrafficMonitor) : Prop where
  rates : ∀ u ∈ updates, 0 ≤ u.txRate ∧ 0 ≤ u.rxRate
  totals : ∀ u ∈ updates, u.txTotal ≤ m.out.txTotal ∧ u.rxTotal ≤ m.out.rxTotal
  ordered : updates.Pairwise fun u v => u.txTotal ≤ v.txTotal ∧ u.rxTotal ≤ v.rxTotal

/-- An update extends a sound history. -/
theorem SoundUpdates.requestUpdate {updates : List TrafficStats} {m : TrafficMonitor}
    {now : Int64} (hu : SoundUpdates updates m) (h : m.Sound) (hnow : m.timestampLast ≤ now)
    (hfits : m.GrowthFits now) :
    SoundUpdates (updates ++ [(m.requestUpdate now).1.1]) (m.requestUpdate now).2 := by
  obtain ⟨hsound, hout, htx, hrx⟩ := requestUpdate_sound h hnow hfits
  -- by transitivity it is enough to compare with the totals handed out before
  have htotals : ∀ u ∈ updates, u.txTotal ≤ (m.requestUpdate now).2.out.txTotal ∧
      u.rxTotal ≤ (m.requestUpdate now).2.out.rxTotal := fun u hmem =>
    ⟨Int64.le_trans (hu.totals u hmem).1 htx, Int64.le_trans (hu.totals u hmem).2 hrx⟩
  rw [hout]
  constructor
  · intro u hmem
    rcases List.mem_append.mp hmem with hmem | hmem
    · exact hu.rates u hmem
    · rw [List.mem_singleton.mp hmem]
      exact ⟨Int64.le_iff_toInt_le.mpr hsound.tx.rate_nonneg,
        Int64.le_iff_toInt_le.mpr hsound.rx.rate_nonneg⟩
  · intro u hmem
    rcases List.mem_append.mp hmem with hmem | hmem
    · exact htotals u hmem
    · rw [List.mem_singleton.mp hmem]
      exact ⟨Int64.le_refl _, Int64.le_refl _⟩
  · refine List.pairwise_append.mpr ⟨hu.ordered, List.pairwise_singleton _ _, ?_⟩
    intro u hmem v hv
    rw [List.mem_singleton.mp hv]
    exact htotals u hmem

/-- The invariant of the runs in which only the first incarnation that counts reports. -/
structure SteadyRun (updates : List TrafficStats) (s : RestartState) : Prop where
  accounted : s.Accounted
  finished_nonneg : 0 ≤ s.finishedTx ∧ 0 ≤ s.finishedRx
  counters_nonneg : 0 ≤ s.tx.toInt ∧ 0 ≤ s.rx.toInt
  sound : s.monitor.Sound
  updates : SoundUpdates updates s.monitor

/-- The invariant survives every step that meets both conditions. -/
theorem SteadyRun.step {updates o : List TrafficStats} {s s' : RestartState}
    {a : RestartAction} (h : SteadyRun updates s) (hC : FirstIncarnation s a)
    (hfits : RateFits s a) (hstep : restartingSession.step s a = some (s', o)) :
    SteadyRun (updates ++ o) s' := by
  have haccounted := accounted_step h.accounted hC hstep
  obtain ⟨hftx, hfrx⟩ := h.finished_nonneg
  obtain ⟨htx, hrx⟩ := h.counters_nonneg
  cases a with
  | restart =>
    cases hstep
    rw [List.append_nil]
    exact ⟨haccounted, ⟨by simp only; omega, by simp only; omega⟩, ⟨le_refl _, le_refl _⟩,
      h.sound, h.updates⟩
  | report tx rx =>
    simp only [restartingSession] at hstep
    split at hstep
    next hmono =>
      cases hstep
      obtain ⟨htx', hrx'⟩ := hmono
      rw [Int64.le_iff_toInt_le] at htx' hrx'
      -- the old totals are those of the present incarnation, so they do not decrease
      obtain ⟨hacc, hacc'⟩ := h.accounted
      obtain ⟨hzero, hzero'⟩ := hC
      have hotx := h.sound.tx.out_le
      have horx := h.sound.rx.out_le
      rw [List.append_nil]
      refine ⟨haccounted, ⟨hftx, hfrx⟩, ⟨by simp only; omega, by simp only; omega⟩, ?_, ?_⟩
      · refine ⟨?_, ?_, ?_⟩
        · simpa using h.sound.time
        · simp only [report_current, report_out]
          exact ⟨h.sound.tx.out_nonneg, by omega, h.sound.tx.rate_nonneg⟩
        · simp only [report_current, report_out]
          exact ⟨h.sound.rx.out_nonneg, by omega, h.sound.rx.rate_nonneg⟩
      · refine ⟨h.updates.rates, ?_, h.updates.ordered⟩
        simpa using h.updates.totals
    · cases hstep
  | requestUpdate now =>
    simp only [restartingSession] at hstep
    split at hstep
    next hnow =>
      cases hstep
      exact ⟨haccounted, ⟨hftx, hfrx⟩, ⟨htx, hrx⟩, (requestUpdate_sound h.sound hnow hfits).1,
        h.updates.requestUpdate h.sound hnow hfits⟩
    · cases hstep

/-- The invariant holds at the start. -/
theorem steadyRun_init : SteadyRun [] restartingSession.init where
  accounted := ⟨rfl, rfl⟩
  finished_nonneg := ⟨le_refl _, le_refl _⟩
  counters_nonneg := ⟨le_refl _, le_refl _⟩
  sound := ⟨le_refl _, ⟨le_refl _, le_refl _, le_refl _⟩, ⟨le_refl _, le_refl _, le_refl _⟩⟩
  updates := ⟨by simp, by simp, List.Pairwise.nil⟩

/-- In every run whose rate computations stay inside a `Long`, the traffic is accounted for across
restarts (in every state a call of `persistStats` would add the sum of the last counters of all
incarnations, no update carries a negative rate, and the totals of the updates never decrease)
if and only if no incarnation reports after an earlier one ended above zero. -/
theorem restarts_accounted_iff {as : List RestartAction} {s : RestartState}
    {updates : List TrafficStats}
    (hrun : restartingSession.run restartingSession.init as = some (s, updates))
    (hfits : restartingSession.AllSteps RateFits restartingSession.init as) :
    (restartingSession.AllStates RestartState.Credited restartingSession.init as ∧
      (∀ u ∈ updates, 0 ≤ u.txRate ∧ 0 ≤ u.rxRate) ∧
      updates.Pairwise fun u v => u.txTotal ≤ v.txTotal ∧ u.rxTotal ≤ v.rxTotal) ↔
    restartingSession.AllSteps FirstIncarnation restartingSession.init as := by
  -- crediting alone is exact; the rates and totals follow from the same condition
  have hiff : restartingSession.AllStates RestartState.Credited restartingSession.init as ↔
      restartingSession.AllSteps FirstIncarnation restartingSession.init as := by
    refine Machine.allStates_iff_allSteps (I := RestartState.Accounted) ⟨rfl, rfl⟩
      (fun s h => (credited_iff_accounted s).mpr h)
      (fun _ _ _ _ hI hC hstep => accounted_step hI hC hstep) ?_ hrun
    intro s a s' o _ hC hstep hcredited
    exact not_accounted_step hC hstep ((credited_iff_accounted s').mp hcredited)
  constructor
  · rintro ⟨hall, -⟩
    exact hiff.mp hall
  · intro hC
    have hsteady : SteadyRun updates s := Machine.run_induction_of_allSteps
      (P := fun _ updates s => SteadyRun updates s) steadyRun_init
      (fun _ _ _ _ _ _ h hCB hstep => h.step hCB.1 hCB.2 hstep) hrun (hC.and hfits)
    exact ⟨hiff.mpr hC, hsteady.updates.rates, hsteady.updates.ordered⟩

/-- A first incarnation that dies before it counted anything is harmless. -/
theorem restarts_accounted_iff_idle_restart :
    ∃ s updates, restartingSession.run restartingSession.init
        [.report 0 0, .restart, .report 1000 10, .requestUpdate 2000] = some (s, updates) ∧
      s.Credited := by
  have hrun : ∃ r, restartingSession.run restartingSession.init
      [.report 0 0, .restart, .report 1000 10, .requestUpdate 2000] = some r := ⟨_, rfl⟩
  obtain ⟨⟨s, updates⟩, hrun⟩ := hrun
  have hfits : restartingSession.AllSteps RateFits restartingSession.init
      [.report 0 0, .restart, .report 1000 10, .requestUpdate 2000] :=
    ⟨trivial, trivial, trivial, fun _ => by constructor <;> decide, trivial⟩
  obtain ⟨hall, -, -⟩ := (restarts_accounted_iff hrun hfits).mpr
    ⟨⟨rfl, rfl⟩, trivial, ⟨rfl, rfl⟩, trivial, trivial⟩
  cases hrun
  exact ⟨_, _, rfl, hall.2.2.2.2⟩

/-- A restart in the middle of a session: the rate turns negative, the total falls, and what the
first incarnation counted is never credited. -/
theorem restart_not_accounted :
    ∃ s first second, restartingSession.run restartingSession.init
        [.report 1000 0, .requestUpdate 1000, .restart, .report 10 0, .requestUpdate 2000] =
          some (s, [first, second]) ∧
      second.txRate = -990 ∧ first.txTotal = 1000 ∧ second.txTotal = 10 ∧
      s.finishedTx + s.tx.toInt = 1010 ∧ ¬ s.Credited := by
  refine ⟨_, _, _, rfl, by decide, by decide, by decide, by decide, ?_⟩
  rw [credited_iff_accounted]
  rintro ⟨htx, -⟩
  exact absurd htx (by decide)

end TrafficMonitor
