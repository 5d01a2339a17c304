import DripVpn.Db.ProfileManager

/-!
# Traffic monitor

`TrafficMonitor` keeps the counters that the `ss-local` process reports through its stat socket
(`acceptInternal`), turns them into rates for the listeners (`requestUpdate`) and adds them to
the stored profile (`persistStats`). The counters, rates and times are Kotlin `Long`s.

The field `persisted` of the source holds a reference, not a copy: `persistStats` stores the very
object that `acceptInternal` keeps updating. `StatsRef` makes that visible. As a consequence the
guard `persisted == current` compares an object with itself and never fails
(`persistStats_guard`), so each call adds the full totals again (`persistStats_found`).
-/

/-- The data class `TrafficStats`. -/
structure TrafficStats where
  /-- Bytes per second. -/
  txRate : Int64 := 0
  rxRate : Int64 := 0
  /-- Bytes for the current session. -/
  txTotal : Int64 := 0
  rxTotal : Int64 := 0
  deriving DecidableEq

/-- The `TrafficStats` objects `persisted` can refer to. `current` is a `val`, so its object
stays the same for the whole life of the monitor. -/
inductive StatsRef where
  | currentObject
  deriving DecidableEq, Repr

/-- The variables of a `TrafficMonitor`. -/
structure TrafficMonitor where
  current : TrafficStats := {}
  out : TrafficStats := {}
  timestampLast : Int64 := 0
  dirty : Bool := false
  persisted : Option StatsRef := none
  deriving DecidableEq

namespace TrafficMonitor

/-- The present value of a referenced object. -/
def deref (m : TrafficMonitor) : StatsRef → TrafficStats
  | .currentObject => m.current

/-- `ByteBuffer.getLong(index)` in little-endian order. -/
def getLong (buffer : List UInt8) (index : ℕ) : Int64 :=
  Int64.ofNat (((buffer.drop index).take 8).foldr (fun b acc => b.toNat + 256 * acc) 0)

/-- The second half of `acceptInternal`: take over counters that differ. -/
def report (m : TrafficMonitor) (tx rx : Int64) : TrafficMonitor :=
  let m := if m.current.txTotal ≠ tx then
    { m with current := { m.current with txTotal := tx }, dirty := true } else m
  if m.current.rxTotal ≠ rx then
    { m with current := { m.current with rxTotal := rx }, dirty := true } else m

/-- `acceptInternal`, given what one read of the socket put into the buffer (`none` for `-1`).
An error is the message of the `IOException`. -/
def acceptInternal (m : TrafficMonitor) : Option (List UInt8) → Except String TrafficMonitor
  | none => .ok m
  | some buffer =>
    if buffer.length = 16 then .ok (m.report (getLong buffer 0) (getLong buffer 8))
    else .error ("Unexpected traffic stat length " ++ toString buffer.length)

/-- `requestUpdate` at the time `now`. -/
def requestUpdate (m : TrafficMonitor) (now : Int64) : (TrafficStats × Bool) × TrafficMonitor :=
  let delta := now - m.timestampLast
  let m := { m with timestampLast := now }
  -- two calls at the same millisecond: nothing is computed, and `dirty` is kept
  if delta ≠ 0 then
    if m.dirty then
      let out := { m.current with
        txRate := (m.current.txTotal - m.out.txTotal) * 1000 / delta
        rxRate := (m.current.rxTotal - m.out.rxTotal) * 1000 / delta }
      ((out, true), { m with out, dirty := false })
    else
      let out := { m.out with txRate := 0, rxRate := 0 }
      ((out, m.out.txRate ≠ 0 || m.out.rxRate ≠ 0), { m with out })
  else ((m.out, false), m)

/-- `profile` with the totals of `current` added. -/
def credit (current : TrafficStats) (profile : Profile) : Profile :=
  { profile with tx := profile.tx + current.txTotal, rx := profile.rx + current.rxTotal }

/-- The direct-boot half of `persistStats`, entered when the database cannot be opened. -/
def persistDirectBoot (current : TrafficStats) (id : Int64) (st : Storage) :
    Except StorageException Unit × Storage :=
  if !st.directBootAware then (.error .io, st)
  else match st.getDeviceProfile with
    | none => (.error .nullPointer, st)
    | some expanded =>
      -- `single { it.id == id }`
      match expanded.toList.filter fun p => p.id = id with
      | [profile] =>
        -- the file is written first; the receiver is registered only if that succeeded
        match st.updateDirectBoot { credit current profile with dirty := true } with
        | (.ok (), st) => (.ok (), st.listenForUnlock)
        | (.error e, st) => (.error e, st)
      | _ => (.error .noSingle, st)

/-- `persistStats(id)`. -/
def persistStats (m : TrafficMonitor) (id : Int64) (st : Storage) :
    Except StorageException Unit × TrafficMonitor × Storage :=
  if m.persisted.all fun r => m.deref r = m.current then
    -- a reference to the live object, no copy
    let m := { m with persisted := some .currentObject }
    match st.getProfile id with
    -- the profile was deleted in the meantime
    | .ok none => (.ok (), m, st)
    | .ok (some profile) =>
      let (result, st) := st.updateProfile (credit m.current profile)
      (result, m, st)
    | .error _ =>
      let (result, st) := persistDirectBoot m.current id st
      (result, m, st)
  else (.error (.illegalState "Data loss occurred"), m, st)

/-! ## What each operation does -/

/-- A report leaves the reported counters behind, whatever was there before. -/
@[simp]
theorem report_current (m : TrafficMonitor) (tx rx : Int64) :
    (m.report tx rx).current = { m.current with txTotal := tx, rxTotal := rx } := by
  by_cases htx : m.current.txTotal = tx
  · subst htx
    by_cases hrx : m.current.rxTotal = rx
    · subst hrx
      simp [report]
    · simp [report, hrx]
  · by_cases hrx : m.current.rxTotal = rx
    · subst hrx
      simp [report, htx]
    · simp [report, htx, hrx]

/-- A report touches neither what was sent to listeners nor what was persisted. -/
@[simp]
theorem report_out (m : TrafficMonitor) (tx rx : Int64) : (m.report tx rx).out = m.out := by
  by_cases htx : m.current.txTotal = tx <;> by_cases hrx : m.current.rxTotal = rx <;>
    simp [report, htx, hrx]

@[simp]
theorem report_timestampLast (m : TrafficMonitor) (tx rx : Int64) :
    (m.report tx rx).timestampLast = m.timestampLast := by
  by_cases htx : m.current.txTotal = tx <;> by_cases hrx : m.current.rxTotal = rx <;>
    simp [report, htx, hrx]

/-- The guard of `persistStats` compares the live object with itself. -/
theorem persistStats_guard (m : TrafficMonitor) :
    (m.persisted.all fun r => m.deref r = m.current) = true := by
  cases m.persisted with
  | none => rfl
  | some r => cases r; simp [deref]

/-- A call that finds the row adds the full totals to it and changes no other column. -/
theorem persistStats_found {m : TrafficMonitor} {id : Int64} {st : Storage} {row : Profile}
    (haccess : st.access = .succeeds) (hrow : st.profiles.get id = some row) :
    ∃ profiles, m.persistStats id st =
        (.ok (), { m with persisted := some .currentObject }, { st with profiles }) ∧
      profiles.get id = some (credit m.current row).stored := by
  have hid : row.id = id := ProfileTable.id_of_get hrow
  have hget : st.profiles.get (credit m.current row).id = some row := by
    rw [show (credit m.current row).id = id from hid, hrow]
  refine ⟨(st.profiles.update (credit m.current row)).2, ?_, ?_⟩
  · have hfound : st.getProfile id = .ok (some row) := by simp [Storage.getProfile, haccess, hrow]
    simp only [persistStats, persistStats_guard, if_true, hfound,
      Storage.updateProfile_found haccess hget]
  · have hstored := ProfileTable.get_update_self hget
    rwa [show (credit m.current row).id = id from hid] at hstored

end TrafficMonitor
