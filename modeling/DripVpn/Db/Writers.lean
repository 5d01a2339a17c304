import DripVpn.Background.TrafficMonitor
import DripVpn.Foundations.Machine
import DripVpn.Sub.SubService

/-!
# Concurrent profile writers

The service runs in the process `:bg`, the activity in another one, and both write the same
database. A `DaoCall` is atomic, but an operation makes several of them: `persistStats` reads the
row of a profile and writes the whole row back, and so do the operations of the activity
(`initVpn`, an `updateProfile` of a row read earlier, `createProfilesFromSubscription`).

The machine of this module performs the calls of the two processes in any order. `intended` records
what the rows would be if no change of a writer were lost: an update replaces the columns in which
it differs from the copy the writer had, and adds to the counters what it added to those of its
copy (`Profile.merge`). A run keeps the table equal to the intended one, and no `check` of
`persistStats` fails, exactly when every update finds the row as its writer left or read it
(`allStates_lossless_iff`).
-/

open Reactive

/-! ## The operations -/

namespace TrafficMonitor

/-- `persistStats(id)` as calls to the database, which can be opened. -/
def persistCalls (current : TrafficStats) (id : Int64) : DaoProgram Unit Unit := do
  match ← ProfileManager.getProfile id with
  | none => pure ()
  | some profile => ProfileManager.updateProfile (credit current profile)

/-- Undisturbed, the calls are `persistStats`. -/
theorem run_persistCalls (m : TrafficMonitor) (id : Int64) {st : Storage} {db : ProfileDatabase}
    (haccess : st.access = .succeeds) (htable : st.profiles = db.table) (s : Heap Unit) :
    ((persistCalls m.current id).run ProfileDatabase.perform (s, db)).1 =
        (m.persistStats id st).1 ∧
      ((persistCalls m.current id).run ProfileDatabase.perform (s, db)).2.2.table =
        (m.persistStats id st).2.2.profiles := by
  have hfound : st.getProfile id = .ok (db.table.get id) := by
    simp [Storage.getProfile, haccess, htable]
  simp only [persistStats, persistStats_guard, if_true, hfound]
  -- the first call
  have hcalls : (persistCalls m.current id).run ProfileDatabase.perform (s, db) =
      match db.table.get id with
      | none => (.ok (), (s, db))
      | some row => (ProfileManager.updateProfile (credit m.current row)).run
          ProfileDatabase.perform (s, db) := by
    rw [persistCalls, Session.run_bind]
    show Session.run _ (match db.table.get id with | none => _ | some row => _) (s, db) = _
    cases db.table.get id with
    | none => rfl
    | some row => rfl
  rw [hcalls]
  cases hget : db.table.get id with
  | none => exact ⟨rfl, htable.symm⟩
  | some row =>
    have hid : (credit m.current row).id = id := ProfileTable.id_of_get (p := row) hget
    have hrow : db.table.get (credit m.current row).id = some row := by rw [hid, hget]
    have hrow' : st.profiles.get (credit m.current row).id = some row := by rw [htable, hrow]
    simp only [Storage.updateProfile_found haccess hrow', ProfileManager.run_updateProfile hrow,
      htable]
    exact ⟨trivial, rfl⟩

end TrafficMonitor

namespace MainActivity

/-- The profiles that `initVpn` creates differ in their names. -/
def initialProfile (name : String) : Profile :=
  { name := some name, host := "51.79.69.99", remotePort := 5131, password := "mEaySpF1IKrfzZge",
    method := "chacha20-ietf-poly1305" }

/-- `Core.switchProfile`; the variable is `DataStore.profileId`. -/
def switchProfile (id : Int64) : DaoProgram Int64 Unit := do
  let result ← match ← ProfileManager.getProfile id with
    | some profile => pure profile.id
    | none => ProfileManager.createProfile {}
  Session.modify fun s => { s with own := result }

/-- `initVpn`. -/
def initVpn : DaoProgram Int64 Unit := do
  ProfileManager.clear
  let p ← ProfileManager.createProfile (initialProfile "Montreal")
  let _ ← ProfileManager.createProfile (initialProfile "Phoenix")
  let _ ← ProfileManager.createProfile (initialProfile "Dover")
  let _ ← ProfileManager.createProfile (initialProfile "Reno")
  switchProfile p

end MainActivity

/-- What is left of an operation. -/
abbrev Pending : Type := Calls DaoCall.Result (Except StorageException Unit)

/-- The calls of an operation that starts with the variables `own` and no profile in memory. -/
def DaoProgram.calls {τ : Type} (m : DaoProgram τ Unit) (own : τ) : Pending :=
  (m { objects := fun _ => {}, own }).bind fun r => .done r.1

namespace Writers

/-- The operations of the activity. -/
inductive Operation where
  | initVpn
  /-- Read a profile and later save it with changes. -/
  | updateProfile (id : Int64) (edit : Profile → Profile)
  /-- With the value of `DataStore.profileId`. -/
  | createProfilesFromSubscription (profileId : Int64) (jsons : List (Option JsonElement))

/-- Read a profile, and save it with its columns changed by `edit`. -/
def editProfile (id : Int64) (edit : Profile → Profile) : DaoProgram Unit Unit := do
  match ← ProfileManager.getProfile id with
  | none => pure ()
  | some profile => ProfileManager.updateProfile { edit profile with id := profile.id }

/-- The calls of an operation. -/
def Operation.calls (hash : HashOrder) : Operation → Pending
  | .initVpn => MainActivity.initVpn.calls 0
  | .updateProfile id edit => (editProfile id edit).calls ()
  | .createProfilesFromSubscription profileId jsons =>
    (SubService.createProfilesFromSubscription hash jsons).calls { profileId }

/-! ## Losing nothing -/

/-- A column after an update by a writer that holds `copy` and writes `value`. -/
def column {α : Type} [DecidableEq α] (copy value row : α) : α :=
  if value = copy then row else value

/-- The row after an update by a writer that holds `copy` and writes `value`, if nothing of the
present `row` is lost. -/
def merge (copy value row : Profile) : Profile where
  id := row.id
  name := column copy.name value.name row.name
  host := column copy.host value.host row.host
  remotePort := column copy.remotePort value.remotePort row.remotePort
  password := column copy.password value.password row.password
  method := column copy.method value.method row.method
  route := column copy.route value.route row.route
  remoteDns := column copy.remoteDns value.remoteDns row.remoteDns
  proxyApps := column copy.proxyApps value.proxyApps row.proxyApps
  bypass := column copy.bypass value.bypass row.bypass
  udpdns := column copy.udpdns value.udpdns row.udpdns
  ipv6 := column copy.ipv6 value.ipv6 row.ipv6
  metered := column copy.metered value.metered row.metered
  individual := column copy.individual value.individual row.individual
  plugin := column copy.plugin value.plugin row.plugin
  udpFallback := column copy.udpFallback value.udpFallback row.udpFallback
  subscription := column copy.subscription value.subscription row.subscription
  tx := row.tx + (value.tx - copy.tx)
  rx := row.rx + (value.rx - copy.rx)
  userOrder := column copy.userOrder value.userOrder row.userOrder
  dirty := false

/-- Unless the writer sets the column, the row still has what the copy has. -/
def Kept {α : Type} (copy value row : α) : Prop := value = copy → row = copy

/-- The copy of a writer is as good as the present row: it has the row's counters, and the row's
value in every column that the writer does not set itself. -/
structure UpToDate (copy value row : Profile) : Prop where
  tx : row.tx = copy.tx
  rx : row.rx = copy.rx
  name : Kept copy.name value.name row.name
  host : Kept copy.host value.host row.host
  remotePort : Kept copy.remotePort value.remotePort row.remotePort
  password : Kept copy.password value.password row.password
  method : Kept copy.method value.method row.method
  route : Kept copy.route value.route row.route
  remoteDns : Kept copy.remoteDns value.remoteDns row.remoteDns
  proxyApps : Kept copy.proxyApps value.proxyApps row.proxyApps
  bypass : Kept copy.bypass value.bypass row.bypass
  udpdns : Kept copy.udpdns value.udpdns row.udpdns
  ipv6 : Kept copy.ipv6 value.ipv6 row.ipv6
  metered : Kept copy.metered value.metered row.metered
  individual : Kept copy.individual value.individual row.individual
  plugin : Kept copy.plugin value.plugin row.plugin
  udpFallback : Kept copy.udpFallback value.udpFallback row.udpFallback
  subscription : Kept copy.subscription value.subscription row.subscription
  userOrder : Kept copy.userOrder value.userOrder row.userOrder

/-- A column is as written exactly when the writer set it or nobody else did. -/
theorem column_eq_iff {α : Type} [DecidableEq α] {copy value row : α} :
    column copy value row = value ↔ Kept copy value row := by
  by_cases h : value = copy
  · simp [column, Kept, h]
  · simp [column, Kept, h]

/-- A counter is as written exactly when the copy had the present one. -/
theorem counter_eq_iff {copy value row : Int64} :
    row + (value - copy) = value ↔ row = copy := by
  constructor
  · intro h
    grind
  · rintro rfl
    grind

/-- An update loses nothing exactly when the copy is up to date. -/
theorem merge_eq_stored_iff {copy value row : Profile} (hid : row.id = value.id) :
    merge copy value row = value.stored ↔ UpToDate copy value row := by
  simp only [merge, Profile.stored, Profile.mk.injEq, column_eq_iff, counter_eq_iff, hid, true_and,
    and_true]
  constructor
  · rintro ⟨h1, h2, h3, h4, h5, h6, h7, h8, h9, h10, h11, h12, h13, h14, h15, h16, h17, h18, h19⟩
    exact ⟨h17, h18, h1, h2, h3, h4, h5, h6, h7, h8, h9, h10, h11, h12, h13, h14, h15, h16, h19⟩
  · rintro ⟨h17, h18, h1, h2, h3, h4, h5, h6, h7, h8, h9, h10, h11, h12, h13, h14, h15, h16, h19⟩
    exact ⟨h1, h2, h3, h4, h5, h6, h7, h8, h9, h10, h11, h12, h13, h14, h15, h16, h17, h18, h19⟩

/-- The present row is up to date. -/
theorem upToDate_self (value row : Profile) : UpToDate row value row := by
  constructor <;> first | rfl | exact fun _ => rfl

/-- Adding the totals to a copy adds them to the row. -/
theorem merge_credit (current : TrafficStats) (copy row : Profile) :
    merge copy (TrafficMonitor.credit current copy) row =
      (TrafficMonitor.credit current row).stored := by
  simp only [merge, column, TrafficMonitor.credit, Profile.stored, if_true, Profile.mk.injEq,
    true_and, and_true]
  constructor
  · grind
  · grind

/-! ## The machine -/

/-- A running operation: the calls it still has to make, and the rows it knows, as it first read
them or last wrote them. -/
structure Running where
  rest : Pending
  copies : Int64 → Option Profile := fun _ => none

/-- The rows a writer knows after a call. -/
def learn (copies : Int64 → Option Profile) : (c : DaoCall) → c.Result → Int64 → Option Profile
  | .get id, row, k => (copies k).or (if k = id then row else none)
  | .listAll, rows, k => (copies k).or (List.find? (fun p => decide (p.id = k)) rows)
  | .create value, .ok id, k =>
    if k = id then some { value with id, dirty := false } else copies k
  | .create _, .error (), k => copies k
  | .update value, _, k => if k = value.id then some value.stored else copies k
  | .nextOrder, _, k | .delete _, _, k | .deleteAll, _, k => copies k

end Writers

/-- The state of the database and of the two processes. -/
structure Writers where
  db : ProfileDatabase
  /-- `persistStats` in `:bg`, one call after another. -/
  service : Option Writers.Running := none
  /-- The operations under way in the activity. -/
  activity : List Writers.Running := []
  /-- The rows, if no change is lost. -/
  intended : Int64 → Option Profile

namespace Writers

/-- The rows after a call by a writer that knows `copies`, if no change is lost. A row the writer
does not know is written as a whole. -/
def intend (s : Writers) (copies : Int64 → Option Profile) : DaoCall → Int64 → Option Profile
  | .create value, k =>
    if s.db.sequence < maxRowid ∧ k = s.db.nextKey then
      some { value with id := s.db.nextKey, dirty := false }
    else s.intended k
  | .update value, k =>
    if k = value.id then
      -- only the columns that the writer changed since it read the row
      (s.intended k).map fun row => merge ((copies k).getD row) value row
    else s.intended k
  | .delete id, k => if k = id then none else s.intended k
  | .deleteAll, _ => none
  | .get _, k | .listAll, k | .nextOrder, k => s.intended k

/-- Perform a call of a writer that knows `copies`. -/
def perform (s : Writers) (copies : Int64 → Option Profile) (c : DaoCall) : Writers :=
  { s with db := (ProfileDatabase.perform c s.db).2, intended := s.intend copies c }

/-- The writer after its next call. -/
def Running.next (copies : Int64 → Option Profile) (c : DaoCall) (k : c.Result → Pending)
    (db : ProfileDatabase) : Running :=
  let result := (ProfileDatabase.perform c db).1
  { rest := k result, copies := learn copies c result }

/-- What can happen. -/
inductive Action where
  /-- The service persists the totals of a session. -/
  | persistStats (current : TrafficStats) (id : Int64)
  /-- The service makes its next call, or returns. -/
  | serviceCall
  /-- The activity begins an operation. -/
  | start (operation : Operation)
  /-- An operation of the activity makes its next call, or returns. -/
  | activityCall (index : ℕ)

/-- One step of one of the processes. -/
def step (hash : HashOrder) (s : Writers) : Action → Option Writers
  | .persistStats current id =>
    -- the service persists one session at a time
    if s.service.isNone then
      some { s with service := some { rest := (TrafficMonitor.persistCalls current id).calls () } }
    else none
  | .serviceCall =>
    match s.service with
    | none => none
    | some ⟨.done _, _⟩ => some { s with service := none }
    | some ⟨.call c k, copies⟩ =>
      some { s.perform copies c with service := some (.next copies c k s.db) }
  | .start operation =>
    some { s with activity := s.activity ++ [{ rest := operation.calls hash }] }
  | .activityCall i =>
    match s.activity[i]? with
    | none => none
    | some ⟨.done _, _⟩ => some { s with activity := s.activity.eraseIdx i }
    | some ⟨.call c k, copies⟩ =>
      some { s.perform copies c with activity := s.activity.set i (.next copies c k s.db) }

/-- The two processes on a database. -/
def machine (hash : HashOrder) (db : ProfileDatabase) : Machine Writers Action Empty where
  init := { db, intended := db.table.get }
  step s a := (s.step hash a).map fun s' => (s', [])

/-- No change of a row that exists is lost, and no `check` of `persistStats` has failed. -/
structure Lossless (s : Writers) : Prop where
  rows : ∀ row ∈ s.db.table.rows, s.intended row.id = some row
  check : ∀ r e, s.service = some r → r.rest ≠ .done (.error e)

/-- The call of a step, and what its writer knows. -/
def nextCall (s : Writers) : Action → Option (DaoCall × (Int64 → Option Profile))
  | .serviceCall => s.service.bind fun
    | ⟨.call c _, copies⟩ => some (c, copies)
    | ⟨.done _, _⟩ => none
  | .activityCall i => s.activity[i]?.bind fun
    | ⟨.call c _, copies⟩ => some (c, copies)
    | ⟨.done _, _⟩ => none
  | _ => none

/-- An update by a step finds the copy of its writer up to date, and one by the service finds the
row. -/
def Fresh (s : Writers) (a : Action) : Prop :=
  ∀ value copies, s.nextCall a = some (.update value, copies) →
    (∀ row copy, s.db.table.get value.id = some row → copies value.id = some copy →
      UpToDate copy value row) ∧
    (a = .serviceCall → s.db.table.get value.id ≠ none)

/-! ## The service -/

/-- The calls of `updateProfile`. -/
theorem updateProfile_calls (value : Profile) :
    DaoProgram.calls (ProfileManager.updateProfile value) () =
      .call (.update value) fun count : ℕ =>
        if count = 1 then .done (.ok ())
        else .done (.error (.illegalState "Check failed.")) := by
  apply congrArg (Calls.call (DaoCall.update value))
  funext (count : ℕ)
  show Calls.bind (Calls.bind (Calls.done _) _) _ = _
  by_cases h : count = 1
  · simp only [h, if_true]
    rfl
  · simp only [Calls.bind, h, if_false]
    rfl

/-- The calls of `persistStats`. -/
theorem persistCalls_calls (current : TrafficStats) (id : Int64) :
    (TrafficMonitor.persistCalls current id).calls () =
      .call (.get id) fun
        | none => .done (.ok ())
        | some row => DaoProgram.calls (ProfileManager.updateProfile
            (TrafficMonitor.credit current row)) () := by
  apply congrArg (Calls.call (DaoCall.get id))
  funext row
  cases row with
  | none => rfl
  | some row => rfl

/-- What can be left of `persistStats`. -/
inductive PersistRest : Pending → Prop
  | read (current : TrafficStats) (id : Int64) :
    PersistRest ((TrafficMonitor.persistCalls current id).calls ())
  | write (current : TrafficStats) (row : Profile) :
    PersistRest (DaoProgram.calls (ProfileManager.updateProfile
      (TrafficMonitor.credit current row)) ())
  | returned : PersistRest (.done (.ok ()))

/-- A call of `persistStats`: only an update that finds no row makes it fail. -/
theorem PersistRest.call {c : DaoCall} {k : c.Result → Pending} (h : PersistRest (.call c k))
    (db : ProfileDatabase) :
    (∃ value e, c = .update value ∧ db.table.get value.id = none ∧
      k (ProfileDatabase.perform c db).1 = .done (.error e)) ∨
    ((∀ value, c = .update value → db.table.get value.id ≠ none) ∧
      PersistRest (k (ProfileDatabase.perform c db).1)) := by
  generalize hrest : Calls.call c k = rest at h
  cases h with
  | read current id =>
    rw [persistCalls_calls] at hrest
    cases hrest
    refine Or.inr ⟨fun value hc => (by cases hc), ?_⟩
    simp only [ProfileDatabase.perform]
    cases db.table.get id with
    | none => exact .returned
    | some row => exact .write current row
  | write current row =>
    rw [updateProfile_calls] at hrest
    cases hrest
    cases hget : db.table.get (TrafficMonitor.credit current row).id with
    | none =>
      refine Or.inl ⟨_, _, rfl, hget, if_neg ?_⟩
      show (db.table.update _).1 ≠ 1
      rw [ProfileTable.update_count_of_none hget]
      exact Nat.zero_ne_one
    | some present =>
      refine Or.inr ⟨?_, ?_⟩
      · intro value hc
        cases hc
        rw [hget]
        exact Option.some_ne_none present
      · show PersistRest (if (db.table.update _).1 = 1 then _ else _)
        rw [if_pos (ProfileTable.update_count hget)]
        exact .returned
  | returned => cases hrest

/-! ## What a step does -/

/-- A step performs a call of one of the writers, or leaves database and intention alone and lets
the service at most begin or return. -/
theorem step_cases {hash : HashOrder} {s s' : Writers} {a : Action}
    (h : s.step hash a = some s') :
    (∃ c copies, s.nextCall a = some (c, copies) ∧ s'.db = (s.perform copies c).db ∧
      s'.intended = (s.perform copies c).intended ∧
      (a ≠ .serviceCall → s'.service = s.service)) ∨
    (s.nextCall a = none ∧ s'.db = s.db ∧ s'.intended = s.intended ∧
      ∀ r, s'.service = some r → s.service = some r ∨ PersistRest r.rest) := by
  cases a with
  | persistStats current id =>
    simp only [step] at h
    split at h
    · cases h
      refine Or.inr ⟨rfl, rfl, rfl, ?_⟩
      rintro r ⟨⟩
      exact Or.inr (.read current id)
    · cases h
  | serviceCall =>
    simp only [step] at h
    split at h
    · cases h
    next result copies hservice =>
      cases h
      exact Or.inr ⟨by simp [nextCall, hservice], rfl, rfl, fun r hr => by cases hr⟩
    next c k copies hservice =>
      cases h
      exact Or.inl ⟨c, copies, by simp [nextCall, hservice], rfl, rfl, fun hne => absurd rfl hne⟩
  | start operation =>
    cases h
    exact Or.inr ⟨rfl, rfl, rfl, fun r hr => Or.inl hr⟩
  | activityCall i =>
    simp only [step] at h
    split at h
    · cases h
    next result copies hactivity =>
      cases h
      exact Or.inr ⟨by simp [nextCall, hactivity], rfl, rfl, fun r hr => Or.inl hr⟩
    next c k copies hactivity =>
      cases h
      exact Or.inl ⟨c, copies, by simp [nextCall, hactivity], rfl, rfl, fun _ => rfl⟩

/-- A call whose writer is up to date keeps the table equal to the intended one. -/
theorem perform_intended {s : Writers} {copies : Int64 → Option Profile} {c : DaoCall}
    (hs : ∀ k, s.intended k = s.db.table.get k)
    (hfresh : ∀ value, c = .update value → ∀ row copy, s.db.table.get value.id = some row →
      copies value.id = some copy → UpToDate copy value row) (k : Int64) :
    (s.perform copies c).intended k = (s.perform copies c).db.table.get k := by
  cases c with
  | get id => exact hs k
  | listAll => exact hs k
  | nextOrder => exact hs k
  | create value =>
    by_cases h : s.db.sequence < maxRowid
    · simp only [perform, intend, ProfileDatabase.perform_create value h,
        ProfileDatabase.get_create, hs k, h, true_and]
    · simp only [perform, intend, ProfileDatabase.perform_create_full value h, h, false_and,
        if_false, hs k]
  | update value =>
    simp only [perform, intend, ProfileDatabase.perform, ProfileDatabase.update,
      ProfileTable.get_update, hs k]
    by_cases hk : k = value.id
    · subst hk
      rw [if_pos rfl, if_pos rfl]
      apply Option.map_congr
      intro row hrow
      have hid : row.id = value.id := ProfileTable.id_of_get hrow
      rw [merge_eq_stored_iff hid]
      cases hcopy : copies value.id with
      | none => exact upToDate_self value row
      | some copy => exact hfresh value rfl row copy hrow hcopy
    · rw [if_neg hk, if_neg hk]
  | delete id =>
    simp only [perform, intend, ProfileDatabase.perform, ProfileDatabase.delete,
      ProfileTable.get_delete, hs k]
  | deleteAll => rfl

/-- An update from a stale copy leaves a row that lacks a change. -/
theorem not_lossless_of_stale {s s' : Writers} {copies : Int64 → Option Profile}
    {value row copy : Profile} (hs : ∀ k, s.intended k = s.db.table.get k)
    (hdb : s'.db = (s.perform copies (.update value)).db)
    (hintended : s'.intended = (s.perform copies (.update value)).intended)
    (hrow : s.db.table.get value.id = some row) (hcopy : copies value.id = some copy)
    (hstale : ¬ UpToDate copy value row) : ¬ s'.Lossless := by
  intro hlossless
  have hid : row.id = value.id := ProfileTable.id_of_get hrow
  have hmem : value.stored ∈ s'.db.table.rows := by
    have hget := ProfileTable.get_update_self hrow
    rw [hdb]
    exact (ProfileTable.get_eq_some_iff.mp hget).1
  have hmerge := hlossless.rows value.stored hmem
  rw [hintended] at hmerge
  simp only [perform, intend, Profile.stored_id, if_true, hs, hrow, hcopy, Option.map_some,
    Option.getD_some, Option.some.injEq] at hmerge
  exact hstale ((merge_eq_stored_iff hid).mp hmerge)

/-- What the runs without stale updates keep: the table is the intended one, and the service is
inside `persistStats` or idle. -/
structure Invariant (s : Writers) : Prop where
  intended : ∀ k, s.intended k = s.db.table.get k
  service : ∀ r, s.service = some r → PersistRest r.rest

/-- Nothing is lost in a state that satisfies the invariant. -/
theorem Invariant.lossless {s : Writers} (h : s.Invariant) : s.Lossless where
  rows row hrow := by
    rw [h.intended]
    exact ProfileTable.get_eq_some_iff.mpr ⟨hrow, rfl⟩
  check r e hr hrest := by
    have hshape := h.service r hr
    rw [hrest] at hshape
    generalize hdone : Calls.done (Except.error e) = rest at hshape
    cases hshape with
    | read current id => rw [persistCalls_calls] at hdone; cases hdone
    | write current row => rw [updateProfile_calls] at hdone; cases hdone
    | returned => cases hdone

/-- The call of a step of the service. -/
theorem nextCall_serviceCall {s : Writers} {c : DaoCall} {copies : Int64 → Option Profile}
    (h : s.nextCall .serviceCall = some (c, copies)) :
    ∃ k, s.service = some ⟨.call c k, copies⟩ := by
  simp only [nextCall, Option.bind_eq_some_iff] at h
  obtain ⟨⟨rest, copies'⟩, hservice, hcall⟩ := h
  cases rest with
  | done result => cases hcall
  | call c' k =>
    cases hcall
    exact ⟨k, hservice⟩

/-- A step of the service performs its call. -/
theorem step_serviceCall {hash : HashOrder} {s s' : Writers} {c : DaoCall}
    {k : c.Result → Pending} {copies : Int64 → Option Profile}
    (hservice : s.service = some ⟨.call c k, copies⟩)
    (h : s.step hash .serviceCall = some s') :
    s'.service = some (.next copies c k s.db) := by
  simp only [step, hservice, Option.some.injEq] at h
  rw [← h]

/-- Steps with up-to-date copies keep the invariant. -/
theorem Invariant.step {hash : HashOrder} {s s' : Writers} {a : Action} (h : s.Invariant)
    (hfresh : s.Fresh a) (hstep : s.step hash a = some s') : s'.Invariant := by
  rcases step_cases hstep with
    ⟨c, copies, hcall, hdb, hintended, hother⟩ | ⟨-, hdb, hintended, hservice⟩
  · refine ⟨?_, ?_⟩
    · rw [hdb, hintended]
      apply perform_intended h.intended
      rintro value rfl
      exact (hfresh value copies hcall).1
    · intro r hr
      by_cases ha : a = .serviceCall
      · subst ha
        obtain ⟨k, hk⟩ := nextCall_serviceCall hcall
        rw [step_serviceCall hk hstep] at hr
        cases hr
        rcases PersistRest.call (h.service _ hk) s.db with ⟨value, e, rfl, hnone, -⟩ | ⟨-, hrest⟩
        -- the row is there, so the check does not fail
        · exact absurd hnone ((hfresh value copies hcall).2 rfl)
        · exact hrest
      · rw [hother ha] at hr
        exact h.service r hr
  · refine ⟨?_, ?_⟩
    · rw [hdb, hintended]
      exact h.intended
    · intro r hr
      rcases hservice r hr with hsame | hrest
      · exact h.service r hsame
      · exact hrest

/-- A step with a stale copy, or of the service without a row, loses something. -/
theorem Invariant.not_lossless_step {hash : HashOrder} {s s' : Writers} {a : Action}
    (h : s.Invariant) (hstale : ¬ s.Fresh a) (hstep : s.step hash a = some s') :
    ¬ s'.Lossless := by
  simp only [Fresh, not_forall] at hstale
  obtain ⟨value, copies, hcall, hstale⟩ := hstale
  rcases step_cases hstep with ⟨c, copies', hcall', hdb, hintended, -⟩ | ⟨hnone, -⟩
  · obtain ⟨rfl, rfl⟩ := Prod.mk.inj (Option.some.inj (hcall.symm.trans hcall'))
    rcases not_and_or.mp hstale with hstale | hmissing
    · simp only [not_forall] at hstale
      obtain ⟨row, copy, hrow, hcopy, hstale⟩ := hstale
      exact not_lossless_of_stale h.intended hdb hintended hrow hcopy hstale
    · simp only [ne_eq, Classical.not_imp, not_not] at hmissing
      obtain ⟨rfl, hmissing⟩ := hmissing
      obtain ⟨k, hk⟩ := nextCall_serviceCall hcall
      rcases PersistRest.call (h.service _ hk) s.db with ⟨-, e, -, -, hrest⟩ | ⟨hfound, -⟩
      · intro hlossless
        exact hlossless.check _ e (step_serviceCall hk hstep) hrest
      · exact absurd hmissing (hfound value rfl)
  · rw [hcall] at hnone
    cases hnone

/-- **Concurrent writers.** In a run of the service and the activity nothing is lost, and no check
of `persistStats` fails, exactly when every update finds its writer's copy up to date, and those
of `persistStats` find the row. -/
theorem allStates_lossless_iff (hash : HashOrder) (db : ProfileDatabase) {actions : List Action}
    {s : Writers} {os : List Empty}
    (hrun : (machine hash db).run (machine hash db).init actions = some (s, os)) :
    (machine hash db).AllStates Lossless (machine hash db).init actions ↔
      (machine hash db).AllSteps Fresh (machine hash db).init actions := by
  have hstep : ∀ s a s' o, (machine hash db).step s a = some (s', o) → s.step hash a = some s' := by
    intro s a s' o h
    obtain ⟨t, ht, hpair⟩ := Option.map_eq_some_iff.mp h
    cases hpair
    exact ht
  apply Machine.allStates_iff_allSteps (I := Invariant)
  · exact ⟨fun k => rfl, fun r hr => by cases hr⟩
  · exact fun s hs => hs.lossless
  · exact fun s a s' o hs hfresh h => hs.step hfresh (hstep s a s' o h)
  · exact fun s a s' o hs hstale h => hs.not_lossless_step hstale (hstep s a s' o h)
  · exact hrun

/-- A database with one profile. -/
def sampleDatabase : ProfileDatabase := .ofProfiles [{ name := some "Montreal" }]

/-- The outcome of a run on it. -/
def sampleRun (actions : List Action) : Option (Writers × List Empty) :=
  (machine .insertion sampleDatabase).run (machine .insertion sampleDatabase).init actions

/-- The edit of a profile that becomes metered. -/
def sampleEdit : Operation := .updateProfile 1 fun p => { p with metered := true }

/-- The service reads the row, the activity edits it, and the service writes its copy back. -/
def editInBetween : List Action :=
  [.persistStats { txTotal := 5, rxTotal := 7 } 1, .serviceCall, .start sampleEdit,
    .activityCall 0, .activityCall 0, .serviceCall]

/-- The activity reads the row, the service persists its counters, and the activity saves the
edit. -/
def persistInBetween : List Action :=
  [.start sampleEdit, .activityCall 0, .persistStats { txTotal := 5, rxTotal := 7 } 1,
    .serviceCall, .serviceCall, .activityCall 0]

/-- The service reads the row, `initVpn` clears the table, and the service finds no row. -/
def clearInBetween : List Action :=
  [.persistStats { txTotal := 5, rxTotal := 7 } 1, .serviceCall, .start .initVpn,
    .activityCall 0, .serviceCall]

theorem allStates_lossless_iff_editInBetween :
    ∃ s os, sampleRun editInBetween = some (s, os) ∧
      ((machine .insertion sampleDatabase).AllStates Lossless
          (machine .insertion sampleDatabase).init editInBetween ↔
        (machine .insertion sampleDatabase).AllSteps Fresh
          (machine .insertion sampleDatabase).init editInBetween) := by
  have hsome : (sampleRun editInBetween).isSome = true := by decide
  obtain ⟨⟨s, os⟩, hrun⟩ := Option.isSome_iff_exists.mp hsome
  exact ⟨s, os, hrun, allStates_lossless_iff _ _ hrun⟩

/-- The column set by the activity is lost, the counters added by the service are lost, and the
check in `persistStats` fails. -/
theorem lossy_runs :
    (∃ s os row, sampleRun editInBetween = some (s, os) ∧ s.db.table.get 1 = some row ∧
      (s.intended 1).map Profile.metered = some true ∧ row.metered = false) ∧
    (∃ s os row, sampleRun persistInBetween = some (s, os) ∧ s.db.table.get 1 = some row ∧
      (s.intended 1).map Profile.tx = some 5 ∧ row.tx = 0) ∧
    (∃ s os r, sampleRun clearInBetween = some (s, os) ∧ s.service = some r ∧
      r.rest = .done (.error (.illegalState "Check failed."))) := by
  refine ⟨⟨_, _, _, rfl, rfl, rfl, rfl⟩, ⟨_, _, _, rfl, rfl, rfl, rfl⟩, ⟨_, _, _, rfl, rfl, rfl⟩⟩

end Writers
