import DripVpn.Background.TrafficMonitor
import DripVpn.Db.Dao

/-!
# Direct boot

Before the user unlocks the device the private database cannot be opened, and the totals of the
sessions that end by then are kept in the direct-boot file. `flushTrafficStats` moves them to the
database after the unlock.

The file is rewritten by `DirectBoot.update`, which truncates it and then expands the profile, that
is, looks up its UDP fallback in the database that cannot be opened. `locked_agrees_iff` says that the
accounting agrees with the one of an unlocked device exactly for profiles without the column
`udpFallback`, as long as any session ends at all.
-/

namespace Storage

/-- `DirectBoot.clean`. -/
def clean (st : Storage) : Storage := { st with directBootProfile := none }

/-- `DirectBoot.update` of the profile that is selected. -/
def updateSelected (st : Storage) (profileId : Int64) : Except StorageException Unit × Storage :=
  match st.getProfile profileId with
  | .error e => (.error e, st)
  | .ok none => (.ok (), st.clean)
  | .ok (some profile) => st.updateDirectBoot profile

/-- `ProfileManager.updateProfile` of a profile that is dirty. -/
def updateDirty (st : Storage) (profile : Profile) : Except StorageException Unit × Storage :=
  if profile.dirty then st.updateProfile profile else (.ok (), st)

/-- `DirectBoot.flushTrafficStats`, for the profile `DataStore.profileId`. -/
def flushTrafficStats (st : Storage) (profileId : Int64) :
    Except StorageException Unit × Storage :=
  match st.getDeviceProfile with
  | none => st.updateSelected profileId
  | some expanded =>
    -- the main profile and then the fallback, each if it is dirty; an exception ends it
    match st.updateDirty expanded.main with
    | (.error e, st) => (.error e, st)
    | (.ok (), st) =>
      match expanded.udpFallback with
      | none => st.updateSelected profileId
      | some fallback =>
        match st.updateDirty fallback with
        | (.error e, st) => (.error e, st)
        | (.ok (), st) => st.updateSelected profileId

/-- The user unlocks the device. -/
def unlock (st : Storage) : Storage := { st with access := .succeeds }

end Storage

namespace DirectBoot

/-- The totals of one session, of the two proxies. -/
structure Session where
  main : TrafficStats
  udpFallback : TrafficStats

/-- `ProxyInstance.shutdown` of the two proxies of `stopRunner`: each has a monitor of its own. -/
def endSession (expanded : ExpandedProfile) (session : Session) (st : Storage) :
    Except StorageException Unit × Storage :=
  -- the main proxy first; its exception leaves out the fallback
  match TrafficMonitor.persistStats { current := session.main } expanded.main.id st with
  | (.error e, _, st) => (.error e, st)
  | (.ok (), _, st) =>
    match expanded.udpFallback with
    | none => (.ok (), st)
    | some fallback =>
      let (result, _, st) :=
        TrafficMonitor.persistStats { current := session.udpFallback } fallback.id st
      (result, st)

/-- A sequence of sessions. -/
def endSessions (expanded : ExpandedProfile) : List Session → Storage →
    Except StorageException Unit × Storage
  | [], st => (.ok (), st)
  | session :: sessions, st =>
    match endSession expanded session st with
    | (.error e, st) => (.error e, st)
    | (.ok (), st) => endSessions expanded sessions st

theorem endSessions_cons_of_ok {expanded : ExpandedProfile} {session : Session} {st st' : Storage}
    (h : endSession expanded session st = (.ok (), st')) (sessions : List Session) :
    endSessions expanded (session :: sessions) st = endSessions expanded sessions st' := by
  rw [endSessions, h]

/-- The device is locked, and the direct-boot file holds a profile as the database has it. -/
structure Locked (st : Storage) (expanded : ExpandedProfile) : Prop where
  access : st.access = .cannotOpen
  directBootAware : st.directBootAware = true
  file : st.directBootProfile = some expanded
  main : st.profiles.get expanded.main.id = some expanded.main
  udpFallback : expanded.udpFallback = expanded.main.udpFallback.bind st.profiles.get
  /-- Rows are never dirty. -/
  rows : ∀ row ∈ st.profiles.rows, row.dirty = false

/-- The profile with the totals of some sessions. -/
def creditAll (totals : List TrafficStats) (profile : Profile) : Profile :=
  { profile with
    tx := profile.tx + (totals.map TrafficStats.txTotal).sum
    rx := profile.rx + (totals.map TrafficStats.rxTotal).sum }

/-- Only the counters may differ. -/
def SameProfile (p q : Profile) : Prop := q = { p with tx := q.tx, rx := q.rx, dirty := q.dirty }

/-- The accounting of a locked device agrees with the normal one: no call throws, the file keeps
its profiles, and flushing it gives the rows their totals, once. -/
structure Agrees (st : Storage) (expanded : ExpandedProfile) (sessions : List Session)
    (profileId : Int64) (locked flushed : Storage) : Prop where
  calls : endSessions expanded sessions st = (.ok (), locked)
  file : ∃ kept, locked.directBootProfile = some kept ∧ SameProfile expanded.main kept.main ∧
    Option.Rel SameProfile expanded.udpFallback kept.udpFallback
  flush : locked.unlock.flushTrafficStats profileId = (.ok (), flushed)
  main : flushed.profiles.get expanded.main.id =
    some (creditAll (sessions.map Session.main) expanded.main)
  udpFallback : ∀ fallback, expanded.udpFallback = some fallback →
    flushed.profiles.get fallback.id =
      some (creditAll (sessions.map Session.udpFallback) fallback)
  others : ∀ id, id ≠ expanded.main.id → (∀ fallback, expanded.udpFallback = some fallback →
    id ≠ fallback.id) → flushed.profiles.get id = st.profiles.get id
  /-- What persisting directly to the database would have given. -/
  direct : ∃ direct, endSessions expanded sessions st.unlock = (.ok (), direct) ∧
    ∀ id, flushed.profiles.get id = direct.profiles.get id
  again : flushed.flushTrafficStats profileId = (.ok (), flushed)

/-! ## Flushing -/

section

variable {st : Storage}

/-- The file that is written for a profile once the database can be opened. -/
def selected (profiles : ProfileTable) (profileId : Int64) : Option ExpandedProfile :=
  (profiles.get profileId).map fun profile =>
    { main := profile, udpFallback := profile.udpFallback.bind profiles.get }

theorem updateSelected_eq (haccess : st.access = .succeeds) (profileId : Int64) :
    st.updateSelected profileId =
      (.ok (), { st with directBootProfile := selected st.profiles profileId }) := by
  have hget : ∀ id, st.getProfile id = .ok (st.profiles.get id) := by
    intro id
    rw [Storage.getProfile, haccess]
  rw [Storage.updateSelected, hget, selected]
  cases st.profiles.get profileId with
  | none => rfl
  | some profile =>
    show st.updateDirectBoot profile = _
    rw [Storage.updateDirectBoot, Storage.expand]
    cases hfallback : profile.udpFallback with
    | none => simp [hfallback]
    | some id => simp [hget, hfallback, Except.map]

/-- A file without dirty profiles only follows the selected profile. -/
theorem flush_of_clean {expanded : ExpandedProfile} (hfile : st.directBootProfile = some expanded)
    (hclean : ∀ profile ∈ expanded.toList, profile.dirty = false) (profileId : Int64) :
    st.flushTrafficStats profileId = st.updateSelected profileId := by
  have hupdate : ∀ profile ∈ expanded.toList, st.updateDirty profile = (.ok (), st) := by
    intro profile hprofile
    rw [Storage.updateDirty, hclean profile hprofile]
    rfl
  rw [Storage.flushTrafficStats, Storage.getDeviceProfile, hfile]
  simp only [hupdate expanded.main List.mem_cons_self]
  cases hfallback : expanded.udpFallback with
  | none => rfl
  | some fallback =>
    have hmem : fallback ∈ expanded.toList := by simp [ExpandedProfile.toList, hfallback]
    simp only [hupdate fallback hmem]

theorem clean_selected {profiles : ProfileTable} (hrows : ∀ row ∈ profiles.rows, row.dirty = false)
    {profileId : Int64} {expanded : ExpandedProfile}
    (h : selected profiles profileId = some expanded) :
    ∀ profile ∈ expanded.toList, profile.dirty = false := by
  have hget : ∀ {id row}, profiles.get id = some row → row.dirty = false := fun hrow =>
    hrows _ (ProfileTable.get_eq_some_iff.mp hrow).1
  obtain ⟨main, hmain, rfl⟩ := Option.map_eq_some_iff.mp h
  intro profile hprofile
  rcases List.mem_cons.mp hprofile with rfl | hprofile
  · exact hget hmain
  · obtain ⟨id, -, hrow⟩ := Option.bind_eq_some_iff.mp (Option.mem_toList.mp hprofile)
    exact hget hrow

/-- A flush that follows another one changes nothing. -/
theorem flush_selected (haccess : st.access = .succeeds)
    (hrows : ∀ row ∈ st.profiles.rows, row.dirty = false) (profileId : Int64)
    (hfile : st.directBootProfile = selected st.profiles profileId) :
    st.flushTrafficStats profileId = (.ok (), st) := by
  have hsame : st.updateSelected profileId = (.ok (), st) := by
    rw [updateSelected_eq haccess, ← hfile]
  cases hselected : selected st.profiles profileId with
  | none =>
    rw [Storage.flushTrafficStats, Storage.getDeviceProfile, hfile, hselected]
    exact hsame
  | some expanded =>
    rw [flush_of_clean (hfile.trans hselected) (clean_selected hrows hselected)]
    exact hsame

/-- A dirty profile without fallback is written to its row. -/
theorem flush_of_dirty {profile row : Profile} (haccess : st.access = .succeeds)
    (hfile : st.directBootProfile = some ⟨profile, none⟩) (hdirty : profile.dirty = true)
    (hrow : st.profiles.get profile.id = some row) (profileId : Int64) :
    st.flushTrafficStats profileId = (.ok (), { st with
      profiles := (st.profiles.update profile).2
      directBootProfile := selected (st.profiles.update profile).2 profileId }) := by
  have hupdate : st.updateDirty profile =
      (.ok (), { st with profiles := (st.profiles.update profile).2 }) := by
    rw [Storage.updateDirty, if_pos hdirty, Storage.updateProfile_found haccess hrow]
  rw [Storage.flushTrafficStats, Storage.getDeviceProfile, hfile]
  simp only [hupdate]
  exact @updateSelected_eq { st with profiles := (st.profiles.update profile).2 } haccess profileId

theorem rows_update {profiles : ProfileTable} (hrows : ∀ row ∈ profiles.rows, row.dirty = false)
    (value : Profile) : ∀ row ∈ (profiles.update value).2.rows, row.dirty = false := by
  intro row hrow
  obtain ⟨old, hold, rfl⟩ := List.mem_map.mp hrow
  by_cases hid : old.id = value.id
  · rw [if_pos hid]
    rfl
  · rw [if_neg hid]
    exact hrows old hold

/-! ## Sessions -/

theorem creditAll_nil (profile : Profile) : creditAll [] profile = profile := by
  simp [creditAll]

theorem creditAll_cons (current : TrafficStats) (totals : List TrafficStats) (profile : Profile) :
    creditAll (current :: totals) profile =
      creditAll totals (TrafficMonitor.credit current profile) := by
  simp only [creditAll, TrafficMonitor.credit, List.map_cons, List.sum_cons, Int64.add_assoc]

/-- The profile that `persistStats` puts into the file. -/
def creditDirty (current : TrafficStats) (profile : Profile) : Profile :=
  { TrafficMonitor.credit current profile with dirty := true }

/-- A session that ends on a locked device, of a profile without fallback. -/
theorem persistStats_locked {profile : Profile} (haccess : st.access = .cannotOpen)
    (haware : st.directBootAware = true) (hfile : st.directBootProfile = some ⟨profile, none⟩)
    (hfallback : profile.udpFallback = none) (current : TrafficStats) :
    TrafficMonitor.persistStats { current := current } profile.id st =
      (.ok (), { current := current, persisted := some .currentObject },
        { st with
          directBootProfile := some ⟨creditDirty current profile, none⟩
          listeningForUnlock := true }) := by
  have hget : st.getProfile profile.id = .error .io := by rw [Storage.getProfile, haccess]
  have hexpand : st.expand (creditDirty current profile) =
      .ok ⟨creditDirty current profile, none⟩ := by
    have hnone : (creditDirty current profile).udpFallback = none := hfallback
    rw [Storage.expand, hnone]
  have hupdate : st.updateDirectBoot (creditDirty current profile) =
      (.ok (), { st with directBootProfile := some ⟨creditDirty current profile, none⟩ }) := by
    rw [Storage.updateDirectBoot, hexpand]
  have hdirect : TrafficMonitor.persistDirectBoot current profile.id st =
      (.ok (), { st with
        directBootProfile := some ⟨creditDirty current profile, none⟩
        listeningForUnlock := true }) := by
    rw [TrafficMonitor.persistDirectBoot, if_neg (by simp [haware]), Storage.getDeviceProfile, hfile]
    simp only [ExpandedProfile.toList, Option.toList_none]
    rw [List.filter_cons_of_pos (by simp), List.filter_nil]
    unfold creditDirty at hupdate
    simp only [hupdate]
    rfl
  rw [TrafficMonitor.persistStats, if_pos (TrafficMonitor.persistStats_guard _), hget]
  simp only [hdirect]

/-- A session that ends on a locked device, of a profile with the column `udpFallback`. -/
theorem persistStats_locked_throws {expanded : ExpandedProfile} {fallbackId : Int64}
    (h : Locked st expanded) (hfallback : expanded.main.udpFallback = some fallbackId)
    (current : TrafficStats) :
    ∃ e monitor after, TrafficMonitor.persistStats { current := current } expanded.main.id st =
      (.error e, monitor, after) := by
  have hget : ∀ id, st.getProfile id = .error .io := by
    intro id
    rw [Storage.getProfile, h.access]
  have hdirect : ∃ e after, TrafficMonitor.persistDirectBoot current expanded.main.id st =
      (.error e, after) := by
    rw [TrafficMonitor.persistDirectBoot, h.directBootAware, Storage.getDeviceProfile, h.file]
    simp only [ExpandedProfile.toList, Bool.not_true]
    rw [List.filter_cons_of_pos (by simp)]
    cases expanded.udpFallback.toList.filter (fun p => p.id = expanded.main.id) with
    | nil =>
      -- the fallback is looked up in the database after the file was truncated
      have hexpand : st.expand (creditDirty current expanded.main) = .error .io := by
        have hsome : (creditDirty current expanded.main).udpFallback = some fallbackId := hfallback
        rw [Storage.expand, hsome]
        show (st.getProfile fallbackId).map _ = _
        rw [hget]
        rfl
      have hupdate : st.updateDirectBoot (creditDirty current expanded.main) =
          (.error .io, st.clean) := by
        rw [Storage.updateDirectBoot, hexpand]
        rfl
      unfold creditDirty at hupdate
      simp only [hupdate]
      exact ⟨_, _, rfl⟩
    | cons second rest => exact ⟨_, _, rfl⟩
  obtain ⟨e, after, hdirect⟩ := hdirect
  rw [TrafficMonitor.persistStats, if_pos (TrafficMonitor.persistStats_guard _), hget]
  simp only [hdirect]
  exact ⟨_, _, _, rfl⟩

/-- A session that ends on an unlocked device. -/
theorem persistStats_unlocked {row : Profile} (haccess : st.access = .succeeds)
    (hrow : st.profiles.get row.id = some row) (current : TrafficStats) :
    TrafficMonitor.persistStats { current := current } row.id st =
      (.ok (), { current := current, persisted := some .currentObject },
        { st with profiles := (st.profiles.update (TrafficMonitor.credit current row)).2 }) := by
  have hget : st.getProfile row.id = .ok (some row) := by rw [Storage.getProfile, haccess, hrow]
  have hfound : st.profiles.get (TrafficMonitor.credit current row).id = some row := hrow
  rw [TrafficMonitor.persistStats, if_pos (TrafficMonitor.persistStats_guard _), hget]
  simp only [Storage.updateProfile_found haccess hfound]

/-- Sessions on a locked device add up in the file. -/
theorem endSessions_locked {expanded : ExpandedProfile} (hnone : expanded.udpFallback = none)
    (sessions : List Session) {profile : Profile} (hid : profile.id = expanded.main.id)
    (haccess : st.access = .cannotOpen) (haware : st.directBootAware = true)
    (hfile : st.directBootProfile = some ⟨profile, none⟩) (hfallback : profile.udpFallback = none) :
    ∃ listening, endSessions expanded sessions st = (.ok (), { st with
      directBootProfile := some ⟨{ creditAll (sessions.map Session.main) profile with
        dirty := profile.dirty || !sessions.isEmpty }, none⟩
      listeningForUnlock := listening }) := by
  induction sessions generalizing st profile with
  | nil =>
    refine ⟨st.listeningForUnlock, ?_⟩
    rw [List.map_nil, creditAll_nil]
    show (Except.ok (), st) = _
    simp only [List.isEmpty_nil, Bool.not_true, Bool.or_false]
    rw [← hfile]
  | cons session sessions ih =>
    have hsession : endSession expanded session st = (.ok (), { st with
        directBootProfile := some ⟨creditDirty session.main profile, none⟩
        listeningForUnlock := true }) := by
      rw [endSession, ← hid, persistStats_locked haccess haware hfile hfallback]
      simp only [hnone]
    obtain ⟨listening, hrest⟩ := @ih { st with
        directBootProfile := some ⟨creditDirty session.main profile, none⟩
        listeningForUnlock := true } (creditDirty session.main profile) hid haccess haware rfl
      hfallback
    refine ⟨listening, ?_⟩
    rw [endSessions_cons_of_ok hsession]
    simp only [hrest, List.map_cons, creditAll_cons]
    simp [creditDirty, creditAll]

/-- Sessions on an unlocked device add up in the row. -/
theorem endSessions_unlocked {expanded : ExpandedProfile} (hnone : expanded.udpFallback = none)
    (sessions : List Session) {row : Profile} (hid : row.id = expanded.main.id)
    (hclean : row.dirty = false)
    (haccess : st.access = .succeeds) (hrow : st.profiles.get row.id = some row) :
    ∃ direct, endSessions expanded sessions st = (.ok (), direct) ∧
      ∀ id, direct.profiles.get id =
        if id = row.id then some (creditAll (sessions.map Session.main) row)
        else st.profiles.get id := by
  induction sessions generalizing st row with
  | nil =>
    refine ⟨st, rfl, fun id => ?_⟩
    rw [List.map_nil, creditAll_nil]
    split
    next heq => rw [heq, hrow]
    next => rfl
  | cons session sessions ih =>
    have hstored : (TrafficMonitor.credit session.main row).stored =
        TrafficMonitor.credit session.main row := by
      show { TrafficMonitor.credit session.main row with dirty := false } = _
      simp [TrafficMonitor.credit, hclean]
    have hupdated := ProfileTable.get_update st.profiles (TrafficMonitor.credit session.main row)
    have hsession : endSession expanded session st = (.ok (), { st with
        profiles := (st.profiles.update (TrafficMonitor.credit session.main row)).2 }) := by
      rw [endSession, ← hid, persistStats_unlocked haccess hrow]
      simp only [hnone]
    obtain ⟨direct, hrest, hget⟩ := @ih { st with
        profiles := (st.profiles.update (TrafficMonitor.credit session.main row)).2 }
      (TrafficMonitor.credit session.main row) hid hclean haccess (by
        rw [hupdated, if_pos rfl]
        show (st.profiles.get row.id).map _ = _
        rw [hrow, Option.map_some, hstored])
    refine ⟨direct, ?_, fun id => ?_⟩
    · rw [endSessions_cons_of_ok hsession]
      exact hrest
    · rw [hget, List.map_cons, creditAll_cons]
      show (if id = row.id then _ else (st.profiles.update _).2.get id) = _
      split
      next => rfl
      next hne => exact (hupdated id).trans (if_neg hne)

end

/-! ## Both -/

variable {st : Storage} {expanded : ExpandedProfile}

theorem Locked.clean (h : Locked st expanded) :
    ∀ profile ∈ expanded.toList, profile.dirty = false := by
  have hget : ∀ {id row}, st.profiles.get id = some row → row.dirty = false := fun hrow =>
    h.rows _ (ProfileTable.get_eq_some_iff.mp hrow).1
  intro profile hprofile
  rcases List.mem_cons.mp hprofile with rfl | hprofile
  · exact hget h.main
  · have hsome := Option.mem_toList.mp hprofile
    rw [h.udpFallback] at hsome
    obtain ⟨id, -, hrow⟩ := Option.bind_eq_some_iff.mp hsome
    exact hget hrow

theorem Locked.fallback_row (h : Locked st expanded) {fallback : Profile}
    (hfallback : expanded.udpFallback = some fallback) :
    st.profiles.get fallback.id = some fallback := by
  rw [h.udpFallback] at hfallback
  obtain ⟨id, -, hrow⟩ := Option.bind_eq_some_iff.mp hfallback
  rw [ProfileTable.id_of_get hrow]
  exact hrow

/-- Without sessions there is nothing to flush. -/
theorem Locked.agrees_nil (h : Locked st expanded) (profileId : Int64) :
    ∃ flushed, Agrees st expanded [] profileId st flushed := by
  have hflush : st.unlock.flushTrafficStats profileId = (.ok (), { st.unlock with
      directBootProfile := selected st.profiles profileId }) := by
    rw [@flush_of_clean st.unlock expanded h.file h.clean]
    exact @updateSelected_eq st.unlock rfl profileId
  refine ⟨_, {
    calls := rfl
    file := ⟨expanded, h.file, rfl, ?_⟩
    flush := hflush
    main := ?_
    udpFallback := ?_
    others := fun id _ _ => rfl
    direct := ⟨st.unlock, rfl, fun id => rfl⟩
    again := ?_ }⟩
  · cases expanded.udpFallback with
    | none => exact .none
    | some fallback => exact .some rfl
  · rw [List.map_nil, creditAll_nil]
    exact h.main
  · intro fallback hfallback
    rw [List.map_nil, creditAll_nil]
    exact h.fallback_row hfallback
  · exact @flush_selected { st.unlock with directBootProfile := selected st.profiles profileId } rfl
      h.rows profileId rfl

/-- The totals of a profile without fallback reach its row. -/
theorem Locked.agrees_cons (h : Locked st expanded) (hnone : expanded.main.udpFallback = none)
    {sessions : List Session} (hsessions : sessions ≠ []) (profileId : Int64) :
    ∃ locked flushed, Agrees st expanded sessions profileId locked flushed := by
  obtain ⟨main, udpFallback⟩ := expanded
  obtain rfl : udpFallback = none := h.udpFallback.trans (by rw [hnone]; rfl)
  have hclean : main.dirty = false := h.clean main List.mem_cons_self
  -- what the file and the row hold in the end
  obtain ⟨total, htotal⟩ : ∃ total, total = creditAll (sessions.map Session.main) main := ⟨_, rfl⟩
  have htotalId : total.id = main.id := by rw [htotal]; rfl
  have hdirty : (main.dirty || !sessions.isEmpty) = true := by
    cases sessions with
    | nil => exact absurd rfl hsessions
    | cons session sessions => exact Bool.or_true _
  have hstored : Profile.stored { total with dirty := true } = total := by
    rw [htotal]
    simp [Profile.stored, creditAll, hclean]
  obtain ⟨listening, hlocked⟩ := @endSessions_locked st ⟨main, none⟩ rfl sessions main rfl h.access
    h.directBootAware h.file hnone
  obtain ⟨direct, hdirect, hdirectGet⟩ := @endSessions_unlocked st.unlock ⟨main, none⟩ rfl sessions
    main rfl hclean rfl h.main
  rw [hdirty, ← htotal] at hlocked
  have hget : ∀ id, (st.profiles.update { total with dirty := true }).2.get id =
      if id = main.id then some total else st.profiles.get id := by
    intro id
    rw [ProfileTable.get_update, hstored]
    show (if id = total.id then _ else _) = _
    rw [htotalId]
    split
    next hid => rw [hid, h.main, Option.map_some]
    next => rfl
  have hflush := @flush_of_dirty { st.unlock with
      directBootProfile := some ⟨{ total with dirty := true }, none⟩
      listeningForUnlock := listening } { total with dirty := true } main rfl rfl rfl
    (htotalId ▸ h.main) profileId
  refine ⟨_, _, {
    calls := hlocked
    file := ⟨_, rfl, ?_, .none⟩
    flush := hflush
    main := ?_
    udpFallback := fun fallback hsome => by cases hsome
    others := fun id hid _ => (hget id).trans (if_neg hid)
    direct := ⟨direct, hdirect, fun id => ?_⟩
    again := ?_ }⟩
  · show { total with dirty := true } = _
    rw [htotal]
    rfl
  · rw [← htotal]
    exact (hget main.id).trans (if_pos rfl)
  · rw [hdirectGet id, ← htotal]
    exact hget id
  · exact @flush_selected { st.unlock with
      profiles := (st.profiles.update { total with dirty := true }).2
      directBootProfile :=
        selected (st.profiles.update { total with dirty := true }).2 profileId
      listeningForUnlock := listening } rfl (rows_update h.rows _) profileId rfl

/-- **Direct boot.** The accounting of a locked device agrees with the normal one exactly if no
session ends, or the profile has no column `udpFallback`. -/
theorem locked_agrees_iff (h : Locked st expanded) (sessions : List Session) (profileId : Int64) :
    (∃ locked flushed, Agrees st expanded sessions profileId locked flushed) ↔
      sessions = [] ∨ expanded.main.udpFallback = none := by
  constructor
  · rintro ⟨locked, flushed, hagrees⟩
    by_contra hnot
    rw [not_or] at hnot
    obtain ⟨session, rest, rfl⟩ := List.exists_cons_of_ne_nil hnot.1
    obtain ⟨fallbackId, hfallback⟩ := Option.ne_none_iff_exists'.mp hnot.2
    obtain ⟨e, monitor, after, hthrows⟩ :=
      persistStats_locked_throws h hfallback session.main
    have hcalls := hagrees.calls
    rw [endSessions, endSession, hthrows] at hcalls
    cases hcalls
  · intro hcond
    by_cases hsessions : sessions = []
    · subst hsessions
      obtain ⟨flushed, hagrees⟩ := h.agrees_nil profileId
      exact ⟨st, flushed, hagrees⟩
    · rcases hcond with hnil | hnone
      · exact absurd hnil hsessions
      · exact h.agrees_cons hnone hsessions profileId

/-- A profile without fallback. -/
def sampleProfile : Profile := { id := 1, tx := 100, rx := 200 }

/-- A profile with the fallback `3`. -/
def sampleMain : Profile := { id := 2, udpFallback := some 3 }

/-- Its fallback. -/
def sampleFallback : Profile := { id := 3 }

theorem nodup_sampleTable :
    ([sampleProfile, sampleMain, sampleFallback].map Profile.id).Nodup := by decide

/-- A locked device with these profiles. -/
def sampleLocked (expanded : ExpandedProfile) : Storage where
  access := .cannotOpen
  profiles := ⟨[sampleProfile, sampleMain, sampleFallback], nodup_sampleTable⟩
  directBootAware := true
  directBootProfile := some expanded
  listeningForUnlock := false

theorem rows_sampleLocked (expanded : ExpandedProfile) :
    ∀ row ∈ (sampleLocked expanded).profiles.rows, row.dirty = false := by
  show ∀ row ∈ [sampleProfile, sampleMain, sampleFallback], row.dirty = false
  decide

/-- Two sessions of the profile without fallback. -/
theorem agrees_sampleProfile :
    ∃ locked flushed, Agrees (sampleLocked ⟨sampleProfile, none⟩) ⟨sampleProfile, none⟩
      [⟨{ txTotal := 5, rxTotal := 7 }, {}⟩, ⟨{ txTotal := 1, rxTotal := 2 }, {}⟩] 1
      locked flushed :=
  (locked_agrees_iff ⟨rfl, rfl, rfl, rfl, rfl, rows_sampleLocked _⟩ _ 1).mpr (.inr rfl)

/-- One session of the profile with a fallback throws, and leaves an empty file behind. -/
theorem sampleMain_lost :
    Locked (sampleLocked ⟨sampleMain, some sampleFallback⟩) ⟨sampleMain, some sampleFallback⟩ ∧
      (endSessions ⟨sampleMain, some sampleFallback⟩ [⟨{ txTotal := 5 }, {}⟩]
        (sampleLocked ⟨sampleMain, some sampleFallback⟩)).1 = .error .io ∧
      (endSessions ⟨sampleMain, some sampleFallback⟩ [⟨{ txTotal := 5 }, {}⟩]
        (sampleLocked ⟨sampleMain, some sampleFallback⟩)).2.directBootProfile = none ∧
      ¬ ∃ locked flushed, Agrees (sampleLocked ⟨sampleMain, some sampleFallback⟩)
        ⟨sampleMain, some sampleFallback⟩ [⟨{ txTotal := 5 }, {}⟩] 2 locked flushed := by
  refine ⟨⟨rfl, rfl, rfl, rfl, rfl, rows_sampleLocked _⟩, rfl, rfl, ?_⟩
  rintro ⟨locked, flushed, hagrees⟩
  cases congrArg Prod.fst hagrees.calls

end DirectBoot
