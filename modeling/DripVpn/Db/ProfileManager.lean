import DripVpn.Db.Profile

/-!
# Profile storage

The part of `ProfileManager` and `DirectBoot` that reads and writes stored profiles: the private
database, which cannot be opened before the user unlocks the device, and the direct-boot file,
which can. `Storage` holds both together with the flag `DataStore.directBootAware`; operations
that throw return the exception next to the storage as it stands at the throw.
-/

/-- The exceptions of the storage operations. -/
inductive StorageException where
  /-- `IOException`, thrown by `getProfile` for a database that cannot be opened. -/
  | io
  /-- `SQLException`, thrown by `updateProfile`. -/
  | sql
  /-- `IllegalStateException` of a failed `check`. -/
  | illegalState (message : String)
  /-- `NullPointerException` of a failed `!!`. -/
  | nullPointer
  /-- `single` without exactly one match. -/
  | noSingle
  deriving DecidableEq, Repr

/-- How an access to `PrivateDatabase` ends. -/
inductive DatabaseAccess where
  | succeeds
  /-- With a `SQLiteCantOpenDatabaseException`, as before the user unlocks the device. -/
  | cannotOpen
  /-- With another `SQLException`. -/
  | fails
  deriving DecidableEq, Repr

/-- `ProfileManager.ExpandedProfile`. -/
structure ExpandedProfile where
  main : Profile
  udpFallback : Option Profile
  deriving DecidableEq

/-- `ExpandedProfile.toList`. -/
def ExpandedProfile.toList (e : ExpandedProfile) : List Profile :=
  e.main :: e.udpFallback.toList

/-- The stored profiles. -/
structure Storage where
  /-- How accesses to `PrivateDatabase` end. -/
  access : DatabaseAccess
  /-- The table of `PrivateDatabase`. -/
  profiles : ProfileTable
  /-- `DataStore.directBootAware`. -/
  directBootAware : Bool
  /-- The content of the file `directBootProfile`, `none` when it cannot be read. -/
  directBootProfile : Option ExpandedProfile
  /-- `DirectBoot.registered`: the receiver waits for the unlock. -/
  listeningForUnlock : Bool

namespace Storage

/-- `ProfileManager.getProfile`. -/
def getProfile (st : Storage) (id : Int64) : Except StorageException (Option Profile) :=
  match st.access with
  | .succeeds => .ok (st.profiles.get id)
  | .cannotOpen => .error .io
  -- any other `SQLException` is logged
  | .fails => .ok none

/-- `ProfileManager.updateProfile`: exactly one row must have been updated. -/
def updateProfile (st : Storage) (profile : Profile) : Except StorageException Unit × Storage :=
  if st.access = .succeeds then
    -- `check(PrivateDatabase.profileDao.update(profile) == 1)`
    let (count, profiles) := st.profiles.update profile
    (if count = 1 then .ok () else .error (.illegalState "Check failed."), { st with profiles })
  else (.error .sql, st)

/-- `ProfileManager.expand`. -/
def expand (st : Storage) (profile : Profile) : Except StorageException ExpandedProfile :=
  match profile.udpFallback with
  | none => .ok { main := profile, udpFallback := none }
  | some id => (st.getProfile id).map fun fallback => { main := profile, udpFallback := fallback }

/-- `DirectBoot.getDeviceProfile`. -/
def getDeviceProfile (st : Storage) : Option ExpandedProfile := st.directBootProfile

/-- `DirectBoot.update(profile)`. The file is truncated before the profile is expanded, so a
failed expansion leaves it unreadable. -/
def updateDirectBoot (st : Storage) (profile : Profile) :
    Except StorageException Unit × Storage :=
  match st.expand profile with
  | .ok expanded => (.ok (), { st with directBootProfile := some expanded })
  | .error e => (.error e, { st with directBootProfile := none })

/-- `DirectBoot.listenForUnlock`. -/
def listenForUnlock (st : Storage) : Storage := { st with listeningForUnlock := true }

/-- Updating a row that was found succeeds and stores the new columns. -/
theorem updateProfile_found {st : Storage} {profile row : Profile} (haccess : st.access = .succeeds)
    (hget : st.profiles.get profile.id = some row) :
    st.updateProfile profile =
      (.ok (), { st with profiles := (st.profiles.update profile).2 }) := by
  simp [updateProfile, haccess, ProfileTable.update_count hget]

end Storage
