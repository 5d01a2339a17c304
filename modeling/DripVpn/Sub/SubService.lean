import DripVpn.Db.JsonParser

/-!
# Subscription service

`SubService.createProfilesFromSubscription`: synchronise the stored profiles with downloaded JSON
documents. Rows that are not user configured are the subscribed ones, told apart by name and
address. The method first marks all of them obsolete in memory (`preprocess`), then lets each
profile of the documents revive or create its row (`subscribe`), and at the end writes back the
objects whose status changed (`writeBack`).
-/

open Reactive

namespace SubService

/-- The key of a subscribed profile: `name to formattedAddress`. -/
abbrev Key : Type := Option String × String

/-- The key of a profile. -/
def key (p : Profile) : Key := (p.name, p.formattedAddress)

/-- The local variables of `createProfilesFromSubscription`, and `DataStore.profileId`. -/
structure Locals where
  profileId : Int64
  subscriptions : LinkedMap Key Int64 := LinkedMap.empty
  toUpdate : List Int64 := []
  /-- The profiles passed to the callback so far. Nothing reads them. -/
  passed : List Profile := []

/-- Change the local variables. -/
def modifyLocals (f : Locals → Locals) : DaoProgram Locals Unit :=
  Session.modify fun s => { s with own := f s.own }

/-- One turn of the preprocessing loop. -/
def preprocess (currentId : Int64) (profile : Profile) : DaoProgram Locals Unit := do
  let s ← Session.get
  if profile.subscription = .userConfigured then pure ()
  else match s.own.subscriptions.get? (key profile) with
    -- `putIfAbsent` found an older row of the same key
    | some _ =>
      ProfileManager.delProfile profile.id
      if currentId = profile.id then modifyLocals fun l => { l with profileId := 0 } else pure ()
    | none =>
      modifyLocals fun l => { l with subscriptions := l.subscriptions.put (key profile) profile.id }
      if profile.subscription = .active then
        -- marked in memory only, until a document lists it or the last loop writes it
        modifyLocals fun l => { l with toUpdate := profile.id :: l.toUpdate }
        ProfileManager.setObject profile.id { profile with subscription := .obsolete }
      else pure ()

/-- The callback `create`. -/
def subscribe (it : Profile) : DaoProgram Locals Int64 := do
  modifyLocals fun l => { l with passed := l.passed ++ [it] }
  let s ← Session.get
  let old := s.own.subscriptions.get? (key it)
  let id ← match old, old.map fun id => (s.objects id).subscription with
    -- "Duplicate profiles detected."
    | some old, some .active => pure old
    -- the object changes now, its row in the last loop
    | some old, some .obsolete => do
      modifyLocals fun l => { l with toUpdate := old :: l.toUpdate }
      ProfileManager.setObject old { s.objects old with
        password := it.password
        method := it.method
        plugin := it.plugin
        udpFallback := it.udpFallback
        subscription := .active }
      pure old
    | _, _ => ProfileManager.createProfile { it with subscription := .active }
  modifyLocals fun l => { l with subscriptions := l.subscriptions.put (key it) id }
  pure id

/-- One document: `none` if it is not a single JSON element. Any exception is logged. -/
def processDocument (hash : HashOrder) (feature : Option Profile) :
    Option JsonElement → DaoProgram Locals Unit
  | none => pure ()
  | some json => Session.attempt (Profile.parseJson hash json feature subscribe)

/-- One turn of the last loop. -/
def writeBack (profile : Profile) : DaoProgram Locals Unit := do
  let s ← Session.get
  if profile.id ∈ s.own.toUpdate then ProfileManager.updateProfile (s.objects profile.id)
  else pure ()

/-- `createProfilesFromSubscription`. -/
def createProfilesFromSubscription (hash : HashOrder) (jsons : List (Option JsonElement)) :
    DaoProgram Locals Unit := do
  let currentId := (← Session.get).own.profileId
  let profiles ← ProfileManager.getAllProfiles
  -- the rows become objects
  profiles.forM fun profile => ProfileManager.setObject profile.id profile
  profiles.forM (preprocess currentId)
  -- the settings that are copied from it never change
  let feature := profiles.find? fun profile => profile.id = currentId
  jsons.forM (processDocument hash feature)
  profiles.forM writeBack

end SubService
