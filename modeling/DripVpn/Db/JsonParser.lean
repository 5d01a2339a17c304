import DripVpn.Db.Dao
import DripVpn.Plugin.PluginOptions

/-!
# Profiles from JSON

`Profile.JsonParser` and `Profile.parseJson`. A document is a Gson `JsonElement`; `process` collects
the profiles in it, descending into arrays and into objects that are no profile, and remembers for a
profile with a valid `udp_fallback` the fallback it asks for. `parseJson` then hands the profiles to
the callback `create`, one after another, and `finalize` looks up or creates the fallbacks.

The map `fallbackMap` of the source is keyed by profiles, compared by value. Before a profile was
created its key is the parsed profile, with id 0; afterwards it is the object that `create`
returned. Objects of rows have positive ids, so the two kinds never meet, and objects of one
document are equal only if they are the same: the model keeps the first in a map keyed by profiles
and the second in a map keyed by references.
-/

open Reactive

/-- `com.google.gson.JsonElement`. A number is kept as its literal, as `LazilyParsedNumber`
does. -/
inductive JsonElement where
  | null
  | string (value : String)
  | number (literal : String)
  | boolean (value : Bool)
  | array (elements : List JsonElement)
  | object (members : List (String × JsonElement))

namespace JsonElement

/-- `JsonObject.get`. -/
def get (members : List (String × JsonElement)) (key : String) : Option JsonElement :=
  (members.find? fun m => m.1 = key).map Prod.snd

/-- `BigDecimal(literal).intValue()`: the integer part of the number, reduced to 32 bits. -/
def bigDecimalIntValue (literal : Text) : Option ℤ := do
  let (mantissa, exponent) := Text.splitFirst 'e' (literal.map fun c => if c = 'E' then 'e' else c)
  let (whole, fraction) := Text.splitFirst '.' mantissa
  let fraction := fraction.getD []
  -- the digits of both parts are one number, which the scale moves
  let unscaled ← Text.parseSigned (whole ++ fraction)
  let exponent ← (exponent.map Text.parseInt).getD (some 0)
  let scale := fraction.length - exponent
  -- a scale that is no `int` is a `NumberFormatException`
  if -2147483648 ≤ scale ∧ scale ≤ 2147483647 then
    let whole := if scale ≤ 0 then unscaled * Int.ofNat (Nat.pow 10 (-scale).toNat)
      else unscaled.tdiv (Int.ofNat (Nat.pow 10 scale.toNat))
    some (whole.bmod 4294967296)
  else none

/-- `LazilyParsedNumber.intValue()`. Its second attempt, `Long.parseLong`, gives what
`BigDecimal` gives. -/
def intValue (literal : Text) : Option ℤ :=
  (Text.parseInt literal).orElse fun _ => bigDecimalIntValue literal

/-- `optString`. -/
def optString : Option JsonElement → Option String
  | some (.string value) => some value
  | some (.number literal) => some literal
  | some (.boolean value) => some (if value then "true" else "false")
  | _ => none

/-- `optBoolean`. -/
def optBoolean : Option JsonElement → Option Bool
  | some (.boolean value) => some value
  | _ => none

/-- `optInt`: `asInt`, where a `NumberFormatException` gives `null`. -/
def optInt : Option JsonElement → Option ℤ
  | some (.string value) => Text.parseInt value.toList
  | some (.number literal) => intValue literal.toList
  -- `Integer.parseInt` of `true` or `false`
  | _ => none

end JsonElement

/-- `Profile.copyFeatureSettingsTo`. -/
def Profile.copyFeatureSettingsTo (feature profile : Profile) : Profile :=
  { profile with
    route := feature.route
    ipv6 := feature.ipv6
    metered := feature.metered
    proxyApps := feature.proxyApps
    bypass := feature.bypass
    individual := feature.individual
    udpdns := feature.udpdns }

/-- `JsonParser`: the list of profiles and the fallbacks they ask for. -/
structure JsonParser where
  profiles : List Profile := []
  fallbackMap : LinkedMap Profile Profile := LinkedMap.empty

namespace JsonParser

open JsonElement

variable (hash : HashOrder) (feature : Option Profile)

/-- `isNullOrEmpty` on the way to a value that is neither. -/
def nonEmpty (s : Option String) : Option String := s.filter fun s => s ≠ ""

/-- The columns without which an object is no profile. -/
def requiredColumns (json : List (String × JsonElement)) : Option Profile := do
  let host ← nonEmpty (optString (get json "server"))
  let remotePort ← (optInt (get json "server_port")).filter fun port => decide (0 < port)
  let password ← nonEmpty (optString (get json "password"))
  let method ← nonEmpty (optString (get json "method"))
  some { host, remotePort, password, method }

/-- The plugin column; an error is the message of the failed `check` of `PluginOptions`. -/
def pluginColumn (json : List (String × JsonElement)) : Except String (Option String) :=
  match nonEmpty (optString (get json "plugin")) with
  | none => .ok none
  | some id =>
    (PluginOptions.ofIdText id.toList ((optString (get json "plugin_opts")).map String.toList)).map
      fun options => some (String.ofList (options.toString hash false))

/-- `tryParse(json, true)`, which is also the first half of `tryParse(json)`. -/
def tryParseFallback (json : List (String × JsonElement)) : Except String (Option Profile) :=
  match requiredColumns json with
  | none => .ok none
  | some profile => do
    -- the settings come first, so that the members of the object override them
    let profile := feature.elim profile fun f => f.copyFeatureSettingsTo profile
    let plugin ← pluginColumn hash json
    return some { profile with
      plugin
      name := optString (get json "remarks")
      route := (optString (get json "route")).getD profile.route }

/-- `joinToString("\n")`. -/
def joinLines (lines : List String) : String :=
  String.ofList (['\n'].intercalate (lines.map String.toList))

/-- The columns below `proxy_apps`. -/
def proxyAppsColumns (json : List (String × JsonElement)) (profile : Profile) : Profile :=
  { profile with
    proxyApps := (optBoolean (get json "enabled")).getD profile.proxyApps
    bypass := (optBoolean (get json "bypass")).getD profile.bypass
    individual := match get json "android_list" with
      | some (.array elements) => joinLines (elements.filterMap fun e => optString (some e))
      | _ => profile.individual }

/-- The columns that only `tryParse(json)` reads. -/
def optionalColumns (json : List (String × JsonElement)) (profile : Profile) : Profile :=
  let profile := { profile with
    remoteDns := (optString (get json "remote_dns")).getD profile.remoteDns
    ipv6 := (optBoolean (get json "ipv6")).getD profile.ipv6
    metered := (optBoolean (get json "metered")).getD profile.metered }
  let profile := match get json "proxy_apps" with
    | some (.object members) => proxyAppsColumns members profile
    | _ => profile
  { profile with udpdns := (optBoolean (get json "udpdns")).getD profile.udpdns }

/-- `tryParse(json)`: the profile, and the fallback it asks for. -/
def tryParse (json : List (String × JsonElement)) :
    Except String (Option (Profile × Option Profile)) := do
  match ← tryParseFallback hash feature json with
  | none => return none
  | some profile =>
    let fallback ← match get json "udp_fallback" with
      | some (.object members) => tryParseFallback hash feature members
      | _ => pure none
    return some (optionalColumns json profile, fallback)

/-- `add(profile)`, after `tryParse` put the fallback into `fallbackMap`. -/
def add (parser : JsonParser) (profile : Profile) (fallback : Option Profile) : JsonParser where
  profiles := parser.profiles ++ [profile]
  fallbackMap := match fallback with
    | some fallback => parser.fallbackMap.put profile fallback
    | none => parser.fallbackMap

mutual

/-- `process`. -/
def process (parser : JsonParser) : JsonElement → Except String JsonParser
  | .object members => do
    match ← tryParse hash feature members with
    | some (profile, fallback) => return parser.add profile fallback
    | none => processMembers parser members
  | .array elements => processElements parser elements
  -- ignore other types
  | .null | .string _ | .number _ | .boolean _ => return parser

/-- `process` on each element of an array. -/
def processElements (parser : JsonParser) : List JsonElement → Except String JsonParser
  | [] => return parser
  | e :: es => do processElements (← process parser e) es

/-- `process` on the value of each member. -/
def processMembers (parser : JsonParser) : List (String × JsonElement) → Except String JsonParser
  | [] => return parser
  | (_, value) :: ms => do processMembers (← process parser value) ms

end

/-- The profiles `finalize` takes for the fallback. -/
def isMatch (fallback p : Profile) : Bool :=
  fallback.host = p.host && fallback.remotePort = p.remotePort &&
    fallback.password = p.password && fallback.method = p.method && p.plugin.getD "" = ""

variable {τ : Type} (create : Profile → DaoProgram τ Int64)

/-- The loop of `parseJson`: create each profile and put its fallback under the created one. -/
def createAll : List Profile → LinkedMap Profile Profile → LinkedMap Int64 Profile →
    DaoProgram τ (LinkedMap Int64 Profile)
  | [], _, linked => pure linked
  | profile :: profiles, fallbackMap, linked => do
    let fallback := fallbackMap.get? profile
    let id ← create profile
    createAll profiles (fallbackMap.remove profile) (match fallback with
      | some fallback => linked.put id fallback
      | none => linked)

/-- `match ?: create(fallback)`. -/
def matchOrCreate (profiles : List Profile) (fallback : Profile) : DaoProgram τ Int64 :=
  match profiles.find? (isMatch fallback) with
  | some p => pure p.id
  | none => create fallback

/-- One turn of the loop of `finalize`. -/
def link (profiles : List Profile) (entry : Int64 × Profile) : DaoProgram τ Unit := do
  let target ← matchOrCreate create profiles entry.2
  let s ← Session.get
  let profile := { s.objects entry.1 with udpFallback := some target }
  ProfileManager.setObject entry.1 profile
  ProfileManager.updateProfile profile

/-- `finalize`. -/
def finalize (linked : LinkedMap Int64 Profile) : DaoProgram τ Unit := do
  let profiles ← ProfileManager.getAllProfiles
  linked.entries.forM (link create profiles)

end JsonParser

/-- `Profile.parseJson`. -/
def Profile.parseJson {τ : Type} (hash : HashOrder) (json : JsonElement) (feature : Option Profile)
    (create : Profile → DaoProgram τ Int64) : DaoProgram τ Unit :=
  match JsonParser.process hash feature {} json with
  | .error message => Session.throw (.illegalState message)
  | .ok parser => do
    let linked ← JsonParser.createAll create parser.profiles parser.fallbackMap LinkedMap.empty
    JsonParser.finalize create linked

/-! ## A rule for the loop of `parseJson` -/

namespace JsonParser

variable {τ δ : Type} {S : Service DaoCall.Result δ} {create : Profile → DaoProgram τ Int64}
  {E : StorageException → Heap τ → δ → Prop}

/-- An entry for a created profile adds its reference to the keys, at most. -/
theorem keys_linked_subset (linked : LinkedMap Int64 Profile) (id : Int64)
    (fallback : Option Profile) :
    (match fallback with
      | some fallback => linked.put id fallback
      | none => linked).entries.map Prod.fst ⊆ id :: linked.entries.map Prod.fst := by
  cases fallback with
  | none => exact List.subset_cons_self _ _
  | some fallback =>
    intro key hkey
    obtain ⟨e, he, rfl⟩ := List.mem_map.mp hkey
    rcases (LinkedMap.mem_put_iff _ _ _ _).mp he with rfl | ⟨-, he⟩
    · exact List.mem_cons_self
    · exact List.mem_cons_of_mem _ (List.mem_map_of_mem he)

/-- An invariant about references that the callback returned holds of the keys of the map. -/
theorem ensures_createAll_of {I : List Int64 → Heap τ → δ → Prop}
    (hI : ∀ ids ids' s d, ids' ⊆ ids → I ids s d → I ids' s d)
    (hcreate : ∀ p ids, Session.Ensures S (I ids) (create p) (fun id => I (id :: ids)) E)
    (profiles : List Profile) (fallbackMap : LinkedMap Profile Profile)
    (linked : LinkedMap Int64 Profile) :
    Session.Ensures S (I (linked.entries.map Prod.fst))
      (createAll create profiles fallbackMap linked)
      (fun linked => I (linked.entries.map Prod.fst)) E := by
  induction profiles generalizing fallbackMap linked with
  | nil => exact Session.ensures_pure _ fun s d h => h
  | cons profile profiles ih =>
    refine Session.ensures_bind (hcreate profile _) fun id =>
      (ih _ _).of_imp ?_ (fun _ _ _ h => h) (fun _ _ _ h => h)
    exact fun s d h => hI _ _ s d (keys_linked_subset linked id _) h

end JsonParser
