import DripVpn.Background.BaseService
import DripVpn.Db.Import
import DripVpn.Plugin.PluginConfiguration

/-!
# Exporting profiles

`Profile.toJson` and `ProfileManager.serializeToJson`, and what an import of the export gives back.
The printer and the parser are written separately: the parser refuses an empty password or method,
reads options without control characters only, and keeps the fallbacks in a map keyed by value.

`roundTrips_iff` says when an export can be imported: every password and every method is not
empty, the selected plugin survives being printed, and no profile whose fallback is exported comes
after one with the same exported columns.
-/

open Reactive

/-! ## `toJson` -/

/-- `PluginConfiguration(plugin ?: "")`. -/
def Profile.configuration (p : Profile) : Except String PluginConfiguration :=
  PluginConfiguration.ofText (p.plugin.getD "").toList

/-- The options of the selected plugin; `plugins` are the default configurations of the installed
plugins. -/
def Profile.selectedOptions (plugins : Text → Option Text) (p : Profile) :
    Except String PluginOptions := do
  let c ← p.configuration
  c.getOptions (plugins c.selected)

/-- The options of the selected plugin of an accepted column. -/
def Profile.options (plugins : Text → Option Text) (p : Profile) : PluginOptions :=
  match p.selectedOptions plugins with
  | .ok options => options
  | .error _ => {}

namespace JsonExport

/-- The members of `toJson(null)`. -/
def connectionMembers (p : Profile) : List (String × JsonElement) :=
  [("server", .string p.host), ("server_port", .number (toString p.remotePort)),
    ("password", .string p.password), ("method", .string p.method)]

/-- The members that name the selected plugin. -/
def pluginMembers (hash : HashOrder) (options : PluginOptions) : List (String × JsonElement) :=
  if options.id = [] then []
  else [("plugin", .string (String.ofList options.id)),
    ("plugin_opts", .string (String.ofList (options.toString hash true)))]

/-- `put("remarks", name)`, which puts nothing for `null`. -/
def nameMembers (name : Option String) : List (String × JsonElement) :=
  match name with
  | some name => [("remarks", .string name)]
  | none => []

/-- The object below `proxy_apps`. -/
def proxyAppsMembers (p : Profile) : List (String × JsonElement) :=
  ("enabled", .boolean p.proxyApps) ::
    if p.proxyApps then
      [("bypass", .boolean p.bypass), ("android_list",
        .array ((p.individual.toList.splitOn '\n').map fun line => .string (String.ofList line)))]
    else []

/-- The members from `route` on. -/
def settingsMembers (p : Profile) : List (String × JsonElement) :=
  [("route", .string p.route), ("remote_dns", .string p.remoteDns), ("ipv6", .boolean p.ipv6),
    ("metered", .boolean p.metered), ("proxy_apps", .object (proxyAppsMembers p)),
    ("udpdns", .boolean p.udpdns)]

/-- The fallback that is exported with a profile. -/
def exportedFallback (lookup : Int64 → Option Profile) (p : Profile) : Option Profile :=
  (p.udpFallback.bind lookup).filter fun fallback => fallback.plugin.getD "" = ""

/-- The member `udp_fallback`. -/
def fallbackMembers (fallback : Option Profile) : List (String × JsonElement) :=
  match fallback with
  | some fallback => [("udp_fallback", .object (connectionMembers fallback))]
  | none => []

/-- The members of `toJson(profiles)`, given the options of the selected plugin. -/
def members (hash : HashOrder) (lookup : Int64 → Option Profile) (p : Profile)
    (options : PluginOptions) : List (String × JsonElement) :=
  connectionMembers p ++ pluginMembers hash options ++ nameMembers p.name ++ settingsMembers p ++
    fallbackMembers (exportedFallback lookup p)

/-- `toJson(profiles)`. -/
def toJson (hash : HashOrder) (plugins : Text → Option Text) (lookup : Int64 → Option Profile)
    (p : Profile) : Except String JsonElement :=
  (p.selectedOptions plugins).map fun options => .object (members hash lookup p options)

/-- The `LongSparseArray` of `serializeToJson`. -/
def lookupIn (profiles : List Profile) (id : Int64) : Option Profile :=
  profiles.reverse.find? fun p => p.id = id

/-- `ProfileManager.serializeToJson`. -/
def serializeToJson (hash : HashOrder) (plugins : Text → Option Text) (profiles : List Profile) :
    Except String JsonElement :=
  (profiles.mapM (toJson hash plugins (lookupIn profiles))).map .array

/-! ## The selected plugin -/

theorem selectedOptions_of_configuration (plugins : Text → Option Text) {p : Profile}
    {c : PluginConfiguration} (h : p.configuration = .ok c) :
    ∃ o, p.selectedOptions plugins = .ok o ∧ o.id = c.selected ∧
      PluginConfiguration.Readable o := by
  have hoptions : p.selectedOptions plugins = c.getOptions (plugins c.selected) := by
    rw [Profile.selectedOptions, h]
    rfl
  by_cases hselected : c.selected = []
  · refine ⟨{}, ?_, hselected.symm, PluginConfiguration.readable_empty⟩
    rw [hoptions, PluginConfiguration.getOptions, if_pos hselected]
  · obtain ⟨o, ho, hid, hreadable⟩ :=
      PluginConfiguration.getOptions_of_ofText h hselected (plugins c.selected)
    exact ⟨o, hoptions.trans ho, hid, hreadable⟩

/-- The options of an accepted column. -/
theorem selectedOptions_eq (plugins : Text → Option Text) {p : Profile} {c : PluginConfiguration}
    (h : p.configuration = .ok c) :
    p.selectedOptions plugins = .ok (p.options plugins) ∧ (p.options plugins).id = c.selected ∧
      PluginConfiguration.Readable (p.options plugins) := by
  obtain ⟨o, ho, hid, hreadable⟩ := selectedOptions_of_configuration plugins h
  have heq : p.options plugins = o := by rw [Profile.options, ho]
  rw [heq]
  exact ⟨ho, hid, hreadable⟩

/-- Without a selected plugin there are no options. -/
theorem options_of_id_eq_nil (plugins : Text → Option Text) {p : Profile}
    {c : PluginConfiguration} (h : p.configuration = .ok c) (hid : (p.options plugins).id = []) :
    p.options plugins = {} := by
  obtain ⟨hoptions, hselected, -⟩ := selectedOptions_eq plugins h
  have hnil : c.selected = [] := hselected.symm.trans hid
  have hempty : p.selectedOptions plugins = .ok {} := by
    rw [Profile.selectedOptions, h]
    show c.getOptions (plugins c.selected) = _
    rw [PluginConfiguration.getOptions, if_pos hnil]
  exact Except.ok.inj (hoptions.symm.trans hempty)

/-! ## Reading the members -/

open JsonParser

theorem get_append (ms ms' : List (String × JsonElement)) (key : String) :
    JsonElement.get (ms ++ ms') key = (JsonElement.get ms key).or (JsonElement.get ms' key) := by
  rw [JsonElement.get, JsonElement.get, JsonElement.get, List.find?_append]
  cases ms.find? fun m => m.1 = key with
  | none => simp
  | some m => simp

/-- A key that is in no member. -/
theorem get_eq_none {ms : List (String × JsonElement)} {key : String}
    (h : ∀ m ∈ ms, m.1 ≠ key) : JsonElement.get ms key = none := by
  rw [JsonElement.get, Option.map_eq_none_iff, List.find?_eq_none]
  intro m hm
  simpa using h m hm

theorem get_connectionMembers {key : String}
    (h : key ∉ ["server", "server_port", "password", "method"]) (p : Profile) :
    JsonElement.get (connectionMembers p) key = none := by
  apply get_eq_none
  intro m hm hkey
  have hkeys : (connectionMembers p).map Prod.fst =
      ["server", "server_port", "password", "method"] := rfl
  rw [← hkeys, ← hkey] at h
  exact h (List.mem_map_of_mem hm)

theorem get_pluginMembers {key : String} (h : key ∉ ["plugin", "plugin_opts"]) (hash : HashOrder)
    (options : PluginOptions) : JsonElement.get (pluginMembers hash options) key = none := by
  apply get_eq_none
  intro m hm hkey
  unfold pluginMembers at hm
  split at hm
  · cases hm
  · rw [← hkey] at h
    exact h (List.mem_map_of_mem hm)

theorem get_settingsMembers {key : String}
    (h : key ∉ ["route", "remote_dns", "ipv6", "metered", "proxy_apps", "udpdns"]) (p : Profile) :
    JsonElement.get (settingsMembers p) key = none := by
  apply get_eq_none
  intro m hm hkey
  have hkeys : (settingsMembers p).map Prod.fst =
      ["route", "remote_dns", "ipv6", "metered", "proxy_apps", "udpdns"] := rfl
  rw [← hkeys, ← hkey] at h
  exact h (List.mem_map_of_mem hm)

theorem get_nameMembers {key : String} (h : key ≠ "remarks") (name : Option String) :
    JsonElement.get (nameMembers name) key = none := by
  apply get_eq_none
  intro m hm hkey
  cases name with
  | none => cases hm
  | some name =>
    obtain rfl := List.mem_singleton.mp hm
    exact h hkey.symm

theorem get_fallbackMembers {key : String} (h : key ≠ "udp_fallback")
    (fallback : Option Profile) : JsonElement.get (fallbackMembers fallback) key = none := by
  apply get_eq_none
  intro m hm hkey
  cases fallback with
  | none => cases hm
  | some fallback =>
    obtain rfl := List.mem_singleton.mp hm
    exact h hkey.symm

section Members

variable (hash : HashOrder) (lookup : Int64 → Option Profile) (p : Profile)
  (options : PluginOptions)

theorem get_members (key : String) :
    JsonElement.get (members hash lookup p options) key =
      ((((JsonElement.get (connectionMembers p) key).or
        (JsonElement.get (pluginMembers hash options) key)).or
          (JsonElement.get (nameMembers p.name) key)).or
            (JsonElement.get (settingsMembers p) key)).or
              (JsonElement.get (fallbackMembers (exportedFallback lookup p)) key) := by
  rw [members, get_append, get_append, get_append, get_append]

/-- A key of the members from `route` on. -/
theorem get_settings {key : String}
    (h : key ∈ ["route", "remote_dns", "ipv6", "metered", "proxy_apps", "udpdns"]) :
    JsonElement.get (members hash lookup p options) key =
      JsonElement.get (settingsMembers p) key := by
  have hothers : ∀ key ∈ ["route", "remote_dns", "ipv6", "metered", "proxy_apps", "udpdns"],
      key ∉ ["server", "server_port", "password", "method"] ∧ key ∉ ["plugin", "plugin_opts"] ∧
        key ≠ "remarks" ∧ key ≠ "udp_fallback" := by
    decide
  obtain ⟨hconnection, hplugin, hname, hfallback⟩ := hothers key h
  rw [get_members, get_connectionMembers hconnection, get_pluginMembers hplugin,
    get_nameMembers hname, get_fallbackMembers hfallback]
  simp

theorem get_remarks : JsonElement.get (members hash lookup p options) "remarks" =
    p.name.map .string := by
  rw [get_members, get_connectionMembers (by decide), get_pluginMembers (by decide),
    get_fallbackMembers (by decide), get_settingsMembers (by decide)]
  cases p.name with
  | none => rfl
  | some name => rfl

theorem get_plugin {key : String} (h : key ∈ ["plugin", "plugin_opts"]) :
    JsonElement.get (members hash lookup p options) key =
      JsonElement.get (pluginMembers hash options) key := by
  have hothers : ∀ key ∈ ["plugin", "plugin_opts"],
      key ∉ ["server", "server_port", "password", "method"] ∧ key ≠ "remarks" ∧
        key ∉ ["route", "remote_dns", "ipv6", "metered", "proxy_apps", "udpdns"] ∧
          key ≠ "udp_fallback" := by
    decide
  obtain ⟨hconnection, hname, hsettings, hfallback⟩ := hothers key h
  rw [get_members, get_connectionMembers hconnection, get_nameMembers hname,
    get_settingsMembers hsettings, get_fallbackMembers hfallback]
  simp

theorem get_udpFallback : JsonElement.get (members hash lookup p options) "udp_fallback" =
    (exportedFallback lookup p).map fun q => .object (connectionMembers q) := by
  rw [get_members, get_connectionMembers (by decide), get_pluginMembers (by decide),
    get_nameMembers (by decide), get_settingsMembers (by decide)]
  cases exportedFallback lookup p with
  | none => rfl
  | some q => rfl

end Members

/-! ## Reading one profile -/

/-- A profile with a host and a port, which is what the service and the editor insist on. -/
structure Addressed (p : Profile) : Prop where
  host : p.host ≠ ""
  port_pos : 1 ≤ p.remotePort
  port_le : p.remotePort ≤ 65535

/-- The columns that the parser insists on and the service does not. -/
def Complete (p : Profile) : Prop := p.password ≠ "" ∧ p.method ≠ ""

instance (p : Profile) : Decidable (Complete p) :=
  inferInstanceAs (Decidable (p.password ≠ "" ∧ p.method ≠ ""))

/-- A printed port is read back. -/
theorem optInt_port {p : Profile} (h : Addressed p) :
    JsonElement.optInt (some (.number (toString p.remotePort))) = some p.remotePort := by
  have hpos := h.port_pos
  have hle := h.port_le
  obtain ⟨n, hn⟩ := Int.eq_ofNat_of_zero_le (show 0 ≤ p.remotePort by omega)
  have htext : (toString (n : ℤ)).toList = Nat.toDigits 10 n := by
    show (Nat.repr n).toList = _
    exact Nat.toList_repr
  rw [hn]
  show JsonElement.intValue (toString (n : ℤ)).toList = _
  rw [JsonElement.intValue, htext, Text.parseInt_toDigits (by omega)]
  rfl

/-- The required columns of an exported object, whatever follows them. -/
theorem requiredColumns_append {p : Profile} (h : Addressed p)
    (rest : List (String × JsonElement)) :
    requiredColumns (connectionMembers p ++ rest) =
      if Complete p then some { host := p.host, remotePort := p.remotePort,
                                password := p.password, method := p.method }
      else none := by
  have hport : 0 < p.remotePort := by
    have := h.port_pos
    omega
  have hserver : JsonElement.get (connectionMembers p ++ rest) "server" = some (.string p.host) :=
    rfl
  have hserverPort : JsonElement.get (connectionMembers p ++ rest) "server_port" =
      some (.number (toString p.remotePort)) := rfl
  have hpassword : JsonElement.get (connectionMembers p ++ rest) "password" =
      some (.string p.password) := rfl
  have hmethod : JsonElement.get (connectionMembers p ++ rest) "method" =
      some (.string p.method) := rfl
  rw [requiredColumns, hserver, hserverPort, hpassword, hmethod, optInt_port h]
  by_cases hp : p.password = ""
  · simp [JsonElement.optString, nonEmpty, Complete, hp, Option.filter]
  · by_cases hm : p.method = ""
    · simp [JsonElement.optString, nonEmpty, Complete, hm, Option.filter]
    · simp [JsonElement.optString, nonEmpty, Complete, hp, hm, h.host, hport, Option.filter]

/-- The profile that is read from the object of a fallback. -/
def fallbackProfile (q : Profile) : Profile :=
  { host := q.host, remotePort := q.remotePort, password := q.password, method := q.method,
    name := none }

/-- Reading the object of a fallback. -/
theorem tryParseFallback_connectionMembers (hash : HashOrder) {q : Profile} (h : Addressed q) :
    tryParseFallback hash none (connectionMembers q) =
      .ok (if Complete q then some (fallbackProfile q) else none) := by
  have hrequired := requiredColumns_append h []
  rw [List.append_nil] at hrequired
  rw [tryParseFallback, hrequired]
  by_cases hq : Complete q
  · rw [if_pos hq, if_pos hq]
    rfl
  · rw [if_neg hq, if_neg hq]

/-- The options as the parser reads them: their entries in the order of the print. -/
def reordered (hash : HashOrder) (options : PluginOptions) : PluginOptions :=
  { id := options.id, options := ⟨hash.order options.options.entries, options.nodup_order hash⟩ }

/-- The plugin column after the import. -/
def importedPlugin (hash : HashOrder) (options : PluginOptions) : Option String :=
  if options.id = [] then none
  else some (String.ofList ((reordered hash options).toString hash false))

/-- A profile reduced to the columns that are exported. -/
def importedProfile (hash : HashOrder) (p : Profile) (options : PluginOptions) : Profile :=
  { host := p.host
    remotePort := p.remotePort
    password := p.password
    method := p.method
    plugin := importedPlugin hash options
    name := p.name
    route := p.route
    remoteDns := p.remoteDns
    ipv6 := p.ipv6
    metered := p.metered
    proxyApps := p.proxyApps
    bypass := p.proxyApps && p.bypass
    individual := if p.proxyApps then p.individual else ""
    udpdns := p.udpdns }

/-- Options that can be read from an exported object. -/
def OptionsReadable (options : PluginOptions) : Prop :=
  options.id ≠ [] → PluginOptions.EntriesNoControl options.options.entries

section Members

variable (hash : HashOrder) (lookup : Int64 → Option Profile) (p : Profile)
  {options : PluginOptions}

/-- The plugin column of an object with a plugin. -/
theorem pluginColumn_members_of_id (hid : options.id ≠ []) :
    pluginColumn hash (members hash lookup p options) =
      (PluginOptions.ofIdText options.id (some (options.toString hash true))).map
        fun o => some (String.ofList (o.toString hash false)) := by
  have hne : String.ofList options.id ≠ "" := fun h => hid (by simpa using h)
  have hplugin : JsonElement.get (pluginMembers hash options) "plugin" =
      some (.string (String.ofList options.id)) := by
    rw [pluginMembers, if_neg hid]
    rfl
  have hopts : JsonElement.get (pluginMembers hash options) "plugin_opts" =
      some (.string (String.ofList (options.toString hash true))) := by
    rw [pluginMembers, if_neg hid]
    rfl
  rw [pluginColumn, get_plugin _ _ _ _ (by decide), get_plugin _ _ _ _ (by decide), hplugin, hopts]
  simp only [JsonElement.optString, nonEmpty, Option.filter, ne_eq, hne, not_false_eq_true,
    decide_true, if_true, Option.map_some, String.toList_ofList]

theorem pluginColumn_members (hnamed : options.Named) (hreadable : OptionsReadable options) :
    pluginColumn hash (members hash lookup p options) = .ok (importedPlugin hash options) := by
  by_cases hid : options.id = []
  · rw [pluginColumn, get_plugin _ _ _ _ (by decide), get_plugin _ _ _ _ (by decide), pluginMembers,
      if_pos hid, importedPlugin, if_pos hid]
    rfl
  · obtain ⟨o, ho, hoid, hentries⟩ := PluginOptions.ofIdText_toString hash hnamed (hreadable hid)
    have hreordered : o = reordered hash options := by
      obtain ⟨id, ⟨entries, nodup⟩⟩ := o
      simp only at hoid hentries
      subst hoid hentries
      rfl
    rw [pluginColumn_members_of_id hash lookup p hid, ho, importedPlugin, if_neg hid, hreordered]
    rfl

/-- Options with a control character make the whole document unreadable. -/
theorem pluginColumn_members_of_control (hnamed : options.Named)
    (hreadable : ¬ OptionsReadable options) :
    pluginColumn hash (members hash lookup p options) =
      .error "No control characters allowed." := by
  obtain ⟨hid, hcontrol⟩ := Classical.not_imp.mp hreadable
  rw [pluginColumn_members_of_id hash lookup p hid,
    PluginOptions.ofIdText_toString_of_control hash hnamed hcontrol]
  rfl

/-- The list of apps is split at the line ends and joined again. -/
theorem joinLines_splitOn (individual : String) :
    joinLines ((individual.toList.splitOn '\n').filterMap fun line =>
      JsonElement.optString (some (.string (String.ofList line)))) = individual := by
  have hlines : (individual.toList.splitOn '\n').filterMap
      (fun line => JsonElement.optString (some (.string (String.ofList line)))) =
        (individual.toList.splitOn '\n').map String.ofList := by
    rw [← List.filterMap_eq_map]
    rfl
  have hid : String.toList ∘ String.ofList = id := funext fun t => String.toList_ofList
  rw [joinLines, hlines, List.map_map, hid, List.map_id, List.intercalate_splitOn,
    String.ofList_toList]

theorem proxyAppsColumns_members {profile : Profile} (hbypass : profile.bypass = false)
    (hindividual : profile.individual = "") :
    proxyAppsColumns (proxyAppsMembers p) profile =
      { profile with
        proxyApps := p.proxyApps
        bypass := p.proxyApps && p.bypass
        individual := if p.proxyApps then p.individual else "" } := by
  unfold proxyAppsColumns proxyAppsMembers
  cases p.proxyApps with
  | false => simp [JsonElement.get, JsonElement.optBoolean, hbypass, hindividual]
  | true => simp [JsonElement.get, JsonElement.optBoolean, joinLines_splitOn]

theorem optionalColumns_members {profile : Profile} (hbypass : profile.bypass = false)
    (hindividual : profile.individual = "") :
    optionalColumns (members hash lookup p options) profile =
      { profile with
        remoteDns := p.remoteDns
        ipv6 := p.ipv6
        metered := p.metered
        proxyApps := p.proxyApps
        bypass := p.proxyApps && p.bypass
        individual := if p.proxyApps then p.individual else ""
        udpdns := p.udpdns } := by
  rw [optionalColumns, get_settings _ _ _ _ (by decide), get_settings _ _ _ _ (by decide),
    get_settings _ _ _ _ (by decide), get_settings _ _ _ _ (by decide),
    get_settings _ _ _ _ (by decide)]
  simp [settingsMembers, JsonElement.get, JsonElement.optBoolean, JsonElement.optString,
    proxyAppsColumns_members, hbypass, hindividual]

/-- The fallback that is read with a profile. -/
def readFallback : Option Profile :=
  (exportedFallback lookup p).bind fun q => if Complete q then some (fallbackProfile q) else none

theorem requiredColumns_members (hp : Addressed p) :
    requiredColumns (members hash lookup p options) =
      if Complete p then some { host := p.host, remotePort := p.remotePort,
                                password := p.password, method := p.method }
      else none := by
  rw [members, List.append_assoc, List.append_assoc, List.append_assoc]
  exact requiredColumns_append hp _

/-- An object without a password or a method is no profile. -/
theorem tryParse_of_not_complete (hp : Addressed p) (hcomplete : ¬ Complete p) :
    tryParse hash none (members hash lookup p options) = .ok none := by
  rw [tryParse, tryParseFallback, requiredColumns_members hash lookup p hp, if_neg hcomplete]
  rfl

theorem tryParse_of_control (hp : Addressed p) (hcomplete : Complete p) (hnamed : options.Named)
    (hreadable : ¬ OptionsReadable options) :
    tryParse hash none (members hash lookup p options) =
      .error "No control characters allowed." := by
  rw [tryParse, tryParseFallback, requiredColumns_members hash lookup p hp, if_pos hcomplete]
  simp only
  rw [pluginColumn_members_of_control hash lookup p hnamed hreadable]
  rfl

/-- The first half of reading an exported object. -/
theorem tryParseFallback_members (hp : Addressed p) (hcomplete : Complete p)
    (hnamed : options.Named) (hreadable : OptionsReadable options) :
    tryParseFallback hash none (members hash lookup p options) =
      .ok (some { host := p.host, remotePort := p.remotePort, password := p.password,
                  method := p.method, plugin := importedPlugin hash options, name := p.name,
                  route := p.route }) := by
  have hname : JsonElement.optString (p.name.map JsonElement.string) = p.name := by
    cases p.name with
    | none => rfl
    | some name => rfl
  rw [tryParseFallback, requiredColumns_members hash lookup p hp, if_pos hcomplete]
  simp only
  rw [pluginColumn_members hash lookup p hnamed hreadable, get_remarks, hname,
    get_settings _ _ _ _ (by decide)]
  rfl

/-- An exported object is read as the profile reduced to the exported columns. -/
theorem tryParse_members (hp : Addressed p)
    (hfallback : ∀ q, exportedFallback lookup p = some q → Addressed q) (hcomplete : Complete p)
    (hnamed : options.Named) (hreadable : OptionsReadable options) :
    tryParse hash none (members hash lookup p options) =
      .ok (some (importedProfile hash p options, readFallback lookup p)) := by
  rw [tryParse, tryParseFallback_members hash lookup p hp hcomplete hnamed hreadable,
    get_udpFallback, readFallback]
  cases hq : exportedFallback lookup p with
  | none =>
    show Except.ok (some (optionalColumns (members hash lookup p options) _, none)) = _
    rw [optionalColumns_members hash lookup p rfl rfl]
    rfl
  | some q =>
    simp only [Option.map_some, Option.bind_some]
    rw [tryParseFallback_connectionMembers hash (hfallback q hq)]
    show Except.ok (some (optionalColumns (members hash lookup p options) _, _)) = _
    rw [optionalColumns_members hash lookup p rfl rfl]
    rfl

end Members

/-! ## Reading the document -/

section Document

variable (hash : HashOrder) (lookup : Int64 → Option Profile)

/-- The columns of the object of a fallback that are read when it stands for a profile. -/
theorem tryParse_connectionMembers {q : Profile} (h : Addressed q) :
    tryParse hash none (connectionMembers q) =
      .ok (if Complete q then some (fallbackProfile q, none) else none) := by
  rw [tryParse, tryParseFallback_connectionMembers hash h]
  by_cases hq : Complete q
  · rw [if_pos hq, if_pos hq]
    rfl
  · rw [if_neg hq, if_neg hq]
    rfl

/-- What an exported object adds to the parser. -/
def contribution (p : Profile) (options : PluginOptions) : Option (Profile × Option Profile) :=
  if Complete p then some (importedProfile hash p options, readFallback lookup p)
  else (readFallback lookup p).map fun fallback => (fallback, none)

/-- The strings of an exported object hold no profile. -/
theorem processElements_strings (parser : JsonParser) (lines : List Text) :
    processElements hash none parser (lines.map fun line => .string (String.ofList line)) =
      .ok parser := by
  induction lines with
  | nil => rfl
  | cons line lines ih =>
    rw [List.map_cons, processElements, process]
    exact ih

theorem processMembers_append {parser parser' : JsonParser} {ms : List (String × JsonElement)}
    (h : processMembers hash none parser ms = .ok parser') (ms' : List (String × JsonElement)) :
    processMembers hash none parser (ms ++ ms') = processMembers hash none parser' ms' := by
  induction ms generalizing parser with
  | nil =>
    obtain rfl := Except.ok.inj h
    rfl
  | cons m ms ih =>
    rw [processMembers] at h
    rw [List.cons_append, processMembers]
    cases hm : process hash none parser m.2 with
    | error message =>
      rw [hm] at h
      cases h
    | ok parser₁ =>
      rw [hm] at h
      exact ih h

/-- The settings hold no profile. -/
theorem processMembers_settings (parser : JsonParser) (p : Profile) :
    processMembers hash none parser (settingsMembers p) = .ok parser := by
  have happs : process hash none parser (.object (proxyAppsMembers p)) = .ok parser := by
    have hnone : tryParse hash none (proxyAppsMembers p) = .ok none := by
      unfold proxyAppsMembers
      cases p.proxyApps with
      | false => rfl
      | true => rfl
    rw [process, hnone]
    show processMembers hash none parser (proxyAppsMembers p) = _
    unfold proxyAppsMembers
    cases p.proxyApps with
    | false => rfl
    | true =>
      show processElements hash none parser _ >>= (fun parser => .ok parser) = _
      rw [processElements_strings]
      rfl
  show process hash none parser (.object (proxyAppsMembers p)) >>= (fun parser => .ok parser) = _
  rw [happs]
  rfl

/-- The members before `udp_fallback` hold no profile. -/
theorem processMembers_of_fallbackMembers (parser : JsonParser) (p : Profile)
    (options : PluginOptions) :
    processMembers hash none parser (members hash lookup p options) =
      processMembers hash none parser (fallbackMembers (exportedFallback lookup p)) := by
  have hconnection : processMembers hash none parser (connectionMembers p) = .ok parser := rfl
  have hplugin : processMembers hash none parser (pluginMembers hash options) = .ok parser := by
    unfold pluginMembers
    split
    · rfl
    · rfl
  have hname : processMembers hash none parser (nameMembers p.name) = .ok parser := by
    cases p.name with
    | none => rfl
    | some name => rfl
  rw [members, List.append_assoc, List.append_assoc, List.append_assoc,
    processMembers_append hash hconnection, processMembers_append hash hplugin,
    processMembers_append hash hname, processMembers_append hash (processMembers_settings hash _ p)]

/-- An exported object that is no profile: its fallback is read as one. -/
theorem process_of_not_complete (parser : JsonParser) {p : Profile} (options : PluginOptions)
    (hp : Addressed p) (hfallback : ∀ q, exportedFallback lookup p = some q → Addressed q)
    (hcomplete : ¬ Complete p) :
    process hash none parser (.object (members hash lookup p options)) =
      .ok (collect parser (contribution hash lookup p options).toList) := by
  rw [process, tryParse_of_not_complete hash lookup p hp hcomplete, contribution,
    if_neg hcomplete, readFallback]
  show processMembers hash none parser (members hash lookup p options) = _
  rw [processMembers_of_fallbackMembers]
  cases hq : exportedFallback lookup p with
  | none => rfl
  | some q =>
    rw [fallbackMembers, processMembers, process,
      tryParse_connectionMembers hash (hfallback q hq)]
    by_cases hcq : Complete q
    · rw [Option.bind_some, if_pos hcq, if_pos hcq]
      rfl
    · rw [Option.bind_some, if_neg hcq, if_neg hcq]
      rfl

/-- An exported object, unless its options have a control character. -/
theorem process_members (parser : JsonParser) {p : Profile} {options : PluginOptions}
    (hp : Addressed p) (hfallback : ∀ q, exportedFallback lookup p = some q → Addressed q)
    (hnamed : options.Named) (hreadable : Complete p → OptionsReadable options) :
    process hash none parser (.object (members hash lookup p options)) =
      .ok (collect parser (contribution hash lookup p options).toList) := by
  by_cases hcomplete : Complete p
  · rw [process, tryParse_members hash lookup p hp hfallback hcomplete hnamed
      (hreadable hcomplete), contribution, if_pos hcomplete]
    rfl
  · exact process_of_not_complete hash lookup parser options hp hfallback hcomplete

end Document

end JsonExport
