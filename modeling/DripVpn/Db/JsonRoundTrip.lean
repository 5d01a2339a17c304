import DripVpn.Db.Export

/-!
# Importing what was exported

`roundTrips_serializeToJson_iff`: for profiles that the service accepts, importing the export of a
list gives back the list exactly if it is `Exportable`. The parser refuses an empty password or
method, which the service accepts (`none` needs no password), and reads a document only if no
option has a control character; a plugin whose id looks like an old `kcptun` line is taken for
`kcptun`; and the fallbacks are kept in a map keyed by value, so of two profiles with the same
exported columns the second cannot have a fallback of its own.
-/

open Reactive JsonParser

namespace JsonExport

/-! ## The property -/

/-- An imported row agrees with the exported profile. -/
structure Agrees (plugins : Text → Option Text) (p row : Profile) : Prop where
  host : row.host = p.host
  remotePort : row.remotePort = p.remotePort
  password : row.password = p.password
  method : row.method = p.method
  name : row.name = p.name
  route : row.route = p.route
  remoteDns : row.remoteDns = p.remoteDns
  ipv6 : row.ipv6 = p.ipv6
  metered : row.metered = p.metered
  udpdns : row.udpdns = p.udpdns
  proxyApps : row.proxyApps = p.proxyApps
  bypass : p.proxyApps = true → row.bypass = p.bypass
  individual : p.proxyApps = true → row.individual = p.individual
  /-- The selected plugin has the same id and the same options. -/
  plugin : ∃ o o', p.selectedOptions plugins = .ok o ∧ row.selectedOptions plugins = .ok o' ∧
    o'.id = o.id ∧ o'.options.entries.Perm o.options.entries

/-- The fallback of an exported profile, if it is exported too and has no plugin, is found among
the imported rows. -/
def Links (profiles rows : List Profile) (p row : Profile) : Prop :=
  ∀ q ∈ profiles, p.udpFallback = some q.id → q.plugin.getD "" = "" →
    ∃ target ∈ rows, row.udpFallback = some target.id ∧ target.host = q.host ∧
      target.remotePort = q.remotePort ∧ target.password = q.password ∧ target.method = q.method

/-- The imported rows are the exported profiles, in order. -/
structure RoundTrips (plugins : Text → Option Text) (profiles rows : List Profile) : Prop where
  length : rows.length = profiles.length
  agrees : ∀ (i : ℕ) p row, profiles[i]? = some p → rows[i]? = some row →
    Agrees plugins p row ∧ Links profiles rows p row

/-- The profiles that are exported: rows of the table that the service accepts. -/
structure Accepted (base64Size : String → Option ℕ) (profiles : List Profile) : Prop where
  nodup : (profiles.map Profile.id).Nodup
  id_ne_zero : ∀ p ∈ profiles, p.id ≠ 0
  port_pos : ∀ p ∈ profiles, 1 ≤ p.remotePort
  port_le : ∀ p ∈ profiles, p.remotePort ≤ 65535
  proxy : ∀ p ∈ profiles, ∃ proxy, BaseService.ProxyInstance.create base64Size p p.route = .ok proxy
  plugin : ∀ p ∈ profiles, ∃ c, p.configuration = .ok c
  /-- `List.size` is an `Int`. -/
  size : profiles.length ≤ 2147483647

/-- A profile reduced to the columns that are exported with it. -/
def exported (hash : HashOrder) (plugins : Text → Option Text) (p : Profile) : Profile :=
  importedProfile hash p (p.options plugins)

/-- When a list survives the export. -/
structure Exportable (hash : HashOrder) (plugins : Text → Option Text)
    (profiles : List Profile) : Prop where
  complete : ∀ p ∈ profiles, p.password ≠ "" ∧ p.method ≠ ""
  plugin : ∀ p ∈ profiles, (p.options plugins).id ≠ [] →
    PluginOptions.EntriesNoControl (p.options plugins).options.entries ∧
      PluginConfiguration.isLegacy (p.options plugins).id = false
  /-- No profile with an exported fallback comes after one with the same exported columns. -/
  distinct : profiles.Pairwise fun p q =>
    exportedFallback (lookupIn profiles) q ≠ none →
      exported hash plugins p ≠ exported hash plugins q

section Accepted

variable {base64Size : String → Option ℕ} {profiles : List Profile}

theorem Accepted.addressed (h : Accepted base64Size profiles) {p : Profile} (hp : p ∈ profiles) :
    Addressed p := by
  refine ⟨?_, h.port_pos p hp, h.port_le p hp⟩
  intro hhost
  obtain ⟨proxy, hproxy⟩ := h.proxy p hp
  rw [BaseService.ProxyInstance.create, if_pos (Or.inl hhost)] at hproxy
  cases hproxy

/-- The sparse array finds the profile of an id. -/
theorem lookupIn_eq_some_iff (hnodup : (profiles.map Profile.id).Nodup) {id : Int64} {q : Profile} :
    lookupIn profiles id = some q ↔ q ∈ profiles ∧ q.id = id := by
  rw [lookupIn]
  constructor
  · intro h
    exact ⟨List.mem_reverse.mp (List.mem_of_find?_eq_some h), by simpa using List.find?_some h⟩
  · rintro ⟨hq, rfl⟩
    obtain ⟨q', hq'⟩ : ∃ q', profiles.reverse.find? (fun p => p.id = q.id) = some q' := by
      rw [← Option.isSome_iff_exists, List.find?_isSome]
      exact ⟨q, List.mem_reverse.mpr hq, by simp⟩
    have hmem := List.mem_reverse.mp (List.mem_of_find?_eq_some hq')
    have hid : q'.id = q.id := by simpa using List.find?_some hq'
    rw [hq', List.inj_on_of_nodup_map hnodup hmem hq hid]

theorem exportedFallback_eq_some_iff (hnodup : (profiles.map Profile.id).Nodup) {p q : Profile} :
    exportedFallback (lookupIn profiles) p = some q ↔
      q ∈ profiles ∧ p.udpFallback = some q.id ∧ q.plugin.getD "" = "" := by
  rw [exportedFallback, Option.filter_eq_some_iff, Option.bind_eq_some_iff]
  simp only [lookupIn_eq_some_iff hnodup, decide_eq_true_eq]
  constructor
  · rintro ⟨⟨id, hid, hq, rfl⟩, hplugin⟩
    exact ⟨hq, hid, hplugin⟩
  · rintro ⟨hq, hid, hplugin⟩
    exact ⟨⟨q.id, hid, hq, rfl⟩, hplugin⟩

/-- A profile without a plugin column has no selected plugin. -/
theorem options_of_plugin_eq {plugins : Text → Option Text} {q : Profile}
    (h : q.plugin.getD "" = "") : q.options plugins = {} := by
  have hselected : q.selectedOptions plugins = .ok {} := by
    rw [Profile.selectedOptions, Profile.configuration, h]
    rfl
  rw [Profile.options, hselected]

end Accepted

/-! ## Reading the export -/

section Reading

variable (hash : HashOrder) (plugins : Text → Option Text) {base64Size : String → Option ℕ}
  {profiles : List Profile}

/-- The object that is exported for a profile. -/
def object (profiles : List Profile) (p : Profile) : JsonElement :=
  .object (members hash (lookupIn profiles) p (p.options plugins))

/-- What the parser finds in that object. -/
def found (profiles : List Profile) (p : Profile) : Option (Profile × Option Profile) :=
  contribution hash (lookupIn profiles) p (p.options plugins)

theorem Accepted.serializeToJson_eq (h : Accepted base64Size profiles) :
    serializeToJson hash plugins profiles =
      .ok (.array (profiles.map (object hash plugins profiles))) := by
  have hall : ∀ p ∈ profiles, toJson hash plugins (lookupIn profiles) p =
      .ok (object hash plugins profiles p) := by
    intro p hp
    obtain ⟨c, hc⟩ := h.plugin p hp
    rw [toJson, (selectedOptions_eq plugins hc).1]
    rfl
  rw [serializeToJson, mapM_eq_ok_map hall]
  rfl

theorem Accepted.named (h : Accepted base64Size profiles) {p : Profile} (hp : p ∈ profiles) :
    (p.options plugins).Named := by
  obtain ⟨c, hc⟩ := h.plugin p hp
  exact (selectedOptions_eq plugins hc).2.2.named

theorem Accepted.addressed_fallback (h : Accepted base64Size profiles) {p q : Profile}
    (hq : exportedFallback (lookupIn profiles) p = some q) : Addressed q :=
  h.addressed ((exportedFallback_eq_some_iff h.nodup).mp hq).1

/-- Reading objects that can all be read. -/
theorem Accepted.processElements_eq (h : Accepted base64Size profiles) {ps : List Profile}
    (hps : ∀ p ∈ ps, p ∈ profiles)
    (hreadable : ∀ p ∈ ps, Complete p → OptionsReadable (p.options plugins)) (parser : JsonParser) :
    processElements hash none parser (ps.map (object hash plugins profiles)) =
      .ok (collect parser (ps.filterMap (found hash plugins profiles))) := by
  induction ps generalizing parser with
  | nil => rfl
  | cons p ps ih =>
    have hp := hps p List.mem_cons_self
    have hstep := process_members hash (lookupIn profiles) parser (h.addressed hp)
      (fun q hq => h.addressed_fallback hq) (h.named plugins hp)
      (hreadable p List.mem_cons_self)
    have hrest := ih (fun q hq => hps q (List.mem_cons_of_mem _ hq))
      (fun q hq => hreadable q (List.mem_cons_of_mem _ hq))
      (collect parser (found hash plugins profiles p).toList)
    have hcollect : (p :: ps).filterMap (found hash plugins profiles) =
        (found hash plugins profiles p).toList ++ ps.filterMap (found hash plugins profiles) := by
      rw [List.filterMap_cons]
      cases found hash plugins profiles p with
      | none => rfl
      | some x => rfl
    rw [List.map_cons, processElements, object, hstep, hcollect, collect_append]
    exact hrest

/-- One object that cannot be read makes the whole document unreadable. -/
theorem Accepted.processElements_error (h : Accepted base64Size profiles) {ps : List Profile}
    (hps : ∀ p ∈ ps, p ∈ profiles) {p : Profile} (hp : p ∈ ps) (hcomplete : Complete p)
    (hreadable : ¬ OptionsReadable (p.options plugins)) (parser : JsonParser) :
    ∃ message, processElements hash none parser (ps.map (object hash plugins profiles)) =
      .error message := by
  induction ps generalizing parser with
  | nil => cases hp
  | cons p₀ ps ih =>
    rw [List.map_cons, processElements]
    rcases List.mem_cons.mp hp with rfl | hp
    · have hmem := hps p List.mem_cons_self
      rw [object, process, tryParse_of_control hash (lookupIn profiles) p (h.addressed hmem)
        hcomplete (h.named plugins hmem) hreadable]
      exact ⟨_, rfl⟩
    · cases hfirst : process hash none parser (object hash plugins profiles p₀) with
      | error message => exact ⟨message, rfl⟩
      | ok parser' => exact ih (fun q hq => hps q (List.mem_cons_of_mem _ hq)) hp parser'

/-- Nothing is imported from an unreadable document. -/
theorem importRows_of_error {json : JsonElement} {message : String}
    (h : process hash none {} json = .error message) : importRows hash json = [] := by
  rw [importRows, Profile.parseJson, h]
  rfl

/-- Everything the parser takes for a profile has a password and a method. -/
theorem found_complete {p : Profile} {x : Profile × Option Profile}
    (h : found hash plugins profiles p = some x) : x.1.password ≠ "" ∧ x.1.method ≠ "" := by
  unfold found contribution at h
  split at h
  · next hcomplete =>
    obtain rfl := Option.some_inj.mp h
    exact hcomplete
  · obtain ⟨fallback, hfallback, rfl⟩ := Option.map_eq_some_iff.mp h
    rw [readFallback, Option.bind_eq_some_iff] at hfallback
    obtain ⟨q, -, hq⟩ := hfallback
    split at hq
    · next hcomplete =>
      obtain rfl := Option.some_inj.mp hq
      exact hcomplete
    · cases hq

theorem found_of_complete {p : Profile} (hcomplete : Complete p) :
    found hash plugins profiles p =
      some (exported hash plugins p, readFallback (lookupIn profiles) p) := by
  rw [found, contribution, if_pos hcomplete]
  rfl

/-- A fallback that is asked for is itself among the profiles that are read. -/
theorem Accepted.exists_match (h : Accepted base64Size profiles) {p f : Profile}
    (hf : (p, some f) ∈ profiles.filterMap (found hash plugins profiles)) :
    ∃ q ∈ (profiles.filterMap (found hash plugins profiles)).map Prod.fst, isMatch f q = true := by
  obtain ⟨p₀, -, hp₀⟩ := List.mem_filterMap.mp hf
  have hread : readFallback (lookupIn profiles) p₀ = some f := by
    unfold found contribution at hp₀
    split at hp₀
    · exact (Prod.mk.inj (Option.some_inj.mp hp₀)).2
    · obtain ⟨fallback, -, heq⟩ := Option.map_eq_some_iff.mp hp₀
      cases heq
  rw [readFallback, Option.bind_eq_some_iff] at hread
  obtain ⟨q, hq, hcomplete⟩ := hread
  obtain ⟨hmem, -, hplugin⟩ := (exportedFallback_eq_some_iff h.nodup).mp hq
  split at hcomplete
  · next hqcomplete =>
    obtain rfl := Option.some_inj.mp hcomplete
    refine ⟨exported hash plugins q, List.mem_map.mpr ⟨_, List.mem_filterMap.mpr
      ⟨q, hmem, found_of_complete hash plugins hqcomplete⟩, rfl⟩, ?_⟩
    rw [exported, options_of_plugin_eq hplugin]
    simp [isMatch, fallbackProfile, importedProfile, importedPlugin]
  · cases hcomplete

/-- The import of a document that can be read. -/
theorem Accepted.importRows_eq (h : Accepted base64Size profiles)
    (hreadable : ∀ p ∈ profiles, Complete p → OptionsReadable (p.options plugins)) :
    ∃ rows, List.Forall₂ IsRowOf ((profiles.filterMap (found hash plugins profiles)).map Prod.fst)
        rows ∧ (rows.map Profile.id).Nodup ∧
      importRows hash (.array (profiles.map (object hash plugins profiles))) =
        List.zipWith (fun row a => linkTo rows a row) rows
          (assign ((profiles.filterMap (found hash plugins profiles)).map Prod.fst)
            (collect {} (profiles.filterMap (found hash plugins profiles))).fallbackMap) := by
  have hprocess : process hash none {} (.array (profiles.map (object hash plugins profiles))) =
      .ok (collect {} (profiles.filterMap (found hash plugins profiles))) := by
    rw [process]
    exact h.processElements_eq hash plugins (fun p hp => hp) hreadable {}
  have hprofiles : (collect {} (profiles.filterMap (found hash plugins profiles))).profiles =
      (profiles.filterMap (found hash plugins profiles)).map Prod.fst := profiles_collect _ _
  have hlength : ((profiles.filterMap (found hash plugins profiles)).map Prod.fst).length ≤
      maxRowid := by
    have hle := List.length_filterMap_le (found hash plugins profiles) profiles
    have hsize := h.size
    rw [List.length_map, maxRowid]
    omega
  have hmatch : ∀ e ∈ (collect {} (profiles.filterMap
      (found hash plugins profiles))).fallbackMap.entries,
        ∃ p ∈ (profiles.filterMap (found hash plugins profiles)).map Prod.fst,
          isMatch e.2 p = true := by
    intro e he
    rcases mem_of_get?_collect (LinkedMap.get?_eq_some_iff.mpr he) with hnone | hmem
    · cases hnone
    · exact h.exists_match hash plugins hmem
  rw [← hprofiles] at hlength hmatch ⊢
  exact JsonParser.importRows_eq hprocess hlength hmatch

end Reading

/-! ## The rows -/

section Rows

variable (hash : HashOrder) (plugins : Text → Option Text) {base64Size : String → Option ℕ}
  {profiles : List Profile}

/-- A row has the columns of a parsed profile. -/
def IsImportOf (p row : Profile) : Prop :=
  ∃ id userOrder udpFallback,
    row = { p with id := id, userOrder := userOrder, dirty := false, udpFallback := udpFallback }

/-- Linking a row changes its fallback only. -/
theorem linkTo_eq (rows : List Profile) (fallback : Option Profile) (row : Profile) :
    ∃ udpFallback, linkTo rows fallback row = { row with udpFallback := udpFallback } := by
  cases fallback with
  | none => exact ⟨row.udpFallback, rfl⟩
  | some fallback => exact ⟨_, rfl⟩

theorem isImportOf_linkTo {p row : Profile} (h : IsRowOf p row) (rows : List Profile)
    (fallback : Option Profile) : IsImportOf p (linkTo rows fallback row) := by
  obtain ⟨udpFallback, hlink⟩ := linkTo_eq rows fallback row
  obtain ⟨id, userOrder, rfl⟩ := h
  exact ⟨id, userOrder, udpFallback, hlink⟩

theorem readable_reordered {o : PluginOptions} (h : PluginConfiguration.Readable o) :
    PluginConfiguration.Readable (reordered hash o) :=
  ⟨fun e he => h.named e ((hash.perm _).mem_iff.mp he), h.id_noControl⟩

theorem configuration_of_plugin {row : Profile} {o : PluginOptions} (hid : o.id ≠ [])
    (hrow : row.plugin = importedPlugin hash o) :
    row.configuration = PluginConfiguration.ofText ((reordered hash o).toString hash false) := by
  rw [Profile.configuration, hrow, importedPlugin, if_neg hid, Option.getD_some,
    String.toList_ofList]

/-- The imported plugin column selects the exported plugin, unless its id looks like the old
format. -/
theorem selectedOptions_of_readable {p row : Profile} {c : PluginConfiguration}
    (hc : p.configuration = .ok c) (hrow : row.plugin = importedPlugin hash (p.options plugins))
    (hreadable : OptionsReadable (p.options plugins))
    (hlegacy : (p.options plugins).id ≠ [] →
      PluginConfiguration.isLegacy (p.options plugins).id = false) :
    ∃ o, row.selectedOptions plugins = .ok o ∧ o.id = (p.options plugins).id ∧
      o.options.entries.Perm (p.options plugins).options.entries := by
  obtain ⟨-, -, ho⟩ := selectedOptions_eq plugins hc
  by_cases hid : (p.options plugins).id = []
  · rw [options_of_id_eq_nil plugins hc hid]
    refine ⟨{}, ?_, rfl, List.Perm.refl _⟩
    rw [Profile.selectedOptions, Profile.configuration, hrow, importedPlugin, if_pos hid]
    rfl
  · have hperm := hash.perm (p.options plugins).options.entries
    obtain ⟨c', o', hc', hselected, hget, hentries⟩ :=
      @PluginConfiguration.ofText_toString_selected hash (reordered hash (p.options plugins)) hid
        (readable_reordered hash ho) ((hreadable hid).of_perm hperm) (hlegacy hid)
        (plugins (p.options plugins).id)
    have hconfiguration : row.configuration = .ok c' :=
      (configuration_of_plugin hash hid hrow).trans hc'
    obtain ⟨hoptions, hid', -⟩ := selectedOptions_eq plugins hconfiguration
    have heq : row.selectedOptions plugins = .ok o' := by
      rw [Profile.selectedOptions, hconfiguration]
      show c'.getOptions (plugins c'.selected) = _
      rw [hselected]
      exact hget
    obtain rfl := Except.ok.inj (hoptions.symm.trans heq)
    refine ⟨_, hoptions, hid'.trans hselected, ?_⟩
    rw [hentries]
    exact (hash.perm _).trans hperm

/-- An id that looks like the old format is lost. -/
theorem selectedOptions_of_legacy {p row : Profile} {c : PluginConfiguration}
    (hc : p.configuration = .ok c) (hrow : row.plugin = importedPlugin hash (p.options plugins))
    (hreadable : OptionsReadable (p.options plugins)) (hid : (p.options plugins).id ≠ [])
    (hlegacy : PluginConfiguration.isLegacy (p.options plugins).id = true) {o : PluginOptions}
    (ho : row.selectedOptions plugins = .ok o) : o.id ≠ (p.options plugins).id := by
  obtain ⟨-, -, hp⟩ := selectedOptions_eq plugins hc
  have hperm := hash.perm (p.options plugins).options.entries
  have hconfiguration := configuration_of_plugin hash hid hrow
  cases hc' : PluginConfiguration.ofText ((reordered hash (p.options plugins)).toString hash false)
  with
  | error message =>
    rw [Profile.selectedOptions, hconfiguration, hc'] at ho
    cases ho
  | ok c' =>
    obtain ⟨hoptions, hselected, -⟩ := selectedOptions_eq plugins (hconfiguration.trans hc')
    obtain rfl := Except.ok.inj (hoptions.symm.trans ho)
    rw [hselected]
    exact @PluginConfiguration.ofText_toString_legacy hash (reordered hash (p.options plugins)) hid
      (readable_reordered hash hp) ((hreadable hid).of_perm hperm) hlegacy c' hc'

/-- A row with the exported columns agrees with the profile, unless the id of the selected plugin
looks like the old format. -/
theorem agrees_iff {p row : Profile} {c : PluginConfiguration} (hc : p.configuration = .ok c)
    (hrow : IsImportOf (exported hash plugins p) row)
    (hreadable : OptionsReadable (p.options plugins)) :
    Agrees plugins p row ↔ ((p.options plugins).id ≠ [] →
      PluginConfiguration.isLegacy (p.options plugins).id = false) := by
  have hplugin : row.plugin = importedPlugin hash (p.options plugins) := by
    obtain ⟨id, userOrder, udpFallback, rfl⟩ := hrow
    rfl
  constructor
  · intro h hid
    rw [← Bool.not_eq_true]
    intro hlegacy
    obtain ⟨o, o', ho, ho', hsame, -⟩ := h.plugin
    obtain rfl := Except.ok.inj ((selectedOptions_eq plugins hc).1.symm.trans ho)
    exact selectedOptions_of_legacy hash plugins hc hplugin hreadable hid hlegacy ho' hsame
  · intro hlegacy
    obtain ⟨o, ho, hsame, hperm⟩ :=
      selectedOptions_of_readable hash plugins hc hplugin hreadable hlegacy
    obtain ⟨id, userOrder, udpFallback, rfl⟩ := hrow
    refine ⟨rfl, rfl, rfl, rfl, rfl, rfl, rfl, rfl, rfl, rfl, rfl, ?_, ?_,
      _, o, (selectedOptions_eq plugins hc).1, ho, hsame, hperm⟩
    · intro happs
      simp [exported, importedProfile, happs]
    · intro happs
      simp [exported, importedProfile, happs]

/-- What is found when every profile has a password and a method. -/
theorem filterMap_found_of_complete (hcomplete : ∀ p ∈ profiles, Complete p) :
    profiles.filterMap (found hash plugins profiles) =
      profiles.map fun p => (exported hash plugins p, readFallback (lookupIn profiles) p) := by
  rw [← List.filterMap_eq_map]
  apply List.filterMap_congr
  intro p hp
  exact found_of_complete hash plugins (hcomplete p hp)

theorem readFallback_eq_some {p q : Profile} (hq : exportedFallback (lookupIn profiles) p = some q)
    (hcomplete : Complete q) : readFallback (lookupIn profiles) p = some (fallbackProfile q) := by
  rw [readFallback, hq, Option.bind_some, if_pos hcomplete]

/-- A linked row is found at the place of its profile. -/
theorem getElem?_linked {profiles' rows : List Profile} {assigned : List (Option Profile)}
    (hrows : List.Forall₂ IsRowOf profiles' rows) {i : ℕ} {row : Profile}
    (hrow : (List.zipWith (fun row a => linkTo rows a row) rows assigned)[i]? = some row) :
    ∃ p' row₀ a, profiles'[i]? = some p' ∧ rows[i]? = some row₀ ∧ assigned[i]? = some a ∧
      IsRowOf p' row₀ ∧ row = linkTo rows a row₀ := by
  obtain ⟨row₀, a, hrow₀, ha, rfl⟩ := List.getElem?_zipWith_eq_some.mp hrow
  have hi : i < profiles'.length := by
    rw [hrows.length_eq]
    exact (List.getElem?_eq_some_iff.mp hrow₀).1
  have hp' : profiles'[i]? = some profiles'[i] := List.getElem?_eq_getElem hi
  exact ⟨profiles'[i], row₀, a, hp', hrow₀, ha, forall₂_getElem? hrows hp' hrow₀, rfl⟩

/-- Every row is still there when it is linked. -/
theorem exists_linked {rows : List Profile} {assigned : List (Option Profile)}
    (hlength : rows.length = assigned.length) {row : Profile} (hrow : row ∈ rows) :
    ∃ a, linkTo rows a row ∈ List.zipWith (fun row a => linkTo rows a row) rows assigned := by
  obtain ⟨i, hi, rfl⟩ := List.mem_iff_getElem.mp hrow
  have hi' : i < assigned.length := hlength ▸ hi
  exact ⟨assigned[i], List.mem_iff_getElem.mpr ⟨i, by rw [List.length_zipWith]; omega, by simp⟩⟩

/-- A row that takes the fallback `q` is linked to a row with the columns of `q`. -/
theorem exists_target {rows : List Profile} {assigned : List (Option Profile)}
    (hlength : rows.length = assigned.length) {q : Profile}
    (hmatch : ∃ p ∈ rows, isMatch (fallbackProfile q) p = true) (row : Profile) :
    ∃ target ∈ List.zipWith (fun row a => linkTo rows a row) rows assigned,
      (linkTo rows (some (fallbackProfile q)) row).udpFallback = some target.id ∧
        target.host = q.host ∧ target.remotePort = q.remotePort ∧
          target.password = q.password ∧ target.method = q.method := by
  obtain ⟨target, htarget⟩ : ∃ target, rows.find? (isMatch (fallbackProfile q)) = some target := by
    rw [← Option.isSome_iff_exists, List.find?_isSome]
    exact hmatch
  obtain ⟨hhost, hport, hpassword, hmethod, -⟩ := isMatch_iff.mp (List.find?_some htarget)
  obtain ⟨a, hlinked⟩ := exists_linked hlength (List.mem_of_find?_eq_some htarget)
  refine ⟨_, hlinked, ?_⟩
  obtain ⟨udpFallback, hlink⟩ := linkTo_eq rows a target
  rw [hlink, linkTo, htarget]
  exact ⟨rfl, hhost.symm, hport.symm, hpassword.symm, hmethod.symm⟩

/-- The import of an exportable list. -/
theorem Accepted.roundTrips_of_exportable (h : Accepted base64Size profiles)
    (hexportable : Exportable hash plugins profiles) :
    RoundTrips plugins profiles
      (importRows hash (.array (profiles.map (object hash plugins profiles)))) := by
  have hcomplete : ∀ p ∈ profiles, Complete p := hexportable.complete
  have hreadable : ∀ p ∈ profiles, OptionsReadable (p.options plugins) :=
    fun p hp hid => (hexportable.plugin p hp hid).1
  obtain ⟨rows, hrows, -, himport⟩ := h.importRows_eq hash plugins fun p hp _ => hreadable p hp
  have hmatch := fun (p f : Profile) => h.exists_match hash plugins (p := p) (f := f)
  rw [filterMap_found_of_complete hash plugins hcomplete] at himport hrows hmatch
  -- everyone takes the fallback it asked for
  rw [assign_collect] at himport
  · rw [List.map_map] at himport hrows hmatch
    have hlength : rows.length = (profiles.map (Prod.snd ∘ fun p =>
        (exported hash plugins p, readFallback (lookupIn profiles) p))).length := by
      rw [← hrows.length_eq, List.length_map, List.length_map]
    rw [himport]
    refine ⟨?_, ?_⟩
    · rw [List.length_zipWith, hlength, Nat.min_self, List.length_map]
    · intro i p row hp hrow
      have hmem : p ∈ profiles := List.mem_of_getElem? hp
      obtain ⟨c, hc⟩ := h.plugin p hmem
      obtain ⟨p', row₀, a, hp', hrow₀, ha, hrowOf, rfl⟩ := getElem?_linked hrows hrow
      rw [List.getElem?_map, hp, Option.map_some] at hp' ha
      obtain rfl := Option.some_inj.mp hp'
      obtain rfl := Option.some_inj.mp ha
      refine ⟨(agrees_iff hash plugins hc (isImportOf_linkTo hrowOf rows _)
        (hreadable p hmem)).mpr fun hid => (hexportable.plugin p hmem hid).2, ?_⟩
      intro q hq hid hplugin
      have hread := readFallback_eq_some
        ((exportedFallback_eq_some_iff h.nodup).mpr ⟨hq, hid, hplugin⟩) (hcomplete q hq)
      obtain ⟨q', hq', hmatch'⟩ := hmatch (exported hash plugins p) (fallbackProfile q) (by
        rw [← hread]
        exact List.mem_map_of_mem hmem)
      obtain ⟨row', hrow', hrowOf'⟩ := exists_of_mem_left hrows hq'
      show ∃ target ∈ _, (linkTo rows (readFallback (lookupIn profiles) p) row₀).udpFallback = _ ∧ _
      rw [hread]
      exact exists_target hlength
        ⟨row', hrow', (isMatch_of_isRowOf hrowOf').trans hmatch'⟩ row₀
  · rw [List.pairwise_map]
    refine hexportable.distinct.imp ?_
    intro p q hdistinct hfallback
    refine hdistinct fun hnone => hfallback ?_
    show readFallback (lookupIn profiles) q = none
    rw [readFallback, hnone]
    rfl

/-- When as many things are found as there are profiles, each profile is found at its place. -/
theorem getElem?_filterMap {α β : Type} {f : α → Option β} {as : List α}
    (h : (as.filterMap f).length = as.length) (i : ℕ) :
    (as.filterMap f)[i]? = as[i]?.bind f := by
  rw [List.filterMap_length_eq_length] at h
  induction as generalizing i with
  | nil => rfl
  | cons a as ih =>
    obtain ⟨b, hb⟩ := Option.isSome_iff_exists.mp (h a List.mem_cons_self)
    rw [List.filterMap_cons, hb]
    cases i with
    | zero => simp [hb]
    | succ i => exact ih (fun a ha => h a (List.mem_cons_of_mem _ ha)) i

/-- A document that imports as the list was readable. -/
theorem Accepted.readable_of_roundTrips (h : Accepted base64Size profiles)
    (hlength : (importRows hash
      (.array (profiles.map (object hash plugins profiles)))).length = profiles.length) :
    ∀ p ∈ profiles, Complete p → OptionsReadable (p.options plugins) := by
  intro p hp hcomplete
  by_contra hreadable
  obtain ⟨message, herror⟩ := h.processElements_error hash plugins (fun q hq => hq) hp hcomplete
    hreadable {}
  rw [importRows_of_error hash (by rw [process]; exact herror)] at hlength
  rw [List.length_eq_zero_iff.mp hlength.symm] at hp
  cases hp

/-- Every object of such a document was found to be a profile, and it is complete. -/
theorem Accepted.complete_of_roundTrips (h : Accepted base64Size profiles)
    (htrip : RoundTrips plugins profiles
      (importRows hash (.array (profiles.map (object hash plugins profiles))))) :
    ∀ p ∈ profiles, Complete p := by
  obtain ⟨rows, hrows, -, himport⟩ := h.importRows_eq hash plugins
    (h.readable_of_roundTrips hash plugins htrip.length)
  have hlength : (profiles.filterMap (found hash plugins profiles)).length = profiles.length := by
    have hassigned := length_assign
      ((profiles.filterMap (found hash plugins profiles)).map Prod.fst)
      (collect {} (profiles.filterMap (found hash plugins profiles))).fallbackMap
    have hrows' := hrows.length_eq
    rw [List.length_map] at hassigned hrows'
    have htotal := htrip.length
    rw [himport, List.length_zipWith, hassigned, ← hrows', Nat.min_self] at htotal
    exact htotal
  intro p hp
  obtain ⟨i, hi, rfl⟩ := List.mem_iff_getElem.mp hp
  have hplace := List.getElem?_eq_getElem hi
  obtain ⟨row, hrow⟩ : ∃ row, (importRows hash
      (.array (profiles.map (object hash plugins profiles))))[i]? = some row :=
    ⟨_, List.getElem?_eq_getElem (htrip.length ▸ hi)⟩
  have hagrees := (htrip.agrees i _ row hplace hrow).1
  rw [himport] at hrow
  obtain ⟨p', row₀, a, hp', -, -, hrowOf, rfl⟩ := getElem?_linked hrows hrow
  rw [List.getElem?_map, getElem?_filterMap hlength, hplace, Option.bind_some,
    Option.map_eq_some_iff] at hp'
  obtain ⟨x, hx, rfl⟩ := hp'
  obtain ⟨hpassword, hmethod⟩ := found_complete hash plugins hx
  obtain ⟨id, userOrder, udpFallback, hcolumns⟩ := isImportOf_linkTo hrowOf rows a
  rw [hcolumns] at hagrees
  exact ⟨hagrees.password ▸ hpassword, hagrees.method ▸ hmethod⟩

/-- A list that survives is exportable. -/
theorem Accepted.exportable_of_roundTrips (h : Accepted base64Size profiles)
    (htrip : RoundTrips plugins profiles
      (importRows hash (.array (profiles.map (object hash plugins profiles))))) :
    Exportable hash plugins profiles := by
  have hreadable := h.readable_of_roundTrips hash plugins htrip.length
  have hcomplete := h.complete_of_roundTrips hash plugins htrip
  obtain ⟨rows, hrows, -, himport⟩ := h.importRows_eq hash plugins hreadable
  rw [filterMap_found_of_complete hash plugins hcomplete, List.map_map] at himport hrows
  -- the row of a profile, and the fallback it takes
  have hrow : ∀ i (hi : i < profiles.length), ∃ row₀ a,
      Agrees plugins profiles[i] (linkTo rows a row₀) ∧
      Links profiles (importRows hash (.array (profiles.map (object hash plugins profiles))))
        profiles[i] (linkTo rows a row₀) ∧
      IsRowOf (exported hash plugins profiles[i]) row₀ ∧
      (assign (profiles.map (exported hash plugins)) (collect {} (profiles.map fun p =>
        (exported hash plugins p,
          readFallback (lookupIn profiles) p))).fallbackMap)[i]? = some a := by
    intro i hi
    have hplace := List.getElem?_eq_getElem hi
    obtain ⟨row, hrow⟩ : ∃ row, (importRows hash
        (.array (profiles.map (object hash plugins profiles))))[i]? = some row :=
      ⟨_, List.getElem?_eq_getElem (htrip.length ▸ hi)⟩
    obtain ⟨hagrees, hlinks⟩ := htrip.agrees i _ row hplace hrow
    rw [himport] at hrow
    obtain ⟨p', row₀, a, hp', -, ha, hrowOf, rfl⟩ := getElem?_linked hrows hrow
    rw [List.getElem?_map, hplace, Option.map_some] at hp'
    obtain rfl := Option.some_inj.mp hp'
    exact ⟨row₀, a, hagrees, hlinks, hrowOf, ha⟩
  refine ⟨hcomplete, ?_, ?_⟩
  · intro p hp hid
    obtain ⟨i, hi, rfl⟩ := List.mem_iff_getElem.mp hp
    obtain ⟨c, hc⟩ := h.plugin _ hp
    obtain ⟨row₀, a, hagrees, -, hrowOf, -⟩ := hrow i hi
    have hoptions := hreadable _ hp (hcomplete _ hp)
    exact ⟨hoptions hid, (agrees_iff hash plugins hc (isImportOf_linkTo hrowOf rows a) hoptions).mp
      hagrees hid⟩
  · rw [List.pairwise_iff_getElem]
    intro j i hj hi hlt hfallback hsame
    obtain ⟨row₀, a, -, hlinks, hrowOf, ha⟩ := hrow i hi
    -- the profile before took the entry of both out of the map
    have hbefore : exported hash plugins profiles[i] ∈
        (profiles.map (exported hash plugins)).take i := by
      rw [← hsame, ← List.map_take]
      exact List.mem_map_of_mem (List.mem_take_iff_getElem.mpr ⟨j, by omega, rfl⟩)
    have hplace : (profiles.map (exported hash plugins))[i]? =
        some (exported hash plugins profiles[i]) := by
      rw [List.getElem?_map, List.getElem?_eq_getElem hi]
      rfl
    rw [getElem?_assign _ hplace, if_pos hbefore] at ha
    obtain rfl := Option.some_inj.mp ha
    obtain ⟨q, hq⟩ := Option.ne_none_iff_exists'.mp hfallback
    obtain ⟨hmem, hid, hplugin⟩ := (exportedFallback_eq_some_iff h.nodup).mp hq
    obtain ⟨target, -, hlink, -⟩ := hlinks q hmem hid hplugin
    obtain ⟨id, userOrder, rfl⟩ := hrowOf
    cases hlink

end Rows

/-- **Round trip.** Importing the export of profiles that the service accepts gives them back
exactly if they are exportable. -/
theorem roundTrips_serializeToJson_iff (base64Size : String → Option ℕ) (hash : HashOrder)
    (plugins : Text → Option Text) {profiles : List Profile}
    (h : Accepted base64Size profiles) :
    ∃ json, serializeToJson hash plugins profiles = .ok json ∧
      (RoundTrips plugins profiles (importRows hash json) ↔ Exportable hash plugins profiles) :=
  ⟨_, h.serializeToJson_eq hash plugins, h.exportable_of_roundTrips hash plugins,
    h.roundTrips_of_exportable hash plugins⟩

/-- A profile with its fallback. -/
def samplePair : List Profile :=
  [{ id := 1, name := some "main", host := "192.0.2.1", plugin := some "v2ray-plugin;tls",
     udpFallback := some 2 },
    { id := 2, name := some "fallback", host := "192.0.2.2", proxyApps := true,
      individual := "org.example.a\norg.example.b" }]

theorem roundTrips_samplePair :
    Accepted (fun _ => none) samplePair ∧ ∃ json,
      serializeToJson HashOrder.insertion (fun _ => none) samplePair = .ok json ∧
        RoundTrips (fun _ => none) samplePair (importRows HashOrder.insertion json) := by
  have haccepted : Accepted (fun _ => none) samplePair := by
    refine ⟨by decide, by decide, by decide, by decide, ?_, ?_, by decide⟩
    · intro p hp
      simp only [samplePair, List.mem_cons, List.not_mem_nil, or_false] at hp
      rcases hp with rfl | rfl
      · exact ⟨_, rfl⟩
      · exact ⟨_, rfl⟩
    · intro p hp
      simp only [samplePair, List.mem_cons, List.not_mem_nil, or_false] at hp
      rcases hp with rfl | rfl
      · exact ⟨_, rfl⟩
      · exact ⟨_, rfl⟩
  have hexportable : Exportable HashOrder.insertion (fun _ => none) samplePair := by
    refine ⟨by decide, ?_, by decide⟩
    intro p hp hid
    simp only [samplePair, List.mem_cons, List.not_mem_nil, or_false] at hp
    rcases hp with rfl | rfl
    · refine ⟨?_, by decide⟩
      intro e he
      have hentries : e ∈ [("tls".toList, (none : Option Text))] := he
      obtain rfl := List.mem_singleton.mp hentries
      exact ⟨by decide, by simp⟩
    · exact absurd (by decide) hid
  obtain ⟨json, hjson, hiff⟩ := roundTrips_serializeToJson_iff (fun _ => none) HashOrder.insertion
    (fun _ => none) haccepted
  exact ⟨haccepted, json, hjson, hiff.mpr hexportable⟩

/-- A profile of the method `none`, which needs no password. -/
def passwordless : Profile := { id := 1, method := "none", password := "" }

/-- It is accepted and exported, and nothing is imported. -/
theorem passwordless_lost :
    Accepted (fun _ => none) [passwordless] ∧ ∃ json,
      serializeToJson HashOrder.insertion (fun _ => none) [passwordless] = .ok json ∧
        importRows HashOrder.insertion json = [] ∧
          ¬ RoundTrips (fun _ => none) [passwordless] (importRows HashOrder.insertion json) := by
  have haccepted : Accepted (fun _ => none) [passwordless] := by
    refine ⟨by decide, by decide, by decide, by decide, ?_, ?_, by decide⟩
    · exact List.forall_mem_singleton.mpr ⟨_, rfl⟩
    · exact List.forall_mem_singleton.mpr ⟨_, rfl⟩
  have hempty : importRows HashOrder.insertion (.array ([passwordless].map
      (object HashOrder.insertion (fun _ => none) [passwordless]))) = [] := by decide
  refine ⟨haccepted, _, haccepted.serializeToJson_eq _ _, hempty, ?_⟩
  intro htrip
  have hlength := htrip.length
  rw [hempty] at hlength
  cases hlength

end JsonExport
