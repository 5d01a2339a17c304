import DripVpn.Foundations.ListMap
import DripVpn.Plugin.PluginOptions

/-!
# Plugin configurations

`PluginConfiguration` reads the plugin column of a profile: one line of `PluginOptions` for each
plugin, the first line being the selected one. Lines that start with `kcptun ` are in an old
format, a command line that `Commandline.translateCommandline` takes apart.

A line in the old format may hold control characters, which the new format refuses, and an id may
start with `kcptun ` only if the line escapes one of these characters. These are the two ways in
which the selected options do not survive being printed and read again: see
`ofText_toString_selected` for all others.
-/

open Reactive

/-! ## Command lines -/

namespace Commandline

/-- Where `translateCommandline` is. -/
inductive State where
  | normal
  | inQuote
  | inDoubleQuote
  deriving DecidableEq, Repr

/-- The variables of `translateCommandline`. As in `PluginOptions`, tokens that are runs of
characters are only appended. -/
structure Scan where
  state : State := .normal
  result : List Text := []
  current : Text := []
  lastTokenHasBeenQuoted : Bool := false
  lastTokenIsSlash : Bool := false

/-- Append to the current argument. -/
def Scan.append (s : Scan) (c : Char) : Scan := { s with current := s.current ++ [c] }

/-- A token outside of quotes. -/
def Scan.nextNormal (s : Scan) (c : Char) : Scan :=
  let s := if s.lastTokenIsSlash then { s.append c with lastTokenIsSlash := false }
    else if c = '\\' then { s with lastTokenIsSlash := true }
    else if c = '\'' then { s with state := .inQuote }
    else if c = '"' then { s with state := .inDoubleQuote }
    else if c = ' ' then
      -- quotes with nothing between them are an argument, too
      if s.lastTokenHasBeenQuoted || s.current ≠ [] then
        { s with result := s.result ++ [s.current], current := [] }
      else s
    else s.append c
  { s with lastTokenHasBeenQuoted := false }

/-- A token inside double quotes. -/
def Scan.nextDoubleQuote (s : Scan) (c : Char) : Scan :=
  if c = '"' then
    if s.lastTokenIsSlash then { s.append c with lastTokenIsSlash := false }
    else { s with lastTokenHasBeenQuoted := true, state := .normal }
  else if c = '\\' then
    if s.lastTokenIsSlash then { s.append c with lastTokenIsSlash := false }
    else { s with lastTokenIsSlash := true }
  -- a backslash that escapes nothing stands for itself
  else if s.lastTokenIsSlash then { (s.append '\\').append c with lastTokenIsSlash := false }
  else s.append c

/-- One token. -/
def Scan.next (s : Scan) (c : Char) : Scan :=
  match s.state with
  | .inQuote =>
    if c = '\'' then { s with lastTokenHasBeenQuoted := true, state := .normal } else s.append c
  | .inDoubleQuote => s.nextDoubleQuote c
  | .normal => s.nextNormal c

/-- `translateCommandline`. An error is the message of the `IllegalArgumentException`. -/
def translateCommandline (toProcess : Text) : Except String (List Text) :=
  let s := toProcess.foldl Scan.next {}
  let result := if s.lastTokenHasBeenQuoted || s.current ≠ [] then s.result ++ [s.current]
    else s.result
  if s.state ≠ .normal then .error ("unbalanced quotes in " ++ String.ofList toProcess)
  else if s.lastTokenIsSlash then
    .error ("escape character following nothing in " ++ String.ofList toProcess)
  else .ok result

end Commandline

/-! ## Configurations -/

/-- The class `PluginConfiguration`. -/
structure PluginConfiguration where
  pluginsOptions : LinkedMap Text PluginOptions
  selected : Text

namespace PluginConfiguration

/-- `line.startsWith("kcptun ")`. -/
def isLegacy (line : Text) : Bool := "kcptun ".toList.isPrefixOf line

/-- The loop over the arguments of an old `kcptun` line. An argument that is no option, or an option
without a value, ends it with an exception, and the options so far are kept. -/
def kcptunOptions : List Text → PluginOptions → PluginOptions
  | [], opt => opt
  | option :: rest, opt =>
    if option = "--nocomp".toList then kcptunOptions rest (opt.put "nocomp".toList none)
    else if "--".toList.isPrefixOf option then
      match rest with
      | value :: rest => kcptunOptions rest (opt.put (option.drop 2) (some value))
      | [] => opt
    else opt

/-- The options of one line. -/
def lineOptions (line : Text) : Except String PluginOptions :=
  if isLegacy line then
    let opt : PluginOptions := { id := "kcptun".toList }
    match Commandline.translateCommandline line with
    | .ok args => .ok (kcptunOptions (args.drop 1) opt)
    | .error _ => .ok opt
  else PluginOptions.ofText line

/-- The constructor from the options of all plugins. -/
def ofPlugins (plugins : List PluginOptions) : PluginConfiguration where
  -- `associateBy`: the last options of an id count
  pluginsOptions := (plugins.filter fun o => o.id ≠ []).foldl (fun m o => m.put o.id o)
    LinkedMap.empty
  selected := match plugins with
    | [] => []
    | o :: _ => o.id

/-- `PluginConfiguration(plugin)`. -/
def ofText (plugin : Text) : Except String PluginConfiguration :=
  ((plugin.splitOn '\n').mapM lineOptions).map ofPlugins

/-- `getOptions()`, given the default configuration of the selected plugin. -/
def getOptions (c : PluginConfiguration) (defaultConfig : Option Text) :
    Except String PluginOptions :=
  if c.selected = [] then .ok {}
  else match c.pluginsOptions.get? c.selected with
    | some options => .ok options
    | none => PluginOptions.ofIdText c.selected defaultConfig

/-! ## What is read -/

open PluginOptions

/-- What every line of an accepted column gives. -/
structure Readable (o : PluginOptions) : Prop where
  named : o.Named
  id_noControl : NoControl o.id

/-- The invariant of the loop that reads a text without control characters. -/
structure Scanning (s : Scan) : Prop where
  result : Readable s.result
  current : NoControl s.current

theorem named_put {o : PluginOptions} (h : o.Named) {key : Text} {value : Option Text}
    (hentry : EntryNamed (key, value)) : (o.put key value).Named := by
  intro e he
  rcases (LinkedMap.mem_put_iff _ _ _ _).mp he with rfl | ⟨-, he⟩
  · exact hentry
  · exact h e he

theorem Scanning.finishPart {s : Scan} (h : Scanning s) : Scanning s.finishPart := by
  refine ⟨?_, noControl_nil⟩
  unfold Scan.finishPart
  cases s.key with
  | some key => exact ⟨named_put h.result.named (Or.inr (by simp)), h.result.id_noControl⟩
  | none =>
    by_cases hcurrent : s.current = []
    · simp only [hcurrent, if_true]
      exact h.result
    · simp only [hcurrent, if_false]
      split
      · exact ⟨h.result.named, h.current⟩
      · exact ⟨named_put h.result.named (Or.inl hcurrent), h.result.id_noControl⟩

theorem Scanning.next {s : Scan} (h : Scanning s) {c : Char}
    (hc : Kotlin.isISOControl c = false) : Scanning (s.next c) := by
  have happend : NoControl (s.current ++ [c]) := by simp [h.current, hc]
  unfold Scan.next
  split
  · exact ⟨h.result, happend⟩
  · split
    · exact ⟨h.result, h.current⟩
    · split
      · split
        · exact ⟨h.result, noControl_nil⟩
        · exact ⟨h.result, happend⟩
      · split
        · exact h.finishPart
        · exact ⟨h.result, happend⟩

theorem Scanning.foldl {s : Scan} (h : Scanning s) {t : Text} (ht : NoControl t) :
    Scanning (t.foldl Scan.next s) := by
  induction t generalizing s with
  | nil => exact h
  | cons c t ih =>
    obtain ⟨hc, ht⟩ := noControl_cons.mp ht
    exact ih (h.next hc) ht

/-- Options without entries and id. -/
theorem readable_empty : Readable {} :=
  ⟨fun e he => (by cases he), noControl_nil⟩

/-- Options in the present format. -/
theorem readable_ofText {line : Text} {o : PluginOptions} (h : PluginOptions.ofText line = .ok o) :
    Readable o := by
  unfold PluginOptions.ofText at h
  by_cases hempty : line = []
  · rw [PluginOptions.ofOptions, if_pos hempty] at h
    cases h
    exact readable_empty
  · by_cases hcontrol : NoControl (line ++ [';'])
    · rw [ofOptions_of_noControl true hempty hcontrol] at h
      cases h
      exact (Scanning.foldl ⟨readable_empty, noControl_nil⟩ hcontrol).result
    · rw [ofOptions_of_control true hcontrol] at h
      cases h

/-- The loop over the arguments keeps the id and adds named entries. -/
theorem kcptunOptions_spec {args : List Text} {opt : PluginOptions} (h : opt.Named) :
    (kcptunOptions args opt).id = opt.id ∧ (kcptunOptions args opt).Named := by
  fun_induction kcptunOptions args opt with
  | case1 opt => exact ⟨rfl, h⟩
  | case2 opt rest ih => exact ih (named_put h (Or.inl (by decide)))
  | case3 opt option hne hpre value rest ih => exact ih (named_put h (Or.inr (by simp)))
  | case4 opt option hne hpre => exact ⟨rfl, h⟩
  | case5 opt option rest hne hpre => exact ⟨rfl, h⟩

/-- The options of a line in the old format. -/
theorem lineOptions_of_isLegacy {line : Text} (h : isLegacy line = true) :
    ∃ o, lineOptions line = .ok o ∧ o.id = "kcptun".toList ∧ o.Named := by
  have hnamed : PluginOptions.Named { id := "kcptun".toList } := fun e he => by cases he
  rw [lineOptions, if_pos h]
  cases Commandline.translateCommandline line with
  | ok args => exact ⟨_, rfl, kcptunOptions_spec hnamed⟩
  | error message => exact ⟨_, rfl, rfl, hnamed⟩

/-- Every accepted line is readable. -/
theorem readable_lineOptions {line : Text} {o : PluginOptions} (h : lineOptions line = .ok o) :
    Readable o := by
  by_cases hlegacy : isLegacy line = true
  · obtain ⟨o', ho', hid, hnamed⟩ := lineOptions_of_isLegacy hlegacy
    obtain rfl := Except.ok.inj (ho'.symm.trans h)
    refine ⟨hnamed, ?_⟩
    rw [hid]
    decide
  · rw [lineOptions, if_neg hlegacy] at h
    exact readable_ofText h

/-- The lines of an accepted column. -/
theorem forall_readable_of_mapM {lines : List Text} {plugins : List PluginOptions}
    (h : lines.mapM lineOptions = .ok plugins) : ∀ o ∈ plugins, Readable o := by
  intro o ho
  obtain ⟨line, -, hline⟩ := exists_of_mem_right (mapM_eq_ok_iff.mp h) ho
  exact readable_lineOptions hline

/-- `associateBy` keeps the last options of an id. -/
theorem get?_associateBy_eq (plugins : List PluginOptions) (m : LinkedMap Text PluginOptions)
    (id : Text) :
    (plugins.foldl (fun m o => m.put o.id o) m).get? id =
      (plugins.reverse.find? fun o => decide (o.id = id)).or (m.get? id) := by
  induction plugins generalizing m with
  | nil => simp
  | cons p plugins ih =>
    rw [List.foldl_cons, ih, LinkedMap.get?_put, List.reverse_cons, List.find?_append,
      Option.or_assoc]
    by_cases hp : id = p.id
    · simp [hp]
    · simp [hp, Ne.symm hp]

/-- What `associateBy` finds under an id are the options of a plugin with that id. -/
theorem get?_associateBy {plugins : List PluginOptions} {m : LinkedMap Text PluginOptions}
    {id : Text} {o : PluginOptions}
    (h : (plugins.foldl (fun m o => m.put o.id o) m).get? id = some o) :
    (o ∈ plugins ∧ o.id = id) ∨ m.get? id = some o := by
  rw [get?_associateBy_eq] at h
  cases hfind : plugins.reverse.find? fun o => decide (o.id = id) with
  | none =>
    rw [hfind] at h
    exact Or.inr h
  | some found =>
    rw [hfind] at h
    obtain rfl := Option.some.inj h
    exact Or.inl ⟨List.mem_reverse.mp (List.mem_of_find?_eq_some hfind),
      by simpa using List.find?_some hfind⟩

/-- An id among the plugins finds options. -/
theorem get?_associateBy_ne_none {plugins : List PluginOptions}
    {m : LinkedMap Text PluginOptions} {id : Text}
    (h : (∃ o ∈ plugins, o.id = id) ∨ m.get? id ≠ none) :
    (plugins.foldl (fun m o => m.put o.id o) m).get? id ≠ none := by
  rw [get?_associateBy_eq]
  intro hnone
  obtain ⟨hfind, hget⟩ := Option.or_eq_none_iff.mp hnone
  rcases h with ⟨o, ho, hid⟩ | h
  · exact List.find?_eq_none.mp hfind o (List.mem_reverse.mpr ho) (by simpa using hid)
  · exact h hget

/-- The selected options of an accepted column; the default configuration is never asked for. -/
theorem getOptions_of_ofText {plugin : Text} {c : PluginConfiguration} (h : ofText plugin = .ok c)
    (hselected : c.selected ≠ []) (defaultConfig : Option Text) :
    ∃ o, c.getOptions defaultConfig = .ok o ∧ o.id = c.selected ∧ Readable o := by
  unfold ofText at h
  cases hplugins : (plugin.splitOn '\n').mapM lineOptions with
  | error message =>
    rw [hplugins] at h
    cases h
  | ok plugins =>
    rw [hplugins] at h
    cases h
    -- the first line has the selected id
    have hmem : ∃ o ∈ plugins.filter fun o => o.id ≠ [], o.id = (ofPlugins plugins).selected := by
      cases plugins with
      | nil => exact absurd rfl hselected
      | cons o plugins =>
        have hid : o.id ≠ [] := hselected
        exact ⟨o, List.mem_filter.mpr ⟨List.mem_cons_self, by simpa using hid⟩, rfl⟩
    obtain ⟨o, ho⟩ := Option.ne_none_iff_exists'.mp
      (get?_associateBy_ne_none (m := LinkedMap.empty) (Or.inl hmem))
    have hget : (ofPlugins plugins).pluginsOptions.get? (ofPlugins plugins).selected = some o := ho
    refine ⟨o, ?_, ?_⟩
    · rw [getOptions, if_neg hselected, hget]
    · rcases get?_associateBy ho with ⟨hplugin, hid⟩ | hnone
      · have hmem' := (List.mem_filter.mp hplugin).1
        exact ⟨hid, forall_readable_of_mapM hplugins o hmem'⟩
      · cases hnone

/-- The text of options starts with a text without special characters exactly if the id does. -/
theorem isPrefixOf_escape {p t rest : Text} (hp : ∀ c ∈ p, isSpecial c = false)
    (hrest : ∀ c ∈ rest.head?, isSpecial c = true) :
    p <+: escape t ++ rest ↔ p <+: t := by
  induction p generalizing t with
  | nil => simp
  | cons d p ih =>
    have hd := hp d List.mem_cons_self
    have hp' := fun c hc => hp c (List.mem_cons_of_mem d hc)
    cases t with
    | nil =>
      -- what follows the id starts with a special character
      cases rest with
      | nil => simp
      | cons r rest =>
        have hr : isSpecial r = true := hrest r rfl
        have hne : d ≠ r := by
          rintro rfl
          rw [hd] at hr
          cases hr
        simp [hne]
    | cons c t =>
      rw [escape_cons]
      by_cases hc : isSpecial c = true
      · have hdc : d ≠ c := by
          rintro rfl
          rw [hd] at hc
          cases hc
        have hdb : d ≠ '\\' := by
          rintro rfl
          exact absurd hd (by decide)
        simp [hc, hdc, hdb]
      · simp [hc, ih hp']

/-- The text of options, after the id. -/
theorem toString_eq (hash : HashOrder) {o : PluginOptions} (hid : o.id ≠ []) :
    ∃ rest, o.toString hash false = escape o.id ++ rest ∧ ∀ c ∈ rest.head?, isSpecial c = true := by
  have hescape : escape o.id ≠ [] := fun h => hid (escape_eq_nil_iff.mp h)
  refine ⟨(hash.order o.options.entries).flatMap fun e => ';' :: entryText e, ?_, ?_⟩
  · rw [PluginOptions.toString, if_neg (by decide), if_neg hid, appendEntries_eq hescape]
  · intro c hc
    cases hentries : hash.order o.options.entries with
    | nil => rw [hentries] at hc; cases hc
    | cons e es =>
      rw [hentries] at hc
      cases hc
      rfl

/-- A line that was printed is in the old format exactly if its id looks like that. -/
theorem isLegacy_toString (hash : HashOrder) {o : PluginOptions} (hid : o.id ≠ []) :
    isLegacy (o.toString hash false) = isLegacy o.id := by
  obtain ⟨rest, htext, hrest⟩ := toString_eq hash hid
  have hspecial : ∀ c ∈ "kcptun ".toList, isSpecial c = false := by
    have hall : ("kcptun ".toList.all fun c => !isSpecial c) = true := by decide
    intro c hc
    simpa using List.all_eq_true.mp hall c hc
  rw [Bool.eq_iff_iff, isLegacy, isLegacy, List.isPrefixOf_iff_prefix, List.isPrefixOf_iff_prefix,
    htext]
  exact isPrefixOf_escape hspecial hrest

/-- Options without control characters are printed as one line. -/
theorem newline_not_mem_toString (hash : HashOrder) {o : PluginOptions} (hid : o.id ≠ [])
    (ho : Readable o) (hcontrol : EntriesNoControl o.options.entries) :
    '\n' ∉ o.toString hash false := by
  have hescape : escape o.id ≠ [] := fun h => hid (escape_eq_nil_iff.mp h)
  have htext : NoControl (o.toString hash false ++ [';']) := by
    rw [PluginOptions.toString, if_neg (by decide), if_neg hid, appendEntries_of_ne_nil hescape,
      noControl_append, noControl_cons, noControl_escape_iff, noControl_entriesText_iff]
    exact ⟨ho.id_noControl, by decide, hcontrol.of_perm (hash.perm _)⟩
  intro hmem
  have hnewline := (noControl_append.mp htext).1 '\n' hmem
  exact absurd hnewline (by decide)

/-- What is read of one printed line. -/
theorem ofText_of_line {line : Text} {o : PluginOptions} (hline : '\n' ∉ line)
    (h : lineOptions line = .ok o) (hid : o.id ≠ []) (defaultConfig : Option Text) :
    ∃ c, ofText line = .ok c ∧ c.selected = o.id ∧ c.getOptions defaultConfig = .ok o := by
  refine ⟨ofPlugins [o], ?_, rfl, ?_⟩
  · rw [ofText, List.splitOn_eq_singleton hline, List.mapM_cons, h]
    rfl
  · have hfilter : [o].filter (fun o => o.id ≠ []) = [o] := by simp [hid]
    have hget : (ofPlugins [o]).pluginsOptions.get? o.id = some o := by
      rw [ofPlugins, hfilter, List.foldl_cons, List.foldl_nil, LinkedMap.get?_put, if_pos rfl]
    rw [getOptions, show (ofPlugins [o]).selected = o.id from rfl, if_neg hid, hget]

/-- Printed options without control characters, whose id does not look like the old format, are
read again. -/
theorem ofText_toString_selected (hash : HashOrder) {o : PluginOptions} (hid : o.id ≠ [])
    (ho : Readable o) (hcontrol : EntriesNoControl o.options.entries)
    (hlegacy : isLegacy o.id = false) (defaultConfig : Option Text) :
    ∃ c o', ofText (o.toString hash false) = .ok c ∧ c.selected = o.id ∧
      c.getOptions defaultConfig = .ok o' ∧
        o'.options.entries = hash.order o.options.entries := by
  obtain ⟨o', ho', hid', hentries⟩ := ofText_toString hash hid ho.id_noControl ho.named hcontrol
  have hline : lineOptions (o.toString hash false) = .ok o' := by
    rw [lineOptions, isLegacy_toString hash hid, hlegacy]
    exact ho'
  obtain ⟨c, hc, hselected, hoptions⟩ := ofText_of_line
    (newline_not_mem_toString hash hid ho hcontrol) hline (by rw [hid']; exact hid) defaultConfig
  exact ⟨c, o', hc, hselected.trans hid', hoptions, hentries⟩

/-- Printed options whose id looks like the old format are read as another plugin. -/
theorem ofText_toString_legacy (hash : HashOrder) {o : PluginOptions} (hid : o.id ≠ [])
    (ho : Readable o) (hcontrol : EntriesNoControl o.options.entries)
    (hlegacy : isLegacy o.id = true) {c : PluginConfiguration}
    (hc : ofText (o.toString hash false) = .ok c) : c.selected ≠ o.id := by
  obtain ⟨o', ho', hid', -⟩ := lineOptions_of_isLegacy
    ((isLegacy_toString hash hid).trans hlegacy)
  obtain ⟨c', hc', hselected, -⟩ := ofText_of_line (newline_not_mem_toString hash hid ho hcontrol)
    ho' (by rw [hid']; decide) none
  obtain rfl := Except.ok.inj (hc'.symm.trans hc)
  rw [hselected, hid']
  intro heq
  rw [← heq] at hlegacy
  exact absurd hlegacy (by decide)

end PluginConfiguration
