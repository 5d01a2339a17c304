import DripVpn.Plugin.PluginConfiguration

/-!
# The normal form of plugin configurations

`PluginConfiguration.toString` prints the options of every plugin on a line of its own, the
selected one first. `stable_iff` says when the printed text is read as the same configuration:
the options that count for an id, those of its last line, must not hold a control character (a line
in the old format may), and no such id may start with `kcptun `, which an escape in the line can
hide from the first reading but not from the second.
-/

open Reactive

namespace PluginConfiguration

open PluginOptions

/-- The loop of `toString` over the entries: `addFirst` for the selected plugin, else `addLast`. -/
def arrange (selected : Text) (entries : List (Text × PluginOptions)) : List PluginOptions :=
  entries.foldl (fun result e => if e.1 = selected then e.2 :: result else result ++ [e.2]) []

/-- The options that `toString` prints. -/
def toPrint (c : PluginConfiguration) (defaultConfig : Option Text) :
    Except String (List PluginOptions) :=
  if c.pluginsOptions.containsKey c.selected then .ok (arrange c.selected c.pluginsOptions.entries)
  else (c.getOptions defaultConfig).map fun o => o :: arrange c.selected c.pluginsOptions.entries

/-- `toString`. -/
def toString (hash : HashOrder) (c : PluginConfiguration) (defaultConfig : Option Text) :
    Except String Text :=
  (c.toPrint defaultConfig).map fun result =>
    ['\n'].intercalate (result.map fun o => o.toString hash false)

/-- The same selected id, the same ids, and equal options under each id. -/
structure Same (c c' : PluginConfiguration) : Prop where
  selected : c.selected = c'.selected
  options : ∀ id, Option.Rel Equals (c.pluginsOptions.get? id) (c'.pluginsOptions.get? id)

/-- Options that are printed as a line which is read in the present format and accepted. -/
def Printable (o : PluginOptions) : Prop :=
  EntriesNoControl o.options.entries ∧ isLegacy o.id = false

/-- Of every id in the text, the last line gives printable options. -/
def Stable (plugin : Text) : Prop :=
  ∀ pre line post o, plugin.splitOn '\n' = pre ++ line :: post → lineOptions line = .ok o →
    o.id ≠ [] → (∀ line' ∈ post, ∀ o', lineOptions line' = .ok o' → o'.id ≠ o.id) → Printable o

/-! ## Characters of options -/

/-- All characters of the id, the keys and the values satisfy `P`. -/
structure Within (P : Char → Prop) (o : PluginOptions) : Prop where
  id : ∀ c ∈ o.id, P c
  key : ∀ e ∈ o.options.entries, ∀ c ∈ e.1, P c
  value : ∀ e ∈ o.options.entries, ∀ v, e.2 = some v → ∀ c ∈ v, P c

variable {P : Char → Prop}

theorem within_put {o : PluginOptions} (h : Within P o) {key : Text} {value : Option Text}
    (hkey : ∀ c ∈ key, P c) (hvalue : ∀ v, value = some v → ∀ c ∈ v, P c) :
    Within P (o.put key value) := by
  refine ⟨h.id, ?_, ?_⟩
  · intro e he
    rcases (LinkedMap.mem_put_iff _ _ _ _).mp he with rfl | ⟨-, he⟩
    · exact hkey
    · exact h.key e he
  · intro e he
    rcases (LinkedMap.mem_put_iff _ _ _ _).mp he with rfl | ⟨-, he⟩
    · exact hvalue
    · exact h.value e he

/-- The loop that reads options, with all characters seen so far satisfying `P`. -/
structure ScanWithin (P : Char → Prop) (s : Scan) : Prop where
  result : Within P s.result
  current : ∀ c ∈ s.current, P c
  key : ∀ k, s.key = some k → ∀ c ∈ k, P c

theorem ScanWithin.finishPart {s : Scan} (h : ScanWithin P s) : ScanWithin P s.finishPart := by
  refine ⟨?_, fun c hc => (by cases hc), fun k hk => by cases hk⟩
  unfold Scan.finishPart
  cases hkey : s.key with
  | some key =>
    exact within_put h.result (h.key key hkey) fun v hv => Option.some.inj hv ▸ h.current
  | none =>
    by_cases hcurrent : s.current = []
    · simp only [hcurrent, if_true]
      exact h.result
    · simp only [hcurrent, if_false]
      split
      · exact ⟨h.current, h.result.key, h.result.value⟩
      · exact within_put h.result h.current fun v hv => by cases hv

theorem ScanWithin.next {s : Scan} (h : ScanWithin P s) {c : Char} (hc : P c) :
    ScanWithin P (s.next c) := by
  have happend : ∀ d ∈ s.current ++ [c], P d := by
    intro d hd
    rcases List.mem_append.mp hd with hd | hd
    · exact h.current d hd
    · exact List.mem_singleton.mp hd ▸ hc
  unfold Scan.next
  split
  · exact ⟨h.result, happend, h.key⟩
  · split
    · exact ⟨h.result, h.current, h.key⟩
    · split
      · split
        · exact ⟨h.result, fun d hd => (by cases hd), fun k hk => Option.some.inj hk ▸ h.current⟩
        · exact ⟨h.result, happend, h.key⟩
      · split
        · exact h.finishPart
        · exact ⟨h.result, happend, h.key⟩

theorem ScanWithin.foldl {s : Scan} (h : ScanWithin P s) {t : Text} (ht : ∀ c ∈ t, P c) :
    ScanWithin P (t.foldl Scan.next s) := by
  induction t generalizing s with
  | nil => exact h
  | cons c t ih =>
    exact ih (h.next (ht c List.mem_cons_self)) fun d hd => ht d (List.mem_cons_of_mem _ hd)

theorem within_empty : Within P {} :=
  ⟨fun c hc => (by cases hc), fun e he => (by cases he), fun e he => by cases he⟩

/-- Options in the present format hold characters of their text, and maybe the `;` at its end. -/
theorem within_ofText {line : Text} {o : PluginOptions} (h : PluginOptions.ofText line = .ok o)
    (hsemicolon : P ';') (hline : ∀ c ∈ line, P c) : Within P o := by
  unfold PluginOptions.ofText at h
  by_cases hempty : line = []
  · rw [PluginOptions.ofOptions, if_pos hempty] at h
    cases h
    exact within_empty
  · by_cases hcontrol : NoControl (line ++ [';'])
    · rw [ofOptions_of_noControl true hempty hcontrol] at h
      cases h
      refine (ScanWithin.foldl ⟨within_empty, fun c hc => (by cases hc), fun k hk => by cases hk⟩
        ?_).result
      intro c hc
      rcases List.mem_append.mp hc with hc | hc
      · exact hline c hc
      · exact List.mem_singleton.mp hc ▸ hsemicolon
    · rw [ofOptions_of_control true hcontrol] at h
      cases h

/-- Options in the present format have no control characters. -/
theorem entriesNoControl_ofText {line : Text} {o : PluginOptions}
    (h : PluginOptions.ofText line = .ok o) : EntriesNoControl o.options.entries := by
  have hline : NoControl line := by
    by_contra hcontrol
    have hne : ¬ NoControl (line ++ [';']) := fun hall => hcontrol (noControl_append.mp hall).1
    rw [PluginOptions.ofText, ofOptions_of_control true hne] at h
    cases h
  have hwithin : Within (fun c => Kotlin.isISOControl c = false) o :=
    within_ofText h (by decide) hline
  exact fun e he => ⟨hwithin.key e he, hwithin.value e he⟩

/-- The loop over a command line, with all characters seen so far satisfying `P`. -/
structure ArgsWithin (P : Char → Prop) (s : Commandline.Scan) : Prop where
  result : ∀ arg ∈ s.result, ∀ c ∈ arg, P c
  current : ∀ c ∈ s.current, P c

theorem ArgsWithin.append {s : Commandline.Scan} (h : ArgsWithin P s) {c : Char} (hc : P c) :
    ArgsWithin P (s.append c) := by
  refine ⟨h.result, ?_⟩
  intro d hd
  rcases List.mem_append.mp hd with hd | hd
  · exact h.current d hd
  · exact List.mem_singleton.mp hd ▸ hc

theorem ArgsWithin.of_eq {s s' : Commandline.Scan} (h : ArgsWithin P s)
    (hresult : s'.result = s.result) (hcurrent : s'.current = s.current) : ArgsWithin P s' :=
  ⟨hresult ▸ h.result, hcurrent ▸ h.current⟩

theorem ArgsWithin.nextNormal {s : Commandline.Scan} (h : ArgsWithin P s) {c : Char} (hc : P c) :
    ArgsWithin P (s.nextNormal c) := by
  unfold Commandline.Scan.nextNormal
  split
  · exact (h.append hc).of_eq rfl rfl
  · split
    · exact h.of_eq rfl rfl
    · split
      · exact h.of_eq rfl rfl
      · split
        · exact h.of_eq rfl rfl
        · split
          · split
            · refine ⟨?_, fun d hd => by cases hd⟩
              intro arg harg
              rcases List.mem_append.mp harg with harg | harg
              · exact h.result arg harg
              · exact List.mem_singleton.mp harg ▸ h.current
            · exact h.of_eq rfl rfl
          · exact (h.append hc).of_eq rfl rfl

theorem ArgsWithin.nextDoubleQuote {s : Commandline.Scan} (h : ArgsWithin P s)
    (hslash : P '\\') {c : Char} (hc : P c) : ArgsWithin P (s.nextDoubleQuote c) := by
  unfold Commandline.Scan.nextDoubleQuote
  split
  · split
    · exact (h.append hc).of_eq rfl rfl
    · exact h.of_eq rfl rfl
  · split
    · split
      · exact (h.append hc).of_eq rfl rfl
      · exact h.of_eq rfl rfl
    · split
      · exact ((h.append hslash).append hc).of_eq rfl rfl
      · exact h.append hc

theorem ArgsWithin.next {s : Commandline.Scan} (h : ArgsWithin P s) (hslash : P '\\') {c : Char}
    (hc : P c) : ArgsWithin P (s.next c) := by
  unfold Commandline.Scan.next
  split
  · split
    · exact h.of_eq rfl rfl
    · exact h.append hc
  · exact h.nextDoubleQuote hslash hc
  · exact h.nextNormal hc

theorem ArgsWithin.foldl {s : Commandline.Scan} (h : ArgsWithin P s) (hslash : P '\\') {t : Text}
    (ht : ∀ c ∈ t, P c) : ArgsWithin P (t.foldl Commandline.Scan.next s) := by
  induction t generalizing s with
  | nil => exact h
  | cons c t ih =>
    exact ih (h.next hslash (ht c List.mem_cons_self)) fun d hd => ht d (List.mem_cons_of_mem _ hd)

/-- The arguments of a command line hold its characters, and maybe a backslash. -/
theorem within_translateCommandline {line : Text} {args : List Text}
    (h : Commandline.translateCommandline line = .ok args) (hslash : P '\\')
    (hline : ∀ c ∈ line, P c) : ∀ arg ∈ args, ∀ c ∈ arg, P c := by
  have hscan : ArgsWithin P (line.foldl Commandline.Scan.next {}) :=
    ArgsWithin.foldl ⟨fun arg harg => (by cases harg), fun c hc => by cases hc⟩ hslash hline
  unfold Commandline.translateCommandline at h
  simp only at h
  split at h
  · cases h
  · split at h
    · cases h
    · obtain rfl := Except.ok.inj h
      intro arg harg
      split at harg
      · rcases List.mem_append.mp harg with harg | harg
        · exact hscan.result arg harg
        · exact List.mem_singleton.mp harg ▸ hscan.current
      · exact hscan.result arg harg

theorem within_kcptunOptions {args : List Text} {opt : PluginOptions} (h : Within P opt)
    (hnocomp : ∀ c ∈ "nocomp".toList, P c) (hargs : ∀ arg ∈ args, ∀ c ∈ arg, P c) :
    Within P (kcptunOptions args opt) := by
  fun_induction kcptunOptions args opt with
  | case1 opt => exact h
  | case2 opt rest ih =>
    exact ih (within_put h hnocomp fun v hv => by cases hv)
      fun arg harg => hargs arg (List.mem_cons_of_mem _ harg)
  | case3 opt option hne hpre value rest ih =>
    refine ih (within_put h ?_ ?_) fun arg harg =>
      hargs arg (List.mem_cons_of_mem _ (List.mem_cons_of_mem _ harg))
    · exact fun c hc => hargs _ List.mem_cons_self c (List.mem_of_mem_drop hc)
    · intro v hv
      obtain rfl := Option.some.inj hv
      exact hargs _ (List.mem_cons_of_mem _ List.mem_cons_self)
  | case4 opt option hne hpre => exact h
  | case5 opt option rest hne hpre => exact h

/-- The options of a line hold no line end. -/
theorem within_lineOptions {line : Text} {o : PluginOptions} (h : lineOptions line = .ok o)
    (hline : '\n' ∉ line) : Within (· ≠ '\n') o := by
  have hchars : ∀ c ∈ line, c ≠ '\n' := fun c hc heq => hline (heq ▸ hc)
  by_cases hlegacy : isLegacy line = true
  · have hstart : Within (· ≠ '\n') { id := "kcptun".toList } :=
      ⟨by simp, fun e he => (by cases he), fun e he => by cases he⟩
    rw [lineOptions, if_pos hlegacy] at h
    cases hargs : Commandline.translateCommandline line with
    | error message =>
      rw [hargs] at h
      exact Except.ok.inj h ▸ hstart
    | ok args =>
      rw [hargs] at h
      obtain rfl := Except.ok.inj h
      have hwithin := within_translateCommandline hargs (by decide) hchars
      exact within_kcptunOptions hstart (by simp)
        fun arg harg => hwithin arg (List.mem_of_mem_drop harg)
  · rw [lineOptions, if_neg hlegacy] at h
    exact within_ofText h (by decide) hchars

/-! ## The configuration that is read -/

/-- What the options of an id are, whatever the text. -/
structure Entry (id : Text) (o : PluginOptions) : Prop where
  id_eq : o.id = id
  id_ne : id ≠ []
  readable : Readable o
  line : Within (· ≠ '\n') o
  /-- Control characters come from lines in the old format only. -/
  control : EntriesNoControl o.options.entries ∨ isLegacy id = false

theorem entry_lineOptions {line : Text} {o : PluginOptions} (h : lineOptions line = .ok o)
    (hline : '\n' ∉ line) (hid : o.id ≠ []) : Entry o.id o := by
  refine ⟨rfl, hid, readable_lineOptions h, within_lineOptions h hline, ?_⟩
  by_cases hlegacy : isLegacy line = true
  · right
    obtain ⟨o', ho', hid', -⟩ := lineOptions_of_isLegacy hlegacy
    obtain rfl := Except.ok.inj (ho'.symm.trans h)
    rw [hid']
    decide
  · left
    rw [lineOptions, if_neg hlegacy] at h
    exact entriesNoControl_ofText h

/-- The lines of a text that is accepted, with their options. -/
theorem ofText_eq_ok {plugin : Text} {c : PluginConfiguration} (h : ofText plugin = .ok c) :
    ∃ plugins, (plugin.splitOn '\n').mapM lineOptions = .ok plugins ∧ c = ofPlugins plugins := by
  unfold ofText at h
  cases hplugins : (plugin.splitOn '\n').mapM lineOptions with
  | error message =>
    rw [hplugins] at h
    cases h
  | ok plugins =>
    rw [hplugins] at h
    exact ⟨plugins, rfl, (Except.ok.inj h).symm⟩

theorem pluginsOptions_ofPlugins (plugins : List PluginOptions) :
    (ofPlugins plugins).pluginsOptions =
      (plugins.filter fun o => o.id ≠ []).foldl (fun m o => m.put o.id o) LinkedMap.empty := rfl

theorem get?_ofPlugins (plugins : List PluginOptions) {id : Text} (hid : id ≠ []) :
    (ofPlugins plugins).pluginsOptions.get? id =
      plugins.reverse.find? fun o => decide (o.id = id) := by
  rw [pluginsOptions_ofPlugins, get?_associateBy_eq, LinkedMap.get?_empty, Option.or_none,
    ← List.filter_reverse, List.find?_filter]
  congr 1
  funext o
  by_cases ho : o.id = id
  · simp [ho, hid]
  · simp [ho]

theorem get?_ofPlugins_nil (plugins : List PluginOptions) :
    (ofPlugins plugins).pluginsOptions.get? [] = none := by
  rw [pluginsOptions_ofPlugins, get?_associateBy_eq, LinkedMap.get?_empty, Option.or_none,
    List.find?_eq_none]
  intro o ho
  have hne := (List.mem_filter.mp (List.mem_reverse.mp ho)).2
  simpa using hne

/-- The options of an id are those of a line. -/
theorem entry_ofText {plugin : Text} {c : PluginConfiguration} (h : ofText plugin = .ok c)
    {e : Text × PluginOptions} (he : e ∈ c.pluginsOptions.entries) : Entry e.1 e.2 := by
  obtain ⟨plugins, hplugins, rfl⟩ := ofText_eq_ok h
  have hget := LinkedMap.get?_eq_some_iff.mpr he
  have hne : e.1 ≠ [] := by
    intro hnil
    rw [hnil, get?_ofPlugins_nil] at hget
    cases hget
  rw [get?_ofPlugins plugins hne] at hget
  have hid : e.2.id = e.1 := by simpa using List.find?_some hget
  have hmem := List.mem_reverse.mp (List.mem_of_find?_eq_some hget)
  obtain ⟨line, hline, ho⟩ := exists_of_mem_right (mapM_eq_ok_iff.mp hplugins) hmem
  have hentry := entry_lineOptions ho (Text.not_mem_of_mem_splitOn hline) (by rw [hid]; exact hne)
  rwa [hid] at hentry

/-- The selected id has options, if it is not empty. -/
theorem containsKey_selected {plugin : Text} {c : PluginConfiguration} (h : ofText plugin = .ok c) :
    c.pluginsOptions.containsKey c.selected = true ↔ c.selected ≠ [] := by
  obtain ⟨plugins, -, rfl⟩ := ofText_eq_ok h
  have hcontains : ∀ id, (ofPlugins plugins).pluginsOptions.containsKey id = true ↔
      (ofPlugins plugins).pluginsOptions.get? id ≠ none := by
    intro id
    rw [LinkedMap.containsKey_iff, Ne, LinkedMap.get?_eq_none_iff, not_forall_not]
  rw [hcontains]
  by_cases hselected : (ofPlugins plugins).selected = []
  · simp [hselected, get?_ofPlugins_nil]
  · rw [get?_ofPlugins plugins hselected]
    cases plugins with
    | nil => exact absurd rfl hselected
    | cons o plugins =>
      simp only [ne_eq, hselected, not_false_eq_true, iff_true]
      rw [List.find?_eq_none]
      intro hnone
      exact hnone o (by simp) (by simp [ofPlugins])

/-! ## What is printed -/

theorem foldl_arrange_of_ne {selected : Text} {entries : List (Text × PluginOptions)}
    (h : ∀ e ∈ entries, e.1 ≠ selected) (result : List PluginOptions) :
    entries.foldl (fun result e => if e.1 = selected then e.2 :: result else result ++ [e.2])
      result = result ++ entries.map Prod.snd := by
  induction entries generalizing result with
  | nil => simp
  | cons e entries ih =>
    rw [List.foldl_cons, if_neg (h e List.mem_cons_self),
      ih fun e' he' => h e' (List.mem_cons_of_mem _ he')]
    simp

/-- The list that is printed: the selected options first, then those of all other ids. -/
structure Printed (c : PluginConfiguration) (result : List PluginOptions) : Prop where
  head : ∃ first rest, result = first :: rest ∧ first.id = c.selected
  mem : ∀ o ∈ result, o = {} ∨ (o.id, o) ∈ c.pluginsOptions.entries
  all : ∀ e ∈ c.pluginsOptions.entries, e.2 ∈ result
  nodup : (result.map PluginOptions.id).Nodup

theorem map_id_entries {plugin : Text} {c : PluginConfiguration} (h : ofText plugin = .ok c) :
    (c.pluginsOptions.entries.map Prod.snd).map PluginOptions.id =
      c.pluginsOptions.entries.map Prod.fst := by
  rw [List.map_map]
  exact List.map_congr_left fun e he => (entry_ofText h he).id_eq

theorem toPrint_of_ofText {plugin : Text} {c : PluginConfiguration} (h : ofText plugin = .ok c)
    (defaultConfig : Option Text) :
    ∃ result, c.toPrint defaultConfig = .ok result ∧ Printed c result := by
  have hmem : ∀ o ∈ c.pluginsOptions.entries.map Prod.snd,
      (o.id, o) ∈ c.pluginsOptions.entries := by
    intro o ho
    obtain ⟨e, he, rfl⟩ := List.mem_map.mp ho
    rw [(entry_ofText h he).id_eq]
    exact he
  have hids := c.pluginsOptions.nodup
  rw [← map_id_entries h] at hids
  by_cases hselected : c.selected = []
  · -- no plugin is selected: an empty line comes first
    have hkeys : ∀ e ∈ c.pluginsOptions.entries, e.1 ≠ c.selected := by
      intro e he
      rw [hselected]
      exact (entry_ofText h he).id_ne
    have hnot : ¬ c.pluginsOptions.containsKey c.selected = true := by
      rw [containsKey_selected h, not_not]
      exact hselected
    refine ⟨{} :: c.pluginsOptions.entries.map Prod.snd, ?_, ?_, ?_, ?_, ?_⟩
    · rw [toPrint, if_neg hnot, getOptions, if_pos hselected, arrange,
        foldl_arrange_of_ne hkeys]
      rfl
    · exact ⟨_, _, rfl, hselected.symm⟩
    · intro o ho
      rcases List.mem_cons.mp ho with rfl | ho
      · exact Or.inl rfl
      · exact Or.inr (hmem o ho)
    · exact fun e he => List.mem_cons_of_mem _ (List.mem_map_of_mem he)
    · rw [List.map_cons, List.nodup_cons]
      refine ⟨?_, hids⟩
      intro hnil
      obtain ⟨o, ho, hid⟩ := List.mem_map.mp hnil
      exact (entry_ofText h (hmem o ho)).id_ne hid
  · have hcontains := (containsKey_selected h).mpr hselected
    obtain ⟨o, ho⟩ := (LinkedMap.containsKey_iff _ _).mp hcontains
    obtain ⟨pre, post, hsplit⟩ := List.append_of_mem ho
    have hnodup := c.pluginsOptions.nodup
    rw [hsplit, List.map_append, List.map_cons, List.nodup_middle, List.nodup_cons,
      List.mem_append, not_or] at hnodup
    have hpre : ∀ e ∈ pre, e.1 ≠ c.selected :=
      fun e he heq => hnodup.1.1 (List.mem_map.mpr ⟨e, he, heq⟩)
    have hpost : ∀ e ∈ post, e.1 ≠ c.selected :=
      fun e he heq => hnodup.1.2 (List.mem_map.mpr ⟨e, he, heq⟩)
    have hresult : arrange c.selected c.pluginsOptions.entries =
        o :: (pre.map Prod.snd ++ post.map Prod.snd) := by
      rw [arrange, hsplit, List.foldl_append, foldl_arrange_of_ne hpre, List.foldl_cons,
        if_pos rfl, foldl_arrange_of_ne hpost]
      rfl
    have hperm : (arrange c.selected c.pluginsOptions.entries).Perm
        (c.pluginsOptions.entries.map Prod.snd) := by
      rw [hresult, hsplit, List.map_append, List.map_cons]
      exact List.perm_middle.symm
    refine ⟨arrange c.selected c.pluginsOptions.entries, ?_, ?_, ?_, ?_, ?_⟩
    · rw [toPrint, if_pos hcontains]
    · exact ⟨_, _, hresult, (entry_ofText h ho).id_eq⟩
    · exact fun o ho => Or.inr (hmem o (hperm.mem_iff.mp ho))
    · exact fun e he => hperm.mem_iff.mpr (List.mem_map_of_mem he)
    · exact (hperm.map PluginOptions.id).nodup_iff.mpr hids

/-! ## Reading a printed line -/

variable (hash : HashOrder)

theorem toString_append_semicolon {o : PluginOptions} (hid : o.id ≠ []) :
    o.toString hash false ++ [';'] =
      escape o.id ++ ';' :: entriesText (hash.order o.options.entries) := by
  rw [PluginOptions.toString, if_neg (by decide), if_neg hid,
    appendEntries_of_ne_nil fun h => hid (escape_eq_nil_iff.mp h)]

/-- Printable options are read back. -/
theorem lineOptions_toString {id : Text} {o : PluginOptions} (h : Entry id o)
    (hprintable : Printable o) :
    ∃ o', lineOptions (o.toString hash false) = .ok o' ∧ o'.Equals o := by
  have hid : o.id ≠ [] := h.id_eq ▸ h.id_ne
  obtain ⟨o', ho', hid', hentries⟩ := ofText_toString hash hid h.readable.id_noControl
    h.readable.named hprintable.1
  refine ⟨o', ?_, equals_of_perm hid' (hentries ▸ hash.perm _)⟩
  rw [lineOptions, isLegacy_toString hash hid, hprintable.2]
  exact ho'

/-- A line in the present format is refused if the options have a control character. -/
theorem lineOptions_toString_of_control {id : Text} {o : PluginOptions} (h : Entry id o)
    (hcontrol : ¬ EntriesNoControl o.options.entries) :
    ∃ message, lineOptions (o.toString hash false) = .error message := by
  have hid : o.id ≠ [] := h.id_eq ▸ h.id_ne
  have hlegacy : isLegacy o.id = false := by
    rw [h.id_eq]
    exact h.control.resolve_left hcontrol
  have hline : ¬ NoControl (o.toString hash false ++ [';']) := by
    rw [toString_append_semicolon hash hid, noControl_append, noControl_cons,
      noControl_entriesText_iff]
    exact fun hall => hcontrol (hall.2.2.of_perm (hash.perm _).symm)
  refine ⟨"No control characters allowed.", ?_⟩
  rw [lineOptions, isLegacy_toString hash hid, hlegacy]
  exact ofOptions_of_control true hline

/-- The id that is read from a printed line. -/
theorem id_lineOptions_toString {id : Text} {o o' : PluginOptions} (h : Entry id o)
    (ho' : lineOptions (o.toString hash false) = .ok o') :
    o'.id = if isLegacy id then "kcptun".toList else id := by
  have hid : o.id ≠ [] := h.id_eq ▸ h.id_ne
  by_cases hlegacy : isLegacy id = true
  · obtain ⟨o'', ho'', hid', -⟩ := lineOptions_of_isLegacy
      ((isLegacy_toString hash hid).trans (h.id_eq ▸ hlegacy))
    obtain rfl := Except.ok.inj (ho''.symm.trans ho')
    rw [if_pos hlegacy, hid']
  · rw [Bool.not_eq_true] at hlegacy
    have hcontrol : EntriesNoControl o.options.entries := by
      by_contra hcontrol
      obtain ⟨message, herror⟩ := lineOptions_toString_of_control hash h hcontrol
      rw [herror] at ho'
      cases ho'
    obtain ⟨o'', ho'', hequals⟩ := lineOptions_toString hash h ⟨hcontrol, h.id_eq ▸ hlegacy⟩
    obtain rfl := Except.ok.inj (ho''.symm.trans ho')
    rw [hlegacy, hequals.1, h.id_eq]
    rfl

/-- A character that is not special is printed only where it stands in a key or a value. -/
theorem exists_of_mem_entriesText {c : Char} (hc : isSpecial c = false)
    {entries : List (Text × Option Text)} (h : c ∈ entriesText entries) :
    ∃ e ∈ entries, c ∈ e.1 ∨ ∃ v, e.2 = some v ∧ c ∈ v := by
  simp only [isSpecial, Bool.or_eq_false_iff, decide_eq_false_iff_not] at hc
  obtain ⟨e, he, hce⟩ := List.mem_flatMap.mp h
  refine ⟨e, he, ?_⟩
  obtain ⟨key, value⟩ := e
  cases value with
  | none =>
    simp only [entryText, List.append_nil, List.mem_append, mem_escape_iff hc.1.1,
      List.mem_singleton, hc.2, or_false] at hce
    exact Or.inl hce
  | some v =>
    simp only [entryText, List.mem_append, List.mem_cons, mem_escape_iff hc.1.1,
      List.not_mem_nil, hc.1.2, hc.2, or_false, false_or] at hce
    exact hce.imp id fun hv => ⟨v, rfl, hv⟩

/-- Printed options are one line. -/
theorem newline_not_mem_of_entry {id : Text} {o : PluginOptions} (h : Entry id o) :
    '\n' ∉ o.toString hash false := by
  have hid : o.id ≠ [] := h.id_eq ▸ h.id_ne
  intro hmem
  have hmem' : '\n' ∈ o.toString hash false ++ [';'] := List.mem_append_left _ hmem
  rw [toString_append_semicolon hash hid, List.mem_append, mem_escape_iff (by decide)] at hmem'
  rcases hmem' with hmem' | hmem'
  · exact h.line.id _ hmem' rfl
  · obtain ⟨e, he, hkey | ⟨v, hv, hvalue⟩⟩ := exists_of_mem_entriesText (by decide)
      ((List.mem_cons.mp hmem').resolve_left (by decide))
    · exact h.line.key e ((hash.perm _).mem_iff.mp he) _ hkey rfl
    · exact h.line.value e ((hash.perm _).mem_iff.mp he) v hv _ hvalue rfl

/-! ## The normal form -/

variable {plugin : Text} {c : PluginConfiguration} {result : List PluginOptions}

/-- The printed text is read line by line. -/
theorem splitOn_printed (h : ofText plugin = .ok c) (hresult : Printed c result) :
    (['\n'].intercalate (result.map fun o => o.toString hash false)).splitOn '\n' =
      result.map fun o => o.toString hash false := by
  apply List.splitOn_intercalate
  · intro line hline
    obtain ⟨o, ho, rfl⟩ := List.mem_map.mp hline
    rcases hresult.mem o ho with rfl | he
    · exact List.not_mem_nil
    · exact newline_not_mem_of_entry hash (entry_ofText h he)
  · obtain ⟨first, rest, rfl, -⟩ := hresult.head
    simp

/-- If all options are printable, the printed lines are read as options that equal them. -/
theorem mapM_printed (h : ofText plugin = .ok c) (hresult : Printed c result)
    (hprintable : ∀ e ∈ c.pluginsOptions.entries, Printable e.2) :
    ∃ plugins, (result.map fun o => o.toString hash false).mapM lineOptions = .ok plugins ∧
      List.Forall₂ (fun o o' => o'.Equals o) result plugins := by
  have hlines : ∀ o ∈ result, ∃ o', lineOptions (o.toString hash false) = .ok o' ∧
      o'.Equals o := by
    intro o ho
    rcases hresult.mem o ho with rfl | he
    · exact ⟨{}, rfl, rfl, fun _ => rfl⟩
    · exact lineOptions_toString hash (entry_ofText h he) (hprintable _ he)
  clear hresult
  induction result with
  | nil => exact ⟨[], rfl, .nil⟩
  | cons o result ih =>
    obtain ⟨o', ho', hequals⟩ := hlines o List.mem_cons_self
    obtain ⟨plugins, hplugins, hall⟩ := ih fun o ho => hlines o (List.mem_cons_of_mem _ ho)
    refine ⟨o' :: plugins, ?_, .cons hequals hall⟩
    rw [List.map_cons, List.mapM_cons, ho', hplugins]
    rfl

/-- Options that equal the printed ones make up the same configuration. -/
theorem same_ofPlugins (h : ofText plugin = .ok c) (hresult : Printed c result)
    {plugins : List PluginOptions}
    (hequals : List.Forall₂ (fun o o' => o'.Equals o) result plugins) :
    Same (ofPlugins plugins) c := by
  have hids : plugins.map PluginOptions.id = result.map PluginOptions.id := by
    have hflip : List.Forall₂ (fun o' o => o'.id = o.id) plugins result :=
      (hequals.imp fun o o' ho => ho.1.symm).flip.imp fun o' o ho => ho.symm
    rw [← List.forall₂_eq_eq_eq, List.forall₂_map_left_iff, List.forall₂_map_right_iff]
    exact hflip
  have hnodup : (plugins.map PluginOptions.id).Nodup := hids ▸ hresult.nodup
  constructor
  · obtain ⟨first, rest, rfl, hfirst⟩ := hresult.head
    obtain ⟨o', plugins', ho', -, rfl⟩ := List.forall₂_cons_left_iff.mp hequals
    exact ho'.1.trans hfirst
  · intro id
    by_cases hid : id = []
    · have hnone : c.pluginsOptions.get? [] = none := by
        obtain ⟨ps, -, rfl⟩ := ofText_eq_ok h
        exact get?_ofPlugins_nil ps
      rw [hid, get?_ofPlugins_nil, hnone]
      exact .none
    · rw [get?_ofPlugins plugins hid]
      cases hget : c.pluginsOptions.get? id with
      | none =>
        have hnone : plugins.reverse.find? (fun o => decide (o.id = id)) = none := by
          rw [List.find?_eq_none]
          intro o' ho' hoid
          rw [decide_eq_true_eq] at hoid
          obtain ⟨o, ho, hequal⟩ := exists_of_mem_right hequals (List.mem_reverse.mp ho')
          have hoid' : o.id = id := hequal.1.symm.trans hoid
          rcases hresult.mem o ho with rfl | he
          · exact hid hoid'.symm
          · rw [hoid'] at he
            exact LinkedMap.get?_eq_none_iff.mp hget o he
        rw [hnone]
        exact .none
      | some o =>
        have he := LinkedMap.get?_eq_some_iff.mp hget
        obtain ⟨o', ho', hequal⟩ := exists_of_mem_left hequals (hresult.all _ he)
        have hoid : o'.id = id := hequal.1.trans (entry_ofText h he).id_eq
        obtain ⟨o'', ho''⟩ :
            ∃ o'', plugins.reverse.find? (fun o => decide (o.id = id)) = some o'' := by
          rw [← Option.isSome_iff_exists, List.find?_isSome]
          exact ⟨o', List.mem_reverse.mpr ho', by simp [hoid]⟩
        have hid'' : o''.id = id := by simpa using List.find?_some ho''
        obtain rfl := List.inj_on_of_nodup_map hnodup
          (List.mem_reverse.mp (List.mem_of_find?_eq_some ho'')) ho' (hid''.trans hoid.symm)
        rw [ho'']
        exact .some hequal

/-- A text that is read as the same configuration consists of printable options. -/
theorem printable_of_same (h : ofText plugin = .ok c) (hresult : Printed c result)
    {c' : PluginConfiguration}
    (hc' : ofText (['\n'].intercalate (result.map fun o => o.toString hash false)) = .ok c')
    (hsame : Same c' c) {e : Text × PluginOptions} (he : e ∈ c.pluginsOptions.entries) :
    Printable e.2 := by
  obtain ⟨plugins, hplugins, rfl⟩ := ofText_eq_ok hc'
  rw [splitOn_printed hash h hresult, mapM_eq_ok_iff, List.forall₂_map_left_iff] at hplugins
  have hentry := entry_ofText h he
  constructor
  · by_contra hcontrol
    obtain ⟨message, herror⟩ := lineOptions_toString_of_control hash hentry hcontrol
    obtain ⟨o', -, ho'⟩ := exists_of_mem_left hplugins (hresult.all e he)
    rw [herror] at ho'
    cases ho'
  · rw [hentry.id_eq, ← Bool.not_eq_true]
    intro hlegacy
    -- no printed line is read as options of this id
    have hrel := hsame.options e.1
    rw [LinkedMap.get?_eq_some_iff.mpr he, get?_ofPlugins plugins hentry.id_ne] at hrel
    cases hget : plugins.reverse.find? fun o => decide (o.id = e.1) with
    | none =>
      rw [hget] at hrel
      cases hrel
    | some o' =>
      have hid' : o'.id = e.1 := by simpa using List.find?_some hget
      obtain ⟨o, ho, hline⟩ := exists_of_mem_right hplugins
        (List.mem_reverse.mp (List.mem_of_find?_eq_some hget))
      rcases hresult.mem o ho with rfl | heo
      · obtain rfl := Except.ok.inj hline
        exact hentry.id_ne hid'.symm
      · have hid := id_lineOptions_toString hash (entry_ofText h heo) hline
        rw [hid'] at hid
        by_cases hlegacy' : isLegacy o.id = true
        · rw [if_pos hlegacy'] at hid
          rw [hid] at hlegacy
          exact absurd hlegacy (by decide)
        · rw [if_neg hlegacy'] at hid
          have heq : e.1 = o.id := hid
          exact hlegacy' (heq ▸ hlegacy)

/-- The condition on the lines, for the options of each id. -/
theorem stable_iff_forall_printable (h : ofText plugin = .ok c) :
    Stable plugin ↔ ∀ e ∈ c.pluginsOptions.entries, Printable e.2 := by
  obtain ⟨plugins, hplugins, rfl⟩ := ofText_eq_ok h
  rw [mapM_eq_ok_iff] at hplugins
  constructor
  · intro hstable e he
    have hentry := entry_ofText h he
    have hget := LinkedMap.get?_eq_some_iff.mpr he
    rw [get?_ofPlugins plugins hentry.id_ne, List.find?_eq_some_iff_append] at hget
    obtain ⟨-, after, pre, hreverse, hafter⟩ := hget
    have hsplit : plugins = pre.reverse ++ e.2 :: after.reverse := by
      rw [← List.reverse_reverse plugins, hreverse]
      simp
    obtain ⟨pre', line, post', hlines, hline, hpost⟩ := forall₂_split hplugins.flip hsplit
    refine hstable pre' line post' e.2 hlines hline (by rw [hentry.id_eq]; exact hentry.id_ne) ?_
    intro line' hline' o' ho' hid
    obtain ⟨o'', ho'', hread⟩ := exists_of_mem_right hpost hline'
    obtain rfl := Except.ok.inj (ho'.symm.trans hread)
    have hne := hafter o' (List.mem_reverse.mp ho'')
    rw [hentry.id_eq] at hid
    simp [hid] at hne
  · intro hall pre line post o hsplit ho hid hlast
    obtain ⟨pre', o', post', hplugins', ho', hpost⟩ := forall₂_split hplugins hsplit
    obtain rfl := Except.ok.inj (ho.symm.trans ho')
    refine hall (o.id, o) (LinkedMap.get?_eq_some_iff.mp ?_)
    rw [get?_ofPlugins plugins hid, List.find?_eq_some_iff_append]
    refine ⟨by simp, post'.reverse, pre'.reverse, by simp [hplugins'], ?_⟩
    intro o'' ho''
    obtain ⟨line', hline', hread⟩ := exists_of_mem_right hpost (List.mem_reverse.mp ho'')
    simpa using hlast line' hline' o'' hread

/-- **Normal form.** The printed text of an accepted configuration is read as the same
configuration exactly if the last line of every id gives printable options. -/
theorem same_ofText_toString_iff (hash : HashOrder) (defaultConfig : Option Text)
    (h : ofText plugin = .ok c) :
    (∃ text c', c.toString hash defaultConfig = .ok text ∧ ofText text = .ok c' ∧ Same c' c) ↔
      Stable plugin := by
  obtain ⟨result, hprint, hresult⟩ := toPrint_of_ofText h defaultConfig
  have htext : c.toString hash defaultConfig =
      .ok (['\n'].intercalate (result.map fun o => o.toString hash false)) := by
    rw [toString, hprint]
    rfl
  rw [stable_iff_forall_printable h]
  constructor
  · rintro ⟨text, c', hc, hc', hsame⟩ e he
    obtain rfl := Except.ok.inj (htext.symm.trans hc)
    exact printable_of_same hash h hresult hc' hsame he
  · intro hprintable
    obtain ⟨plugins, hplugins, hequals⟩ := mapM_printed hash h hresult hprintable
    refine ⟨_, ofPlugins plugins, htext, ?_, same_ofPlugins h hresult hequals⟩
    rw [ofText, splitOn_printed hash h hresult, hplugins]
    rfl

theorem same_ofText_toString_sample :
    ∃ c, ofText "\nkcptun --nocomp --mode fast\na;x=1\na;y\\=2".toList = .ok c ∧
      ((∃ text c', c.toString .insertion none = .ok text ∧ ofText text = .ok c' ∧ Same c' c) ↔
        Stable "\nkcptun --nocomp --mode fast\na;x=1\na;y\\=2".toList) :=
  ⟨_, rfl, same_ofText_toString_iff .insertion none rfl⟩

/-- An escape at the start of the line hides that the id starts with `kcptun `. It is printed
without the escape. -/
theorem kcptun_id_lost :
    ∃ c c', ofText "\\kcptun x".toList = .ok c ∧ c.selected = "kcptun x".toList ∧
      c.toString .insertion none = .ok "kcptun x".toList ∧ ofText "kcptun x".toList = .ok c' ∧
        c'.selected = "kcptun".toList ∧ ¬ Same c' c := by
  obtain ⟨o, ho, hid, -⟩ := @lineOptions_of_isLegacy "kcptun x".toList (by decide)
  obtain ⟨c', hc', hselected, -⟩ := ofText_of_line (by decide) ho (by rw [hid]; decide) none
  refine ⟨ofPlugins [{ id := "kcptun x".toList }], c', rfl, rfl, rfl, hc', hselected.trans hid, ?_⟩
  intro hsame
  have heq : "kcptun".toList = "kcptun x".toList :=
    (hselected.trans hid).symm.trans hsame.selected
  exact absurd heq (by decide)

end PluginConfiguration
