import DripVpn.Plugin.NormalForm

/-!
# Printed options that are cut off

What is read of the text of options after the characters of a class are dropped at its end. The
class holds none of the characters with a meaning in the text, so only the last part of the text gets
shorter: the id, the name of a flag or a value. `not_equals_of_cut` says that the options are never
the same then, and `sameOptions_iff` when a column with one such line selects the same options.
-/

open Reactive

namespace PluginConfiguration

open PluginOptions Text

section Cut

variable {cut : Char → Bool}

theorem escape_concat (t : Text) (c : Char) :
    escape (t ++ [c]) = escape t ++ if isSpecial c then ['\\', c] else [c] := by
  rw [escape, List.flatMap_append, List.flatMap_singleton]
  rfl

variable (hcut : ∀ c, cut c = true → isSpecial c = false)

include hcut

/-- Dropping at the end of an escaped part drops at the end of the part. -/
theorem trimEndBy_append_escape {pre : Text} (hpre : ∀ c ∈ pre.getLast?, cut c = false) (x : Text) :
    trimEndBy cut (pre ++ escape x) = pre ++ escape (trimEndBy cut x) := by
  induction x using List.reverseRecOn with
  | nil =>
    have hnil : trimEndBy cut [] = [] := rfl
    rw [hnil, escape_nil, List.append_nil, trimEndBy_eq_self_iff.mpr hpre]
  | append_singleton x c ih =>
    rw [escape_concat, ← List.append_assoc]
    by_cases hc : cut c = true
    · rw [if_neg (by simp [hcut c hc]), trimEndBy_concat_of_pos hc, trimEndBy_concat_of_pos hc, ih]
    · rw [Bool.not_eq_true] at hc
      have hlast : ∃ t, (if isSpecial c then ['\\', c] else [c]) = t ++ [c] := by
        split
        · exact ⟨['\\'], rfl⟩
        · exact ⟨[], rfl⟩
      obtain ⟨t, ht⟩ := hlast
      rw [trimEndBy_concat_of_neg hc, escape_concat, ht, ← List.append_assoc,
        trimEndBy_concat_of_neg hc]
      simp

end Cut

/-! ## The last part of a text -/

/-- The last part `x` of the text of options, and where the loop is before it. -/
structure LastPart (hash : HashOrder) (o : PluginOptions) (pre x : Text) (s : Scan) : Prop where
  text : o.toString hash false = pre ++ escape x
  boundary : ∀ c ∈ pre.getLast?, isSpecial c = true
  scan : pre.foldl Scan.next { parseId := true } = s
  escaped : s.escaped = false
  current : s.current = []
  /-- Another last part gives other options. -/
  ne : ∀ x', x' ≠ x → ¬ Equals ({ s with current := x' } : Scan).finishPart.result o

variable (hash : HashOrder) {o : PluginOptions}

/-- The loop after the id and some of the entries. -/
theorem foldl_next_id {es : List (Text × Option Text)} (hid : o.id ≠ [])
    (hnamed : ∀ e ∈ es, EntryNamed e) (hnodup : (es.map Prod.fst).Nodup) :
    ∃ result : PluginOptions,
      (escape o.id ++ ';' :: entriesText es).foldl Scan.next { parseId := true } =
        { result, parseId := false } ∧ result.id = o.id ∧ result.options.entries = es := by
  have hstep : Scan.next { current := [] ++ o.id, parseId := true } ';' =
      { result := { id := o.id }, parseId := false } := by
    simp [Scan.next, Scan.finishPart, hid]
  obtain ⟨hid', hentries⟩ := @foldl_put es { id := o.id } hnodup
  refine ⟨_, ?_, hid', hentries⟩
  rw [List.foldl_append, foldl_next_escape _ rfl, List.foldl_cons, hstep,
    foldl_next_entriesText hnamed rfl rfl rfl rfl]

/-- The text of options up to the last entry. -/
theorem toString_of_concat (hid : o.id ≠ []) {es : List (Text × Option Text)}
    {e : Text × Option Text} (horder : hash.order o.options.entries = es ++ [e]) :
    o.toString hash false = (escape o.id ++ ';' :: entriesText es) ++ entryText e := by
  have htext := toString_append_semicolon hash hid
  rw [horder, entriesText, List.flatMap_append, List.flatMap_singleton] at htext
  have hboth : o.toString hash false ++ [';'] =
      ((escape o.id ++ ';' :: entriesText es) ++ entryText e) ++ [';'] := by
    rw [htext]
    simp [entriesText]
  exact List.append_cancel_right hboth

/-- The id is the last part. -/
theorem lastPart_id (hid : o.id ≠ []) (horder : hash.order o.options.entries = []) :
    LastPart hash o [] o.id { parseId := true } where
  text := by
    have htext := toString_append_semicolon hash hid
    rw [horder] at htext
    have hboth : o.toString hash false ++ [';'] = escape o.id ++ [';'] := htext
    exact List.append_cancel_right hboth
  boundary := by simp
  scan := rfl
  escaped := rfl
  current := rfl
  ne := by
    rintro x' hx' ⟨hequal, -⟩
    refine hx' (Eq.trans ?_ hequal)
    by_cases hnil : x' = []
    · simp [Scan.finishPart, hnil]
    · simp [Scan.finishPart, hnil]

theorem getLast?_concat_special {t : Text} {c : Char} (hc : isSpecial c = true) :
    ∀ d ∈ (t ++ [c]).getLast?, isSpecial d = true := by
  simp [hc]

theorem last_entriesText (t : Text) (es : List (Text × Option Text)) :
    ∃ u, t ++ ';' :: entriesText es = u ++ [';'] := by
  induction es generalizing t with
  | nil => exact ⟨t, rfl⟩
  | cons e es ih =>
    obtain ⟨u, hu⟩ := ih (t ++ ';' :: entryText e)
    refine ⟨u, ?_⟩
    rw [← hu, entriesText_cons]
    simp

/-- The last part of an entry. -/
theorem exists_lastPart (hid : o.id ≠ []) (hnamed : o.Named) :
    ∃ pre x s, LastPart hash o pre x s := by
  have hnodup := nodup_order hash o
  have hnamed' := hnamed.order hash
  have hget : ∀ e ∈ hash.order o.options.entries, o.options.get? e.1 = some e.2 := fun e he =>
    LinkedMap.get?_eq_some_iff.mpr ((hash.perm _).mem_iff.mp he)
  rcases List.eq_nil_or_concat (hash.order o.options.entries) with
    horder | ⟨es, ⟨key, value⟩, horder⟩
  · exact ⟨_, _, _, lastPart_id hash hid horder⟩
  · rw [List.concat_eq_append] at horder
    rw [horder] at hnodup hnamed' hget
    rw [List.map_append, List.nodup_append] at hnodup
    obtain ⟨result, hscan, -, hentries⟩ := foldl_next_id hid
      (fun e he => hnamed' e (List.mem_append_left _ he)) hnodup.1
    have htext := toString_of_concat hash hid horder
    have hvalue := hget (key, value) (by simp)
    cases value with
    | none =>
      refine ⟨_, key, _, ?_, ?_, hscan, rfl, rfl, ?_⟩
      · rw [htext, entryText, List.append_nil]
      · obtain ⟨u, hu⟩ := last_entriesText (escape o.id) es
        rw [hu]
        exact getLast?_concat_special rfl
      · -- the name of the flag is not among the entries before it
        rintro x' hx' ⟨-, hequal⟩
        have hnone : result.options.get? key = none := by
          rw [LinkedMap.get?_eq_none_iff, hentries]
          intro v hv
          exact hnodup.2.2 key (List.mem_map_of_mem hv) key (by simp) rfl
        have hread := hequal key
        rw [hvalue] at hread
        by_cases hnil : x' = []
        · simp [Scan.finishPart, hnil, hnone] at hread
        · simp [Scan.finishPart, hnil, put, LinkedMap.get?_put, hnone] at hread
          exact hx' hread.symm
    | some v =>
      refine ⟨(escape o.id ++ ';' :: entriesText es) ++ (escape key ++ ['=']), v,
        { result, key := some key, parseId := false }, ?_, ?_, ?_, rfl, rfl, ?_⟩
      · rw [htext, entryText]
        simp
      · rw [← List.append_assoc]
        exact getLast?_concat_special rfl
      · rw [List.foldl_append, hscan, List.foldl_append, foldl_next_escape _ rfl]
        simp [Scan.next]
      · rintro x' hx' ⟨-, hequal⟩
        have hread := hequal key
        rw [hvalue] at hread
        simp [Scan.finishPart, put, LinkedMap.get?_put, hx'] at hread

/-- Options that are cut off are read as other options. -/
theorem not_equals_of_cut {cut : Char → Bool} (hcut : ∀ c, cut c = true → isSpecial c = false)
    (hid : o.id ≠ []) (hnamed : o.Named)
    (hne : trimEndBy cut (o.toString hash false) ≠ o.toString hash false) {o' : PluginOptions}
    (h : PluginOptions.ofText (trimEndBy cut (o.toString hash false)) = .ok o') : ¬ Equals o' o := by
  obtain ⟨pre, x, s, hlast⟩ := exists_lastPart hash hid hnamed
  have hboundary : ∀ c ∈ pre.getLast?, cut c = false := by
    intro c hc
    by_contra hcut'
    rw [Bool.not_eq_false] at hcut'
    have hspecial := hlast.boundary c hc
    rw [hcut c hcut'] at hspecial
    cases hspecial
  have htext := trimEndBy_append_escape hcut hboundary x
  rw [hlast.text] at h hne
  rw [htext] at h hne
  have hx : trimEndBy cut x ≠ x := fun heq => hne (by rw [heq])
  rw [PluginOptions.ofText] at h
  by_cases hempty : pre ++ escape (trimEndBy cut x) = []
  · rw [hempty] at h
    obtain rfl := Except.ok.inj h
    rintro ⟨hequal, -⟩
    exact hid hequal.symm
  · by_cases hcontrol : NoControl (pre ++ escape (trimEndBy cut x) ++ [';'])
    · rw [ofOptions_of_noControl true hempty hcontrol, List.foldl_append, List.foldl_append,
        hlast.scan, foldl_next_escape _ hlast.escaped, hlast.current] at h
      obtain rfl := Except.ok.inj h
      have hfinish : ([';'].foldl Scan.next { s with current := [] ++ trimEndBy cut x }) =
          ({ s with current := trimEndBy cut x } : Scan).finishPart := by
        simp [Scan.next, hlast.escaped]
      rw [hfinish]
      exact hlast.ne _ hx
    · rw [ofOptions_of_control true hcontrol] at h
      cases h

/-! ## A column with one line -/

/-- A column with one line selects the options of the line. -/
theorem ofText_singleton {line : Text} (hline : '\n' ∉ line) :
    ofText line = (lineOptions line).map fun o => ofPlugins [o] := by
  rw [ofText, List.splitOn_eq_singleton hline, List.mapM_cons]
  cases lineOptions line with
  | error message => rfl
  | ok o => rfl

theorem getOptions_singleton (o : PluginOptions) (defaultConfig : Option Text) :
    (ofPlugins [o]).getOptions defaultConfig = .ok (if o.id = [] then {} else o) := by
  have hselected : (ofPlugins [o]).selected = o.id := rfl
  by_cases hid : o.id = []
  · rw [getOptions, hselected, if_pos hid, if_pos hid]
  · rw [getOptions, hselected, if_neg hid, if_neg hid, get?_ofPlugins _ hid]
    simp

/-- The options that a column selects. -/
def selectedBy (plugins : Text → Option Text) (plugin : Text) : Except String PluginOptions := do
  let c ← ofText plugin
  c.getOptions (plugins c.selected)

theorem selectedBy_singleton (plugins : Text → Option Text) {line : Text} (hline : '\n' ∉ line) :
    selectedBy plugins line =
      (lineOptions line).map fun o => if o.id = [] then {} else o := by
  rw [selectedBy, ofText_singleton hline]
  cases lineOptions line with
  | error message => rfl
  | ok o => exact getOptions_singleton o _

/-- The selected options of a column with one line are some options with an id exactly if those of
the line are. -/
theorem selectedBy_equals_iff (plugins : Text → Option Text) {line : Text} (hline : '\n' ∉ line)
    (hid : o.id ≠ []) :
    (∃ o', selectedBy plugins line = .ok o' ∧ Equals o' o) ↔
      ∃ o', lineOptions line = .ok o' ∧ Equals o' o := by
  rw [selectedBy_singleton plugins hline]
  cases lineOptions line with
  | error message => simp [Except.map]
  | ok o₁ =>
    simp only [Except.map, Except.ok.injEq, exists_eq_left']
    by_cases hid₁ : o₁.id = []
    · rw [if_pos hid₁]
      constructor
      · rintro ⟨hequal, -⟩
        exact absurd hequal.symm hid
      · rintro ⟨hequal, -⟩
        exact absurd (hequal.symm.trans hid₁) hid
    · rw [if_neg hid₁]

theorem isLegacy_of_prefix {t u : Text} (h : t <+: u) (ht : isLegacy t = true) :
    isLegacy u = true := by
  rw [isLegacy, List.isPrefixOf_iff_prefix] at ht ⊢
  exact ht.trans h

/-- The text of options, cut off or not, selects the same options exactly if nothing is cut off and
the options are printable. -/
theorem sameOptions_iff {cut : Char → Bool} (hcut : ∀ c, cut c = true → isSpecial c = false)
    (plugins : Text → Option Text) {id : Text} (h : Entry id o) :
    (∃ o', selectedBy plugins (trimEndBy cut (o.toString hash false)) = .ok o' ∧ Equals o' o) ↔
      Printable o ∧ trimEndBy cut (o.toString hash false) = o.toString hash false := by
  have hid : o.id ≠ [] := h.id_eq ▸ h.id_ne
  have hinitial := trimEndBy_prefix cut (o.toString hash false)
  have hline : '\n' ∉ trimEndBy cut (o.toString hash false) :=
    fun hmem => newline_not_mem_of_entry hash h (hinitial.subset hmem)
  rw [selectedBy_equals_iff plugins hline hid]
  constructor
  · rintro ⟨o', ho', hequal⟩
    have hpresent : isLegacy (trimEndBy cut (o.toString hash false)) = false := by
      by_contra hlegacy
      rw [Bool.not_eq_false] at hlegacy
      obtain ⟨o'', ho'', hkcptun, -⟩ := lineOptions_of_isLegacy hlegacy
      obtain rfl := Except.ok.inj (ho''.symm.trans ho')
      have hold := isLegacy_of_prefix hinitial hlegacy
      rw [isLegacy_toString hash hid, ← hequal.1, hkcptun] at hold
      exact absurd hold (by decide)
    have hself : trimEndBy cut (o.toString hash false) = o.toString hash false := by
      by_contra hne
      rw [lineOptions, hpresent] at ho'
      exact not_equals_of_cut hash hcut hid h.readable.named hne ho' hequal
    rw [hself] at ho' hpresent
    refine ⟨⟨?_, (isLegacy_toString hash hid).symm.trans hpresent⟩, hself⟩
    by_contra hcontrol
    obtain ⟨message, herror⟩ := lineOptions_toString_of_control hash h hcontrol
    rw [herror] at ho'
    cases ho'
  · rintro ⟨hprintable, hself⟩
    rw [hself]
    exact lineOptions_toString hash h hprintable

end PluginConfiguration
