import DripVpn.Foundations.LinkedMap
import DripVpn.Foundations.Text

/-!
# Plugin options

`PluginOptions` is the class of the same name: the id of a plugin and a hash map from option names
to values, a `null` value being a flag. Options are written `id;key=value;flag`, where `\`, `=` and
`;` inside a part are escaped with a backslash, and read back by a loop over the tokens between
these three characters.

`java.util.HashMap` iterates its entries in an order of its own, so the printed text depends on a
`HashOrder`. The entries themselves do not: `ofText_toString` and `ofIdText_toString` read back
what was printed, entry by entry in the order of the print.
-/

open Reactive

/-- The order in which a hash map iterates its entries. -/
structure HashOrder where
  order : List (Text × Option Text) → List (Text × Option Text)
  /-- Every entry is visited once. -/
  perm : ∀ entries, (order entries).Perm entries

/-- Entries in the order of insertion. -/
def HashOrder.insertion : HashOrder := ⟨id, fun _ => List.Perm.refl _⟩

/-- `Char.isISOControl`. -/
def Kotlin.isISOControl (c : Char) : Bool :=
  c.toNat ≤ 0x1F || (0x7F ≤ c.toNat && c.toNat ≤ 0x9F)

/-- The class `PluginOptions`. -/
structure PluginOptions where
  id : Text := []
  /-- The entries of the hash map, in the order of insertion. -/
  options : LinkedMap Text (Option Text) := LinkedMap.empty

namespace PluginOptions

/-- `put` of the hash map. -/
def put (o : PluginOptions) (key : Text) (value : Option Text) : PluginOptions :=
  { o with options := o.options.put key value }

/-! ## Reading -/

/-- The variables of the loop over the tokens. A token is one of `\`, `=` and `;`, or the run of
characters up to the next of these; runs are only appended, so the loop may as well see them
character by character. -/
structure Scan where
  result : PluginOptions := {}
  current : Text := []
  key : Option Text := none
  parseId : Bool
  /-- The last token was a `\`, the next one is appended whatever it is. -/
  escaped : Bool := false

namespace Scan

/-- The branch of `;`: the part that ends here is an entry, a flag or the id. -/
def finishPart (s : Scan) : Scan :=
  let result := match s.key with
    | some key => s.result.put key (some s.current)
    | none =>
      if s.current = [] then s.result
      else if s.parseId then { s.result with id := s.current }
      else s.result.put s.current none
  { s with result, current := [], key := none, parseId := false }

/-- One character of the text. -/
def next (s : Scan) (c : Char) : Scan :=
  if s.escaped then { s with current := s.current ++ [c], escaped := false }
  else if c = '\\' then { s with escaped := true }
  else if c = '=' then
    match s.key with
    | none => { s with key := some s.current, current := [] }
    | some _ => { s with current := s.current ++ [c] }
  else if c = ';' then s.finishPart
  else { s with current := s.current ++ [c] }

end Scan

/-- The private constructor. An error is the message of the failed `check`. -/
def ofOptions (options : Text) (parseId : Bool) : Except String PluginOptions :=
  if options = [] then .ok {}
  else if options.all fun c => !Kotlin.isISOControl c then
    .ok ((options ++ [';']).foldl Scan.next { parseId }).result
  else .error "No control characters allowed."

/-- `PluginOptions(options)`. -/
def ofText (options : Text) : Except String PluginOptions := ofOptions options true

/-- `PluginOptions(id, options)`. -/
def ofIdText (id : Text) (options : Option Text) : Except String PluginOptions :=
  (ofOptions (options.getD []) false).map fun o => { o with id }

/-! ## Printing -/

/-- The characters `append` escapes. -/
def isSpecial (c : Char) : Bool := c = '\\' || c = '=' || c = ';'

/-- `append`. -/
def escape (str : Text) : Text := str.flatMap fun c => if isSpecial c then ['\\', c] else [c]

/-- The text of one entry. -/
def entryText (entry : Text × Option Text) : Text :=
  escape entry.1 ++ match entry.2 with
    | some value => '=' :: escape value
    | none => []

/-- The loop of `toString` over the entries. -/
def appendEntries (result : Text) (entries : List (Text × Option Text)) : Text :=
  entries.foldl (fun result entry =>
    (if result = [] then result else result ++ [';']) ++ entryText entry) result

/-- `toString(trimId)`. -/
def toString (hash : HashOrder) (o : PluginOptions) (trimId : Bool) : Text :=
  if trimId then appendEntries [] (hash.order o.options.entries)
  else if o.id = [] then []
  else appendEntries (escape o.id) (hash.order o.options.entries)

/-! ## Reading what was printed -/

/-- Escaping a text escapes its characters. -/
@[simp]
theorem escape_nil : escape [] = [] := rfl

theorem escape_cons (c : Char) (t : Text) :
    escape (c :: t) = (if isSpecial c then ['\\', c] else [c]) ++ escape t := by
  simp [escape]

theorem escape_eq_nil_iff {t : Text} : escape t = [] ↔ t = [] := by
  cases t with
  | nil => simp
  | cons c t =>
    rw [escape_cons]
    split <;> simp

/-- Escaping adds nothing but backslashes. -/
theorem mem_escape_iff {c : Char} {t : Text} (hc : c ≠ '\\') : c ∈ escape t ↔ c ∈ t := by
  induction t with
  | nil => simp
  | cons d t ih =>
    rw [escape_cons]
    split <;> simp [ih, hc]

/-- A loop that is between tokens. -/
theorem foldl_next_escape (t : Text) {s : Scan} (hs : s.escaped = false) :
    (escape t).foldl Scan.next s = { s with current := s.current ++ t } := by
  induction t generalizing s with
  | nil => simp
  | cons c t ih =>
    rw [escape_cons, List.foldl_append]
    by_cases hc : isSpecial c = true
    · -- the backslash, then the character as it is
      have hstep : ['\\', c].foldl Scan.next s = { s with current := s.current ++ [c] } := by
        simp [Scan.next, hs]
      rw [if_pos hc, hstep, ih (by exact hs)]
      simp
    · simp only [isSpecial, Bool.or_eq_true, decide_eq_true_eq, not_or] at hc
      have hstep : [c].foldl Scan.next s = { s with current := s.current ++ [c] } := by
        simp [Scan.next, hs, hc]
      rw [if_neg (by simp [isSpecial, hc]), hstep, ih (by exact hs)]
      simp

/-- An entry that can be printed: a flag has a name. -/
def EntryNamed (entry : Text × Option Text) : Prop := entry.1 ≠ [] ∨ entry.2 ≠ none

/-- The text of an entry, up to the next `;`, is read as the entry. -/
theorem foldl_next_entryText {entry : Text × Option Text} (hentry : EntryNamed entry) {s : Scan}
    (hescaped : s.escaped = false) (hcurrent : s.current = []) (hkey : s.key = none)
    (hparse : s.parseId = false) :
    (entryText entry ++ [';']).foldl Scan.next s =
      { s with result := s.result.put entry.1 entry.2 } := by
  obtain ⟨key, value⟩ := entry
  obtain ⟨result, current, key', parseId, escaped⟩ := s
  simp only at hescaped hcurrent hkey hparse
  subst hescaped hcurrent hkey hparse
  cases value with
  | none =>
    have hname : key ≠ [] := by
      rcases hentry with h | h
      · exact h
      · exact absurd rfl h
    simp only [entryText, List.append_nil, List.foldl_append]
    rw [foldl_next_escape key rfl]
    simp [Scan.next, Scan.finishPart, hname]
  | some value =>
    simp only [entryText, List.foldl_append, List.foldl_cons]
    rw [foldl_next_escape key rfl]
    simp only [List.nil_append]
    rw [show Scan.next (Scan.mk result key none false false) '=' =
      { result := result, current := [], key := some key, parseId := false } from by
        simp [Scan.next], foldl_next_escape value rfl]
    simp [Scan.next, Scan.finishPart]

/-- The text of entries, each ended by a `;`. -/
def entriesText (entries : List (Text × Option Text)) : Text :=
  entries.flatMap fun entry => entryText entry ++ [';']

theorem entriesText_cons (e : Text × Option Text) (entries : List (Text × Option Text)) :
    entriesText (e :: entries) = (entryText e ++ [';']) ++ entriesText entries := by
  simp [entriesText]

/-- Entries are read as they were printed. -/
theorem foldl_next_entriesText {entries : List (Text × Option Text)}
    (hentries : ∀ e ∈ entries, EntryNamed e) {s : Scan} (hescaped : s.escaped = false)
    (hcurrent : s.current = []) (hkey : s.key = none) (hparse : s.parseId = false) :
    (entriesText entries).foldl Scan.next s =
      { s with result := entries.foldl (fun o e => o.put e.1 e.2) s.result } := by
  induction entries generalizing s with
  | nil => rfl
  | cons e entries ih =>
    rw [entriesText_cons, List.foldl_append,
      foldl_next_entryText (hentries e List.mem_cons_self) hescaped hcurrent hkey hparse]
    exact ih (fun e' he' => hentries e' (List.mem_cons_of_mem _ he')) hescaped hcurrent hkey hparse

/-- Entries with distinct keys are put one after the other. -/
theorem foldl_put {entries : List (Text × Option Text)} {o : PluginOptions}
    (hnodup : ((o.options.entries ++ entries).map Prod.fst).Nodup) :
    (entries.foldl (fun o e => o.put e.1 e.2) o).id = o.id ∧
      (entries.foldl (fun o e => o.put e.1 e.2) o).options.entries =
        o.options.entries ++ entries := by
  induction entries generalizing o with
  | nil => simp
  | cons e entries ih =>
    have hnew : e.1 ∉ o.options.entries.map Prod.fst := by
      rw [List.map_append, List.map_cons, List.nodup_append] at hnodup
      exact fun hmem => hnodup.2.2 _ hmem _ List.mem_cons_self rfl
    have hput : (o.put e.1 e.2).options.entries = o.options.entries ++ [e] :=
      LinkedMap.entries_put_of_not_mem e.2 hnew
    rw [List.foldl_cons]
    obtain ⟨hid, hrest⟩ := ih (o := o.put e.1 e.2) (by rw [hput, List.append_assoc]; exact hnodup)
    exact ⟨hid, by rw [hrest, hput, List.append_assoc]; rfl⟩

/-- After something, every entry follows a `;`. -/
theorem appendEntries_eq {result : Text} (hresult : result ≠ [])
    (entries : List (Text × Option Text)) :
    appendEntries result entries = result ++ entries.flatMap fun e => ';' :: entryText e := by
  induction entries generalizing result with
  | nil => simp [appendEntries]
  | cons e entries ih =>
    have hne : (result ++ [';']) ++ entryText e ≠ [] := by simp
    show appendEntries ((if result = [] then result else result ++ [';']) ++ entryText e)
      entries = _
    rw [if_neg hresult, ih hne]
    simp

theorem appendEntries_of_ne_nil {result : Text} (hresult : result ≠ [])
    (entries : List (Text × Option Text)) :
    appendEntries result entries ++ [';'] = result ++ ';' :: entriesText entries := by
  have hshift : (entries.flatMap fun e => ';' :: entryText e) ++ [';'] =
      ';' :: entriesText entries := by
    induction entries with
    | nil => rfl
    | cons e entries ih => rw [List.flatMap_cons, List.append_assoc, ih, entriesText_cons]; simp
  rw [appendEntries_eq hresult, List.append_assoc, hshift]

theorem entryText_ne_nil {entry : Text × Option Text} (h : EntryNamed entry) :
    entryText entry ≠ [] := by
  obtain ⟨key, value⟩ := entry
  cases value with
  | some value => simp [entryText]
  | none =>
    rcases h with h | h
    · simpa [entryText, escape_eq_nil_iff] using h
    · exact absurd rfl h

theorem appendEntries_nil {entries : List (Text × Option Text)} (hne : entries ≠ [])
    (hentries : ∀ e ∈ entries, EntryNamed e) :
    appendEntries [] entries ++ [';'] = entriesText entries := by
  cases entries with
  | nil => exact absurd rfl hne
  | cons e entries =>
    have hfirst := entryText_ne_nil (hentries e List.mem_cons_self)
    show appendEntries (entryText e) entries ++ [';'] = _
    rw [appendEntries_of_ne_nil hfirst]
    simp [entriesText]

theorem appendEntries_nil_ne_nil {entries : List (Text × Option Text)} (hne : entries ≠ [])
    (hentries : ∀ e ∈ entries, EntryNamed e) : appendEntries [] entries ≠ [] := by
  intro h
  have hread := appendEntries_nil hne hentries
  cases entries with
  | nil => exact hne rfl
  | cons e entries =>
    have hpos := List.length_pos_iff.mpr (entryText_ne_nil (hentries e List.mem_cons_self))
    rw [h, entriesText_cons] at hread
    have hlength := congrArg List.length hread
    simp only [List.nil_append, List.length_append, List.length_singleton] at hlength
    omega

/-- No control character in a text. -/
def NoControl (t : Text) : Prop := ∀ c ∈ t, Kotlin.isISOControl c = false

/-- No control character in the keys and values. -/
def EntriesNoControl (entries : List (Text × Option Text)) : Prop :=
  ∀ e ∈ entries, NoControl e.1 ∧ ∀ v, e.2 = some v → NoControl v

instance (t : Text) : Decidable (NoControl t) :=
  List.decidableBAll (fun c => Kotlin.isISOControl c = false) t

/-- Options whose entries can be told apart in print. -/
def Named (o : PluginOptions) : Prop := ∀ e ∈ o.options.entries, EntryNamed e

@[simp]
theorem noControl_nil : NoControl [] := by simp [NoControl]

@[simp]
theorem noControl_cons {c : Char} {t : Text} :
    NoControl (c :: t) ↔ Kotlin.isISOControl c = false ∧ NoControl t := by
  simp [NoControl]

@[simp]
theorem noControl_append {t u : Text} : NoControl (t ++ u) ↔ NoControl t ∧ NoControl u := by
  simp only [NoControl, List.mem_append, or_imp, forall_and]

/-- Escaping adds no control character. -/
@[simp]
theorem noControl_escape_iff {t : Text} : NoControl (escape t) ↔ NoControl t := by
  have hbackslash : Kotlin.isISOControl '\\' = false := by decide
  induction t with
  | nil => simp
  | cons c t ih =>
    rw [escape_cons]
    split <;> simp [ih, hbackslash]

theorem noControl_entryText_iff {entry : Text × Option Text} :
    NoControl (entryText entry) ↔ NoControl entry.1 ∧ ∀ v, entry.2 = some v → NoControl v := by
  have hequals : Kotlin.isISOControl '=' = false := by decide
  obtain ⟨key, value⟩ := entry
  cases value with
  | none => simp [entryText]
  | some value => simp [entryText, hequals]

/-- Printing entries adds no control character. -/
theorem noControl_entriesText_iff {entries : List (Text × Option Text)} :
    NoControl (entriesText entries) ↔ EntriesNoControl entries := by
  have hsemicolon : Kotlin.isISOControl ';' = false := by decide
  induction entries with
  | nil => simp [entriesText, EntriesNoControl]
  | cons e entries ih =>
    rw [entriesText_cons, noControl_append, noControl_append, noControl_entryText_iff]
    simp [EntriesNoControl, hsemicolon, ih]

/-- The constructor on a text that is read. -/
theorem ofOptions_of_noControl {options : Text} (parseId : Bool) (hne : options ≠ [])
    (h : NoControl (options ++ [';'])) :
    ofOptions options parseId =
      .ok ((options ++ [';']).foldl Scan.next { parseId }).result := by
  rw [ofOptions, if_neg hne, if_pos]
  rw [List.all_eq_true]
  intro c hc
  rw [Bool.not_eq_true']
  exact (noControl_append.mp h).1 c hc

/-- The constructor on a text with a control character. -/
theorem ofOptions_of_control {options : Text} (parseId : Bool)
    (h : ¬ NoControl (options ++ [';'])) :
    ofOptions options parseId = .error "No control characters allowed." := by
  have hsemicolon : Kotlin.isISOControl ';' = false := by decide
  have hcontrol : ¬ NoControl options := by
    intro hoptions
    exact h (noControl_append.mpr ⟨hoptions, by simp [hsemicolon]⟩)
  have hne : options ≠ [] := by
    rintro rfl
    exact hcontrol noControl_nil
  rw [ofOptions, if_neg hne, if_neg]
  intro hall
  rw [List.all_eq_true] at hall
  refine hcontrol fun c hc => ?_
  rw [← Bool.not_eq_true']
  exact hall c hc

variable (hash : HashOrder) {o : PluginOptions}

theorem EntriesNoControl.of_perm {es es' : List (Text × Option Text)} (hperm : es'.Perm es)
    (h : EntriesNoControl es) : EntriesNoControl es' := fun e he => h e (hperm.mem_iff.mp he)

theorem Named.order (h : o.Named) : ∀ e ∈ hash.order o.options.entries, EntryNamed e :=
  fun e he => h e ((hash.perm _).mem_iff.mp he)

/-- The keys of the entries stay distinct in any order. -/
theorem nodup_order (o : PluginOptions) : ((hash.order o.options.entries).map Prod.fst).Nodup :=
  ((hash.perm _).map Prod.fst).nodup_iff.mpr o.options.nodup

/-- The printed options, read with the id, are the options. -/
theorem ofIdText_toString (hnamed : o.Named) (hcontrol : EntriesNoControl o.options.entries) :
    ∃ o', ofIdText o.id (some (o.toString hash true)) = .ok o' ∧ o'.id = o.id ∧
      o'.options.entries = hash.order o.options.entries := by
  have htext : o.toString hash true = appendEntries [] (hash.order o.options.entries) := rfl
  rw [ofIdText, htext, Option.getD_some]
  by_cases hempty : hash.order o.options.entries = []
  · rw [hempty]
    exact ⟨{ id := o.id }, rfl, rfl, rfl⟩
  · have hread := appendEntries_nil hempty (hnamed.order hash)
    have hne := appendEntries_nil_ne_nil hempty (hnamed.order hash)
    rw [ofOptions_of_noControl false hne (by
      rw [hread]
      exact noControl_entriesText_iff.mpr (hcontrol.of_perm (hash.perm _))), hread,
      foldl_next_entriesText (hnamed.order hash) rfl rfl rfl rfl]
    obtain ⟨-, hentries⟩ := foldl_put (o := {}) (nodup_order hash o)
    exact ⟨_, rfl, rfl, hentries⟩

/-- Options with a control character cannot be read back. -/
theorem ofIdText_toString_of_control (hnamed : o.Named)
    (hcontrol : ¬ EntriesNoControl o.options.entries) :
    ofIdText o.id (some (o.toString hash true)) = .error "No control characters allowed." := by
  have hne : hash.order o.options.entries ≠ [] := by
    intro h
    have hnil : o.options.entries = [] := (h ▸ hash.perm o.options.entries).nil_eq.symm
    rw [hnil] at hcontrol
    exact hcontrol fun e he => by cases he
  have htext : o.toString hash true = appendEntries [] (hash.order o.options.entries) := rfl
  rw [ofIdText, htext, Option.getD_some, ofOptions_of_control]
  · rfl
  · rw [appendEntries_nil hne (hnamed.order hash), noControl_entriesText_iff]
    exact fun h => hcontrol (h.of_perm (hash.perm _).symm)

/-- The printed options with their id are the options. -/
theorem ofText_toString (hid : o.id ≠ []) (hidControl : NoControl o.id) (hnamed : o.Named)
    (hcontrol : EntriesNoControl o.options.entries) :
    ∃ o', ofText (o.toString hash false) = .ok o' ∧ o'.id = o.id ∧
      o'.options.entries = hash.order o.options.entries := by
  have hsemicolon : Kotlin.isISOControl ';' = false := by decide
  have htext : o.toString hash false =
      appendEntries (escape o.id) (hash.order o.options.entries) := by
    rw [toString, if_neg (by decide), if_neg hid]
  have hescape : escape o.id ≠ [] := fun h => hid (escape_eq_nil_iff.mp h)
  have hread := appendEntries_of_ne_nil hescape (hash.order o.options.entries)
  have hne : appendEntries (escape o.id) (hash.order o.options.entries) ≠ [] := by
    intro h
    rw [h, List.nil_append] at hread
    have hlength := congrArg List.length hread
    have hpos := List.length_pos_iff.mpr hescape
    simp at hlength
    omega
  rw [ofText, htext, ofOptions_of_noControl true hne, hread]
  · -- the id, its semicolon, and the entries
    rw [List.foldl_append, foldl_next_escape _ rfl, List.foldl_cons]
    have hstep : Scan.next { current := [] ++ o.id, parseId := true } ';' =
        { result := { id := o.id }, parseId := false } := by
      simp [Scan.next, Scan.finishPart, hid]
    rw [hstep, foldl_next_entriesText (hnamed.order hash) rfl rfl rfl rfl]
    obtain ⟨hid', hentries⟩ := foldl_put (o := { id := o.id }) (nodup_order hash o)
    exact ⟨_, rfl, hid', hentries⟩
  · rw [hread, noControl_append, noControl_cons, noControl_escape_iff, noControl_entriesText_iff]
    exact ⟨hidControl, hsemicolon, hcontrol.of_perm (hash.perm _)⟩

/-- `equals`: the same id, the same keys, and under each key the same value, a `null` value being
none of the texts. -/
def Equals (o o' : PluginOptions) : Prop :=
  o.id = o'.id ∧ ∀ key, o.options.get? key = o'.options.get? key

theorem equals_of_perm {o o' : PluginOptions} (hid : o.id = o'.id)
    (h : o.options.entries.Perm o'.options.entries) : o.Equals o' :=
  ⟨hid, LinkedMap.get?_eq_of_perm h⟩

/-- **Round trip.** Options without control characters are read back from both texts that
`toString` makes of them. -/
theorem equals_toString (o : PluginOptions) (hid : NoControl o.id)
    (hcontrol : EntriesNoControl o.options.entries) (hnamed : o.Named) :
    (∃ o', ofIdText o.id (some (o.toString hash true)) = .ok o' ∧ o'.Equals o) ∧
      (o.id ≠ [] → ∃ o', ofText (o.toString hash false) = .ok o' ∧ o'.Equals o) := by
  constructor
  · obtain ⟨o', hread, hid', hentries⟩ := ofIdText_toString hash hnamed hcontrol
    exact ⟨o', hread, equals_of_perm hid' (hentries ▸ hash.perm _)⟩
  · intro hne
    obtain ⟨o', hread, hid', hentries⟩ := ofText_toString hash hne hid hnamed hcontrol
    exact ⟨o', hread, equals_of_perm hid' (hentries ▸ hash.perm _)⟩

/-- Options in which every special character stands at an end of an id, a key or a value. -/
def specialOptions : PluginOptions :=
  (((PluginOptions.put { id := "\\id;".toList } "=key\\".toList (some ";value=".toList)).put
    "flag;".toList none).put "empty".toList (some [])).put [] (some "\\".toList)

theorem equals_toString_specialOptions :
    (∃ o', ofIdText specialOptions.id (some (specialOptions.toString .insertion true)) = .ok o' ∧
      o'.Equals specialOptions) ∧
    ∃ o', ofText (specialOptions.toString .insertion false) = .ok o' ∧
      o'.Equals specialOptions := by
  have hentries : specialOptions.options.entries =
      [("=key\\".toList, some ";value=".toList), ("flag;".toList, none),
        ("empty".toList, some []), ([], some "\\".toList)] := by decide
  have hcontrol : EntriesNoControl specialOptions.options.entries := by
    rw [hentries]
    unfold EntriesNoControl
    simp only [List.forall_mem_cons, Option.some.injEq, reduceCtorEq, forall_eq',
      false_implies, implies_true, and_true]
    decide
  have hnamed : specialOptions.Named := by
    unfold Named EntryNamed
    rw [hentries]
    decide
  obtain ⟨hread, hread'⟩ := equals_toString .insertion specialOptions (by decide) hcontrol hnamed
  exact ⟨hread, hread' (by decide)⟩

end PluginOptions
