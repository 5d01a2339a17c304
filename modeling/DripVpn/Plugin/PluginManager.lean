import DripVpn.Foundations.Path

/-!
# The plugin manager

`PluginManager.initNativeSlow` copies the files of a plugin into the plugin directory. The plugin, an
app of its own, says which: each row of its content provider is a path and a mode.

The path is checked by comparing the beginning of the absolute path of the file with the plugin
directory. That path still holds the names `.` and `..`, so the check only catches paths without
any name. `confined_iff` says which rows keep the function inside the directory.
-/

/-- The column `mode` of a row, by its type. -/
inductive FileMode where
  | integer (mode : ℤ)
  | string (mode : Text)
  | other

/-- Where the platform may throw while a row is handled. -/
inductive RowFault where
  | openInputStream
  | outputStream
  | copyTo
  | chmod
  deriving DecidableEq, Repr

/-- A row that the content provider returns, and what fails while it is handled. -/
structure PluginRow where
  path : Text
  mode : FileMode
  fault : Option RowFault := none

/-- What `initNativeSlow` throws. -/
inductive PluginException where
  /-- `check` -/
  | illegalState
  /-- A stream or the system call failed. -/
  | io
  /-- "File mode should be of type int" -/
  | illegalArgument
  | numberFormat
  /-- "Unable to create plugin directory" -/
  | fileNotFound
  /-- "Plugin entry binary not found" -/
  | indexOutOfBounds
  deriving DecidableEq, Repr

/-- What happens to files: one is opened for writing, or its mode is changed. -/
inductive FileEvent where
  | opened (file : List Text)
  | chmod (file : List Text) (mode : ℤ)
  deriving DecidableEq

def FileEvent.file : FileEvent → List Text
  | opened file => file
  | chmod file _ => file

/-- A directory: the names of its absolute path. -/
structure Directory where
  names : List Text
  ne_nil : names ≠ []
  isResolved : Path.IsResolved names

namespace PluginManager

/-- The value of octal digits that follow the digits of `n`. -/
def octalDigits : Text → ℕ → Option ℕ
  | [], n => some n
  | c :: t, n => ((Text.digit c).filter (· < 8)).bind fun d => octalDigits t (8 * n + d)

/-- `String.toInt(8)` -/
def toIntOctal (t : Text) : Option ℤ :=
  (match t with
    | [] => none
    | '-' :: t => if t = [] then none else (octalDigits t 0).map fun n => -(n : ℤ)
    | '+' :: t => if t = [] then none else (octalDigits t 0).map fun n => (n : ℤ)
    | t => (octalDigits t 0).map fun n => (n : ℤ)).filter
      fun n => decide (-2147483648 ≤ n ∧ n ≤ 2147483647)

/-- The mode of a row. -/
def fileMode : FileMode → Except PluginException ℤ
  | .integer mode => .ok mode
  | .string mode => match toIntOctal mode with
    | some mode => .ok mode
    | none => .error .numberFormat
  | .other => .error .illegalArgument

/-- `File(pluginDir, path)` -/
def fileOf (pluginDir : Directory) (row : PluginRow) : List Text :=
  pluginDir.names ++ Path.names row.path

/-- One round of the loop: what happens to files, and what is thrown. -/
def initRow (pluginDir : Directory) (row : PluginRow) :
    List FileEvent × Option PluginException :=
  let file := fileOf pluginDir row
  let pluginDirPath := Path.absolute pluginDir.names ++ ['/']
  -- `check(file.absolutePath.startsWith(pluginDirPath))`: texts are compared, `..` is not resolved
  if ¬ pluginDirPath <+: Path.absolute file then ([], some .illegalState)
  else match row.fault with
    | some .openInputStream => ([], some .io)
    | some .outputStream => ([], some .io)
    | some .copyTo => ([.opened file], some .io)
    | fault => match fileMode row.mode with
      | .error e => ([.opened file], some e)
      | .ok mode =>
        if fault = some .chmod then ([.opened file], some .io)
        else ([.opened file, .chmod file mode], none)

/-- The loop over the rows. -/
def initRows (pluginDir : Directory) : List PluginRow → List FileEvent × Option PluginException
  | [] => ([], none)
  | row :: rows =>
    match initRow pluginDir row with
    | (events, some e) => (events, some e)
    | (events, none) =>
      (events ++ (initRows pluginDir rows).1, (initRows pluginDir rows).2)

/-- `PluginManager.initNativeSlow`, for the answer of `cr.query` and of `pluginDir.mkdirs`. -/
def initNativeSlow (pluginDir : Directory) (id : Text) (query : Option (List PluginRow))
    (mkdirs : Bool) : List FileEvent × Except PluginException (Option Text) :=
  match query with
  | none => ([], .ok none)
  | some rows =>
    -- `if (!cursor.moveToFirst()) entryNotFound()`
    if rows = [] then ([], .error .indexOutOfBounds)
    else if ¬ mkdirs then ([], .error .fileNotFound)
    else match initRows pluginDir rows with
      | (events, some e) => (events, .error e)
      | (events, none) =>
        (events, if rows.any fun row => row.path = id then
          .ok (some (Path.absolute (pluginDir.names ++ Path.names id)))
        else .error .indexOutOfBounds)

/-- The row lies inside the plugin directory. -/
def Inside (pluginDir : Directory) (row : PluginRow) : Prop :=
  Path.Inside pluginDir.names (Path.names row.path)

/-- The function writes inside the plugin directory only, and throws at a row that would leave it
before it writes anything. -/
structure Confined (pluginDir : Directory) (id : Text) (query : Option (List PluginRow))
    (mkdirs : Bool) : Prop where
  inside : ∀ event ∈ (initNativeSlow pluginDir id query mkdirs).1,
    pluginDir.names <+: Path.resolve event.file ∧ pluginDir.names ≠ Path.resolve event.file
  throws : ∀ before row after, query = some (before ++ row :: after) →
    (initRows pluginDir before).2 = none → mkdirs = true → ¬ Inside pluginDir row →
      (∃ e, (initNativeSlow pluginDir id query mkdirs).2 = .error e) ∧
        (initNativeSlow pluginDir id query mkdirs).1 = (initRows pluginDir before).1

/-! ## One row -/

/-- The file of the row is opened: its path has a name, and the streams open. -/
def Opens (row : PluginRow) : Prop :=
  Path.names row.path ≠ [] ∧ row.fault ≠ some .openInputStream ∧ row.fault ≠ some .outputStream

/-- The row is handled to its end. -/
def Completes (row : PluginRow) : Prop :=
  Path.names row.path ≠ [] ∧ row.fault = none ∧ ∃ mode, fileMode row.mode = .ok mode

/-- The path of a row, reduced to some `..` and names: the names begin with the ones of the plugin
directory that the path has left, and go on. -/
def ComesBack (pluginDir : Directory) (row : PluginRow) : Prop :=
  let (ups, rest) := Path.climb (Path.names row.path)
  pluginDir.names.drop (pluginDir.names.length - ups) <+: rest ∧
    pluginDir.names.drop (pluginDir.names.length - ups) ≠ rest

variable {pluginDir : Directory} {row : PluginRow} {rows : List PluginRow}

theorem inside_iff_comesBack : Inside pluginDir row ↔ ComesBack pluginDir row :=
  Path.inside_iff pluginDir.isResolved (Path.names row.path)

theorem initRow_of_nil (h : Path.names row.path = []) :
    initRow pluginDir row = ([], some .illegalState) := by
  refine if_pos fun hprefix => ?_
  exact (Path.absolute_prefix_iff pluginDir.ne_nil _).mp hprefix h

/-- What the guard lets through is handled up to the first fault. -/
theorem initRow_of_ne_nil (h : Path.names row.path ≠ []) :
    initRow pluginDir row = match row.fault with
      | some .openInputStream => ([], some .io)
      | some .outputStream => ([], some .io)
      | some .copyTo => ([.opened (fileOf pluginDir row)], some .io)
      | fault => match fileMode row.mode with
        | .error e => ([.opened (fileOf pluginDir row)], some e)
        | .ok mode =>
          if fault = some .chmod then ([.opened (fileOf pluginDir row)], some .io)
          else ([.opened (fileOf pluginDir row), .chmod (fileOf pluginDir row) mode], none) :=
  if_neg (not_not.mpr ((Path.absolute_prefix_iff pluginDir.ne_nil _).mpr h))

/-- What one row can do. -/
theorem initRow_cases (pluginDir : Directory) (row : PluginRow) :
    (¬ Opens row ∧ ∃ e, initRow pluginDir row = ([], some e)) ∨
      (Opens row ∧ ¬ Completes row ∧
        ∃ e, initRow pluginDir row = ([.opened (fileOf pluginDir row)], some e)) ∨
      (Opens row ∧ Completes row ∧ ∃ mode, initRow pluginDir row =
        ([.opened (fileOf pluginDir row), .chmod (fileOf pluginDir row) mode], none)) := by
  by_cases hnames : Path.names row.path = []
  · exact .inl ⟨fun hopens => hopens.1 hnames, _, initRow_of_nil hnames⟩
  rw [initRow_of_ne_nil hnames]
  obtain ⟨path, mode, fault⟩ := row
  match fault with
  | some .openInputStream => exact .inl ⟨fun hopens => hopens.2.1 rfl, _, rfl⟩
  | some .outputStream => exact .inl ⟨fun hopens => hopens.2.2 rfl, _, rfl⟩
  | some .copyTo =>
    refine .inr (.inl ⟨⟨hnames, by simp, by simp⟩, fun hcompletes => ?_, _, rfl⟩)
    cases hcompletes.2.1
  | some .chmod =>
    refine .inr (.inl ⟨⟨hnames, by simp, by simp⟩, fun hcompletes => ?_, ?_⟩)
    · cases hcompletes.2.1
    · simp only [if_true]
      cases fileMode mode with
      | error e => exact ⟨e, rfl⟩
      | ok value => exact ⟨.io, rfl⟩
  | none =>
    cases hmode : fileMode mode with
    | error e =>
      refine .inr (.inl ⟨⟨hnames, by simp, by simp⟩, fun hcompletes => ?_, e, rfl⟩)
      obtain ⟨value, hvalue⟩ := hcompletes.2.2
      rw [hmode] at hvalue
      cases hvalue
    | ok value =>
      exact .inr (.inr ⟨⟨hnames, by simp, by simp⟩, ⟨hnames, rfl, value, hmode⟩, value, rfl⟩)

theorem Completes.opens (h : Completes row) : Opens row := by
  obtain ⟨hnames, hfault, -⟩ := h
  exact ⟨hnames, by simp [hfault], by simp [hfault]⟩

theorem exception_initRow_iff : (initRow pluginDir row).2 = none ↔ Completes row := by
  obtain ⟨hopens, e, hrow⟩ | ⟨-, hcompletes, e, hrow⟩ | ⟨-, hcompletes, mode, hrow⟩ :=
    initRow_cases pluginDir row
  · rw [hrow]
    exact iff_of_false (Option.some_ne_none e) fun hcompletes => hopens hcompletes.opens
  · rw [hrow]
    exact iff_of_false (Option.some_ne_none e) hcompletes
  · rw [hrow]
    exact iff_of_true rfl hcompletes

theorem opened_mem_initRow (h : Opens row) :
    .opened (fileOf pluginDir row) ∈ (initRow pluginDir row).1 := by
  obtain ⟨hopens, -⟩ | ⟨-, -, e, hrow⟩ | ⟨-, -, mode, hrow⟩ := initRow_cases pluginDir row
  · exact absurd h hopens
  · rw [hrow]
    exact List.mem_cons_self
  · rw [hrow]
    exact List.mem_cons_self

theorem file_of_mem_initRow {event : FileEvent} (h : event ∈ (initRow pluginDir row).1) :
    Opens row ∧ event.file = fileOf pluginDir row := by
  obtain ⟨-, e, hrow⟩ | ⟨hopens, -, e, hrow⟩ | ⟨hopens, -, mode, hrow⟩ :=
    initRow_cases pluginDir row
  · rw [hrow] at h
    cases h
  · rw [hrow] at h
    obtain rfl := List.mem_singleton.mp h
    exact ⟨hopens, rfl⟩
  · rw [hrow] at h
    rcases List.mem_pair.mp h with rfl | rfl
    · exact ⟨hopens, rfl⟩
    · exact ⟨hopens, rfl⟩

/-! ## All rows -/

theorem initRows_cons_of_completes (h : Completes row) (rows : List PluginRow) :
    initRows pluginDir (row :: rows) = ((initRow pluginDir row).1 ++ (initRows pluginDir rows).1,
      (initRows pluginDir rows).2) := by
  have hnone : (initRow pluginDir row).2 = none := exception_initRow_iff.mpr h
  rw [initRows]
  generalize initRow pluginDir row = result at hnone ⊢
  obtain ⟨events, exception⟩ := result
  obtain rfl : exception = none := hnone
  rfl

theorem initRows_cons_of_not_completes (h : ¬ Completes row) (rows : List PluginRow) :
    initRows pluginDir (row :: rows) = initRow pluginDir row := by
  have hsome : (initRow pluginDir row).2 ≠ none := fun hnone => h (exception_initRow_iff.mp hnone)
  rw [initRows]
  generalize initRow pluginDir row = result at hsome ⊢
  obtain ⟨events, _ | e⟩ := result
  · exact absurd rfl hsome
  · rfl

theorem exception_initRows_iff :
    (initRows pluginDir rows).2 = none ↔ ∀ row ∈ rows, Completes row := by
  induction rows with
  | nil => exact iff_of_true rfl (List.forall_mem_nil _)
  | cons row rows ih =>
    rw [List.forall_mem_cons]
    by_cases hrow : Completes row
    · rw [initRows_cons_of_completes hrow, ih]
      exact (and_iff_right hrow).symm
    · rw [initRows_cons_of_not_completes hrow, exception_initRow_iff]
      exact iff_of_false hrow fun hall => hrow hall.1

/-- The rows that are handled to their end come first. -/
theorem initRows_append {before : List PluginRow} (h : ∀ row ∈ before, Completes row)
    (rows : List PluginRow) :
    initRows pluginDir (before ++ rows) =
      ((initRows pluginDir before).1 ++ (initRows pluginDir rows).1,
        (initRows pluginDir rows).2) := by
  induction before with
  | nil => rfl
  | cons row before ih =>
    obtain ⟨hrow, hbefore⟩ := List.forall_mem_cons.mp h
    rw [List.cons_append, initRows_cons_of_completes hrow, initRows_cons_of_completes hrow,
      ih hbefore, List.append_assoc]

/-- Whatever happens to a file is done by a row that is reached. -/
theorem exists_row_of_mem_initRows {event : FileEvent} (h : event ∈ (initRows pluginDir rows).1) :
    ∃ before row after, rows = before ++ row :: after ∧ (∀ r ∈ before, Completes r) ∧
      event ∈ (initRow pluginDir row).1 := by
  induction rows with
  | nil => cases h
  | cons row rows ih =>
    by_cases hrow : Completes row
    · rw [initRows_cons_of_completes hrow] at h
      rcases List.mem_append.mp h with h | h
      · exact ⟨[], row, rows, rfl, List.forall_mem_nil _, h⟩
      · obtain ⟨before, last, after, rfl, hbefore, hevent⟩ := ih h
        exact ⟨row :: before, last, after, rfl, List.forall_mem_cons.mpr ⟨hrow, hbefore⟩, hevent⟩
    · rw [initRows_cons_of_not_completes hrow] at h
      exact ⟨[], row, rows, rfl, List.forall_mem_nil _, h⟩

theorem initNativeSlow_of_cons (id : Text) (h : rows ≠ []) :
    (initNativeSlow pluginDir id (some rows) true).1 = (initRows pluginDir rows).1 ∧
      ∀ e, (initRows pluginDir rows).2 = some e →
        (initNativeSlow pluginDir id (some rows) true).2 = .error e := by
  rw [initNativeSlow, if_neg h, if_neg (by simp)]
  obtain ⟨events, _ | e⟩ := initRows pluginDir rows
  · exact ⟨rfl, fun e he => by cases he⟩
  · refine ⟨rfl, fun e' he' => ?_⟩
    obtain rfl := Option.some.inj he'
    rfl

theorem initNativeSlow_events {id : Text} {query : Option (List PluginRow)} {mkdirs : Bool}
    {event : FileEvent} (h : event ∈ (initNativeSlow pluginDir id query mkdirs).1) :
    mkdirs = true ∧ ∃ rows, query = some rows ∧ event ∈ (initRows pluginDir rows).1 := by
  match query with
  | none => cases h
  | some rows =>
    by_cases hrows : rows = []
    · rw [initNativeSlow, if_pos hrows] at h
      cases h
    · cases mkdirs with
      | false =>
        rw [initNativeSlow, if_neg hrows, if_pos (by simp)] at h
        cases h
      | true => exact ⟨rfl, rows, rfl, (initNativeSlow_of_cons id hrows).1 ▸ h⟩

/-- **Confinement.** The function stays inside the plugin directory exactly if each row that is
reached and whose file is opened has a path that comes back to the directory whenever it leaves it,
and names something in it. -/
theorem confined_iff (pluginDir : Directory) (id : Text) (query : Option (List PluginRow))
    (mkdirs : Bool) :
    Confined pluginDir id query mkdirs ↔
      ∀ before row after, query = some (before ++ row :: after) → mkdirs = true →
        (∀ r ∈ before, Completes r) → Opens row → ComesBack pluginDir row := by
  constructor
  · rintro hconfined before row after rfl rfl hbefore hopens
    rw [← inside_iff_comesBack]
    refine hconfined.inside (.opened (fileOf pluginDir row)) ?_
    rw [(initNativeSlow_of_cons id (by simp)).1, initRows_append hbefore]
    refine List.mem_append_right _ ?_
    have hopened : .opened (fileOf pluginDir row) ∈ (initRow pluginDir row).1 :=
      opened_mem_initRow hopens
    by_cases hrow : Completes row
    · rw [initRows_cons_of_completes hrow]
      exact List.mem_append_left _ hopened
    · rw [initRows_cons_of_not_completes hrow]
      exact hopened
  · intro hcond
    constructor
    · intro event hevent
      obtain ⟨hmkdirs, rows, hquery, hevent⟩ := initNativeSlow_events hevent
      obtain ⟨before, row, after, rfl, hbefore, hevent⟩ := exists_row_of_mem_initRows hevent
      obtain ⟨hopens, hfile⟩ := file_of_mem_initRow hevent
      rw [hfile]
      exact inside_iff_comesBack.mpr (hcond before row after hquery hmkdirs hbefore hopens)
    · rintro before row after rfl hnone rfl hleaves
      have hbefore := exception_initRows_iff.mp hnone
      have hnot : ¬ Opens row := fun hopens =>
        hleaves (inside_iff_comesBack.mpr (hcond before row after rfl rfl hbefore hopens))
      obtain ⟨-, e, hrow⟩ | ⟨hopens, -⟩ | ⟨hopens, -⟩ := initRow_cases pluginDir row
      · have hrows : initRows pluginDir (before ++ row :: after) =
            ((initRows pluginDir before).1, some e) := by
          rw [initRows_append hbefore,
            initRows_cons_of_not_completes fun hcompletes => hnot hcompletes.opens, hrow,
            List.append_nil]
        have hne : before ++ row :: after ≠ [] :=
          List.append_ne_nil_of_right_ne_nil before (List.cons_ne_nil row after)
        refine ⟨⟨e, (initNativeSlow_of_cons id hne).2 e ?_⟩, ?_⟩
        · rw [hrows]
        · rw [(initNativeSlow_of_cons id hne).1, hrows]
      · exact absurd hopens hnot
      · exact absurd hopens hnot

theorem isResolved_sampleDir : Path.IsResolved ["no_backup".toList, "plugin".toList] := by
  unfold Path.IsResolved
  decide

/-- A plugin directory. -/
def sampleDir : Directory :=
  ⟨["no_backup".toList, "plugin".toList], List.cons_ne_nil _ _, isResolved_sampleDir⟩

/-- A plugin that names `../x` writes a file next to the plugin directory. -/
theorem file_outside_written :
    (initNativeSlow sampleDir "p".toList (some [⟨"../x".toList, .integer 448, none⟩]) true).1 =
        [.opened (sampleDir.names ++ ["..".toList, "x".toList]),
          .chmod (sampleDir.names ++ ["..".toList, "x".toList]) 448] ∧
      Path.resolve (sampleDir.names ++ ["..".toList, "x".toList]) =
        ["no_backup".toList, "x".toList] ∧
      ¬ Confined sampleDir "p".toList (some [⟨"../x".toList, .integer 448, none⟩]) true := by
  have hevents : (initNativeSlow sampleDir "p".toList
      (some [⟨"../x".toList, .integer 448, none⟩]) true).1 =
        [.opened (sampleDir.names ++ ["..".toList, "x".toList]),
          .chmod (sampleDir.names ++ ["..".toList, "x".toList]) 448] := by decide
  refine ⟨hevents, by decide, fun hconfined => ?_⟩
  have hinside := hconfined.inside (.opened (sampleDir.names ++ ["..".toList, "x".toList]))
    (hevents ▸ List.mem_cons_self)
  exact absurd hinside.1 (by decide)

end PluginManager
