import DripVpn.Db.Import

/-!
# Importing into any database

What `Profile.parseJson` does to a database that holds rows already, with a callback that makes a
new row of every profile: the rows of the profiles are added in order, then the fallbacks are
resolved. A fallback that matches one of the rows read at the start of `finalize` is that row; any
other gets a row of its own, also when the same fallback was created a moment ago.
-/

open Reactive

namespace JsonParser

variable {τ : Type}

/-- As long as the variables are `own`, the callback creates a row for what `prepare` makes of a
profile. -/
def CreatesRows (create : Profile → DaoProgram τ Int64) (prepare : Profile → Profile)
    (own : τ) : Prop :=
  ∀ p s, s.own = own → create p s = ProfileManager.createProfile (prepare p) s

/-- A row made of what `prepare` makes of a profile, under a key that was not given out before:
`sequence` is the largest of those. -/
def IsNewRowOf (prepare : Profile → Profile) (sequence : ℕ) (p row : Profile) : Prop :=
  IsRowOf (prepare p) row ∧ (sequence : ℤ) < row.id.toInt

/-- What becomes of a fallback: the row `target`, and the rows that were created for it. -/
def Resolves (prepare : Profile → Profile) (sequence : ℕ) (snapshot : List Profile)
    (fallback : Profile) (target : Int64) (new : List Profile) : Prop :=
  match snapshot.find? (isMatch fallback) with
  | some row => target = row.id ∧ new = []
  | none => ∃ row, IsNewRowOf prepare sequence fallback row ∧ target = row.id ∧ new = [row]

/-- What becomes of the fallbacks of the profiles, in order. -/
inductive Resolved (prepare : Profile → Profile) (sequence : ℕ) (snapshot : List Profile) :
    List (Option Profile) → List (Option Int64) → List Profile → Prop
  | nil : Resolved prepare sequence snapshot [] [] []
  /-- The profile asks for no fallback. -/
  | skip {assigned targets new} : Resolved prepare sequence snapshot assigned targets new →
      Resolved prepare sequence snapshot (none :: assigned) (none :: targets) new
  | resolve {fallback target new₁ assigned targets new} :
      Resolves prepare sequence snapshot fallback target new₁ →
      Resolved prepare sequence snapshot assigned targets new →
      Resolved prepare sequence snapshot (some fallback :: assigned) (some target :: targets)
        (new₁ ++ new)

/-- A row with its fallback. -/
def withFallback (row : Profile) : Option Int64 → Profile
  | none => row
  | some target => { row with udpFallback := some target }

/-- The rows that a document adds to the rows `before`: one for each profile, linked to its
fallback, and those of the fallbacks. -/
def Adds (prepare : Profile → Profile) (sequence : ℕ) (before : List Profile)
    (parser : JsonParser) (added : List Profile) : Prop :=
  ∃ rows targets new, added = List.zipWith withFallback rows targets ++ new ∧
    List.Forall₂ (IsNewRowOf prepare sequence) parser.profiles rows ∧
    Resolved prepare sequence (before ++ rows) (assign parser.profiles parser.fallbackMap) targets
      new

/-- The rows that are created for fallbacks have new keys. -/
theorem Resolved.sequence_lt {prepare : Profile → Profile} {sequence : ℕ} {snapshot : List Profile}
    {assigned : List (Option Profile)} {targets : List (Option Int64)} {new : List Profile}
    (h : Resolved prepare sequence snapshot assigned targets new) :
    ∀ row ∈ new, (sequence : ℤ) < row.id.toInt := by
  induction h with
  | nil => exact fun row hrow => by cases hrow
  | skip _ ih => exact ih
  | @resolve fallback target new₁ assigned targets new hresolves _ ih =>
    intro row hrow
    rcases List.mem_append.mp hrow with hrow | hrow
    · unfold Resolves at hresolves
      split at hresolves
      · rw [hresolves.2] at hrow
        cases hrow
      · obtain ⟨r, hr, -, rfl⟩ := hresolves
        rw [List.mem_singleton.mp hrow]
        exact hr.2
    · exact ih row hrow

/-- What becomes of the fallback of one profile. -/
theorem Resolved.getElem? {prepare : Profile → Profile} {sequence : ℕ} {snapshot : List Profile}
    {assigned : List (Option Profile)} {targets : List (Option Int64)} {new : List Profile}
    (h : Resolved prepare sequence snapshot assigned targets new) (i : ℕ) :
    (assigned[i]? = some none → targets[i]? = some none) ∧
      ∀ fallback, assigned[i]? = some (some fallback) → ∃ target new₁,
        targets[i]? = some (some target) ∧ new₁ ⊆ new ∧
          Resolves prepare sequence snapshot fallback target new₁ := by
  induction h generalizing i with
  | nil => exact ⟨by simp, by simp⟩
  | skip _ ih =>
    cases i with
    | zero => exact ⟨fun _ => rfl, by simp⟩
    | succ i => exact ih i
  | @resolve fallback target new₁ assigned targets new hresolves _ ih =>
    cases i with
    | zero =>
      refine ⟨by simp, fun f h => ?_⟩
      obtain rfl : fallback = f := Option.some.inj (Option.some.inj h)
      exact ⟨target, new₁, rfl, List.subset_append_left _ _, hresolves⟩
    | succ i =>
      refine ⟨(ih i).1, fun f h => ?_⟩
      obtain ⟨t, new₂, ht, hsubset, hresolves'⟩ := (ih i).2 f h
      exact ⟨t, new₂, ht, List.subset_append_of_subset_right _ hsubset, hresolves'⟩

theorem Resolved.length_targets {prepare : Profile → Profile} {sequence : ℕ}
    {snapshot : List Profile} {assigned : List (Option Profile)} {targets : List (Option Int64)}
    {new : List Profile} (h : Resolved prepare sequence snapshot assigned targets new) :
    targets.length = assigned.length := by
  induction h with
  | nil => rfl
  | skip _ ih => rw [List.length_cons, List.length_cons, ih]
  | resolve _ _ ih => rw [List.length_cons, List.length_cons, ih]

/-- One row is created for each fallback that no row matches. -/
theorem Resolved.length_new {prepare : Profile → Profile} {sequence : ℕ} {snapshot : List Profile}
    {assigned : List (Option Profile)} {targets : List (Option Int64)} {new : List Profile}
    (h : Resolved prepare sequence snapshot assigned targets new) :
    new.length = ((assigned.filterMap id).filter fun fallback =>
      (snapshot.find? (isMatch fallback)).isNone).length := by
  induction h with
  | nil => rfl
  | skip _ ih => exact ih
  | @resolve fallback target new₁ assigned targets new hresolves _ ih =>
    rw [List.length_append, ih, List.filterMap_cons_some (f := id) rfl, List.filter_cons]
    unfold Resolves at hresolves
    split at hresolves
    next row hfind =>
      rw [hfind, hresolves.2]
      simp
    next hfind =>
      obtain ⟨row, -, -, rfl⟩ := hresolves
      rw [hfind]
      simp [Nat.add_comm]

@[simp]
theorem withFallback_id (row : Profile) (target : Option Int64) :
    (withFallback row target).id = row.id := by
  cases target with
  | none => rfl
  | some target => rfl

/-- All rows of a document have new keys. -/
theorem Adds.sequence_lt {prepare : Profile → Profile} {sequence : ℕ} {before : List Profile}
    {parser : JsonParser} {added : List Profile} (h : Adds prepare sequence before parser added) :
    ∀ row ∈ added, (sequence : ℤ) < row.id.toInt := by
  obtain ⟨rows, targets, new, rfl, hrows, hresolved⟩ := h
  intro row hrow
  rcases List.mem_append.mp hrow with hrow | hrow
  · rw [← List.map_uncurry_zip_eq_zipWith, List.mem_map] at hrow
    obtain ⟨⟨r, target⟩, hmem, rfl⟩ := hrow
    show (sequence : ℤ) < (withFallback r target).id.toInt
    rw [withFallback_id]
    obtain ⟨p, -, hp⟩ := exists_of_mem_right hrows (List.of_mem_zip hmem).1
    exact hp.2
  · exact hresolved.sequence_lt row hrow

/-! ## The callback -/

variable {create : Profile → DaoProgram τ Int64} {prepare : Profile → Profile} {own : τ}
  {sequence : ℕ} {E : StorageException → Heap τ → ProfileDatabase → Prop}

/-- The objects of some rows are as the rows. -/
def Loaded (rows : List Profile) (s : Heap τ) : Prop :=
  ∀ row ∈ rows, (s.objects row.id).stored = row

/-- The variables are `own`, the rows `all`, and the objects of `loaded` are as their rows. -/
structure At (sequence : ℕ) (own : τ) (all loaded : List Profile) (s : Heap τ)
    (db : ProfileDatabase) : Prop where
  sequence_le : sequence ≤ db.sequence
  own : s.own = own
  rows : db.table.rows = all
  loaded : Loaded loaded s

/-- The callback adds a row, whose object it returns. -/
theorem ensures_create (hcreate : CreatesRows create prepare own) (p : Profile)
    {all loaded : List Profile} (hloaded : loaded ⊆ all) :
    Session.Ensures ProfileDatabase.service (At sequence own all loaded) (create p)
      (fun id s db => ∃ row, IsNewRowOf prepare sequence p row ∧ row.id = id ∧
        id ∉ all.map Profile.id ∧ At sequence own (all ++ [row]) (loaded ++ [row]) s db) E := by
  refine Session.ensures_congr (fun s db h => hcreate p s h.own) ?_
  refine ProfileManager.ensures_createProfile fun s db hdb h => ?_
  have hnew : ∀ row ∈ all, row.id ≠ db.nextKey :=
    fun row hrow => ProfileDatabase.id_ne_nextKey hdb (h.rows ▸ hrow)
  have hkey := ProfileDatabase.toInt_nextKey hdb
  have hle := h.sequence_le
  refine ⟨(ProfileManager.created db (prepare p)).stored, ⟨⟨_, _, rfl⟩, ?_⟩, rfl, ?_,
    Nat.le_succ_of_le hle, h.own, ?_, ?_⟩
  · show (sequence : ℤ) < db.nextKey.toInt
    omega
  · intro hmem
    obtain ⟨row, hrow, hid⟩ := List.mem_map.mp hmem
    exact hnew row hrow hid
  · rw [← h.rows]
    rfl
  · intro row hrow
    rcases List.mem_append.mp hrow with hrow | hrow
    · show (Function.update s.objects db.nextKey _ row.id).stored = row
      rw [Function.update_of_ne (hnew row (hloaded hrow))]
      exact h.loaded row hrow
    · obtain rfl := List.mem_singleton.mp hrow
      exact congrArg Profile.stored (Function.update_self _ _ _)

/-! ## The loop of `parseJson` -/

/-- The loop adds one row for each profile. -/
theorem ensures_createAll_rows (hcreate : CreatesRows create prepare own) (profiles : List Profile)
    (fallbackMap : LinkedMap Profile Profile) (linked : LinkedMap Int64 Profile)
    {all loaded : List Profile} (hloaded : loaded ⊆ all)
    (hlinked : linked.entries.map Prod.fst ⊆ all.map Profile.id) :
    Session.Ensures ProfileDatabase.service (At sequence own all loaded)
      (createAll create profiles fallbackMap linked)
      (fun linked' s db => ∃ rows,
        List.Forall₂ (IsNewRowOf prepare sequence) profiles rows ∧
        linked'.entries = linked.entries ++ linkedEntries rows (assign profiles fallbackMap) ∧
        At sequence own (all ++ rows) (loaded ++ rows) s db) E := by
  induction profiles generalizing fallbackMap linked all loaded with
  | nil =>
    refine Session.ensures_pure _ fun s db h => ⟨[], .nil, by simp [linkedEntries], ?_⟩
    simpa using h
  | cons p profiles ih =>
    refine Session.ensures_bind (ensures_create hcreate p hloaded) fun id => ?_
    rintro s db ⟨row, hrow, rfl, hnew, hat⟩
    have hentries : (match fallbackMap.get? p with
        | some fallback => linked.put row.id fallback
        | none => linked).entries =
          linked.entries ++ ((fallbackMap.get? p).map fun f => (row.id, f)).toList := by
      cases fallbackMap.get? p with
      | none => simp
      | some fallback =>
        exact LinkedMap.entries_put_of_not_mem fallback fun hmem => hnew (hlinked hmem)
    have hkeys : (match fallbackMap.get? p with
        | some fallback => linked.put row.id fallback
        | none => linked).entries.map Prod.fst ⊆ (all ++ [row]).map Profile.id := by
      rw [hentries, List.map_append, List.map_append]
      refine List.append_subset.mpr ⟨fun id hid => List.mem_append_left _ (hlinked hid), ?_⟩
      refine List.subset_append_of_subset_right _ ?_
      cases fallbackMap.get? p with
      | none => simp
      | some fallback => simp
    have hloaded' : loaded ++ [row] ⊆ all ++ [row] :=
      List.append_subset.mpr ⟨fun r hr => List.mem_append_left _ (hloaded hr),
        List.subset_append_right _ _⟩
    refine ((ih (fallbackMap.remove p) _ hloaded' hkeys).of_imp (fun _ _ h => h) ?_
      (fun _ _ _ h => h)) s db hat
    rintro linked' s' db' ⟨rows, hrows, hentries', hat'⟩
    refine ⟨row :: rows, .cons hrow hrows, ?_, ?_⟩
    · rw [hentries', hentries, assign, linkedEntries_cons, List.append_assoc]
    · simpa using hat'

/-! ## `finalize` -/

/-- Updating a row changes its place in the list. -/
theorem rows_update {db : ProfileDatabase} {front back : List Profile} {row value : Profile}
    (hrows : db.table.rows = front ++ row :: back) (hid : value.id = row.id) :
    (db.update value).table.rows = front ++ value.stored :: back := by
  have hnodup := db.table.nodup
  rw [hrows, List.map_append, List.map_cons, List.nodup_append] at hnodup
  obtain ⟨-, hback, hfront⟩ := hnodup
  have hsame : ∀ r : Profile, r.id ≠ row.id →
      (if r.id = value.id then value.stored else r) = r := by
    intro r hr
    rw [hid, if_neg hr]
  show (db.table.rows.map fun r => if r.id = value.id then value.stored else r) = _
  rw [hrows, List.map_append, List.map_cons, if_pos hid.symm]
  congr 1
  · conv_rhs => rw [← List.map_id front]
    apply List.map_congr_left
    exact fun r hr => hsame r (hfront r.id (List.mem_map_of_mem hr) row.id List.mem_cons_self)
  · congr 1
    conv_rhs => rw [← List.map_id back]
    apply List.map_congr_left
    intro r hr
    apply hsame
    rintro hrid
    exact (List.nodup_cons.mp hback).1 (hrid ▸ List.mem_map_of_mem hr)

/-- `match ?: create(fallback)`. -/
theorem ensures_matchOrCreate (hcreate : CreatesRows create prepare own) (snapshot : List Profile)
    (fallback : Profile) {all loaded : List Profile} (hloaded : loaded ⊆ all) :
    Session.Ensures ProfileDatabase.service (At sequence own all loaded)
      (matchOrCreate create snapshot fallback)
      (fun target s db => ∃ new, Resolves prepare sequence snapshot fallback target new ∧
        At sequence own (all ++ new) loaded s db) E := by
  rw [matchOrCreate]
  cases hfind : snapshot.find? (isMatch fallback) with
  | some row =>
    refine Session.ensures_pure _ fun s db h => ⟨[], ?_, by rwa [List.append_nil]⟩
    rw [Resolves, hfind]
    exact ⟨rfl, rfl⟩
  | none =>
    refine (ensures_create hcreate fallback hloaded).of_imp (fun _ _ h => h) ?_ (fun _ _ _ h => h)
    rintro target s db ⟨row, hrow, hid, -, hat⟩
    refine ⟨[row], ?_, hat.sequence_le, hat.own, hat.rows,
      fun r hr => hat.loaded r (List.mem_append_left _ hr)⟩
    rw [Resolves, hfind]
    exact ⟨row, hrow, hid.symm, rfl⟩

/-- One turn of the loop of `finalize`. -/
theorem ensures_link_row (hcreate : CreatesRows create prepare own) (snapshot : List Profile)
    (fallback : Profile) {front rest back : List Profile} {row : Profile} :
    Session.Ensures ProfileDatabase.service
      (At sequence own (front ++ row :: rest ++ back) (row :: rest))
      (link create snapshot (row.id, fallback))
      (fun _ s db => ∃ target new, Resolves prepare sequence snapshot fallback target new ∧
        At sequence own ((front ++ [withFallback row (some target)]) ++ rest ++ (back ++ new)) rest
          s db) E := by
  have hloaded : row :: rest ⊆ front ++ row :: rest ++ back :=
    List.subset_append_of_subset_left _ (List.subset_append_right _ _)
  refine Session.ensures_bind (ensures_matchOrCreate hcreate snapshot fallback hloaded)
    fun target => ?_
  refine Session.ensures_bind (Session.ensures_get
    (Q := fun s₀ s db => s₀ = s ∧ ∃ new, Resolves prepare sequence snapshot fallback target new ∧
      At sequence own (front ++ row :: rest ++ back ++ new) (row :: rest) s db)
    fun s db h => ⟨rfl, h⟩) fun s₀ => ?_
  rintro _ db ⟨rfl, new, hresolves, hat⟩
  have hrow := hat.loaded row List.mem_cons_self
  have hrows : db.table.rows = front ++ row :: (rest ++ (back ++ new)) := by
    rw [hat.rows]
    simp
  have hid : (s₀.objects row.id).id = row.id := by
    rw [← Profile.stored_id, hrow]
  have hget : db.table.get row.id ≠ none := by
    intro hnone
    rw [ProfileTable.get_eq_none_iff] at hnone
    exact hnone row (by rw [hrows]; simp) rfl
  refine Session.ensures_bind (P := fun s d => s = s₀ ∧ d = db)
    (ProfileManager.ensures_setObject (Q := fun _ s d => s = { s₀ with
      objects := Function.update s₀.objects row.id
        { s₀.objects row.id with udpFallback := some target } } ∧ d = db) ?_)
    (fun _ => ProfileManager.ensures_updateProfile ?_) s₀ db ⟨rfl, rfl⟩
  · rintro s d ⟨rfl, rfl⟩
    exact ⟨rfl, rfl⟩
  · rintro s d ⟨rfl, rfl⟩
    have hstored : ({ s₀.objects row.id with udpFallback := some target } : Profile).stored =
        withFallback row (some target) :=
      congrArg (fun p : Profile => { p with udpFallback := some target }) hrow
    have hupdated := @rows_update d front (rest ++ (back ++ new)) row
      { s₀.objects row.id with udpFallback := some target } hrows hid
    refine ⟨?_, target, new, hresolves, hat.sequence_le, hat.own, hupdated.trans ?_, ?_⟩
    · show d.table.get (s₀.objects row.id).id ≠ none
      rw [hid]
      exact hget
    · rw [hstored]
      simp
    · intro r hr
      have hne : r.id ≠ row.id := by
        have hnodup := d.table.nodup
        rw [hrows, List.map_append, List.map_cons, List.map_append] at hnodup
        have hnot := (List.nodup_cons.mp (List.nodup_append.mp hnodup).2.1).1
        exact fun h => hnot (h ▸ List.mem_append_left _ (List.mem_map_of_mem hr))
      show (Function.update s₀.objects row.id _ r.id).stored = r
      rw [Function.update_of_ne hne]
      exact hat.loaded r (List.mem_cons_of_mem _ hr)

/-- The loop of `finalize`: the rows `rest` are still to be linked. -/
theorem ensures_links (hcreate : CreatesRows create prepare own) (snapshot : List Profile)
    {rest : List Profile} {assigned : List (Option Profile)}
    (hlength : rest.length = assigned.length) {front back : List Profile} :
    Session.Ensures ProfileDatabase.service (At sequence own (front ++ rest ++ back) rest)
      ((linkedEntries rest assigned).forM (link create snapshot))
      (fun _ s db => ∃ targets new, Resolved prepare sequence snapshot assigned targets new ∧
        At sequence own (front ++ List.zipWith withFallback rest targets ++ (back ++ new)) []
          s db) E := by
  induction rest generalizing assigned front back with
  | nil =>
    obtain rfl : assigned = [] := List.length_eq_zero_iff.mp hlength.symm
    refine Session.ensures_pure _ fun s db h => ⟨[], [], .nil, ?_⟩
    simpa using h
  | cons row rest ih =>
    cases assigned with
    | nil => cases hlength
    | cons fallback assigned =>
      have hlength' : rest.length = assigned.length := Nat.succ.inj hlength
      rw [linkedEntries_cons]
      cases fallback with
      | none =>
        -- the row stays as it is
        refine (@ih assigned hlength' (front ++ [row]) back).of_imp ?_ ?_ (fun _ _ _ h => h)
        · intro s db h
          exact ⟨h.sequence_le, h.own, by simpa using h.rows,
            fun r hr => h.loaded r (List.mem_cons_of_mem _ hr)⟩
        · rintro _ s db ⟨targets, new, hresolved, hat⟩
          refine ⟨none :: targets, new, hresolved.skip, hat.sequence_le, hat.own, ?_, hat.loaded⟩
          rw [hat.rows]
          simp [withFallback]
      | some fallback =>
        refine Session.ensures_bind (ensures_link_row hcreate snapshot fallback) fun _ => ?_
        rintro s db ⟨target, new₁, hresolves, hat⟩
        refine ((ih hlength').of_imp (fun _ _ h => h) ?_ (fun _ _ _ h => h)) s db hat
        rintro _ s' db' ⟨targets, new, hresolved, hat'⟩
        refine ⟨some target :: targets, new₁ ++ new, hresolved.resolve hresolves, hat'.sequence_le,
          hat'.own, ?_, hat'.loaded⟩
        rw [hat'.rows]
        simp

/-! ## The whole function -/

/-- `parseJson` adds the rows of the document, unless the parser refuses it. -/
theorem ensures_parseJson_rows (hcreate : CreatesRows create prepare own) (hash : HashOrder)
    (feature : Option Profile) (json : JsonElement) (before : List Profile) :
    Session.Ensures ProfileDatabase.service (At sequence own before [])
      (Profile.parseJson hash json feature create)
      (fun _ s db => ∃ parser added, process hash feature {} json = .ok parser ∧
        Adds prepare sequence before parser added ∧ At sequence own (before ++ added) [] s db)
      (fun e s db => At sequence own before [] s db ∧ ∃ message, e = .illegalState message ∧
        process hash feature {} json = .error message) := by
  rw [Profile.parseJson]
  cases hprocess : process hash feature {} json with
  | error message => exact Session.ensures_throw _ fun s db h => ⟨h, message, rfl, rfl⟩
  | ok parser =>
    refine Session.ensures_bind (ensures_createAll_rows hcreate parser.profiles parser.fallbackMap
      LinkedMap.empty (List.nil_subset _) (List.nil_subset _)) fun linked => ?_
    rintro s db ⟨rows, hrows, hlinked, hat⟩
    have hlength : rows.length = (assign parser.profiles parser.fallbackMap).length := by
      rw [length_assign, hrows.length_eq]
    refine Session.ensures_bind (P := At sequence own (before ++ rows) rows)
      (ProfileManager.ensures_getAllProfiles (Q := fun snapshot s db =>
        snapshot = before ++ rows ∧ At sequence own (before ++ rows ++ []) rows s db) ?_)
      (fun snapshot => Session.ensures_of_fact ?_) s db hat
    · intro s db h
      exact ⟨h.rows, by rwa [List.append_nil]⟩
    · rintro rfl
      rw [hlinked, LinkedMap.entries_empty, List.nil_append]
      refine (ensures_links hcreate (before ++ rows) hlength).of_imp (fun _ _ h => h) ?_
        (fun _ _ _ h => h)
      rintro _ s' db' ⟨targets, new, hresolved, hat'⟩
      refine ⟨parser, _, rfl, ⟨rows, targets, new, rfl, hrows, hresolved⟩, ?_⟩
      simpa [List.append_assoc] using hat'

end JsonParser
