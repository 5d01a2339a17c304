import DripVpn.Foundations.ListMap
import DripVpn.Db.JsonParser

/-!
# Importing into an empty database

What `Profile.parseJson` with `create = ProfileManager.createProfile` makes of the profiles and
fallbacks that the parser collected, as long as every fallback matches one of the profiles: one row
for each profile, in order, and the links that the map `fallbackMap` still holds when a profile is
created.

The map is keyed by value, so of several equal profiles the first takes the entry, whichever of
them asked for it (`assign`).
-/

open Reactive

namespace JsonParser

/-- The fallbacks that the profiles take out of the map, one after the other. -/
def assign : List Profile → LinkedMap Profile Profile → List (Option Profile)
  | [], _ => []
  | p :: ps, fallbackMap => fallbackMap.get? p :: assign ps (fallbackMap.remove p)

/-- A row is what `createProfile` makes of a profile. -/
def IsRowOf (p row : Profile) : Prop :=
  ∃ id userOrder, row = { p with id := id, userOrder := userOrder, dirty := false }

/-- A row linked to the first row that matches the fallback. -/
def linkTo (rows : List Profile) (fallback : Option Profile) (row : Profile) : Profile :=
  match fallback with
  | none => row
  | some fallback => { row with udpFallback := (rows.find? (isMatch fallback)).map Profile.id }

/-- The entries that the loop of `parseJson` puts into the map of created profiles. -/
def linkedEntries (rows : List Profile) (assigned : List (Option Profile)) :
    List (Int64 × Profile) :=
  (rows.zip assigned).filterMap fun e => e.2.map fun fallback => (e.1.id, fallback)

/-! ## The loop of `parseJson` -/

variable {τ : Type}

/-- The outcome of the loop: `rows` are added. -/
structure Created (profiles : List Profile) (assigned : List (Option Profile))
    (s s' : Heap τ) (db db' : ProfileDatabase) (linked linked' : LinkedMap Int64 Profile)
    (rows : List Profile) : Prop where
  table : db'.table.rows = db.table.rows ++ rows
  columns : List.Forall₂ IsRowOf profiles rows
  objects : ∀ row ∈ rows, (s'.objects row.id).stored = row
  frame : ∀ id : Int64, id.toInt ≤ db.sequence → s'.objects id = s.objects id
  linked_entries : linked'.entries = linked.entries ++ linkedEntries rows assigned

theorem linkedEntries_cons (row : Profile) (rows : List Profile) (fallback : Option Profile)
    (assigned : List (Option Profile)) :
    linkedEntries (row :: rows) (fallback :: assigned) =
      (fallback.map fun f => (row.id, f)).toList ++ linkedEntries rows assigned := by
  cases fallback with
  | none => rfl
  | some f => rfl

/-- The first turn of the loop, and the others. -/
theorem Created.cons {p : Profile} {profiles : List Profile}
    {fallback : Option Profile} {assigned : List (Option Profile)} {s s' : Heap τ}
    {db db' : ProfileDatabase} {linked linked₁ linked' : LinkedMap Int64 Profile}
    {rows : List Profile} (hdb : db.sequence < maxRowid)
    (hlinked₁ : linked₁.entries =
      linked.entries ++ (fallback.map fun f => (db.nextKey, f)).toList)
    (h : Created profiles assigned
      { s with objects := Function.update s.objects db.nextKey (ProfileManager.created db p) } s'
      (db.create (ProfileManager.created db p) hdb) db' linked₁ linked' rows) :
    Created (p :: profiles) (fallback :: assigned) s s' db db' linked linked'
      ((ProfileManager.created db p).stored :: rows) := by
  have hkey : db.nextKey.toInt = db.sequence + 1 := ProfileDatabase.toInt_nextKey hdb
  have hsequence : (db.create (ProfileManager.created db p) hdb).sequence = db.sequence + 1 := rfl
  refine ⟨?_, ?_, ?_, ?_, ?_⟩
  · rw [h.table]
    exact List.append_assoc db.table.rows [(ProfileManager.created db p).stored] rows
  · exact .cons ⟨db.nextKey, db.table.nextOrder.getD 0, rfl⟩ h.columns
  · intro row hrow
    rcases List.mem_cons.mp hrow with rfl | hrow
    -- later turns leave the object alone
    · have hobject := h.frame db.nextKey (by rw [hsequence, hkey]; simp)
      show (s'.objects db.nextKey).stored = _
      rw [hobject]
      exact congrArg Profile.stored (Function.update_self _ _ _)
    · exact h.objects row hrow
  · intro id hid
    have hne : id ≠ db.nextKey := by
      rintro rfl
      omega
    rw [h.frame id (by rw [hsequence]; push_cast; omega)]
    exact Function.update_of_ne hne _ _
  · rw [h.linked_entries, hlinked₁, linkedEntries_cons, List.append_assoc]
    rfl

/-- The loop adds one row for each profile, as long as keys are left. -/
theorem run_createAll (profiles : List Profile) (fallbackMap : LinkedMap Profile Profile)
    (linked : LinkedMap Int64 Profile) (s : Heap τ) (db : ProfileDatabase)
    (hlength : db.sequence + profiles.length ≤ maxRowid)
    (hlinked : ∀ id ∈ linked.entries.map Prod.fst, Int64.toInt id ≤ db.sequence) :
    ∃ s' db' linked' rows,
      (createAll ProfileManager.createProfile profiles fallbackMap linked).run
          ProfileDatabase.perform (s, db) = (.ok linked', (s', db')) ∧
        Created profiles (assign profiles fallbackMap) s s' db db' linked linked' rows := by
  induction profiles generalizing fallbackMap linked s db with
  | nil =>
    refine ⟨s, db, linked, [], rfl, ⟨by simp, .nil, ?_, fun _ _ => rfl, ?_⟩⟩
    · exact fun row hrow => by cases hrow
    · simp [linkedEntries]
  | cons p profiles ih =>
    rw [List.length_cons] at hlength
    have hdb : db.sequence < maxRowid := by omega
    have hkey : db.nextKey.toInt = db.sequence + 1 := ProfileDatabase.toInt_nextKey hdb
    have hsequence : (db.create (ProfileManager.created db p) hdb).sequence = db.sequence + 1 := rfl
    have hnew : db.nextKey ∉ linked.entries.map Prod.fst := by
      intro hmem
      have hle := hlinked _ hmem
      omega
    have hbound : ∀ id ∈ linked.entries.map Prod.fst,
        Int64.toInt id ≤ (db.create (ProfileManager.created db p) hdb).sequence := by
      intro id hid
      have hle := hlinked id hid
      rw [hsequence]
      push_cast
      omega
    rw [createAll, Session.run_bind_of_ok _ (ProfileManager.run_createProfile p s hdb)]
    cases hget : fallbackMap.get? p with
    | none =>
      obtain ⟨s', db', linked', rows, hrun, h⟩ :=
        ih (fallbackMap.remove p) linked _ _ (by rw [hsequence]; omega) hbound
      refine ⟨s', db', linked', (ProfileManager.created db p).stored :: rows, hrun, ?_⟩
      rw [assign, hget]
      exact Created.cons hdb (by simp) h
    | some fallback =>
      have hput := LinkedMap.entries_put_of_not_mem fallback hnew
      have hbound' : ∀ id ∈ (linked.put db.nextKey fallback).entries.map Prod.fst,
          Int64.toInt id ≤ (db.create (ProfileManager.created db p) hdb).sequence := by
        intro id hid
        rw [hput, List.map_append, List.mem_append] at hid
        rcases hid with hid | hid
        · exact hbound id hid
        · rw [List.map_singleton, List.mem_singleton] at hid
          rw [hid, hsequence, hkey]
          simp
      obtain ⟨s', db', linked', rows, hrun, h⟩ :=
        ih (fallbackMap.remove p) (linked.put db.nextKey fallback) _ _
          (by rw [hsequence]; omega) hbound'
      refine ⟨s', db', linked', (ProfileManager.created db p).stored :: rows, hrun, ?_⟩
      rw [assign, hget]
      exact Created.cons hdb hput h

/-! ## `finalize` -/

/-- The row after the entries `pre` were linked. -/
def linkRow (rows : List Profile) (pre : List (Int64 × Profile)) (row : Profile) : Profile :=
  linkTo rows ((pre.find? fun e => decide (e.1 = row.id)).map Prod.snd) row

@[simp]
theorem linkTo_id (rows : List Profile) (fallback : Option Profile) (row : Profile) :
    (linkTo rows fallback row).id = row.id := by
  cases fallback with
  | none => rfl
  | some fallback => rfl

theorem linkRow_of_not_mem {rows : List Profile} {pre : List (Int64 × Profile)} {row : Profile}
    (h : row.id ∉ pre.map Prod.fst) : linkRow rows pre row = row := by
  have hnone : pre.find? (fun e => decide (e.1 = row.id)) = none := by
    rw [List.find?_eq_none]
    intro e he hid
    rw [decide_eq_true_eq] at hid
    exact h (hid ▸ List.mem_map_of_mem he)
  rw [linkRow, hnone]
  rfl

theorem linkRow_append {rows : List Profile} {pre : List (Int64 × Profile)} {row : Profile}
    (h : row.id ∉ pre.map Prod.fst) (fallback : Profile) :
    linkRow rows (pre ++ [(row.id, fallback)]) row = linkTo rows (some fallback) row := by
  have hnone : pre.find? (fun e => decide (e.1 = row.id)) = none := by
    rw [List.find?_eq_none]
    intro e he hid
    rw [decide_eq_true_eq] at hid
    exact h (hid ▸ List.mem_map_of_mem he)
  rw [linkRow, List.find?_append, hnone, Option.none_or]
  simp

theorem linkRow_append_of_ne {rows : List Profile} (pre : List (Int64 × Profile)) {row : Profile}
    {e : Int64 × Profile} (h : e.1 ≠ row.id) :
    linkRow rows (pre ++ [e]) row = linkRow rows pre row := by
  rw [linkRow, linkRow, List.find?_append]
  simp [h]

/-- The state of `finalize` after the entries `pre`. -/
structure Linking (rows : List Profile) (pre : List (Int64 × Profile)) (s : Heap τ)
    (db : ProfileDatabase) : Prop where
  table : db.table.rows = rows.map (linkRow rows pre)
  objects : ∀ row ∈ rows, (s.objects row.id).stored = linkRow rows pre row

/-- One turn of `finalize` for a fallback that matches a row. -/
theorem run_link {create : Profile → DaoProgram τ Int64} {rows : List Profile}
    {pre : List (Int64 × Profile)} {s : Heap τ} {db : ProfileDatabase}
    (hnodup : (rows.map Profile.id).Nodup) (h : Linking rows pre s db) {row fallback : Profile}
    (hrow : row ∈ rows) (hnew : row.id ∉ pre.map Prod.fst)
    (hmatch : ∃ p ∈ rows, isMatch fallback p = true) :
    ∃ s' db', (link create rows (row.id, fallback)).run ProfileDatabase.perform (s, db) =
        (.ok (), (s', db')) ∧
      Linking rows (pre ++ [(row.id, fallback)]) s' db' := by
  obtain ⟨target, htarget⟩ : ∃ target, rows.find? (isMatch fallback) = some target := by
    rw [← Option.isSome_iff_exists, List.find?_isSome]
    exact hmatch
  have hobject : (s.objects row.id).stored = row := by
    rw [h.objects row hrow, linkRow_of_not_mem hnew]
  have hid : (s.objects row.id).id = row.id := by
    rw [← Profile.stored_id, hobject]
  obtain ⟨o, ho⟩ : ∃ o, o = { s.objects row.id with udpFallback := some target.id } := ⟨_, rfl⟩
  have hoid : o.id = row.id := by rw [ho]; exact hid
  have hostored : o.stored = linkTo rows (some fallback) row := by
    rw [ho, linkTo, htarget]
    exact congrArg (fun p : Profile => { p with udpFallback := some target.id }) hobject
  have hget : db.table.get o.id = some (linkRow rows pre row) := by
    rw [ProfileTable.get_eq_some_iff, h.table, hoid]
    exact ⟨List.mem_map_of_mem hrow, linkTo_id _ _ _⟩
  refine ⟨{ s with objects := Function.update s.objects row.id o }, db.update o, ?_, ?_, ?_⟩
  · have hfirst : (matchOrCreate create rows fallback).run ProfileDatabase.perform (s, db) =
        (.ok target.id, (s, db)) := by
      rw [matchOrCreate, htarget]
      rfl
    have hget' : (Session.get : DaoProgram τ (Heap τ)).run ProfileDatabase.perform (s, db) =
        (.ok s, (s, db)) := rfl
    have hset : (ProfileManager.setObject row.id o).run ProfileDatabase.perform (s, db) =
        (.ok (), ({ s with objects := Function.update s.objects row.id o }, db)) := rfl
    rw [link, Session.run_bind_of_ok _ hfirst, Session.run_bind_of_ok _ hget']
    simp only [← ho]
    rw [Session.run_bind_of_ok _ hset, ProfileManager.run_updateProfile hget]
  · show (db.table.rows.map fun p => if p.id = o.id then o.stored else p) = _
    rw [h.table, List.map_map]
    apply List.map_congr_left
    intro r hr
    show (if (linkRow rows pre r).id = o.id then o.stored else linkRow rows pre r) = _
    rw [show (linkRow rows pre r).id = r.id from linkTo_id _ _ _, hoid]
    by_cases hrid : r.id = row.id
    · obtain rfl := List.inj_on_of_nodup_map hnodup hr hrow hrid
      rw [if_pos rfl, hostored, linkRow_append hnew]
    · rw [if_neg hrid]
      exact (linkRow_append_of_ne pre (Ne.symm hrid)).symm
  · intro r hr
    show (Function.update s.objects row.id o r.id).stored = _
    by_cases hrid : r.id = row.id
    · obtain rfl := List.inj_on_of_nodup_map hnodup hr hrow hrid
      rw [Function.update_self, hostored, linkRow_append hnew]
    · rw [Function.update_of_ne hrid, h.objects r hr]
      exact (linkRow_append_of_ne pre (Ne.symm hrid)).symm

/-- The loop of `finalize`, when every fallback matches a row. -/
theorem run_links {create : Profile → DaoProgram τ Int64} {rows : List Profile}
    (hnodup : (rows.map Profile.id).Nodup) (post : List (Int64 × Profile))
    (pre : List (Int64 × Profile)) (s : Heap τ) (db : ProfileDatabase) (h : Linking rows pre s db)
    (hkeys : ((pre ++ post).map Prod.fst).Nodup)
    (hentries : ∀ e ∈ post, (∃ row ∈ rows, row.id = e.1) ∧
      ∃ p ∈ rows, isMatch e.2 p = true) :
    ∃ s' db', (post.forM (link create rows)).run ProfileDatabase.perform (s, db) =
        (.ok (), (s', db')) ∧ Linking rows (pre ++ post) s' db' := by
  induction post generalizing pre s db with
  | nil => exact ⟨s, db, rfl, by rwa [List.append_nil]⟩
  | cons e post ih =>
    obtain ⟨id, fallback⟩ := e
    obtain ⟨⟨row, hrow, rfl⟩, hmatch⟩ := hentries _ List.mem_cons_self
    have hnew : row.id ∉ pre.map Prod.fst := by
      rw [List.map_append, List.map_cons, List.nodup_append] at hkeys
      exact fun hmem => hkeys.2.2 _ hmem _ List.mem_cons_self rfl
    obtain ⟨s₁, db₁, hrun₁, h₁⟩ := @run_link τ create rows pre s db hnodup h row fallback hrow hnew
      hmatch
    have hsplit : pre ++ (row.id, fallback) :: post = (pre ++ [(row.id, fallback)]) ++ post := by
      simp
    rw [hsplit] at hkeys ⊢
    obtain ⟨s₂, db₂, hrun₂, h₂⟩ := ih _ s₁ db₁ h₁ hkeys
      fun e he => hentries e (List.mem_cons_of_mem _ he)
    exact ⟨s₂, db₂, (Session.run_bind_of_ok _ hrun₁).trans hrun₂, h₂⟩

/-! ## The import -/

/-- The rows of an empty database after `parseJson` with `createProfile`. -/
def importRows (hash : HashOrder) (json : JsonElement) : List Profile :=
  ((Profile.parseJson hash json none ProfileManager.createProfile).run ProfileDatabase.perform
    ({ objects := fun _ => {}, own := () }, .empty)).2.2.table.rows

/-- The fallbacks that are taken out of a map are among its values. -/
theorem mem_assign {profiles : List Profile} {fallbackMap : LinkedMap Profile Profile}
    {fallback : Profile} (h : some fallback ∈ assign profiles fallbackMap) :
    ∃ e ∈ fallbackMap.entries, e.2 = fallback := by
  induction profiles generalizing fallbackMap with
  | nil => cases h
  | cons p profiles ih =>
    rcases List.mem_cons.mp h with h | h
    · exact ⟨(p, fallback), LinkedMap.get?_eq_some_iff.mp h.symm, rfl⟩
    · obtain ⟨e, he, hvalue⟩ := ih h
      exact ⟨e, ((LinkedMap.mem_remove_iff _ _ _).mp he).2, hvalue⟩

/-- Every parsed profile has its row. -/
theorem isMatch_iff {fallback p : Profile} :
    isMatch fallback p = true ↔ fallback.host = p.host ∧ fallback.remotePort = p.remotePort ∧
      fallback.password = p.password ∧ fallback.method = p.method ∧ p.plugin.getD "" = "" := by
  simp [isMatch, and_assoc]

theorem isMatch_of_isRowOf {fallback p row : Profile} (h : IsRowOf p row) :
    isMatch fallback row = isMatch fallback p := by
  obtain ⟨id, userOrder, rfl⟩ := h
  rfl

theorem mem_linkedEntries {rows : List Profile} {assigned : List (Option Profile)}
    {e : Int64 × Profile} (h : e ∈ linkedEntries rows assigned) :
    (∃ row ∈ rows, row.id = e.1) ∧ some e.2 ∈ assigned := by
  obtain ⟨⟨row, fallback⟩, hmem, he⟩ := List.mem_filterMap.mp h
  obtain ⟨f, rfl, rfl⟩ := Option.map_eq_some_iff.mp he
  exact ⟨⟨row, (List.of_mem_zip hmem).1, rfl⟩, (List.of_mem_zip hmem).2⟩

/-- Rows with distinct ids find their own fallback among the entries. -/
theorem map_linkRow (all : List Profile) {rows : List Profile} {assigned : List (Option Profile)}
    (hlength : rows.length = assigned.length) (hnodup : (rows.map Profile.id).Nodup) :
    rows.map (linkRow all (linkedEntries rows assigned)) =
      List.zipWith (fun row a => linkTo all a row) rows assigned := by
  induction rows generalizing assigned with
  | nil => rfl
  | cons row rows ih =>
    cases assigned with
    | nil => cases hlength
    | cons a assigned =>
      obtain ⟨hnew, hnodup'⟩ := List.nodup_cons.mp hnodup
      have hothers : row.id ∉ (linkedEntries rows assigned).map Prod.fst := by
        intro hmem
        obtain ⟨e, he, hid⟩ := List.mem_map.mp hmem
        obtain ⟨⟨r, hr, hrid⟩, -⟩ := mem_linkedEntries he
        exact hnew (List.mem_map.mpr ⟨r, hr, hrid.trans hid⟩)
      rw [List.map_cons, List.zipWith_cons_cons, linkedEntries_cons]
      congr 1
      · cases a with
        | none => exact linkRow_of_not_mem hothers
        | some f => simp [linkRow]
      · rw [← ih (Nat.succ.inj hlength) hnodup']
        apply List.map_congr_left
        intro r hr
        have hne : row.id ≠ r.id := fun hid => hnew (hid ▸ List.mem_map_of_mem hr)
        cases a with
        | none => rfl
        | some f => simp [linkRow, hne]

theorem length_assign (profiles : List Profile) (fallbackMap : LinkedMap Profile Profile) :
    (assign profiles fallbackMap).length = profiles.length := by
  induction profiles generalizing fallbackMap with
  | nil => rfl
  | cons p profiles ih => rw [assign, List.length_cons, List.length_cons, ih]

/-- Only the first of equal profiles takes the fallback out of the map. -/
theorem getElem?_assign {profiles : List Profile} (fallbackMap : LinkedMap Profile Profile) {i : ℕ}
    {p : Profile} (hp : profiles[i]? = some p) :
    (assign profiles fallbackMap)[i]? =
      some (if p ∈ profiles.take i then none else fallbackMap.get? p) := by
  induction profiles generalizing fallbackMap i with
  | nil => cases hp
  | cons p₀ profiles ih =>
    cases i with
    | zero =>
      rw [List.getElem?_cons_zero] at hp
      obtain rfl := Option.some_inj.mp hp
      simp [assign]
    | succ i =>
      rw [List.getElem?_cons_succ] at hp
      rw [assign, List.getElem?_cons_succ, ih _ hp, List.take_succ_cons, LinkedMap.get?_remove]
      by_cases heq : p = p₀
      · simp [heq]
      · simp [heq]

/-! ## What the parser collected -/

/-- The parser after profiles were added, each with the fallback it asks for. -/
def collect (parser : JsonParser) (found : List (Profile × Option Profile)) : JsonParser :=
  found.foldl (fun parser x => parser.add x.1 x.2) parser

theorem collect_append (parser : JsonParser) (found found' : List (Profile × Option Profile)) :
    collect parser (found ++ found') = collect (collect parser found) found' := List.foldl_append

theorem profiles_collect (parser : JsonParser) (found : List (Profile × Option Profile)) :
    (collect parser found).profiles = parser.profiles ++ found.map Prod.fst := by
  induction found generalizing parser with
  | nil => simp [collect]
  | cons x found ih =>
    rw [collect, List.foldl_cons]
    exact (ih (parser.add x.1 x.2)).trans (by simp [add])

/-- A fallback in the map was asked for. -/
theorem mem_of_get?_collect {parser : JsonParser} {found : List (Profile × Option Profile)}
    {p f : Profile} (h : (collect parser found).fallbackMap.get? p = some f) :
    parser.fallbackMap.get? p = some f ∨ (p, some f) ∈ found := by
  induction found generalizing parser with
  | nil => exact Or.inl h
  | cons x found ih =>
    obtain ⟨q, fallback⟩ := x
    rcases @ih (parser.add q fallback) h with h | h
    · cases fallback with
      | none => exact Or.inl h
      | some fallback =>
        have hput : (parser.fallbackMap.put q fallback).get? p = some f := h
        rw [LinkedMap.get?_put] at hput
        by_cases hp : p = q
        · rw [if_pos hp] at hput
          obtain rfl := Option.some_inj.mp hput
          exact Or.inr (hp ▸ List.mem_cons_self)
        · rw [if_neg hp] at hput
          exact Or.inl hput
    · exact Or.inr (List.mem_cons_of_mem _ h)

/-- A profile that asked for a fallback has one in the map. -/
theorem get?_collect_ne_none {parser : JsonParser} {found : List (Profile × Option Profile)}
    {p : Profile} (h : parser.fallbackMap.get? p ≠ none ∨ ∃ f, (p, some f) ∈ found) :
    (collect parser found).fallbackMap.get? p ≠ none := by
  induction found generalizing parser with
  | nil =>
    rcases h with h | ⟨f, hf⟩
    · exact h
    · cases hf
  | cons x found ih =>
    obtain ⟨q, fallback⟩ := x
    apply @ih (parser.add q fallback)
    rcases h with h | ⟨f, hf⟩
    · left
      cases fallback with
      | none => exact h
      | some fallback =>
        show (parser.fallbackMap.put q fallback).get? p ≠ none
        rw [LinkedMap.get?_put]
        split
        · exact Option.some_ne_none fallback
        · exact h
    · rcases List.mem_cons.mp hf with heq | hf
      · left
        cases heq
        show (parser.fallbackMap.put p f).get? p ≠ none
        rw [LinkedMap.get?_put, if_pos rfl]
        exact Option.some_ne_none f
      · exact Or.inr ⟨f, hf⟩

/-- Profiles of which none that asks for a fallback comes after an equal one take what they asked
for. -/
theorem assign_collect {found : List (Profile × Option Profile)}
    (h : found.Pairwise fun x y => y.2 ≠ none → x.1 ≠ y.1) :
    assign (found.map Prod.fst) (collect {} found).fallbackMap = found.map Prod.snd := by
  rw [List.pairwise_iff_getElem] at h
  apply List.ext_getElem?
  intro i
  by_cases hi : i < found.length
  · have hp : (found.map Prod.fst)[i]? = some found[i].1 := by simp [hi]
    rw [getElem?_assign _ hp, List.getElem?_map, List.getElem?_eq_getElem hi, Option.map_some]
    congr 1
    split
    · -- an equal profile came before
      next hmem =>
      rw [← List.map_take, List.mem_map] at hmem
      obtain ⟨x, hx, heq⟩ := hmem
      obtain ⟨j, hj, rfl⟩ := List.mem_iff_getElem.mp hx
      rw [List.length_take] at hj
      rw [List.getElem_take] at heq
      by_contra hne
      exact h j i (by omega) hi (by omega) (Ne.symm hne) heq
    · next hmem =>
      have hfirst : ∀ j, ∀ hj : j < found.length, found[j].1 = found[i].1 → i ≤ j := by
        intro j hj heq
        by_contra hlt
        apply hmem
        rw [← heq, ← List.map_take]
        have hmem' : found[j] ∈ found.take i := by
          rw [List.mem_take_iff_getElem]
          exact ⟨j, by omega, rfl⟩
        exact List.mem_map_of_mem hmem'
      cases hget : (collect {} found).fallbackMap.get? found[i].1 with
      | none =>
        -- nothing was put for it
        cases hfallback : found[i].2 with
        | none => rfl
        | some f =>
          have hmem' : (found[i].1, some f) ∈ found := by
            rw [← hfallback]
            exact List.getElem_mem hi
          exact absurd hget (get?_collect_ne_none (Or.inr ⟨f, hmem'⟩))
      | some f =>
        rcases mem_of_get?_collect hget with hnone | hmem'
        · cases hnone
        · obtain ⟨j, hj, hx⟩ := List.mem_iff_getElem.mp hmem'
          have hle := hfirst j hj (by rw [hx])
          rcases Nat.lt_or_eq_of_le hle with hlt | rfl
          · exact absurd (by rw [hx]) (h i j hi hj hlt (by rw [hx]; simp))
          · rw [hx]
  · have hlength := length_assign (found.map Prod.fst) (collect {} found).fallbackMap
    rw [List.length_map] at hlength
    rw [List.getElem?_eq_none (by omega), List.getElem?_eq_none (by simpa using hi)]

/-- **Import.** The rows are the parsed profiles in order, each linked to the first row that matches
the fallback it takes out of the map. -/
theorem importRows_eq {hash : HashOrder} {json : JsonElement} {parser : JsonParser}
    (hprocess : process hash none {} json = .ok parser)
    (hlength : parser.profiles.length ≤ maxRowid)
    (hmatch : ∀ e ∈ parser.fallbackMap.entries, ∃ p ∈ parser.profiles, isMatch e.2 p = true) :
    ∃ rows, List.Forall₂ IsRowOf parser.profiles rows ∧ (rows.map Profile.id).Nodup ∧
      importRows hash json =
        List.zipWith (fun row a => linkTo rows a row) rows
          (assign parser.profiles parser.fallbackMap) := by
  obtain ⟨s, db, linked, rows, hrun, h⟩ := run_createAll parser.profiles parser.fallbackMap
    LinkedMap.empty ({ objects := fun _ => {}, own := () } : Heap Unit) ProfileDatabase.empty
    (by simpa [ProfileDatabase.empty] using hlength) (fun id hid => by cases hid)
  have htable : db.table.rows = rows := h.table
  have hentries : linked.entries = linkedEntries rows (assign parser.profiles parser.fallbackMap) :=
    h.linked_entries
  have hnodup : (rows.map Profile.id).Nodup := htable ▸ db.table.nodup
  have hrows : rows.length = (assign parser.profiles parser.fallbackMap).length := by
    rw [length_assign, h.columns.length_eq]
  have hstart : Linking rows [] s db := by
    have hnone : ∀ row, linkRow rows [] row = row := fun row => linkRow_of_not_mem (by simp)
    refine ⟨?_, fun row hrow => (h.objects row hrow).trans (hnone row).symm⟩
    rw [htable, List.map_congr_left fun row _ => hnone row, List.map_id']
  have hmatched : ∀ e ∈ linked.entries, (∃ row ∈ rows, row.id = e.1) ∧
      ∃ p ∈ rows, isMatch e.2 p = true := by
    intro e he
    rw [hentries] at he
    obtain ⟨hrow, hassigned⟩ := mem_linkedEntries he
    obtain ⟨e', he', hvalue⟩ := mem_assign hassigned
    obtain ⟨p, hp, hmatch'⟩ := hmatch e' he'
    obtain ⟨row, hrow', hcolumns⟩ := exists_of_mem_left h.columns hp
    refine ⟨hrow, row, hrow', ?_⟩
    rw [isMatch_of_isRowOf hcolumns, ← hvalue]
    exact hmatch'
  obtain ⟨s', db', hlinks, h'⟩ := @run_links Unit ProfileManager.createProfile rows hnodup
    linked.entries [] s db hstart (by simpa using linked.nodup) hmatched
  have hall : ProfileManager.getAllProfiles.run ProfileDatabase.perform (s, db) =
      (.ok rows, (s, db)) := by
    rw [← htable]
    rfl
  have hparse : (Profile.parseJson hash json none ProfileManager.createProfile).run
      ProfileDatabase.perform ({ objects := fun _ => {}, own := () }, .empty) =
        (.ok (), (s', db')) := by
    rw [Profile.parseJson, hprocess]
    rw [Session.run_bind_of_ok _ hrun, finalize, Session.run_bind_of_ok _ hall, hlinks]
  refine ⟨rows, h.columns, hnodup, ?_⟩
  rw [importRows, hparse]
  show db'.table.rows = _
  rw [h'.table, List.nil_append, hentries, map_linkRow rows hrows hnodup]

end JsonParser
