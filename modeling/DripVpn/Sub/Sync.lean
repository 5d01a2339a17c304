import DripVpn.Sub.SubService

/-!
# What a subscription sync leaves

`createProfilesFromSubscription_synced`: after a sync the subscribed rows are told apart by name and
address, those that the documents list are active with the columns of the first listed profile,
all others are obsolete, and surviving rows keep every column a sync has no business with
(`Profile.lasting`).

The invariant `Syncing` relates the map `subscriptions`, the objects in memory and the table while
the documents are processed. An object is active exactly if a profile of its key has been passed to
the callback; the row differs from the object only if the id is in `toUpdate`, which the last loop
then writes. The first loop establishes the invariant (`Preprocessed.syncing`).
-/

open Reactive

/-- The columns that a subscription sync never changes, the others being reset. -/
def Profile.lasting (p : Profile) : Profile :=
  { p with
    password := ""
    method := ""
    plugin := none
    udpFallback := none
    subscription := .userConfigured
    dirty := false }

namespace SubService

/-- The outcome of a sync: `before` are the rows at the beginning, `passed` the profiles that were
passed to the callback, in order. -/
structure Synced (before passed : List Profile) (after : ProfileTable) : Prop where
  /-- A key has at most one subscribed row. -/
  unique : ∀ p ∈ after.rows, ∀ q ∈ after.rows, p.subscription ≠ .userConfigured →
    q.subscription ≠ .userConfigured → key p = key q → p = q
  /-- A listed key has an active row, with the columns of the first profile listed. -/
  active : ∀ it ∈ passed, ∃ row ∈ after.rows, key row = key it ∧ row.subscription = .active ∧
    ∀ first, passed.find? (fun p => decide (key p = key it)) = some first →
      row.password = first.password ∧ row.method = first.method ∧ row.plugin = first.plugin
  /-- Every other subscribed row is obsolete. -/
  obsolete : ∀ row ∈ after.rows, row.subscription ≠ .userConfigured →
    (∀ it ∈ passed, key it ≠ key row) → row.subscription = .obsolete
  /-- A row that survives keeps the other columns. -/
  lasting : ∀ old ∈ before, ∀ row ∈ after.rows, row.id = old.id → row.lasting = old.lasting

/-! ## The invariant -/

/-- The first profile of a key that was passed to the callback. -/
def Locals.first (l : Locals) (k : Key) : Option Profile :=
  l.passed.find? fun p => decide (key p = k)

/-- The status and the columns of the object `o` of the key `k`. -/
def StatusOf (before : List Profile) (first : Option Profile) (o : Profile) : Prop :=
  match first with
  | none => o.subscription = .obsolete ∧ o.id ∈ before.map Profile.id
  | some it => o.subscription = .active ∧ o.password = it.password ∧ o.method = it.method ∧
      o.plugin = it.plugin

/-- An object of `subscriptions` and its row. -/
structure Entry (before : List Profile) (l : Locals) (k : Key) (o row : Profile) : Prop where
  key_eq : key o = k
  subscribed : row.subscription ≠ .userConfigured
  lasting : row.lasting = o.lasting
  status : StatusOf before (l.first k) o
  /-- Other objects have been written already. -/
  stored : o.id ∉ l.toUpdate → row.stored = o.stored

/-- The invariant while the documents are processed. -/
structure Syncing (before : List Profile) (s : Heap Locals) (db : ProfileDatabase) : Prop where
  entry : ∀ k id, s.own.subscriptions.get? k = some id →
    ∃ row, db.table.get id = some row ∧ Entry before s.own k (s.objects id) row
  covers : ∀ id row, db.table.get id = some row → row.subscription ≠ .userConfigured →
    s.own.subscriptions.get? (key row) = some id
  passed : ∀ it ∈ s.own.passed, s.own.subscriptions.get? (key it) ≠ none
  toUpdate : ∀ id ∈ s.own.toUpdate, id ∈ before.map Profile.id ∧
    ∃ k, s.own.subscriptions.get? k = some id
  lasting : ∀ old ∈ before, ∀ row, db.table.get old.id = some row → row.lasting = old.lasting
  bound : ∀ old ∈ before, old.id.toInt ≤ db.sequence

/-- Profiles with the same lasting columns have the same id. -/
theorem id_of_lasting {p q : Profile} (h : p.lasting = q.lasting) : p.id = q.id := by
  show p.lasting.id = q.lasting.id
  rw [h]

/-- Profiles with the same lasting columns have the same key. -/
theorem key_of_lasting {p q : Profile} (h : p.lasting = q.lasting) : key p = key q := by
  show key p.lasting = key q.lasting
  rw [h]

/-- The first profile of a key after one more was passed. -/
theorem first_passed (l : Locals) (it : Profile) (k : Key) {l' : Locals}
    (h : l'.passed = l.passed ++ [it]) :
    l'.first k = (l.first k).or (if key it = k then some it else none) := by
  rw [Locals.first, h, List.find?_append, Locals.first]
  by_cases hk : key it = k
  · simp [hk]
  · simp [hk]

variable {before : List Profile} {s : Heap Locals} {db : ProfileDatabase}

namespace Syncing

/-- The object of an entry has its id. -/
theorem object_id (h : Syncing before s db) {k : Key} {id : Int64}
    (hk : s.own.subscriptions.get? k = some id) : (s.objects id).id = id := by
  obtain ⟨row, hrow, he⟩ := h.entry k id hk
  rw [← id_of_lasting he.lasting]
  exact ProfileTable.id_of_get hrow

/-- An object belongs to one key. -/
theorem key_inj (h : Syncing before s db) {k k' : Key} {id : Int64}
    (hk : s.own.subscriptions.get? k = some id) (hk' : s.own.subscriptions.get? k' = some id) :
    k = k' := by
  obtain ⟨row, -, he⟩ := h.entry k id hk
  obtain ⟨row', -, he'⟩ := h.entry k' id hk'
  rw [← he.key_eq, ← he'.key_eq]

/-- A key was passed exactly if its object is active. -/
theorem first_ne_none_of_active (h : Syncing before s db) {k : Key} {id : Int64}
    (hk : s.own.subscriptions.get? k = some id) (hactive : (s.objects id).subscription = .active) :
    s.own.first k ≠ none := by
  obtain ⟨row, -, he⟩ := h.entry k id hk
  intro hnone
  have hstatus := he.status
  rw [hnone, StatusOf, hactive] at hstatus
  cases hstatus.1

theorem first_eq_none_of_obsolete (h : Syncing before s db) {k : Key} {id : Int64}
    (hk : s.own.subscriptions.get? k = some id)
    (hobsolete : (s.objects id).subscription = .obsolete) :
    s.own.first k = none ∧ id ∈ before.map Profile.id := by
  obtain ⟨row, -, he⟩ := h.entry k id hk
  have hstatus := he.status
  cases hfirst : s.own.first k with
  | none =>
    rw [hfirst] at hstatus
    refine ⟨rfl, ?_⟩
    rw [← h.object_id hk]
    exact hstatus.2
  | some it =>
    rw [hfirst, StatusOf, hobsolete] at hstatus
    cases hstatus.1

/-- The variables after the callback settled `it` on the object `id`. -/
def settled (l : Locals) (it : Profile) (id : Int64) (toUpdate : List Int64) : Locals :=
  { l with
    subscriptions := l.subscriptions.put (key it) id
    toUpdate
    passed := l.passed ++ [it] }

/-- A profile whose object is active already changes nothing. -/
theorem duplicate (h : Syncing before s db) {it : Profile} {old : Int64}
    (hold : s.own.subscriptions.get? (key it) = some old)
    (hactive : (s.objects old).subscription = .active) :
    Syncing before { s with own := settled s.own it old s.own.toUpdate } db := by
  have hget := LinkedMap.get?_put_self hold
  have hfirst : ∀ k, (settled s.own it old s.own.toUpdate).first k = s.own.first k := by
    intro k
    rw [first_passed s.own it k rfl]
    by_cases hk : key it = k
    · obtain ⟨first, hfirst⟩ :=
        Option.ne_none_iff_exists'.mp (h.first_ne_none_of_active hold hactive)
      rw [← hk, hfirst, Option.some_or]
    · rw [if_neg hk, Option.or_none]
  refine ⟨?_, ?_, ?_, ?_, h.lasting, h.bound⟩
  · intro k id hk
    obtain ⟨row, hrow, he⟩ := h.entry k id ((hget k).symm.trans hk)
    refine ⟨row, hrow, he.key_eq, he.subscribed, he.lasting, ?_, he.stored⟩
    rw [hfirst]
    exact he.status
  · intro id row hrow hsub
    exact (hget _).trans (h.covers id row hrow hsub)
  · intro it' hit'
    show (LinkedMap.put _ _ _).get? _ ≠ none
    rw [hget]
    rcases List.mem_append.mp hit' with hit' | hit'
    · exact h.passed it' hit'
    · rw [List.mem_singleton.mp hit', hold]
      exact Option.some_ne_none old
  · intro id hid
    obtain ⟨hbefore, k, hk⟩ := h.toUpdate id hid
    exact ⟨hbefore, k, (hget k).trans hk⟩

/-- The object of an obsolete profile that is listed again. -/
def revived (o it : Profile) : Profile :=
  { o with
    password := it.password
    method := it.method
    plugin := it.plugin
    udpFallback := it.udpFallback
    subscription := .active }

/-- A profile whose object is obsolete revives it. -/
theorem revive (h : Syncing before s db) {it : Profile} {old : Int64}
    (hold : s.own.subscriptions.get? (key it) = some old)
    (hobsolete : (s.objects old).subscription = .obsolete) :
    Syncing before
      { s with
        objects := Function.update s.objects old (revived (s.objects old) it)
        own := settled s.own it old (old :: s.own.toUpdate) } db := by
  have hget := LinkedMap.get?_put_self hold
  obtain ⟨hnone, hbefore⟩ := h.first_eq_none_of_obsolete hold hobsolete
  refine ⟨?_, ?_, ?_, ?_, h.lasting, h.bound⟩
  · intro k id hk
    replace hk : s.own.subscriptions.get? k = some id := (hget k).symm.trans hk
    obtain ⟨row, hrow, he⟩ := h.entry k id hk
    refine ⟨row, hrow, ?_⟩
    show Entry before _ k (Function.update s.objects old (revived (s.objects old) it) id) row
    by_cases hid : id = old
    · subst hid
      obtain rfl := h.key_inj hold hk
      rw [Function.update_self]
      refine ⟨he.key_eq, he.subscribed, he.lasting, ?_, ?_⟩
      · rw [first_passed s.own it (key it) rfl, hnone, Option.none_or, if_pos rfl]
        exact ⟨rfl, rfl, rfl, rfl⟩
      -- the object is to be written
      · intro hnot
        exact absurd (by rw [show (revived (s.objects id) it).id = id from h.object_id hold]
                         exact List.mem_cons_self) hnot
    · have hne : key it ≠ k := by
        rintro rfl
        exact hid (Option.some.inj (hk.symm.trans hold))
      rw [Function.update_of_ne hid]
      refine ⟨he.key_eq, he.subscribed, he.lasting, ?_, ?_⟩
      · rw [first_passed s.own it k rfl, if_neg hne, Option.or_none]
        exact he.status
      · exact fun hnot => he.stored fun hmem => hnot (List.mem_cons_of_mem _ hmem)
  · intro id row hrow hsub
    exact (hget _).trans (h.covers id row hrow hsub)
  · intro it' hit'
    show (LinkedMap.put _ _ _).get? _ ≠ none
    rw [hget]
    rcases List.mem_append.mp hit' with hit' | hit'
    · exact h.passed it' hit'
    · rw [List.mem_singleton.mp hit', hold]
      exact Option.some_ne_none old
  · intro id hid
    rcases List.mem_cons.mp hid with rfl | hid
    · exact ⟨hbefore, key it, (hget _).trans hold⟩
    · obtain ⟨hbefore, k, hk⟩ := h.toUpdate id hid
      exact ⟨hbefore, k, (hget k).trans hk⟩

/-- A key without an entry has not been passed. -/
theorem first_eq_none (h : Syncing before s db) {k : Key}
    (hk : s.own.subscriptions.get? k = none) : s.own.first k = none := by
  rw [Locals.first, List.find?_eq_none]
  intro p hp hpk
  rw [decide_eq_true_eq] at hpk
  exact h.passed p hp (hpk ▸ hk)

/-- A profile without an object creates one. -/
theorem create (h : Syncing before s db) {it o : Profile}
    (hnone : s.own.subscriptions.get? (key it) = none) (hdb : db.sequence < maxRowid)
    (ho : o = ProfileManager.created db { it with subscription := .active }) :
    Syncing before
      { s with
        objects := Function.update s.objects db.nextKey o
        own := settled s.own it db.nextKey s.own.toUpdate } (db.create o hdb) := by
  have hid : o.id = db.nextKey := by rw [ho]; rfl
  have hkey : key o = key it := by rw [ho]; rfl
  have hactive : o.subscription = .active := by rw [ho]; rfl
  have hkept : ∀ {k id}, s.own.subscriptions.get? k = some id →
      (s.own.subscriptions.put (key it) db.nextKey).get? k = some id := by
    intro k id hk
    rw [LinkedMap.get?_put, if_neg, hk]
    rintro rfl
    rw [hnone] at hk
    cases hk
  refine ⟨?_, ?_, ?_, ?_, ?_, ?_⟩
  · intro k id hk
    replace hk : (s.own.subscriptions.put (key it) db.nextKey).get? k = some id := hk
    show ∃ row, _ ∧ Entry before _ k (Function.update s.objects db.nextKey o id) row
    rw [ProfileDatabase.get_create]
    rw [LinkedMap.get?_put] at hk
    by_cases hkit : k = key it
    · rw [if_pos hkit] at hk
      obtain rfl := Option.some.inj hk
      refine ⟨_, if_pos rfl, ?_⟩
      rw [Function.update_self]
      refine ⟨hkey.trans hkit.symm, ?_, ?_, ?_, ?_⟩
      · show o.subscription ≠ _
        rw [hactive]
        decide
      · rw [← hid]
        rfl
      · rw [first_passed s.own it k rfl, hkit, h.first_eq_none hnone, Option.none_or, if_pos rfl]
        refine ⟨hactive, ?_, ?_, ?_⟩ <;> rw [ho] <;> rfl
      · intro _
        rw [← hid]
        rfl
    · rw [if_neg hkit] at hk
      obtain ⟨row, hrow, he⟩ := h.entry k id hk
      have hne : id ≠ db.nextKey := by
        rw [← ProfileTable.id_of_get hrow]
        exact ProfileDatabase.id_ne_nextKey hdb (ProfileTable.get_eq_some_iff.mp hrow).1
      refine ⟨row, (if_neg hne).trans hrow, ?_⟩
      rw [Function.update_of_ne hne]
      refine ⟨he.key_eq, he.subscribed, he.lasting, ?_, he.stored⟩
      rw [first_passed s.own it k rfl, if_neg (Ne.symm hkit), Option.or_none]
      exact he.status
  · intro id row hrow hsub
    show (LinkedMap.put _ _ _).get? _ = _
    rw [ProfileDatabase.get_create] at hrow
    by_cases hnew : id = db.nextKey
    · rw [if_pos hnew] at hrow
      obtain rfl := Option.some.inj hrow
      rw [LinkedMap.get?_put, hnew]
      exact if_pos hkey
    · rw [if_neg hnew] at hrow
      exact hkept (h.covers id row hrow hsub)
  · intro it' hit'
    show (LinkedMap.put _ _ _).get? _ ≠ none
    rcases List.mem_append.mp hit' with hit' | hit'
    · obtain ⟨id, hid'⟩ := Option.ne_none_iff_exists'.mp (h.passed it' hit')
      rw [hkept hid']
      exact Option.some_ne_none id
    · rw [List.mem_singleton.mp hit', LinkedMap.get?_put, if_pos rfl]
      exact Option.some_ne_none _
  · intro id hmem
    obtain ⟨hbefore, k, hk⟩ := h.toUpdate id hmem
    exact ⟨hbefore, k, hkept hk⟩
  · intro old hold row hrow
    rw [ProfileDatabase.get_create, if_neg] at hrow
    · exact h.lasting old hold row hrow
    -- keys are not given out twice
    · intro heq
      have hle := h.bound old hold
      rw [heq, ProfileDatabase.toInt_nextKey hdb] at hle
      omega
  · intro old hold
    have hle := h.bound old hold
    show _ ≤ ((db.sequence + 1 : ℕ) : ℤ)
    omega

/-- The object of an entry is subscribed. -/
theorem object_subscribed (h : Syncing before s db) {k : Key} {id : Int64}
    (hk : s.own.subscriptions.get? k = some id) :
    (s.objects id).subscription ≠ .userConfigured := by
  obtain ⟨row, -, he⟩ := h.entry k id hk
  have hstatus := he.status
  unfold StatusOf at hstatus
  split at hstatus
  · rw [hstatus.1]
    decide
  · rw [hstatus.1]
    decide

/-- Linking an object to its fallback writes the object. -/
theorem link (h : Syncing before s db) {k : Key} {id : Int64}
    (hk : s.own.subscriptions.get? k = some id) (target : Option Int64) :
    Syncing before
      { s with
        objects := Function.update s.objects id { s.objects id with udpFallback := target } }
      (db.update { s.objects id with udpFallback := target }) := by
  have hid := h.object_id hk
  obtain ⟨row, hrow, he⟩ := h.entry k id hk
  have hget : ∀ id', (db.update { s.objects id with udpFallback := target }).table.get id' =
      if id' = id then some { s.objects id with udpFallback := target, dirty := false }
      else db.table.get id' := by
    intro id'
    rw [show (db.update _).table = (db.table.update _).2 from rfl, ProfileTable.get_update]
    show (if id' = (s.objects id).id then _ else _) = _
    rw [hid]
    by_cases hid' : id' = id
    · rw [if_pos hid', if_pos hid', hid', hrow]
      rfl
    · rw [if_neg hid', if_neg hid']
  refine ⟨?_, ?_, h.passed, h.toUpdate, ?_, h.bound⟩
  · intro k' id' hk'
    show ∃ row, _ ∧ Entry before _ k' (Function.update s.objects id _ id') row
    rw [hget]
    by_cases hid' : id' = id
    · subst hid'
      obtain rfl := h.key_inj hk hk'
      refine ⟨_, if_pos rfl, ?_⟩
      rw [Function.update_self]
      exact ⟨he.key_eq, h.object_subscribed hk, rfl, he.status, fun _ => rfl⟩
    · obtain ⟨row', hrow', he'⟩ := h.entry k' id' hk'
      refine ⟨row', (if_neg hid').trans hrow', ?_⟩
      rw [Function.update_of_ne hid']
      exact he'
  · intro id' row' hrow' hsub
    rw [hget] at hrow'
    by_cases hid' : id' = id
    · rw [if_pos hid'] at hrow'
      obtain rfl := Option.some.inj hrow'
      rw [hid']
      exact (congrArg _ he.key_eq).trans hk
    · rw [if_neg hid'] at hrow'
      exact h.covers id' row' hrow' hsub
  · intro old hold row' hrow'
    rw [hget] at hrow'
    by_cases hid' : old.id = id
    · rw [if_pos hid'] at hrow'
      obtain rfl := Option.some.inj hrow'
      rw [← h.lasting old hold row (by rw [hid', hrow]), he.lasting]
      rfl
    · rw [if_neg hid'] at hrow'
      exact h.lasting old hold row' hrow'

end Syncing

/-! ## The documents -/

/-- The callback on a key whose object is active. -/
theorem subscribe_active {it : Profile} {old : Int64}
    (hold : s.own.subscriptions.get? (key it) = some old)
    (hactive : (s.objects old).subscription = .active) :
    subscribe it s =
      .done (.ok old, { s with own := Syncing.settled s.own it old s.own.toUpdate }) := by
  simp only [subscribe, modifyLocals, Session.get, Session.modify, Bind.bind, Calls.bind,
    hold, Option.map_some, hactive]
  rfl

/-- The callback on a key whose object is obsolete. -/
theorem subscribe_obsolete {it : Profile} {old : Int64}
    (hold : s.own.subscriptions.get? (key it) = some old)
    (hobsolete : (s.objects old).subscription = .obsolete) :
    subscribe it s =
      .done (.ok old,
        { s with
          objects := Function.update s.objects old (Syncing.revived (s.objects old) it)
          own := Syncing.settled s.own it old (old :: s.own.toUpdate) }) := by
  simp only [subscribe, modifyLocals, Session.get, Session.modify, Bind.bind, Calls.bind,
    hold, Option.map_some, hobsolete]
  rfl

/-- The callback on a key without an object. -/
theorem subscribe_none {it : Profile}
    (hnone : s.own.subscriptions.get? (key it) = none) :
    subscribe it s = (do
      let id ← ProfileManager.createProfile { it with subscription := .active }
      modifyLocals fun l => { l with subscriptions := l.subscriptions.put (key it) id }
      pure id : DaoProgram Locals Int64)
        { s with own := { s.own with passed := s.own.passed ++ [it] } } := by
  simp only [subscribe, modifyLocals, Session.get, Session.modify, Bind.bind, Calls.bind,
    hnone, Option.map_none]

/-- The objects of `ids` belong to entries. -/
def Known (ids : List Int64) (s : Heap Locals) : Prop :=
  ∀ id ∈ ids, ∃ k, s.own.subscriptions.get? k = some id

/-- An entry that is written leaves the others known. -/
theorem known_put {ids : List Int64} {it : Profile} {id : Int64} (h : Known ids s)
    (hnone : s.own.subscriptions.get? (key it) = none ∨
      s.own.subscriptions.get? (key it) = some id)
    {s' : Heap Locals}
    (hs' : s'.own.subscriptions = s.own.subscriptions.put (key it) id) :
    Known (id :: ids) s' := by
  intro id' hid'
  rcases List.mem_cons.mp hid' with rfl | hid'
  · exact ⟨key it, by rw [hs', LinkedMap.get?_put, if_pos rfl]⟩
  · obtain ⟨k, hk⟩ := h id' hid'
    refine ⟨k, ?_⟩
    rw [hs']
    rcases hnone with hnone | hsome
    · rw [LinkedMap.get?_put, if_neg, hk]
      rintro rfl
      rw [hnone] at hk
      cases hk
    · rw [LinkedMap.get?_put_self hsome, hk]

variable {E : StorageException → Heap Locals → ProfileDatabase → Prop}

/-- The callback keeps the invariant and returns a known object. -/
theorem ensures_subscribe (it : Profile) (ids : List Int64) :
    Session.Ensures ProfileDatabase.service (fun s db => Syncing before s db ∧ Known ids s)
      (subscribe it) (fun id s db => Syncing before s db ∧ Known (id :: ids) s) E := by
  rintro s db ⟨h, hknown⟩ hall
  cases hget : s.own.subscriptions.get? (key it) with
  | none =>
    rw [subscribe_none hget] at hall ⊢
    refine Session.ensures_bind
      (P := fun s' db' => s' = { s with own := { s.own with passed := s.own.passed ++ [it] } } ∧
        db' = db)
      (ProfileManager.ensures_createProfile
        (Q := fun id s' db' => Syncing before
          { s' with own := { s'.own with subscriptions := s'.own.subscriptions.put (key it) id } }
            db' ∧ s'.own.subscriptions = s.own.subscriptions)
        ?_) (fun id => Session.ensures_bind (Session.ensures_modify _
          (Q := fun _ s db => Syncing before s db ∧ Known (id :: ids) s) ?_)
          fun _ => Session.ensures_pure id fun s db hs => hs) _ _ ⟨rfl, rfl⟩ hall
    · rintro _ _ hdb ⟨rfl, rfl⟩
      exact ⟨h.create hget hdb rfl, rfl⟩
    · rintro s' db' ⟨hs', hsame⟩
      exact ⟨hs', known_put hknown (Or.inl hget) (congrArg (·.put (key it) id) hsame)⟩
  | some old =>
    have hsub := h.object_subscribed hget
    cases hstatus : (s.objects old).subscription with
    | userConfigured => exact absurd hstatus hsub
    | active =>
      rw [subscribe_active hget hstatus]
      exact ⟨h.duplicate hget hstatus, known_put hknown (Or.inr hget) rfl⟩
    | obsolete =>
      rw [subscribe_obsolete hget hstatus]
      exact ⟨h.revive hget hstatus, known_put hknown (Or.inr hget) rfl⟩

/-- All keys of a map of references are known. -/
def KnownKeys (linked : LinkedMap Int64 Profile) (s : Heap Locals) : Prop :=
  Known (linked.entries.map Prod.fst) s

/-- The loop of `parseJson` keeps the invariant. -/
theorem ensures_createAll (profiles : List Profile) (fallbackMap : LinkedMap Profile Profile)
    (linked : LinkedMap Int64 Profile) :
    Session.Ensures ProfileDatabase.service
      (fun s db => Syncing before s db ∧ KnownKeys linked s)
      (JsonParser.createAll subscribe profiles fallbackMap linked)
      (fun linked s db => Syncing before s db ∧ KnownKeys linked s) E :=
  JsonParser.ensures_createAll_of (I := fun ids s db => Syncing before s db ∧ Known ids s)
    (fun _ _ _ _ hsubset h => ⟨h.1, fun id hid => h.2 id (hsubset hid)⟩)
    (fun p ids => ensures_subscribe p ids) profiles fallbackMap linked

/-- One turn of `finalize` keeps the invariant. -/
theorem ensures_link (profiles : List Profile) (entry : Int64 × Profile) (ids : List Int64)
    (hentry : entry.1 ∈ ids) :
    Session.Ensures ProfileDatabase.service (fun s db => Syncing before s db ∧ Known ids s)
      (JsonParser.link subscribe profiles entry)
      (fun _ s db => Syncing before s db ∧ Known ids s) E := by
  refine Session.ensures_bind (Q := fun _ s db => Syncing before s db ∧ Known ids s) ?_
    fun target => ?_
  · unfold JsonParser.matchOrCreate
    split
    · exact Session.ensures_pure _ fun s db h => h
    · refine (ensures_subscribe entry.2 ids).of_imp (fun _ _ h => h) ?_ (fun _ _ _ h => h)
      exact fun id s db h => ⟨h.1, fun id' hid' => h.2 id' (List.mem_cons_of_mem _ hid')⟩
  · refine Session.ensures_bind
      (Session.ensures_get (Q := fun s₀ s db => s = s₀ ∧ Syncing before s₀ db ∧ Known ids s₀)
        fun s db h => ⟨rfl, h⟩) fun s₀ => ?_
    refine Session.ensures_bind (ProfileManager.ensures_setObject
      (Q := fun _ s db => s = { s₀ with objects := (Function.update s₀.objects entry.1
        { s₀.objects entry.1 with udpFallback := some target }) } ∧
          Syncing before s₀ db ∧ Known ids s₀) ?_) fun _ => ProfileManager.ensures_updateProfile ?_
    · rintro s db ⟨rfl, h⟩
      exact ⟨rfl, h⟩
    · rintro s db ⟨rfl, h, hknown⟩
      obtain ⟨k, hk⟩ := hknown entry.1 hentry
      obtain ⟨row, hrow, -⟩ := h.entry k entry.1 hk
      refine ⟨?_, h.link hk (some target), hknown⟩
      show db.table.get (s₀.objects entry.1).id ≠ none
      rw [h.object_id hk, hrow]
      exact Option.some_ne_none row

/-- `parseJson` keeps the invariant, also when it throws. -/
theorem ensures_parseJson (hash : HashOrder) (json : JsonElement) (feature : Option Profile) :
    Session.Ensures ProfileDatabase.service (Syncing before)
      (Profile.parseJson hash json feature subscribe)
      (fun _ => Syncing before) (fun _ => Syncing before) := by
  unfold Profile.parseJson
  split
  · exact Session.ensures_throw _ fun s db h => h
  next parser _ =>
    refine Session.ensures_bind
      (Q := fun linked s db => Syncing before s db ∧ KnownKeys linked s) ?_ fun linked => ?_
    · refine (ensures_createAll _ _ _).of_imp ?_ (fun _ _ _ h => h) (fun _ _ _ h => h)
      exact fun s db h => ⟨h, fun id hid => by cases hid⟩
    · refine Session.ensures_bind (ProfileManager.ensures_getAllProfiles
        (Q := fun _ s db => Syncing before s db ∧ KnownKeys linked s) fun s db h => h)
          fun rows => ?_
      refine (Session.ensures_forM
        (I := fun _ s db => Syncing before s db ∧ KnownKeys linked s) ?_).of_imp
          (fun _ _ h => h) (fun _ _ _ h => h.1) (fun _ _ _ h => h)
      intro pre entry post hentries
      apply ensures_link
      rw [hentries]
      simp

/-- A document keeps the invariant. -/
theorem ensures_processDocument (hash : HashOrder) (feature : Option Profile)
    (json : Option JsonElement) :
    Session.Ensures ProfileDatabase.service (Syncing before)
      (processDocument hash feature json) (fun _ => Syncing before) E := by
  cases json with
  | none => exact Session.ensures_pure () fun s db h => h
  | some json => exact Session.ensures_attempt (ensures_parseJson hash json feature)

/-! ## The first loop -/

/-- The state after the preprocessing loop visited `pre`. -/
structure Preprocessed (before pre : List Profile) (s : Heap Locals) (db : ProfileDatabase) :
    Prop where
  passed : s.own.passed = []
  /-- Rows that were not visited are as they were, and so are their objects. -/
  rest : ∀ p ∈ before, p ∉ pre → db.table.get p.id = some p ∧ s.objects p.id = p
  rows : ∀ id row, db.table.get id = some row → row ∈ before
  entry : ∀ k id, s.own.subscriptions.get? k = some id → ∃ p ∈ pre, p.id = id ∧ key p = k ∧
    p.subscription ≠ .userConfigured ∧ db.table.get id = some p ∧
    s.objects id = { p with subscription := .obsolete } ∧
    (p.subscription = .active → id ∈ s.own.toUpdate)
  covers : ∀ p ∈ pre, p.subscription ≠ .userConfigured → db.table.get p.id = some p →
    s.own.subscriptions.get? (key p) = some p.id
  toUpdate : ∀ id ∈ s.own.toUpdate, ∃ k, s.own.subscriptions.get? k = some id
  bound : ∀ p ∈ before, p.id.toInt ≤ db.sequence

namespace Preprocessed

/-- The loop establishes the invariant of the documents. -/
theorem syncing (hnodup : (before.map Profile.id).Nodup) (h : Preprocessed before before s db) :
    Syncing before s db := by
  have hfirst : ∀ k, s.own.first k = none := by
    intro k
    rw [Locals.first, h.passed, List.find?_nil]
  refine ⟨?_, ?_, ?_, ?_, ?_, h.bound⟩
  · intro k id hk
    obtain ⟨p, hp, rfl, hpk, hsub, hrow, hobj, hactive⟩ := h.entry k id hk
    refine ⟨p, hrow, ?_⟩
    rw [hobj]
    refine ⟨hpk, hsub, rfl, ?_, ?_⟩
    · rw [hfirst]
      exact ⟨rfl, List.mem_map.mpr ⟨p, hp, rfl⟩⟩
    -- a row that is not to be written was obsolete already
    · intro hnot
      cases hstatus : p.subscription with
      | userConfigured => exact absurd hstatus hsub
      | active => exact absurd (hactive hstatus) hnot
      | obsolete => rw [Profile.stored, Profile.stored, ← hstatus]
  · intro id row hrow hsub
    have hid := ProfileTable.id_of_get hrow
    rw [← hid]
    exact h.covers row (h.rows id row hrow) hsub (hid ▸ hrow)
  · rw [h.passed]
    simp
  · intro id hid
    obtain ⟨k, hk⟩ := h.toUpdate id hid
    obtain ⟨p, hp, rfl, -⟩ := h.entry k id hk
    exact ⟨List.mem_map_of_mem hp, k, hk⟩
  · intro old hold row hrow
    rw [List.inj_on_of_nodup_map hnodup (h.rows old.id row hrow) hold
      (ProfileTable.id_of_get hrow)]

variable {pre post : List Profile} {x : Profile}

/-- Visited rows differ from the one that is visited next. -/
theorem id_ne (hnodup : (before.map Profile.id).Nodup) (hsplit : before = pre ++ x :: post)
    {p : Profile} (hp : p ∈ pre) : p.id ≠ x.id := by
  rw [hsplit, List.map_append, List.nodup_append] at hnodup
  exact hnodup.2.2 _ (List.mem_map_of_mem hp) _ (by simp)

/-- Rows that are visited later differ from the one that is visited now. -/
theorem id_ne_of_not_mem (hnodup : (before.map Profile.id).Nodup)
    (hsplit : before = pre ++ x :: post) {p : Profile} (hp : p ∈ before)
    (hnot : p ∉ pre ++ [x]) : p.id ≠ x.id := by
  intro hid
  have hx : x ∈ before := by rw [hsplit]; simp
  rw [List.inj_on_of_nodup_map hnodup hp hx hid] at hnot
  simp at hnot

/-- A user configured row is passed over. -/
theorem skip (h : Preprocessed before pre s db) (hx : x.subscription = .userConfigured) :
    Preprocessed before (pre ++ [x]) s db := by
  refine ⟨h.passed, ?_, h.rows, ?_, ?_, h.toUpdate, h.bound⟩
  · intro p hp hnot
    exact h.rest p hp fun hmem => hnot (List.mem_append_left _ hmem)
  · intro k id hk
    obtain ⟨p, hp, he⟩ := h.entry k id hk
    exact ⟨p, List.mem_append_left _ hp, he⟩
  · intro p hp hsub hrow
    rcases List.mem_append.mp hp with hp | hp
    · exact h.covers p hp hsub hrow
    · rw [List.mem_singleton.mp hp] at hsub
      exact absurd hx hsub

/-- The row of a key that was seen before is deleted. -/
theorem delete (hnodup : (before.map Profile.id).Nodup) (hsplit : before = pre ++ x :: post)
    (h : Preprocessed before pre s db) {s' : Heap Locals} (hobjects : s'.objects = s.objects)
    (hown : ∃ id, s'.own = { s.own with profileId := id }) :
    Preprocessed before (pre ++ [x]) s' (db.delete x.id) := by
  obtain ⟨profileId, hown⟩ := hown
  have hget : ∀ id, (db.delete x.id).table.get id = if id = x.id then none else db.table.get id :=
    ProfileTable.get_delete db.table x.id
  refine ⟨?_, ?_, ?_, ?_, ?_, ?_, h.bound⟩
  · rw [hown]
    exact h.passed
  · intro p hp hnot
    rw [hget, hobjects, if_neg (id_ne_of_not_mem hnodup hsplit hp hnot)]
    exact h.rest p hp fun hmem => hnot (List.mem_append_left _ hmem)
  · intro id row hrow
    rw [hget] at hrow
    split at hrow
    · cases hrow
    · exact h.rows id row hrow
  · intro k id hk
    rw [hown] at hk ⊢
    obtain ⟨p, hp, rfl, hpk, hsub, hrow, hobj⟩ := h.entry k id hk
    refine ⟨p, List.mem_append_left _ hp, rfl, hpk, hsub, ?_, ?_⟩
    · rw [hget, if_neg (id_ne hnodup hsplit hp), hrow]
    · rw [hobjects]
      exact hobj
  · intro p hp hsub hrow
    rw [hown]
    rw [hget] at hrow
    split at hrow
    · cases hrow
    next hne =>
      rcases List.mem_append.mp hp with hp | hp
      · exact h.covers p hp hsub hrow
      · exact absurd (congrArg Profile.id (List.mem_singleton.mp hp)) hne
  · rw [hown]
    exact h.toUpdate

/-- The first row of its key stays, with an obsolete object. -/
theorem keep (hnodup : (before.map Profile.id).Nodup) (hsplit : before = pre ++ x :: post)
    (h : Preprocessed before pre s db) (hsub : x.subscription ≠ .userConfigured)
    (hnone : s.own.subscriptions.get? (key x) = none) {s' : Heap Locals}
    (hobjects : s'.objects =
      Function.update s.objects x.id { x with subscription := .obsolete })
    (hown : ∃ toUpdate, s'.own =
        { s.own with subscriptions := s.own.subscriptions.put (key x) x.id, toUpdate := toUpdate } ∧
      (∀ id ∈ s.own.toUpdate, id ∈ toUpdate) ∧ (∀ id ∈ toUpdate, id = x.id ∨ id ∈ s.own.toUpdate) ∧
      (x.subscription = .active → x.id ∈ toUpdate)) :
    Preprocessed before (pre ++ [x]) s' db := by
  obtain ⟨toUpdate, hown, hkeep, honly, hactive⟩ := hown
  have hx : x ∈ before := by rw [hsplit]; simp
  have hxrow : db.table.get x.id = some x := by
    refine (h.rest x hx fun hmem => ?_).1
    exact id_ne hnodup hsplit hmem rfl
  have hkept : ∀ {k id}, s.own.subscriptions.get? k = some id →
      (s.own.subscriptions.put (key x) x.id).get? k = some id := by
    intro k id hk
    rw [LinkedMap.get?_put, if_neg, hk]
    rintro rfl
    rw [hnone] at hk
    cases hk
  refine ⟨?_, ?_, h.rows, ?_, ?_, ?_, h.bound⟩
  · rw [hown]
    exact h.passed
  · intro p hp hnot
    rw [hobjects, Function.update_of_ne (id_ne_of_not_mem hnodup hsplit hp hnot)]
    exact h.rest p hp fun hmem => hnot (List.mem_append_left _ hmem)
  · intro k id hk
    rw [hown] at hk ⊢
    replace hk : (s.own.subscriptions.put (key x) x.id).get? k = some id := hk
    rw [LinkedMap.get?_put] at hk
    rw [hobjects]
    by_cases hkx : k = key x
    · rw [if_pos hkx] at hk
      obtain rfl := Option.some.inj hk
      exact ⟨x, by simp, rfl, hkx.symm, hsub, hxrow, Function.update_self _ _ _, hactive⟩
    · rw [if_neg hkx] at hk
      obtain ⟨p, hp, rfl, hpk, hpsub, hrow, hobj, hpactive⟩ := h.entry k id hk
      refine ⟨p, List.mem_append_left _ hp, rfl, hpk, hpsub, hrow, ?_, ?_⟩
      · rw [Function.update_of_ne (id_ne hnodup hsplit hp), hobj]
      · exact fun ha => hkeep _ (hpactive ha)
  · intro p hp hpsub hrow
    rw [hown]
    show (LinkedMap.put _ _ _).get? _ = _
    rcases List.mem_append.mp hp with hp | hp
    · exact hkept (h.covers p hp hpsub hrow)
    · rw [List.mem_singleton.mp hp, LinkedMap.get?_put, if_pos rfl]
  · intro id hid
    rw [hown] at hid ⊢
    rcases honly id hid with rfl | hid
    · exact ⟨key x, by rw [LinkedMap.get?_put, if_pos rfl]⟩
    · obtain ⟨k, hk⟩ := h.toUpdate id hid
      exact ⟨k, hkept hk⟩

end Preprocessed

/-- One turn of the preprocessing loop. -/
theorem ensures_preprocess (hnodup : (before.map Profile.id).Nodup) {pre post : List Profile}
    {x : Profile} (hsplit : before = pre ++ x :: post) (currentId : Int64) :
    Session.Ensures ProfileDatabase.service (Preprocessed before pre) (preprocess currentId x)
      (fun _ => Preprocessed before (pre ++ [x])) E := by
  refine Session.ensures_bind (Session.ensures_get
    (Q := fun s₀ s db => s = s₀ ∧ Preprocessed before pre s₀ db) fun s db h => ⟨rfl, h⟩)
    fun s₀ => ?_
  split
  next hx =>
    apply Session.ensures_pure
    rintro s db ⟨rfl, h⟩
    exact h.skip hx
  next hx =>
    split
    next hget =>
      refine Session.ensures_bind (ProfileManager.ensures_delProfile
        (Q := fun _ s db' => s = s₀ ∧ ∃ db, Preprocessed before pre s₀ db ∧ db' = db.delete x.id)
        ?_) fun _ => ?_
      · rintro s db ⟨rfl, h⟩
        refine ⟨?_, rfl, db, h, rfl⟩
        have hmem : x ∈ before := by rw [hsplit]; simp
        rw [(h.rest x hmem fun hp => Preprocessed.id_ne hnodup hsplit hp rfl).1]
        exact Option.some_ne_none x
      · split
        · apply Session.ensures_modify
          rintro s _ ⟨rfl, db, h, rfl⟩
          exact h.delete hnodup hsplit rfl ⟨0, rfl⟩
        · apply Session.ensures_pure
          rintro s _ ⟨rfl, db, h, rfl⟩
          exact h.delete hnodup hsplit rfl ⟨s.own.profileId, rfl⟩
    next hget =>
      refine Session.ensures_bind (Session.ensures_modify _
        (Q := fun _ s db => s = { s₀ with own := { s₀.own with
            subscriptions := s₀.own.subscriptions.put (key x) x.id } } ∧
          Preprocessed before pre s₀ db) ?_) fun _ => ?_
      · rintro s db ⟨rfl, h⟩
        exact ⟨rfl, h⟩
      · split
        next hactive =>
          refine Session.ensures_bind (Session.ensures_modify _
            (Q := fun _ s db => s = { s₀ with own := { s₀.own with
                subscriptions := s₀.own.subscriptions.put (key x) x.id
                toUpdate := x.id :: s₀.own.toUpdate } } ∧ Preprocessed before pre s₀ db) ?_)
            fun _ => ProfileManager.ensures_setObject ?_
          · rintro s db ⟨rfl, h⟩
            exact ⟨rfl, h⟩
          · rintro s db ⟨rfl, h⟩
            refine h.keep hnodup hsplit hx hget rfl ⟨x.id :: s₀.own.toUpdate, rfl, ?_, ?_, ?_⟩
            · exact fun id hid => List.mem_cons_of_mem _ hid
            · exact fun id hid => List.mem_cons.mp hid
            · exact fun _ => List.mem_cons_self
        next hactive =>
          apply Session.ensures_pure
          rintro s db ⟨rfl, h⟩
          -- the object is obsolete already
          have hobsolete : x = { x with subscription := .obsolete } := by
            cases hstatus : x.subscription with
            | userConfigured => exact absurd hstatus hx
            | active => exact absurd hstatus hactive
            | obsolete => rw [← hstatus]
          have hmem : x ∈ before := by rw [hsplit]; simp
          have hobject := (h.rest x hmem fun hp => Preprocessed.id_ne hnodup hsplit hp rfl).2
          refine h.keep hnodup hsplit hx hget ?_ ⟨s₀.own.toUpdate, rfl, fun _ h => h,
            fun _ h => Or.inr h, fun ha => absurd ha hactive⟩
          have hsame := Function.update_eq_self x.id s₀.objects
          rw [hobject] at hsame
          rw [← hobsolete]
          exact hsame.symm

/-! ## The last loop -/

/-- The objects of `ids` have been written. -/
def Written (ids : List Int64) (s : Heap Locals) (db : ProfileDatabase) : Prop :=
  ∀ k id, s.own.subscriptions.get? k = some id → id ∈ ids →
    ∀ row, db.table.get id = some row → row.stored = (s.objects id).stored

/-- One turn of the last loop. -/
theorem ensures_writeBack (ids : List Int64) (x : Profile) :
    Session.Ensures ProfileDatabase.service
      (fun s db => Syncing before s db ∧ Written ids s db) (writeBack x)
      (fun _ s db => Syncing before s db ∧ Written (ids ++ [x.id]) s db) E := by
  refine Session.ensures_bind (Session.ensures_get
    (Q := fun s₀ s db => s = s₀ ∧ Syncing before s₀ db ∧ Written ids s₀ db) fun s db h => ⟨rfl, h⟩)
    fun s₀ => ?_
  split
  next hmem =>
    apply ProfileManager.ensures_updateProfile
    rintro s db ⟨rfl, h, hwritten⟩
    obtain ⟨-, k, hk⟩ := h.toUpdate x.id hmem
    obtain ⟨row, hrow, he⟩ := h.entry k x.id hk
    have hid := h.object_id hk
    have hget : ∀ id, (db.update (s.objects x.id)).table.get id =
        if id = x.id then some (s.objects x.id).stored else db.table.get id := by
      intro id
      rw [show (db.update _).table = (db.table.update _).2 from rfl, ProfileTable.get_update, hid]
      by_cases hidx : id = x.id
      · rw [if_pos hidx, if_pos hidx, hidx, hrow]
        rfl
      · rw [if_neg hidx, if_neg hidx]
    refine ⟨by rw [hid, hrow]; exact Option.some_ne_none row, ?_, ?_⟩
    · have hlink := h.link hk (s.objects x.id).udpFallback
      rwa [Function.update_eq_self] at hlink
    · intro k' id hk' hids row' hrow'
      rw [hget] at hrow'
      by_cases hidx : id = x.id
      · rw [if_pos hidx] at hrow'
        obtain rfl := Option.some.inj hrow'
        rw [hidx]
        rfl
      · rw [if_neg hidx] at hrow'
        rcases List.mem_append.mp hids with hids | hids
        · exact hwritten k' id hk' hids row' hrow'
        · exact absurd (List.mem_singleton.mp hids) hidx
  next hmem =>
    apply Session.ensures_pure
    rintro s db ⟨rfl, h, hwritten⟩
    refine ⟨h, ?_⟩
    intro k id hk hids row hrow
    rcases List.mem_append.mp hids with hids | hids
    · exact hwritten k id hk hids row hrow
    · obtain ⟨row', hrow', he⟩ := h.entry k id hk
      obtain rfl := Option.some.inj (hrow.symm.trans hrow')
      apply he.stored
      rw [h.object_id hk, List.mem_singleton.mp hids]
      exact hmem

/-- Once all objects are written, the sync is complete. -/
theorem Syncing.synced (h : Syncing before s db) (hwritten : Written (before.map Profile.id) s db) :
    Synced before s.own.passed db.table := by
  -- the row of an entry has the status and the columns of its object
  have hrows : ∀ k id row, s.own.subscriptions.get? k = some id → db.table.get id = some row →
      key row = k ∧ StatusOf before (s.own.first k) row := by
    intro k id row hk hrow
    obtain ⟨row', hrow', he⟩ := h.entry k id hk
    obtain rfl := Option.some.inj (hrow.symm.trans hrow')
    have hstored : row.stored = (s.objects id).stored := by
      by_cases hmem : id ∈ s.own.toUpdate
      · exact hwritten k id hk (h.toUpdate id hmem).1 row hrow
      · exact he.stored (by rwa [h.object_id hk])
    refine ⟨(key_of_lasting he.lasting).trans he.key_eq, ?_⟩
    have hstatus : StatusOf before (s.own.first k) (s.objects id).stored := he.status
    rw [← hstored] at hstatus
    exact hstatus
  refine ⟨?_, ?_, ?_, ?_⟩
  · intro p hp q hq hpsub hqsub hkey
    have hpget := ProfileTable.get_eq_some_iff.mpr ⟨hp, rfl⟩
    have hqget := ProfileTable.get_eq_some_iff.mpr ⟨hq, rfl⟩
    have hid := (h.covers p.id p hpget hpsub).symm.trans
      ((congrArg _ hkey).trans (h.covers q.id q hqget hqsub))
    rw [Option.some.inj hid, hqget] at hpget
    exact (Option.some.inj hpget).symm
  · intro it hit
    obtain ⟨id, hid⟩ := Option.ne_none_iff_exists'.mp (h.passed it hit)
    obtain ⟨row, hrow, -⟩ := h.entry _ id hid
    obtain ⟨hkey, hstatus⟩ := hrows _ id row hid hrow
    have hsome : (s.own.first (key it)).isSome := by
      rw [Locals.first, List.find?_isSome]
      exact ⟨it, hit, by simp⟩
    obtain ⟨first, hfirst⟩ := Option.isSome_iff_exists.mp hsome
    rw [hfirst] at hstatus
    refine ⟨row, (ProfileTable.get_eq_some_iff.mp hrow).1, hkey, hstatus.1, ?_⟩
    intro first' hfirst'
    obtain rfl := Option.some.inj (hfirst.symm.trans hfirst')
    exact hstatus.2
  · intro row hrow hsub hnot
    have hget := ProfileTable.get_eq_some_iff.mpr ⟨hrow, rfl⟩
    have hstatus := (hrows _ _ row (h.covers row.id row hget hsub) hget).2
    have hfirst : s.own.first (key row) = none := by
      rw [Locals.first, List.find?_eq_none]
      intro it hit
      simpa using hnot it hit
    rw [hfirst] at hstatus
    exact hstatus.1
  · intro old hold row hrow hid
    exact h.lasting old hold row (ProfileTable.get_eq_some_iff.mpr ⟨hrow, hid⟩)

/-- The variables at the beginning. -/
def start (profileId : Int64) : Heap Locals := { objects := fun _ => {}, own := { profileId } }

/-- The rows become objects. -/
theorem ensures_setObjects (profileId : Int64) :
    Session.Ensures ProfileDatabase.service
      (fun s db' => s = start profileId ∧ db' = db)
      (db.table.rows.forM fun profile => ProfileManager.setObject profile.id profile)
      (fun _ => Preprocessed db.table.rows []) E := by
  refine (Session.ensures_forM (I := fun pre s db' => (∀ p ∈ pre, s.objects p.id = p) ∧
    s.own = { profileId } ∧ db' = db) ?_).of_imp ?_ ?_ (fun _ _ _ h => h)
  · intro pre x post hsplit
    apply ProfileManager.ensures_setObject
    rintro s db' ⟨hobjects, hown, rfl⟩
    refine ⟨?_, hown, rfl⟩
    intro p hp
    rcases List.mem_append.mp hp with hp | hp
    · have hne := Preprocessed.id_ne db'.table.nodup hsplit hp
      exact (Function.update_of_ne hne _ _).trans (hobjects p hp)
    · rw [List.mem_singleton.mp hp]
      exact Function.update_self _ _ _
  · rintro s db' ⟨rfl, rfl⟩
    exact ⟨fun p hp => (by cases hp), rfl, rfl⟩
  · rintro _ s db' ⟨hobjects, hown, rfl⟩
    refine ⟨by rw [hown], ?_, ?_, ?_, ?_, ?_, db'.key_le⟩
    · exact fun p hp _ => ⟨ProfileTable.get_eq_some_iff.mpr ⟨hp, rfl⟩, hobjects p hp⟩
    · exact fun id row hrow => (ProfileTable.get_eq_some_iff.mp hrow).1
    · intro k id hk
      rw [hown] at hk
      cases hk
    · exact fun p hp => by cases hp
    · rw [hown]
      exact fun id hid => by cases hid

/-- The whole method, from the start. -/
theorem ensures_createProfilesFromSubscription (hash : HashOrder) (db : ProfileDatabase)
    (profileId : Int64) (jsons : List (Option JsonElement)) :
    Session.Ensures ProfileDatabase.service (fun s db' => s = start profileId ∧ db' = db)
      (createProfilesFromSubscription hash jsons)
      (fun _ s db' => Synced db.table.rows s.own.passed db'.table) (fun _ _ _ => False) := by
  refine Session.ensures_bind (Session.ensures_get
    (Q := fun _ s db' => s = start profileId ∧ db' = db) fun s db' h => h) fun s₀ => ?_
  refine Session.ensures_bind (ProfileManager.ensures_getAllProfiles
    (Q := fun rows s db' => rows = db.table.rows ∧ s = start profileId ∧ db' = db) ?_)
    fun profiles => ?_
  · rintro s _ ⟨rfl, rfl⟩
    exact ⟨rfl, rfl, rfl⟩
  by_cases hprofiles : profiles = db.table.rows
  · subst hprofiles
    refine Session.ensures_bind ((ensures_setObjects profileId).of_imp (fun _ _ h => h.2)
      (fun _ _ _ h => h) (fun _ _ _ h => h)) fun _ => ?_
    refine Session.ensures_bind ((Session.ensures_forM
      (I := fun pre => Preprocessed db.table.rows pre) ?_).of_imp (fun _ _ h => h)
      (fun _ _ _ h => h.syncing db.table.nodup) (fun _ _ _ h => h)) fun _ => ?_
    · exact fun pre x post hsplit => ensures_preprocess db.table.nodup hsplit _
    refine Session.ensures_bind (Session.ensures_forM (I := fun _ => Syncing db.table.rows) ?_)
      fun _ => ?_
    · exact fun pre json post _ => ensures_processDocument hash _ json
    refine (Session.ensures_forM (I := fun pre s db' => Syncing db.table.rows s db' ∧
      Written (pre.map Profile.id) s db') ?_).of_imp ?_ ?_ (fun _ _ _ h => h)
    · intro pre x post _
      rw [List.map_append]
      exact ensures_writeBack (pre.map Profile.id) x
    · exact fun s db' h => ⟨h, fun k id _ hid => by cases hid⟩
    · exact fun _ s db' h => h.1.synced h.2
  · rintro s db' ⟨hrows, -⟩
    exact absurd hrows hprofiles

/-- **Subscription sync.** If the calls of the database succeed, a sync returns and leaves exactly
the listed profiles active. -/
theorem createProfilesFromSubscription_synced (hash : HashOrder) (db : ProfileDatabase)
    (profileId : Int64) (jsons : List (Option JsonElement))
    (hcalls : (createProfilesFromSubscription hash jsons (start profileId)).AllAccepted
      ProfileDatabase.service db) :
    ∃ s db', (createProfilesFromSubscription hash jsons (start profileId)).exec
        ProfileDatabase.perform db = ((.ok (), s), db') ∧
      Synced db.table.rows s.own.passed db'.table := by
  have h := ensures_createProfilesFromSubscription hash db profileId jsons _ _ ⟨rfl, rfl⟩ hcalls
  revert h
  rcases hexec : (createProfilesFromSubscription hash jsons (start profileId)).exec
    ProfileDatabase.service.perform db with ⟨⟨_ | _, s⟩, db'⟩
  · exact False.elim
  · exact fun h => ⟨s, db', hexec, h⟩

/-- A database with two subscribed rows of one key, the second of which is deleted, and an active
row that is listed no more. -/
def sampleDatabase : ProfileDatabase :=
  .ofProfiles (["a", "a", "b"].map fun name => { name := some name, subscription := .active })

/-- A document that lists the profile `name`. -/
def sampleDocument (name : String) : JsonElement :=
  .object [("server", .string "example.shadowsocks.org"), ("server_port", .number "8388"),
    ("password", .string "new"), ("method", .string "aes-256-gcm"), ("remarks", .string name)]

theorem createProfilesFromSubscription_synced_sampleDatabase :
    ∃ s db', (createProfilesFromSubscription .insertion
        [some (.array [sampleDocument "a", sampleDocument "c"]), none] (start 2)).exec
          ProfileDatabase.perform sampleDatabase = ((.ok (), s), db') ∧
      Synced sampleDatabase.table.rows s.own.passed db'.table :=
  createProfilesFromSubscription_synced .insertion sampleDatabase 2 _ (by decide +kernel)

end SubService
