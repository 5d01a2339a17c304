import DripVpn.Sub.Sync

/-!
# What a subscription sync leaves alone

`createProfilesFromSubscription_frame`: whatever the documents are, and whichever calls of the
database fail on the way, the rows the user configured are as they were, and every new row is
active.

A sync deletes, creates and updates rows through the objects that its map `subscriptions` refers
to. None of these objects is one of the user's (`Subscribed`), and an object that the sync created
is active; the invariant `Framed` says so of all references the sync holds.
-/

open Reactive

/-! ## A database whose calls may fail -/

/-- A database, and which of the next calls fail. -/
structure FaultyDatabase where
  db : ProfileDatabase
  faults : List Bool

namespace FaultyDatabase

/-- What `ProfileManager` makes of a failed call: `null`, or a count that its `check` refuses. -/
def failure : (c : DaoCall) → c.Result
  | .get _ => none
  | .listAll => []
  | .nextOrder => none
  | .create _ => Except.error ()
  | .update _ => (0 : ℕ)
  | .delete _ => (0 : ℕ)
  | .deleteAll => (0 : ℕ)

/-- Perform a call, or fail and leave the database alone. -/
def perform (c : DaoCall) (d : FaultyDatabase) : c.Result × FaultyDatabase :=
  if d.faults.headD false then (failure c, { d with faults := d.faults.tail })
  else ((ProfileDatabase.perform c d.db).1,
    { db := (ProfileDatabase.perform c d.db).2, faults := d.faults.tail })

/-- The faulty database as a service. -/
def service : Service DaoCall.Result FaultyDatabase where
  perform := perform
  Accepts _ _ := True

theorem allAccepted {α : Type} (p : Calls DaoCall.Result α) (d : FaultyDatabase) :
    p.AllAccepted service d := by
  induction p generalizing d with
  | done a => trivial
  | call c k ih => exact ⟨trivial, ih _ _⟩

variable {τ : Type} {P F : Heap τ → ProfileDatabase → Prop}

/-- A call fails or is performed. -/
theorem ensures_call (c : DaoCall) {Q : c.Result → Heap τ → ProfileDatabase → Prop}
    {E : StorageException → Heap τ → FaultyDatabase → Prop}
    (hfail : ∀ s db, P s db → Q (failure c) s db)
    (hdone : ∀ s db, P s db →
      Q (ProfileDatabase.perform c db).1 s (ProfileDatabase.perform c db).2) :
    Session.Ensures service (fun s d => P s d.db) (Session.call c)
      (fun r s d => Q r s d.db) E := by
  apply Session.ensures_call
  intro s d hP _
  show Q (perform c d).1 s (perform c d).2.db
  unfold perform
  split
  · exact hfail s d.db hP
  · exact hdone s d.db hP

/-- `createProfile` adds a row or throws. -/
theorem ensures_createProfile {profile : Profile} {Q : Int64 → Heap τ → ProfileDatabase → Prop}
    (hdone : ∀ s db (hdb : db.sequence < maxRowid) order o, P s db →
      o = { profile with id := db.nextKey, userOrder := order } →
      Q db.nextKey { s with objects := Function.update s.objects db.nextKey o } (db.create o hdb))
    (hfail : ∀ s db, P s db → F s db) :
    Session.Ensures service (fun s d => P s d.db) (ProfileManager.createProfile profile)
      (fun id s d => Q id s d.db) (fun _ s d => F s d.db) := by
  refine Session.ensures_bind (Q := fun _ s d => P s d.db)
    (ensures_call .nextOrder (P := P) (Q := fun _ => P) (fun s db hP => hP) fun s db hP => hP)
    fun (order : Option Int64) => ?_
  refine Session.ensures_bind (ensures_call _ (P := P) (Q := fun result s db' =>
    (result = Except.error () ∧ P s db') ∨ ∃ (db : ProfileDatabase) (hdb : db.sequence < maxRowid),
      result = Except.ok db.nextKey ∧ P s db ∧
        db' = db.create { profile with id := db.nextKey, userOrder := order.getD 0 } hdb)
    (fun s db hP => Or.inl ⟨rfl, hP⟩) ?_) ?_
  · intro s db hP
    by_cases hdb : db.sequence < maxRowid
    · rw [ProfileDatabase.perform_create _ hdb]
      exact Or.inr ⟨db, hdb, rfl, hP, rfl⟩
    · rw [ProfileDatabase.perform_create_full _ hdb]
      exact Or.inl ⟨rfl, hP⟩
  · rintro (- | id)
    · apply Session.ensures_throw
      rintro s d (⟨-, hP⟩ | ⟨db, hdb, hresult, -⟩)
      · exact hfail s d.db hP
      · cases hresult
    · refine Session.ensures_bind (Session.ensures_modify _
        (Q := fun _ s d => Q id s d.db) ?_) fun _ => Session.ensures_pure _ fun s d hQ => hQ
      rintro s d (⟨hresult, -⟩ | ⟨db, hdb, hresult, hP, hd⟩)
      · cases hresult
      · cases hresult
        rw [hd]
        exact hdone s db hdb (order.getD 0) _ hP rfl

/-- `updateProfile`: the row is written, if there is one. -/
theorem ensures_updateProfile {profile : Profile} {Q : Unit → Heap τ → ProfileDatabase → Prop}
    (hdone : ∀ s db, P s db → Q () s (db.update profile) ∧ F s (db.update profile))
    (hfail : ∀ s db, P s db → F s db) :
    Session.Ensures service (fun s d => P s d.db) (ProfileManager.updateProfile profile)
      (fun r s d => Q r s d.db) (fun _ s d => F s d.db) := by
  refine Session.ensures_bind (ensures_call (.update profile) (P := P)
    (Q := fun (count : ℕ) s db => F s db ∧ (count = 1 → Q () s db))
    (fun s db hP => ⟨hfail s db hP, fun h => by cases h⟩)
      fun s db hP => ⟨(hdone s db hP).2, fun _ => (hdone s db hP).1⟩) fun (count : ℕ) => ?_
  split
  next hcount => exact Session.ensures_pure () fun s d h => h.2 hcount
  next hcount => exact Session.ensures_throw _ fun s d h => h.1

/-- `delProfile`: the row is deleted, if there is one. -/
theorem ensures_delProfile {id : Int64} {Q : Unit → Heap τ → ProfileDatabase → Prop}
    (hdone : ∀ s db, P s db → Q () s (db.delete id) ∧ F s (db.delete id))
    (hfail : ∀ s db, P s db → F s db) :
    Session.Ensures service (fun s d => P s d.db) (ProfileManager.delProfile id)
      (fun r s d => Q r s d.db) (fun _ s d => F s d.db) := by
  refine Session.ensures_bind (ensures_call (.delete id) (P := P)
    (Q := fun (count : ℕ) s db => F s db ∧ (count = 1 → Q () s db))
    (fun s db hP => ⟨hfail s db hP, fun h => by cases h⟩)
      fun s db hP => ⟨(hdone s db hP).2, fun _ => (hdone s db hP).1⟩) fun (count : ℕ) => ?_
  split
  next hcount => exact Session.ensures_pure () fun s d h => h.2 hcount
  next hcount => exact Session.ensures_throw _ fun s d h => h.1

end FaultyDatabase

namespace SubService

/-! ## The invariant -/

/-- The object `id` is none of the user's, and active if it is not one of `before`. -/
structure Subscribed (before : List Profile) (s : Heap Locals) (id : Int64) : Prop where
  id_ne : ∀ old ∈ before, old.subscription = .userConfigured → old.id ≠ id
  object_id : (s.objects id).id = id
  status : (s.objects id).subscription ≠ .userConfigured
  active : id ∉ before.map Profile.id → (s.objects id).subscription = .active

/-- The invariant: `profiles` are the rows that the sync has read. -/
structure Framed (before profiles : List Profile) (s : Heap Locals) (db : ProfileDatabase) :
    Prop where
  user : ∀ old ∈ before, old.subscription = .userConfigured → db.table.get old.id = some old
  created : ∀ row ∈ db.table.rows, row.id ∉ before.map Profile.id → row.subscription = .active
  bound : ∀ old ∈ before, old.id.toInt ≤ db.sequence
  subscriptions : ∀ k id, s.own.subscriptions.get? k = some id → Subscribed before s id
  toUpdate : ∀ id ∈ s.own.toUpdate, Subscribed before s id
  /-- The objects of rows of the sync. -/
  objects : ∀ p ∈ profiles, p.subscription ≠ .userConfigured → Subscribed before s p.id

variable {before profiles : List Profile} {s s' : Heap Locals} {db : ProfileDatabase}

/-- An object may change, as long as it stays subscribed. -/
theorem Subscribed.update {id id' : Int64} (h : Subscribed before s id) {o : Profile}
    (hobject : id = id' → o.id = id' ∧ o.subscription ≠ .userConfigured ∧
      (id' ∉ before.map Profile.id → o.subscription = .active))
    (hs' : s'.objects = Function.update s.objects id' o) : Subscribed before s' id := by
  by_cases hid : id = id'
  · subst hid
    obtain ⟨hoid, hstatus, hactive⟩ := hobject rfl
    have hget : s'.objects id = o := by rw [hs', Function.update_self]
    exact ⟨h.id_ne, hget ▸ hoid, hget ▸ hstatus, hget ▸ hactive⟩
  · have hget : s'.objects id = s.objects id := by rw [hs', Function.update_of_ne hid]
    exact ⟨h.id_ne, hget ▸ h.object_id, hget ▸ h.status, hget ▸ h.active⟩

/-- Local variables do not matter to objects. -/
theorem Subscribed.of_objects {id : Int64} (h : Subscribed before s id)
    (hs' : s'.objects = s.objects) : Subscribed before s' id :=
  ⟨h.id_ne, hs' ▸ h.object_id, hs' ▸ h.status, hs' ▸ h.active⟩

namespace Framed

/-- Only the database changed, and it left the user's rows and the status of new ones. -/
theorem of_db {db' : ProfileDatabase} (h : Framed before profiles s db)
    (huser : ∀ old ∈ before, old.subscription = .userConfigured → db'.table.get old.id = some old)
    (hcreated : ∀ row ∈ db'.table.rows, row.id ∉ before.map Profile.id →
      row.subscription = .active)
    (hsequence : db'.sequence = db.sequence) : Framed before profiles s db' :=
  ⟨huser, hcreated, hsequence ▸ h.bound, h.subscriptions, h.toUpdate, h.objects⟩

/-- Writing a subscribed object. -/
theorem update (h : Framed before profiles s db) {id : Int64} (hid : Subscribed before s id) :
    Framed before profiles s (db.update (s.objects id)) := by
  refine h.of_db ?_ ?_ rfl
  · intro old hold huser
    show (db.table.update (s.objects id)).2.get old.id = _
    rw [ProfileTable.get_update, if_neg]
    · exact h.user old hold huser
    · rw [hid.object_id]
      exact hid.id_ne old hold huser
  · intro row hrow hnew
    rcases ProfileTable.mem_update hrow with hrow | ⟨rfl, -⟩
    · exact h.created row hrow hnew
    · rw [Profile.stored_id, hid.object_id] at hnew
      exact hid.active hnew

/-- Deleting a subscribed row. -/
theorem delete (h : Framed before profiles s db) {id : Int64} (hid : Subscribed before s id) :
    Framed before profiles s (db.delete id) := by
  refine h.of_db ?_ ?_ rfl
  · intro old hold huser
    show (db.table.delete id).2.get old.id = _
    rw [ProfileTable.get_delete, if_neg (hid.id_ne old hold huser)]
    exact h.user old hold huser
  · intro row hrow hnew
    exact h.created row (List.mem_filter.mp hrow).1 hnew

/-- The variables changed, to objects that are subscribed. -/
theorem of_locals (h : Framed before profiles s db)
    (hobjects : ∀ id, Subscribed before s id → Subscribed before s' id)
    (hsubscriptions : ∀ k id, s'.own.subscriptions.get? k = some id →
      s.own.subscriptions.get? k = some id ∨ Subscribed before s' id)
    (htoUpdate : ∀ id ∈ s'.own.toUpdate, id ∈ s.own.toUpdate ∨ Subscribed before s' id) :
    Framed before profiles s' db := by
  refine ⟨h.user, h.created, h.bound, ?_, ?_, fun p hp hsub => hobjects _ (h.objects p hp hsub)⟩
  · intro k id hk
    rcases hsubscriptions k id hk with hk | hid
    · exact hobjects id (h.subscriptions k id hk)
    · exact hid
  · intro id hid
    rcases htoUpdate id hid with hid | hid
    · exact hobjects id (h.toUpdate id hid)
    · exact hid

end Framed

/-! ## The documents -/

/-- The invariant, and that the objects `ids` are subscribed. -/
def Holding (before profiles : List Profile) (ids : List Int64) (s : Heap Locals)
    (db : ProfileDatabase) : Prop :=
  Framed before profiles s db ∧ ∀ id ∈ ids, Subscribed before s id

/-- A new row is nobody's. -/
theorem Framed.create (h : Framed before profiles s db) (it : Profile) (s' : Heap Locals)
    {o : Profile} {order : Int64} (hdb : db.sequence < maxRowid)
    (ho : o = { it with id := db.nextKey, userOrder := order, subscription := .active })
    (hobjects : s'.objects = Function.update s.objects db.nextKey o)
    (hown : s'.own = { s.own with
      subscriptions := s.own.subscriptions.put (key it) db.nextKey
      passed := s.own.passed ++ [it] }) :
    Framed before profiles s' (db.create o hdb) ∧ Subscribed before s' db.nextKey ∧
      ∀ id, Subscribed before s id → Subscribed before s' id := by
  have hnew : ∀ old ∈ before, old.id ≠ db.nextKey := by
    intro old hold heq
    have hle := h.bound old hold
    rw [heq, ProfileDatabase.toInt_nextKey hdb] at hle
    omega
  have hactive : o.subscription = .active := by rw [ho]
  have hid : o.id = db.nextKey := by rw [ho]
  have hget : s'.objects db.nextKey = o := by rw [hobjects, Function.update_self]
  have hsub : Subscribed before s' db.nextKey := by
    refine ⟨fun old hold _ => hnew old hold, hget ▸ hid, ?_, fun _ => hget ▸ hactive⟩
    rw [hget, hactive]
    decide
  have hkeep : ∀ id, Subscribed before s id → Subscribed before s' id := by
    intro id hid'
    refine hid'.update (fun _ => ⟨hid, ?_, fun _ => hactive⟩) hobjects
    rw [hactive]
    decide
  have hframed : Framed before profiles s' db := by
    refine h.of_locals hkeep ?_ ?_
    · intro k id hk
      rw [hown] at hk
      replace hk : (s.own.subscriptions.put (key it) db.nextKey).get? k = some id := hk
      rw [LinkedMap.get?_put] at hk
      by_cases hkit : k = key it
      · rw [if_pos hkit] at hk
        obtain rfl := Option.some.inj hk
        exact Or.inr hsub
      · rw [if_neg hkit] at hk
        exact Or.inl hk
    · intro id hid'
      rw [hown] at hid'
      exact Or.inl hid'
  refine ⟨⟨?_, ?_, ?_, hframed.subscriptions, hframed.toUpdate, hframed.objects⟩, hsub, hkeep⟩
  · intro old hold huser
    rw [ProfileDatabase.get_create, if_neg (hnew old hold)]
    exact h.user old hold huser
  · intro row hrow hrownew
    rcases List.mem_append.mp hrow with hrow | hrow
    · exact h.created row hrow hrownew
    · rw [List.mem_singleton.mp hrow]
      exact hactive
  · intro old hold
    have hle := h.bound old hold
    show _ ≤ ((db.sequence + 1 : ℕ) : ℤ)
    omega

/-- The callback keeps the invariant and returns a subscribed object. -/
theorem ensures_subscribe_framed (it : Profile) (ids : List Int64) :
    Session.Ensures FaultyDatabase.service (fun s d => Holding before profiles ids s d.db)
      (subscribe it) (fun id s d => Holding before profiles (id :: ids) s d.db)
      (fun _ s d => Framed before profiles s d.db) := by
  rintro s d ⟨h, hids⟩ hall
  cases hget : s.own.subscriptions.get? (key it) with
  | none =>
    rw [subscribe_none hget] at hall ⊢
    refine Session.ensures_bind
      (P := fun s' d' => s' = { s with own := { s.own with passed := s.own.passed ++ [it] } } ∧
        d'.db = d.db)
      (FaultyDatabase.ensures_createProfile
        (P := fun s' db => s' = { s with own := { s.own with passed := s.own.passed ++ [it] } } ∧
          db = d.db)
        (Q := fun id s' db => Holding before profiles (id :: ids)
          { s' with own := { s'.own with subscriptions := s'.own.subscriptions.put (key it) id } }
          db) (F := Framed before profiles) ?_ ?_) (fun id => Session.ensures_bind
            (Session.ensures_modify _ (Q := fun _ s' d' => Holding before profiles (id :: ids)
              s' d'.db) fun s' d' hs' => hs')
            fun _ => Session.ensures_pure id fun s' d' hs' => hs') _ _ ⟨rfl, rfl⟩ hall
    · rintro _ _ hdb order o ⟨rfl, rfl⟩ ho
      refine ⟨(h.create it _ hdb ho rfl rfl).1, ?_⟩
      intro id hid
      rcases List.mem_cons.mp hid with rfl | hid
      · exact (h.create it _ hdb ho rfl rfl).2.1
      · exact (h.create it _ hdb ho rfl rfl).2.2 id (hids id hid)
    · rintro _ _ ⟨rfl, rfl⟩
      exact h.of_locals (fun id hid => hid.of_objects rfl) (fun k id hk => Or.inl hk)
        fun id hid => Or.inl hid
  | some old =>
    have hold := h.subscriptions _ old hget
    have hput := LinkedMap.get?_put_self hget
    cases hstatus : (s.objects old).subscription with
    | userConfigured => exact absurd hstatus hold.status
    | active =>
      rw [subscribe_active hget hstatus]
      refine ⟨h.of_locals (fun id hid => hid.of_objects rfl) ?_ fun id hid => Or.inl hid, ?_⟩
      · exact fun k id hk => Or.inl ((hput k).symm.trans hk)
      · intro id hid
        rcases List.mem_cons.mp hid with rfl | hid
        · exact hold.of_objects rfl
        · exact (hids id hid).of_objects rfl
    | obsolete =>
      rw [subscribe_obsolete hget hstatus]
      have hkeep : ∀ id, Subscribed before s id → Subscribed before
          { s with
            objects := Function.update s.objects old (Syncing.revived (s.objects old) it)
            own := Syncing.settled s.own it old (old :: s.own.toUpdate) } id := by
        intro id hid
        refine hid.update (o := Syncing.revived (s.objects old) it)
          (fun _ => ⟨hold.object_id, ?_, fun _ => rfl⟩) rfl
        show SubscriptionStatus.active ≠ _
        decide
      refine ⟨h.of_locals hkeep ?_ ?_, ?_⟩
      · exact fun k id hk => Or.inl ((hput k).symm.trans hk)
      · intro id hid
        rcases List.mem_cons.mp hid with rfl | hid
        · exact Or.inr (hkeep _ hold)
        · exact Or.inl hid
      · intro id hid
        rcases List.mem_cons.mp hid with rfl | hid
        · exact hkeep _ hold
        · exact hkeep _ (hids id hid)

/-- The loop of `parseJson` keeps the invariant. -/
theorem ensures_createAll_framed (parsed : List Profile) (fallbackMap : LinkedMap Profile Profile)
    (linked : LinkedMap Int64 Profile) :
    Session.Ensures FaultyDatabase.service
      (fun s d => Holding before profiles (linked.entries.map Prod.fst) s d.db)
      (JsonParser.createAll subscribe parsed fallbackMap linked)
      (fun linked s d => Holding before profiles (linked.entries.map Prod.fst) s d.db)
      (fun _ s d => Framed before profiles s d.db) :=
  JsonParser.ensures_createAll_of (S := FaultyDatabase.service)
    (I := fun ids s d => Holding before profiles ids s d.db)
    (fun _ _ _ _ hsubset h => ⟨h.1, fun id hid => h.2 id (hsubset hid)⟩)
    (fun p ids => ensures_subscribe_framed p ids) parsed fallbackMap linked

/-- An object that is linked to its fallback stays subscribed. -/
theorem Framed.setFallback (h : Framed before profiles s db) {id : Int64}
    (hid : Subscribed before s id) (target : Option Int64) (s' : Heap Locals)
    (hs' : s' = { s with
      objects := Function.update s.objects id { s.objects id with udpFallback := target } }) :
    Framed before profiles s' db ∧ ∀ id', Subscribed before s id' → Subscribed before s' id' := by
  subst hs'
  have hkeep : ∀ id', Subscribed before s id' → Subscribed before
      { s with
        objects := Function.update s.objects id { s.objects id with udpFallback := target } }
      id' := by
    intro id' hid'
    exact hid'.update (o := { s.objects id with udpFallback := target })
      (fun _ => ⟨hid.object_id, hid.status, hid.active⟩) rfl
  exact ⟨h.of_locals hkeep (fun k id' hk => Or.inl hk) fun id' hid' => Or.inl hid', hkeep⟩

/-- One turn of `finalize` keeps the invariant. -/
theorem ensures_link_framed (rows : List Profile) (entry : Int64 × Profile) (ids : List Int64)
    (hentry : entry.1 ∈ ids) :
    Session.Ensures FaultyDatabase.service (fun s d => Holding before profiles ids s d.db)
      (JsonParser.link subscribe rows entry)
      (fun _ s d => Holding before profiles ids s d.db)
      (fun _ s d => Framed before profiles s d.db) := by
  refine Session.ensures_bind (Q := fun _ s d => Holding before profiles ids s d.db) ?_
    fun target => ?_
  · unfold JsonParser.matchOrCreate
    split
    · exact Session.ensures_pure _ fun s d h => h
    · refine (ensures_subscribe_framed entry.2 ids).of_imp (fun _ _ h => h) ?_ (fun _ _ _ h => h)
      exact fun id s d h => ⟨h.1, fun id' hid' => h.2 id' (List.mem_cons_of_mem _ hid')⟩
  · refine Session.ensures_bind (Session.ensures_get
      (Q := fun s₀ s d => s = s₀ ∧ Holding before profiles ids s₀ d.db)
      fun s d h => ⟨rfl, h⟩) fun s₀ => ?_
    refine Session.ensures_bind (Session.ensures_modify _
      (Q := fun _ s d =>
        s.objects entry.1 = { s₀.objects entry.1 with udpFallback := some target } ∧
        Holding before profiles ids s d.db) ?_) fun _ => ?_
    · rintro s d ⟨rfl, h, hids⟩
      obtain ⟨hframed, hkeep⟩ := h.setFallback (hids _ hentry) (some target) _ rfl
      exact ⟨Function.update_self _ _ _, hframed, fun id hid => hkeep id (hids id hid)⟩
    · refine FaultyDatabase.ensures_updateProfile
        (P := fun s db => s.objects entry.1 =
          { s₀.objects entry.1 with udpFallback := some target } ∧ Holding before profiles ids s db)
        (Q := fun _ s db => Holding before profiles ids s db) ?_ ?_
      · rintro s db ⟨hobject, h, hids⟩
        have hframed := h.update (hids _ hentry)
        rw [hobject] at hframed
        exact ⟨⟨hframed, hids⟩, hframed⟩
      · exact fun s db h => h.2.1

/-- `parseJson` keeps the invariant, also when it throws. -/
theorem ensures_parseJson_framed (hash : HashOrder) (json : JsonElement)
    (feature : Option Profile) :
    Session.Ensures FaultyDatabase.service (fun s d => Framed before profiles s d.db)
      (Profile.parseJson hash json feature subscribe)
      (fun _ s d => Framed before profiles s d.db)
      (fun _ s d => Framed before profiles s d.db) := by
  unfold Profile.parseJson
  split
  · exact Session.ensures_throw _ fun s d h => h
  next parser _ =>
    refine Session.ensures_bind
      (Q := fun linked s d => Holding before profiles (linked.entries.map Prod.fst) s d.db)
      ?_ fun linked => ?_
    · refine (ensures_createAll_framed _ _ _).of_imp ?_ (fun _ _ _ h => h) (fun _ _ _ h => h)
      exact fun s d h => ⟨h, fun id hid => by cases hid⟩
    · refine Session.ensures_bind (FaultyDatabase.ensures_call .listAll
        (P := Holding before profiles (linked.entries.map Prod.fst))
        (Q := fun _ => Holding before profiles (linked.entries.map Prod.fst))
        (fun s db h => h) fun s db h => h) fun rows => ?_
      refine (Session.ensures_forM
        (I := fun _ s d => Holding before profiles (linked.entries.map Prod.fst) s d.db)
        ?_).of_imp (fun _ _ h => h) (fun _ _ _ h => h.1) (fun _ _ _ h => h)
      intro pre entry post hentries
      apply ensures_link_framed
      rw [hentries]
      simp

/-! ## The loops over the rows -/

/-- One turn of the preprocessing loop keeps the invariant. -/
theorem ensures_preprocess_framed (currentId : Int64) {x : Profile} (hx : x ∈ profiles)
    (hbefore : x ∈ before) :
    Session.Ensures FaultyDatabase.service (fun s d => Framed before profiles s d.db)
      (preprocess currentId x) (fun _ s d => Framed before profiles s d.db)
      (fun _ s d => Framed before profiles s d.db) := by
  refine Session.ensures_bind (Session.ensures_get
    (Q := fun s₀ s d => s = s₀ ∧ Framed before profiles s₀ d.db) fun s d h => ⟨rfl, h⟩)
    fun s₀ => ?_
  split
  · apply Session.ensures_pure
    rintro s d ⟨rfl, h⟩
    exact h
  next hsub =>
    split
    · refine Session.ensures_bind (FaultyDatabase.ensures_delProfile
        (P := fun s db => s = s₀ ∧ Framed before profiles s₀ db)
        (Q := fun _ => Framed before profiles) ?_ ?_) fun _ => ?_
      · rintro s db ⟨rfl, h⟩
        exact ⟨h.delete (h.objects x hx hsub), h.delete (h.objects x hx hsub)⟩
      · rintro s db ⟨rfl, h⟩
        exact h
      · split
        · apply Session.ensures_modify
          intro s d h
          exact h.of_locals (fun id hid => hid.of_objects rfl) (fun k id hk => Or.inl hk)
            fun id hid => Or.inl hid
        · exact Session.ensures_pure () fun s d h => h
    · refine Session.ensures_bind (Session.ensures_modify _
        (Q := fun _ s d => Framed before profiles s d.db) ?_) fun _ => ?_
      · rintro s d ⟨rfl, h⟩
        refine h.of_locals (fun id hid => hid.of_objects rfl) ?_ fun id hid => Or.inl hid
        intro k id hk
        replace hk : (s.own.subscriptions.put (key x) x.id).get? k = some id := hk
        rw [LinkedMap.get?_put] at hk
        by_cases hkx : k = key x
        · rw [if_pos hkx] at hk
          obtain rfl := Option.some.inj hk
          exact Or.inr ((h.objects x hx hsub).of_objects rfl)
        · rw [if_neg hkx] at hk
          exact Or.inl hk
      · split
        · refine Session.ensures_bind (Session.ensures_modify _
            (Q := fun _ s d => Framed before profiles s d.db) ?_) fun _ =>
              Session.ensures_modify _ ?_
          · intro s d h
            refine h.of_locals (fun id hid => hid.of_objects rfl) (fun k id hk => Or.inl hk) ?_
            intro id hid
            rcases List.mem_cons.mp hid with rfl | hid
            · exact Or.inr ((h.objects x hx hsub).of_objects rfl)
            · exact Or.inl hid
          -- an object of `before`, so it need not be active
          · intro s d h
            refine h.of_locals ?_ (fun k id hk => Or.inl hk) fun id hid => Or.inl hid
            intro id hid
            refine hid.update (o := { x with subscription := .obsolete })
              (fun _ => ⟨rfl, ?_, fun hnot => absurd (List.mem_map_of_mem hbefore) hnot⟩) rfl
            show SubscriptionStatus.obsolete ≠ _
            decide
        · exact Session.ensures_pure () fun s d h => h

/-- One turn of the last loop keeps the invariant. -/
theorem ensures_writeBack_framed (x : Profile) :
    Session.Ensures FaultyDatabase.service (fun s d => Framed before profiles s d.db)
      (writeBack x) (fun _ s d => Framed before profiles s d.db)
      (fun _ s d => Framed before profiles s d.db) := by
  refine Session.ensures_bind (Session.ensures_get
    (Q := fun s₀ s d => s = s₀ ∧ Framed before profiles s₀ d.db) fun s d h => ⟨rfl, h⟩)
    fun s₀ => ?_
  split
  next hmem =>
    refine FaultyDatabase.ensures_updateProfile
      (P := fun s db => s = s₀ ∧ Framed before profiles s₀ db)
      (Q := fun _ => Framed before profiles) ?_ ?_
    · rintro s db ⟨rfl, h⟩
      exact ⟨h.update (h.toUpdate _ hmem), h.update (h.toUpdate _ hmem)⟩
    · rintro s db ⟨rfl, h⟩
      exact h
  next =>
    apply Session.ensures_pure
    rintro s d ⟨rfl, h⟩
    exact h

/-- A document keeps the invariant. -/
theorem ensures_processDocument_framed (hash : HashOrder) (feature : Option Profile)
    (json : Option JsonElement) :
    Session.Ensures FaultyDatabase.service (fun s d => Framed before profiles s d.db)
      (processDocument hash feature json) (fun _ s d => Framed before profiles s d.db)
      (fun _ s d => Framed before profiles s d.db) := by
  cases json with
  | none => exact Session.ensures_pure () fun s d h => h
  | some json => exact Session.ensures_attempt (ensures_parseJson_framed hash json feature)

/-- The invariant once the rows have become objects. -/
theorem framed_of_objects (hprofiles : ∀ p ∈ profiles, p ∈ db.table.rows)
    (hobjects : ∀ p ∈ profiles, s.objects p.id = p) (hsubscriptions : s.own.subscriptions = .empty)
    (htoUpdate : s.own.toUpdate = []) : Framed db.table.rows profiles s db := by
  refine ⟨?_, ?_, db.key_le, ?_, ?_, ?_⟩
  · exact fun old hold _ => ProfileTable.get_eq_some_iff.mpr ⟨hold, rfl⟩
  · exact fun row hrow hnew => absurd (List.mem_map_of_mem hrow) hnew
  · intro k id hk
    rw [hsubscriptions] at hk
    cases hk
  · intro id hid
    rw [htoUpdate] at hid
    cases hid
  · intro p hp hsub
    have hmem := hprofiles p hp
    refine ⟨?_, by rw [hobjects p hp], by rwa [hobjects p hp], ?_⟩
    · intro old hold huser hid
      rw [List.inj_on_of_nodup_map db.table.nodup hold hmem hid] at huser
      exact hsub huser
    · exact fun hnew => absurd (List.mem_map_of_mem hmem) hnew

/-- The rows become objects. -/
theorem ensures_setObjects_framed (hprofiles : ∀ p ∈ profiles, p ∈ db.table.rows)
    (hnodup : (profiles.map Profile.id).Nodup) (profileId : Int64)
    {E : StorageException → Heap Locals → FaultyDatabase → Prop} :
    Session.Ensures FaultyDatabase.service (fun s d => s = start profileId ∧ d.db = db)
      (profiles.forM fun profile => ProfileManager.setObject profile.id profile)
      (fun _ s d => Framed db.table.rows profiles s d.db) E := by
  refine (Session.ensures_forM (I := fun pre s d => (∀ p ∈ pre, s.objects p.id = p) ∧
    s.own = { profileId } ∧ d.db = db) ?_).of_imp ?_ ?_ (fun _ _ _ h => h)
  · intro pre x post hsplit
    apply Session.ensures_modify
    rintro s d ⟨hobjects, hown, hd⟩
    refine ⟨?_, hown, hd⟩
    intro p hp
    rcases List.mem_append.mp hp with hp | hp
    · have hne := Preprocessed.id_ne hnodup hsplit hp
      exact (Function.update_of_ne hne _ _).trans (hobjects p hp)
    · rw [List.mem_singleton.mp hp]
      exact Function.update_self _ _ _
  · rintro s d ⟨rfl, hd⟩
    exact ⟨fun p hp => (by cases hp), rfl, hd⟩
  · rintro _ s d ⟨hobjects, hown, hd⟩
    rw [hd]
    exact framed_of_objects hprofiles hobjects (by rw [hown]) (by rw [hown])

/-- The whole method keeps the invariant, also when it throws. -/
theorem ensures_createProfilesFromSubscription_framed (hash : HashOrder) (db : ProfileDatabase)
    (profileId : Int64) (jsons : List (Option JsonElement)) :
    Session.Ensures FaultyDatabase.service (fun s d => s = start profileId ∧ d.db = db)
      (createProfilesFromSubscription hash jsons)
      (fun _ s d => ∃ profiles, Framed db.table.rows profiles s d.db)
      (fun _ s d => ∃ profiles, Framed db.table.rows profiles s d.db) := by
  refine Session.ensures_bind (Session.ensures_get
    (Q := fun _ s d => s = start profileId ∧ d.db = db) fun s d h => h) fun s₀ => ?_
  refine Session.ensures_bind (FaultyDatabase.ensures_call .listAll
    (P := fun s db' => s = start profileId ∧ db' = db)
    (Q := fun rows s db' => ((∀ p ∈ rows, p ∈ db.table.rows) ∧ (rows.map Profile.id).Nodup) ∧
      s = start profileId ∧ db' = db) ?_ ?_) fun profiles => Session.ensures_of_fact ?_
  · rintro s _ ⟨rfl, rfl⟩
    exact ⟨⟨fun p hp => (by cases hp), List.nodup_nil⟩, rfl, rfl⟩
  · rintro s db' ⟨rfl, rfl⟩
    exact ⟨⟨fun p hp => hp, db'.table.nodup⟩, rfl, rfl⟩
  rintro ⟨hprofiles, hnodup⟩
  refine Session.ensures_bind (ensures_setObjects_framed hprofiles hnodup profileId) fun _ => ?_
  refine Session.Ensures.of_imp (Q := fun _ s (d : FaultyDatabase) =>
    Framed db.table.rows profiles s d.db) (E := fun _ s (d : FaultyDatabase) =>
    Framed db.table.rows profiles s d.db) ?_ (fun _ _ h => h)
    (fun _ s d h => ⟨profiles, h⟩) (fun _ s d h => ⟨profiles, h⟩)
  refine Session.ensures_bind (Session.ensures_forM
    (I := fun _ s (d : FaultyDatabase) => Framed db.table.rows profiles s d.db) ?_) fun _ => ?_
  · intro pre x post hsplit
    have hx : x ∈ profiles := by rw [hsplit]; simp
    exact ensures_preprocess_framed _ hx (hprofiles x hx)
  refine Session.ensures_bind (Session.ensures_forM
    (I := fun _ s (d : FaultyDatabase) => Framed db.table.rows profiles s d.db) ?_) fun _ => ?_
  · exact fun pre json post _ => ensures_processDocument_framed hash _ json
  · exact Session.ensures_forM
      (I := fun _ s (d : FaultyDatabase) => Framed db.table.rows profiles s d.db)
      fun pre x post _ => ensures_writeBack_framed x

/-- **Frame.** Whatever the documents are and whichever calls of the database fail, a sync leaves
the rows that the user configured as they were, and every row it creates is active. -/
theorem createProfilesFromSubscription_frame (hash : HashOrder) (db : ProfileDatabase)
    (faults : List Bool) (profileId : Int64) (jsons : List (Option JsonElement)) :
    let after := ((createProfilesFromSubscription hash jsons (start profileId)).exec
      FaultyDatabase.perform { db, faults }).2.db.table
    (∀ old ∈ db.table.rows, old.subscription = .userConfigured → old ∈ after.rows) ∧
      ∀ row ∈ after.rows, row.id ∉ db.table.rows.map Profile.id → row.subscription = .active := by
  intro after
  have h := ensures_createProfilesFromSubscription_framed hash db profileId jsons (start profileId)
    { db, faults } ⟨rfl, rfl⟩ (FaultyDatabase.allAccepted _ _)
  have hframed : ∃ profiles s, Framed db.table.rows profiles s
      ((createProfilesFromSubscription hash jsons (start profileId)).exec
        FaultyDatabase.perform { db, faults }).2.db := by
    revert h
    show Session.Outcome _ _ ((createProfilesFromSubscription hash jsons (start profileId)).exec
      FaultyDatabase.perform { db, faults }) → _
    rcases (createProfilesFromSubscription hash jsons (start profileId)).exec
      FaultyDatabase.perform { db, faults } with ⟨⟨_ | _, s⟩, d⟩
    · rintro ⟨profiles, hframed⟩
      exact ⟨profiles, s, hframed⟩
    · rintro ⟨profiles, hframed⟩
      exact ⟨profiles, s, hframed⟩
  obtain ⟨profiles, s, hframed⟩ := hframed
  refine ⟨?_, hframed.created⟩
  intro old hold huser
  exact (ProfileTable.get_eq_some_iff.mp (hframed.user old hold huser)).1

end SubService
