import DripVpn.Db.ProfileManager
import DripVpn.Foundations.Calls
import Mathlib.Logic.Function.Basic

/-!
# Database calls

`Profile.Dao` call by call. Each call is atomic; a program of `ProfileManager` is a sequence of
calls (`Calls DaoCall.Result`), which another process may interleave with its own.

The database behind the calls is the table of profiles together with the counter that SQLite keeps
for an `AUTOINCREMENT` key: a new row gets the next number, and the number of a deleted row is never
given out again. That all keys are positive and at most the counter is a field of the structure.
-/

open Reactive

/-- The largest `Long`, and so the largest rowid. -/
def maxRowid : ℕ := 9223372036854775807

/-- The calls of `Profile.Dao`. -/
inductive DaoCall where
  | get (id : Int64)
  | listAll
  | nextOrder
  | create (value : Profile)
  | update (value : Profile)
  | delete (id : Int64)
  | deleteAll

/-- What a call returns; an error of `create` is the `SQLiteFullException` of a used up key. -/
abbrev DaoCall.Result : DaoCall → Type
  | .get _ => Option Profile
  | .listAll => List Profile
  | .nextOrder => Option Int64
  | .create _ => Except Unit Int64
  | .update _ => ℕ
  | .delete _ => ℕ
  | .deleteAll => ℕ

/-- The profile database. -/
structure ProfileDatabase where
  table : ProfileTable
  /-- The largest key ever given out. -/
  sequence : ℕ
  sequence_le : sequence ≤ maxRowid
  key_pos : ∀ p ∈ table.rows, 0 < p.id.toInt
  key_le : ∀ p ∈ table.rows, p.id.toInt ≤ sequence

namespace ProfileTable

/-- `DELETE … WHERE id = :id`. -/
def delete (t : ProfileTable) (id : Int64) : ℕ × ProfileTable :=
  ((t.rows.filter fun p => p.id = id).length,
    { rows := t.rows.filter fun p => p.id ≠ id
      nodup := t.nodup.sublist (List.filter_sublist.map Profile.id) })

/-- `SELECT MAX(userOrder) FROM Profile`. -/
def maxOrder (t : ProfileTable) : Option Int64 :=
  t.rows.foldl (fun max p => match max with
    | none => some p.userOrder
    | some order => some (if order < p.userOrder then p.userOrder else order)) none

/-- `SELECT MAX(userOrder) + 1 FROM Profile`. The sum of SQLite does not wrap: past the largest
integer it is a real number, which is read as the largest `Long`. -/
def nextOrder (t : ProfileTable) : Option Int64 :=
  t.maxOrder.map fun max => if max = Int64.maxValue then max else max + 1

/-- A key finds the row it belongs to. -/
theorem get_eq_some_iff {t : ProfileTable} {id : Int64} {p : Profile} :
    t.get id = some p ↔ p ∈ t.rows ∧ p.id = id := by
  constructor
  · intro h
    exact ⟨List.mem_of_find?_eq_some h, id_of_get h⟩
  · rintro ⟨hp, rfl⟩
    have hsome : (t.get p.id).isSome := by
      rw [get, List.find?_isSome]
      exact ⟨p, hp, by simp⟩
    obtain ⟨q, hq⟩ := Option.isSome_iff_exists.mp hsome
    rw [hq]
    exact congrArg some (List.inj_on_of_nodup_map t.nodup (List.mem_of_find?_eq_some hq) hp
      (id_of_get hq))

theorem get_eq_none_iff {t : ProfileTable} {id : Int64} :
    t.get id = none ↔ ∀ p ∈ t.rows, p.id ≠ id := by
  simp [get]

/-- The rows after an update, by key. -/
theorem get_update (t : ProfileTable) (value : Profile) (id : Int64) :
    (t.update value).2.get id =
      if id = value.id then (t.get id).map fun _ => value.stored else t.get id := by
  apply Option.ext
  intro p
  by_cases hid : id = value.id
  · subst hid
    rw [if_pos rfl]
    cases hget : t.get value.id with
    | some row => simp [get_update_self hget]
    | none =>
      -- without a row of the key nothing is replaced
      have hsame : (t.update value).2.get value.id = none := by
        rw [get_eq_none_iff] at hget ⊢
        intro p hp
        rcases List.mem_map.mp hp with ⟨q, hq, rfl⟩
        rw [if_neg (hget q hq)]
        exact hget q hq
      simp [hsame]
  · rw [if_neg hid, get_eq_some_iff, get_eq_some_iff]
    refine and_congr_left fun hpid => ?_
    have hne : p.id ≠ value.id := fun h => hid (hpid.symm.trans h)
    constructor
    · intro hp
      obtain ⟨q, hq, rfl⟩ := List.mem_map.mp hp
      by_cases hqid : q.id = value.id
      · rw [if_pos hqid] at hne
        exact absurd rfl hne
      · rwa [if_neg hqid]
    · intro hp
      exact List.mem_map.mpr ⟨p, hp, if_neg hne⟩

/-- An update without a row of the key touches no row. -/
theorem update_count_of_none {t : ProfileTable} {value : Profile} (h : t.get value.id = none) :
    (t.update value).1 = 0 := by
  rw [get_eq_none_iff] at h
  rw [update, List.length_eq_zero_iff, List.filter_eq_nil_iff]
  intro p hp
  simpa using h p hp

/-- Deleting a row that exists deletes exactly one row. -/
theorem delete_count {t : ProfileTable} {id : Int64} {row : Profile} (h : t.get id = some row) :
    (t.delete id).1 = 1 := by
  obtain rfl : row.id = id := id_of_get h
  exact update_count h

/-- The rows after a deletion, by key. -/
theorem get_delete (t : ProfileTable) (key id : Int64) :
    (t.delete key).2.get id = if id = key then none else t.get id := by
  apply Option.ext
  intro p
  rw [get_eq_some_iff, delete, List.mem_filter]
  by_cases h : id = key
  · subst h
    simp only [decide_not, Bool.not_eq_eq_eq_not, Bool.not_true, decide_eq_false_iff_not, if_true,
      reduceCtorEq, iff_false, not_and]
    exact fun hp => hp.2
  · rw [if_neg h, get_eq_some_iff]
    refine and_congr_left ?_
    rintro rfl
    simp [h]

theorem mem_update {t : ProfileTable} {value p : Profile} (h : p ∈ (t.update value).2.rows) :
    p ∈ t.rows ∨ (p = value.stored ∧ ∃ q ∈ t.rows, q.id = value.id) := by
  obtain ⟨q, hq, rfl⟩ := List.mem_map.mp h
  by_cases hid : q.id = value.id
  · rw [if_pos hid]
    exact Or.inr ⟨rfl, q, hq, hid⟩
  · rw [if_neg hid]
    exact Or.inl hq

end ProfileTable

namespace ProfileDatabase

/-- The key of the next row. -/
def nextKey (db : ProfileDatabase) : Int64 := Int64.ofInt (db.sequence + 1)

theorem toInt_nextKey {db : ProfileDatabase} (h : db.sequence < maxRowid) :
    db.nextKey.toInt = db.sequence + 1 := by
  unfold maxRowid at h
  rw [nextKey, Int64.toInt_ofInt_of_le] <;> omega

/-- Keys that were given out differ from the next one. -/
theorem id_ne_nextKey {db : ProfileDatabase} (h : db.sequence < maxRowid) {p : Profile}
    (hp : p ∈ db.table.rows) : p.id ≠ db.nextKey := by
  intro hid
  have hle := db.key_le p hp
  rw [hid, toInt_nextKey h] at hle
  omega

/-- `Dao.create` of a profile without an id, the only ones `createProfile` passes on: the row gets
the next key. -/
def create (db : ProfileDatabase) (value : Profile) (h : db.sequence < maxRowid) :
    ProfileDatabase where
  table :=
    { rows := db.table.rows ++ [{ value with id := db.nextKey, dirty := false }]
      nodup := by
        rw [List.map_append, List.map_singleton]
        refine List.nodup_append.mpr ⟨db.table.nodup, List.nodup_singleton _, ?_⟩
        rintro _ hid _ hnew rfl
        obtain ⟨p, hp, hpid⟩ := List.mem_map.mp hid
        exact id_ne_nextKey h hp (hpid.trans (List.mem_singleton.mp hnew)) }
  sequence := db.sequence + 1
  sequence_le := h
  key_pos := by
    intro p hp
    rcases List.mem_append.mp hp with hp | hp
    · exact db.key_pos p hp
    · rw [List.mem_singleton.mp hp]
      show 0 < db.nextKey.toInt
      rw [toInt_nextKey h]
      omega
  key_le := by
    intro p hp
    rcases List.mem_append.mp hp with hp | hp
    · have hle := db.key_le p hp
      omega
    · rw [List.mem_singleton.mp hp]
      show db.nextKey.toInt ≤ _
      rw [toInt_nextKey h]
      omega

/-- `Dao.update`. -/
def update (db : ProfileDatabase) (value : Profile) : ProfileDatabase where
  table := (db.table.update value).2
  sequence := db.sequence
  sequence_le := db.sequence_le
  key_pos := by
    intro p hp
    rcases ProfileTable.mem_update hp with hp | ⟨rfl, q, hq, hid⟩
    · exact db.key_pos p hp
    · rw [Profile.stored_id, ← hid]
      exact db.key_pos q hq
  key_le := by
    intro p hp
    rcases ProfileTable.mem_update hp with hp | ⟨rfl, q, hq, hid⟩
    · exact db.key_le p hp
    · rw [Profile.stored_id, ← hid]
      exact db.key_le q hq

/-- `Dao.delete`. -/
def delete (db : ProfileDatabase) (id : Int64) : ProfileDatabase where
  table := (db.table.delete id).2
  sequence := db.sequence
  sequence_le := db.sequence_le
  key_pos p hp := db.key_pos p (List.mem_filter.mp hp).1
  key_le p hp := db.key_le p (List.mem_filter.mp hp).1

/-- `Dao.deleteAll`. -/
def deleteAll (db : ProfileDatabase) : ProfileDatabase where
  table := ⟨[], List.nodup_nil⟩
  sequence := db.sequence
  sequence_le := db.sequence_le
  key_pos := by simp
  key_le := by simp

/-- A database no profile was ever stored in. -/
def empty : ProfileDatabase where
  table := ⟨[], List.nodup_nil⟩
  sequence := 0
  sequence_le := Nat.zero_le _
  key_pos := by simp
  key_le := by simp

/-- The rows after a creation, by key. -/
theorem get_create {db : ProfileDatabase} (value : Profile) (h : db.sequence < maxRowid)
    (id : Int64) :
    (db.create value h).table.get id =
      if id = db.nextKey then some { value with id := db.nextKey, dirty := false }
      else db.table.get id := by
  apply Option.ext
  intro p
  rw [ProfileTable.get_eq_some_iff, create, List.mem_append, List.mem_singleton]
  by_cases hid : id = db.nextKey
  · subst hid
    rw [if_pos rfl]
    constructor
    · rintro ⟨hp | rfl, hpid⟩
      · exact absurd hpid (id_ne_nextKey h hp)
      · rfl
    · intro hp
      obtain rfl := Option.some.inj hp
      exact ⟨Or.inr rfl, rfl⟩
  · rw [if_neg hid, ProfileTable.get_eq_some_iff]
    refine and_congr_left ?_
    rintro rfl
    refine or_iff_left ?_
    rintro rfl
    exact hid rfl

/-- Perform a call. -/
def perform : (c : DaoCall) → ProfileDatabase → c.Result × ProfileDatabase
  | .get id, db => (db.table.get id, db)
  | .listAll, db => (db.table.rows, db)
  | .nextOrder, db => (db.table.nextOrder, db)
  | .create value, db =>
    if h : db.sequence < maxRowid then (Except.ok db.nextKey, db.create value h)
    else (Except.error (), db)
  | .update value, db => ((db.table.update value).1, db.update value)
  | .delete id, db => ((db.table.delete id).1, db.delete id)
  | .deleteAll, db => (db.table.rows.length, db.deleteAll)

theorem perform_create {db : ProfileDatabase} (value : Profile) (h : db.sequence < maxRowid) :
    perform (.create value) db = (Except.ok db.nextKey, db.create value h) := dif_pos h

theorem perform_create_full {db : ProfileDatabase} (value : Profile)
    (h : ¬ db.sequence < maxRowid) : perform (.create value) db = (Except.error (), db) := dif_neg h

/-- A database in which the given profiles were created one after another. -/
def ofProfiles (profiles : List Profile) : ProfileDatabase :=
  profiles.foldl (fun db p => (perform (.create p) db).2) empty

/-- The database as a service; an insert that is refused is not accepted. -/
def service : Service DaoCall.Result ProfileDatabase where
  perform := perform
  Accepts
    | .create _, result => Except.isOk result = true
    | _, _ => True

instance : (c : DaoCall) → (r : c.Result) → Decidable (service.Accepts c r)
  | .create _, r => inferInstanceAs (Decidable (Except.isOk r = true))
  | .get _, _ | .listAll, _ | .nextOrder, _ | .update _, _ | .delete _, _ | .deleteAll, _ =>
    .isTrue trivial

end ProfileDatabase

/-! ## Programs of `ProfileManager` -/

/-- The variables of a program: the profile objects it refers to, by their id, and its own. A
reference to a profile is the id of its object, so a program that holds a profile sees what others
made of it. -/
structure Heap (τ : Type) where
  objects : Int64 → Profile
  own : τ

/-- A program that calls `Profile.Dao`. -/
abbrev DaoProgram (τ α : Type) : Type := Session DaoCall.Result (Heap τ) StorageException α

namespace ProfileManager

variable {τ : Type}

/-- Let the object `id` be `profile`. -/
def setObject (id : Int64) (profile : Profile) : DaoProgram τ Unit :=
  Session.modify fun s => { s with objects := Function.update s.objects id profile }

/-- `createProfile`, which returns a reference to the profile. -/
def createProfile (profile : Profile) : DaoProgram τ Int64 := do
  let order ← Session.call DaoCall.nextOrder
  let profile := { profile with id := 0, userOrder := Option.getD order 0 }
  match ← Session.call (DaoCall.create profile) with
  | .ok id =>
    setObject id { profile with id }
    pure id
  | .error () => Session.throw .sql

/-- `updateProfile`. -/
def updateProfile (profile : Profile) : DaoProgram τ Unit := do
  let count : ℕ ← Session.call (DaoCall.update profile)
  if count = 1 then pure () else Session.throw (.illegalState "Check failed.")

/-- Updating a row that exists succeeds. -/
theorem run_updateProfile {profile row : Profile} {s : Heap τ} {db : ProfileDatabase}
    (h : db.table.get profile.id = some row) :
    (updateProfile profile).run ProfileDatabase.perform (s, db) =
      (.ok (), (s, db.update profile)) := by
  rw [updateProfile, Session.run_bind]
  show Session.run _ (if (db.table.update profile).1 = 1 then _ else _) (s, db.update profile) = _
  rw [if_pos (ProfileTable.update_count h)]
  rfl

/-- `delProfile`. -/
def delProfile (id : Int64) : DaoProgram τ Unit := do
  let count : ℕ ← Session.call (DaoCall.delete id)
  if count = 1 then pure () else Session.throw (.illegalState "Check failed.")

/-- `getAllProfiles`. -/
def getAllProfiles : DaoProgram τ (List Profile) := Session.call DaoCall.listAll

/-- `getProfile`. -/
def getProfile (id : Int64) : DaoProgram τ (Option Profile) := Session.call (DaoCall.get id)

/-- `clear`. -/
def clear : DaoProgram τ Unit := do
  let _ ← Session.call DaoCall.deleteAll
  pure ()

/-! ### What the programs do -/

/-- The profile that `createProfile` makes of `profile`. -/
def created (db : ProfileDatabase) (profile : Profile) : Profile :=
  { profile with id := db.nextKey, userOrder := db.table.nextOrder.getD 0 }

/-- As long as keys are left, `createProfile` adds a row under the next one. -/
theorem run_createProfile (profile : Profile) (s : Heap τ) {db : ProfileDatabase}
    (hdb : db.sequence < maxRowid) :
    (createProfile profile).run ProfileDatabase.perform (s, db) =
      (.ok db.nextKey,
        ({ s with objects := Function.update s.objects db.nextKey (created db profile) },
          db.create (created db profile) hdb)) := by
  have horder : (Session.call DaoCall.nextOrder :
      DaoProgram τ (Option Int64)).run ProfileDatabase.perform (s, db) =
        (.ok db.table.nextOrder, (s, db)) := rfl
  have hcreate : (Session.call (DaoCall.create
      { profile with id := 0, userOrder := db.table.nextOrder.getD 0 }) :
        DaoProgram τ (Except Unit Int64)).run ProfileDatabase.perform (s, db) =
      (.ok (.ok db.nextKey), (s, db.create (created db profile) hdb)) := by
    simp only [Session.run_call, ProfileDatabase.perform_create _ hdb]
    rfl
  rw [createProfile, Session.run_bind_of_ok _ horder]
  exact Session.run_bind_of_ok _ hcreate

variable {P : Heap τ → ProfileDatabase → Prop}
  {E : StorageException → Heap τ → ProfileDatabase → Prop}

theorem ensures_setObject {id : Int64} {profile : Profile}
    {Q : Unit → Heap τ → ProfileDatabase → Prop}
    (h : ∀ s db, P s db →
      Q () { s with objects := Function.update s.objects id profile } db) :
    Session.Ensures ProfileDatabase.service P (setObject id profile) Q E :=
  Session.ensures_modify _ h

/-- `createProfile` adds a row under the next key. -/
theorem ensures_createProfile {profile : Profile} {Q : Int64 → Heap τ → ProfileDatabase → Prop}
    (h : ∀ s db (hdb : db.sequence < maxRowid), P s db →
      Q db.nextKey { s with objects := Function.update s.objects db.nextKey (created db profile) }
        (db.create (created db profile) hdb)) :
    Session.Ensures ProfileDatabase.service P (createProfile profile) Q E := by
  refine Session.ensures_bind
    (Q := fun (order : Option Int64) s db => P s db ∧ order = db.table.nextOrder)
    (Session.ensures_call _ fun s db hP _ => ⟨hP, rfl⟩) fun (order : Option Int64) => ?_
  refine Session.ensures_bind
    (Q := fun result s db' => ∃ (db : ProfileDatabase) (hdb : db.sequence < maxRowid), P s db ∧
      result = Except.ok db.nextKey ∧ order = db.table.nextOrder ∧
        db' = db.create (created db profile) hdb)
    (Session.ensures_call _ ?_) ?_
  · rintro s db ⟨hP, rfl⟩ haccepted
    by_cases hdb : db.sequence < maxRowid
    · refine ⟨db, hdb, hP, ?_, rfl, ?_⟩
      · exact congrArg Prod.fst (ProfileDatabase.perform_create _ hdb)
      · exact congrArg Prod.snd (ProfileDatabase.perform_create _ hdb)
    -- the call was accepted, so a key was left
    · have hfull := congrArg Prod.fst (ProfileDatabase.perform_create_full
        { profile with id := 0, userOrder := Option.getD db.table.nextOrder 0 } hdb)
      simp only [ProfileDatabase.service, hfull] at haccepted
      cases haccepted
  · rintro (- | id)
    · rintro s db' ⟨db, hdb, -, hresult, -⟩
      cases hresult
    · refine Session.ensures_bind (ensures_setObject fun s db' hs => ?_)
        (Q := fun _ => Q id) fun _ => Session.ensures_pure _ fun s db' hQ => hQ
      obtain ⟨db, hdb, hP, hresult, rfl, rfl⟩ := hs
      cases hresult
      exact h s db hdb hP

/-- `updateProfile` of a row that exists. -/
theorem ensures_updateProfile {profile : Profile} {Q : Unit → Heap τ → ProfileDatabase → Prop}
    (h : ∀ s db, P s db → db.table.get profile.id ≠ none ∧ Q () s (db.update profile)) :
    Session.Ensures ProfileDatabase.service P (updateProfile profile) Q E := by
  refine Session.ensures_bind (Q := fun (count : ℕ) s db => count = 1 ∧ Q () s db)
    (Session.ensures_call _ fun s db hP _ => ?_) fun (count : ℕ) => ?_
  · obtain ⟨hget, hQ⟩ := h s db hP
    obtain ⟨row, hrow⟩ := Option.ne_none_iff_exists'.mp hget
    exact ⟨ProfileTable.update_count hrow, hQ⟩
  · rintro s db ⟨rfl, hQ⟩ -
    exact hQ

/-- `delProfile` of a row that exists. -/
theorem ensures_delProfile {id : Int64} {Q : Unit → Heap τ → ProfileDatabase → Prop}
    (h : ∀ s db, P s db → db.table.get id ≠ none ∧ Q () s (db.delete id)) :
    Session.Ensures ProfileDatabase.service P (delProfile id) Q E := by
  refine Session.ensures_bind (Q := fun (count : ℕ) s db => count = 1 ∧ Q () s db)
    (Session.ensures_call _ fun s db hP _ => ?_) fun (count : ℕ) => ?_
  · obtain ⟨hget, hQ⟩ := h s db hP
    obtain ⟨row, hrow⟩ := Option.ne_none_iff_exists'.mp hget
    exact ⟨ProfileTable.delete_count hrow, hQ⟩
  · rintro s db ⟨rfl, hQ⟩ -
    exact hQ

/-- `getAllProfiles` returns the rows. -/
theorem ensures_getAllProfiles {Q : List Profile → Heap τ → ProfileDatabase → Prop}
    (h : ∀ s db, P s db → Q db.table.rows s db) :
    Session.Ensures ProfileDatabase.service P getAllProfiles Q E :=
  Session.ensures_call _ fun s db hP _ => h s db hP

end ProfileManager
