import Mathlib.Data.Int.Notation
import Mathlib.Data.List.Nodup

/-!
# Profiles and their table

`Profile` is the data class `db.Profile` with the source's defaults; its Kotlin `Long` columns
are `Int64`, so sums wrap as they do there. `ProfileTable` is the Room table behind
`Profile.Dao`: the rows in the order of their rowid, distinct primary keys being a field of the
structure. The `dirty` flag is `@Ignore`d by Room and never reaches a row (`Profile.stored`).
-/

/-- `Profile.SubscriptionStatus`. -/
inductive SubscriptionStatus where
  | userConfigured
  | active
  /-- This profile is no longer present in subscriptions. -/
  | obsolete
  deriving DecidableEq, Repr

/-- The data class `Profile`. -/
structure Profile where
  id : Int64 := 0
  name : Option String := some ""
  host : String := "example.shadowsocks.org"
  remotePort : ℤ := 8388
  password : String := "u1rRWTssNv0p"
  method : String := "aes-256-cfb"
  route : String := "all"
  remoteDns : String := "dns.google"
  proxyApps : Bool := false
  bypass : Bool := false
  udpdns : Bool := false
  ipv6 : Bool := false
  metered : Bool := false
  individual : String := ""
  plugin : Option String := none
  udpFallback : Option Int64 := none
  subscription : SubscriptionStatus := .userConfigured
  tx : Int64 := 0
  rx : Int64 := 0
  userOrder : Int64 := 0
  /-- Not persisted in the database, only used by direct boot. -/
  dirty : Bool := false
  deriving DecidableEq

/-- `Profile.formattedAddress`. -/
def Profile.formattedAddress (p : Profile) : String :=
  if ':' ∈ p.host.toList then "[" ++ p.host ++ "]:" ++ toString p.remotePort
  else p.host ++ ":" ++ toString p.remotePort

/-- `Profile.formattedName`. -/
def Profile.formattedName (p : Profile) : String :=
  match p.name with
  | none => p.formattedAddress
  | some name => if name = "" then p.formattedAddress else name

/-- What Room reads back of a profile it wrote. -/
def Profile.stored (p : Profile) : Profile := { p with dirty := false }

@[simp]
theorem Profile.stored_id (p : Profile) : p.stored.id = p.id := rfl

/-- The table of profiles. -/
structure ProfileTable where
  /-- The rows by rowid. -/
  rows : List Profile
  /-- `id` is the primary key. -/
  nodup : (rows.map Profile.id).Nodup

namespace ProfileTable

/-- `Dao.get`. -/
def get (t : ProfileTable) (id : Int64) : Option Profile := t.rows.find? fun p => p.id = id

/-- Replacing rows by rows of the same key keeps the keys. -/
theorem map_id_update (rows : List Profile) (value : Profile) :
    (rows.map fun p => if p.id = value.id then value.stored else p).map Profile.id =
      rows.map Profile.id := by
  rw [List.map_map]
  refine List.map_congr_left fun p _ => ?_
  by_cases h : p.id = value.id
  · simp [h]
  · simp [h]

/-- `Dao.update`: the row of the same key takes all columns of `value`; the number of updated
rows is returned. -/
def update (t : ProfileTable) (value : Profile) : ℕ × ProfileTable :=
  ((t.rows.filter fun p => p.id = value.id).length,
    { rows := t.rows.map fun p => if p.id = value.id then value.stored else p
      nodup := by rw [map_id_update]; exact t.nodup })

/-- A row found under a key has that key. -/
theorem id_of_get {t : ProfileTable} {id : Int64} {p : Profile} (h : t.get id = some p) :
    p.id = id := by
  simpa using List.find?_some h

/-- Updating a row that exists updates exactly one row. -/
theorem update_count {t : ProfileTable} {value p : Profile} (h : t.get value.id = some p) :
    (t.update value).1 = 1 := by
  have hmem : p ∈ t.rows := List.mem_of_find?_eq_some h
  have hid : p.id = value.id := id_of_get h
  -- distinct keys leave no second row of the key
  have hsingle : t.rows.filter (fun q => q.id = value.id) = [p] := by
    have hnodup := t.nodup.of_map
    refine List.perm_singleton.mp ((List.perm_ext_iff_of_nodup (hnodup.filter _)
      (List.nodup_singleton _)).mpr ?_)
    intro q
    simp only [List.mem_filter, decide_eq_true_eq, List.mem_singleton]
    constructor
    · rintro ⟨hq, hqid⟩
      exact List.inj_on_of_nodup_map t.nodup hq hmem (hqid.trans hid.symm)
    · rintro rfl
      exact ⟨hmem, hid⟩
  simp [update, hsingle]

/-- After an update of an existing row, its key finds the new columns. -/
theorem get_update_self {t : ProfileTable} {value p : Profile} (h : t.get value.id = some p) :
    (t.update value).2.get value.id = some value.stored := by
  have hmem : p ∈ t.rows := List.mem_of_find?_eq_some h
  have hid : p.id = value.id := id_of_get h
  simp only [update, get, List.find?_map]
  -- the update replaces a row by one of the same key, so the search stops at the same place
  rw [show ((fun q : Profile => decide (q.id = value.id)) ∘
      fun q : Profile => if q.id = value.id then value.stored else q) =
        fun q : Profile => decide (q.id = value.id) from ?_]
  · rw [get] at h
    rw [h]
    simp [hid]
  · funext q
    by_cases hq : q.id = value.id
    · simp [hq]
    · simp [hq]

end ProfileTable
