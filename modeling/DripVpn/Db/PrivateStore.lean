import DripVpn.Acl.Acl
import DripVpn.Db.KeyValuePair
import DripVpn.Db.Profile
import DripVpn.Foundations.Fallible
import DripVpn.Foundations.LinkedMap

/-!
# The private store

`Profile.serialize` and `Profile.deserialize`: while a profile is edited its columns are kept in
the private store, a table of `KeyValuePair`s that `RoomPreferenceDataStore` reads and writes under
string keys. A `null` is stored by deleting the key.

`deserialize_serialize` says that a profile which is put there and read again comes back, whatever
the store held before. The writes of `serialize` go to different keys (`nodup_written`), so each key
holds what was written under it (`LinkedMap.get?_writeAll`).
-/

open Reactive

/-! ## Key-value pairs of one value -/

namespace KeyValuePair

/-- `TYPE_BOOLEAN`. -/
def typeBoolean : ℕ := 1

/-- `TYPE_INT`. -/
def typeInt : ℕ := 3

/-- `TYPE_LONG`. -/
def typeLong : ℕ := 4

/-- `TYPE_STRING`. -/
def typeString : ℕ := 5

/-- `put(value: Boolean)`. -/
def putBoolean (pair : KeyValuePair) (value : Bool) : KeyValuePair :=
  { pair with valueType := typeBoolean, value := [if value then 1 else 0] }

/-- `put(value: Long)`. -/
def putLong (pair : KeyValuePair) (value : Int64) : KeyValuePair :=
  { pair with valueType := typeLong, value := bigEndian 8 value.toUInt64.toNat }

/-- `put(value: String)`. -/
def putText (pair : KeyValuePair) (value : Text) : KeyValuePair :=
  { pair with valueType := typeString, value := value.utf8 }

/-- `ByteBuffer.get`, of the first `count` bytes. -/
def first (count : ℕ) (value : Bytes) : Except BufferException Bytes :=
  if value.length < count then .error .bufferUnderflow else .ok (value.take count)

/-- `boolean`. -/
def boolean (pair : KeyValuePair) : Except BufferException (Option Bool) :=
  if pair.valueType = typeBoolean then (first 1 pair.value).map fun bytes => some (bytes ≠ [0])
  else .ok none

/-- `long`. -/
def long (pair : KeyValuePair) : Except BufferException (Option Int64) :=
  if pair.valueType = typeInt then
    (first 4 pair.value).map fun bytes => some (Int64.ofInt (int bytes))
  else if pair.valueType = typeLong then
    (first 8 pair.value).map fun bytes => some (Int64.ofNat (ofBigEndian bytes))
  else .ok none

/-- `string`. -/
def string (malformed : Bytes → Text) (pair : KeyValuePair) : Option Text :=
  if pair.valueType = typeString then some (Text.ofUtf8 malformed pair.value) else none

theorem boolean_putBoolean (pair : KeyValuePair) (value : Bool) :
    (pair.putBoolean value).boolean = .ok (some value) := by
  cases value with
  | false => rfl
  | true => rfl

theorem long_putLong (pair : KeyValuePair) (value : Int64) :
    (pair.putLong value).long = .ok (some value) := by
  have hlength : (bigEndian 8 value.toUInt64.toNat).length = 8 := length_bigEndian 8 _
  have hfirst : first 8 (bigEndian 8 value.toUInt64.toNat) =
      .ok (bigEndian 8 value.toUInt64.toNat) := by
    rw [first, if_neg (by omega), List.take_of_length_le (by omega)]
  have hlt : value.toUInt64.toNat < 256 ^ 8 := value.toUInt64.toNat_lt
  have hvalue : Int64.ofNat value.toUInt64.toNat = value := by
    apply Int64.toBitVec_inj.mp
    simp
  show (if typeLong = typeInt then _ else if typeLong = typeLong then
    (first 8 (bigEndian 8 value.toUInt64.toNat)).map _ else _) = _
  rw [if_neg (by decide), if_pos rfl, hfirst]
  show Except.ok (some (Int64.ofNat (ofBigEndian _))) = _
  rw [ofBigEndian_bigEndian_of_lt hlt, hvalue]

theorem string_putText (malformed : Bytes → Text) (pair : KeyValuePair) (value : Text) :
    (pair.putText value).string malformed = some value :=
  congrArg some (Text.ofUtf8_utf8 malformed value)

end KeyValuePair

/-! ## The store -/

/-- The table behind `DataStore.privateStore`. -/
abbrev PrivateStore : Type := LinkedMap Text KeyValuePair

/-- What reading the store throws. -/
inductive PreferenceException where
  | buffer (e : BufferException)
  /-- `IllegalStateException` of a failed `check`. -/
  | illegalState (message : String)
  deriving DecidableEq, Repr

namespace PrivateStore

/-- `kvPairDao.put`. -/
def insert (store : PrivateStore) (value : KeyValuePair) : PrivateStore := store.put value.key value

/-- `RoomPreferenceDataStore.putBoolean`. -/
def putBoolean (store : PrivateStore) (key : Text) (value : Bool) : PrivateStore :=
  store.insert (KeyValuePair.putBoolean { key } value)

/-- `RoomPreferenceDataStore.putLong`. -/
def putLong (store : PrivateStore) (key : Text) : Option Int64 → PrivateStore
  | none => store.remove key
  | some value => store.insert (KeyValuePair.putLong { key } value)

/-- `RoomPreferenceDataStore.putString`. -/
def putString (store : PrivateStore) (key : Text) : Option String → PrivateStore
  | none => store.remove key
  | some value => store.insert (KeyValuePair.putText { key } value.toList)

variable (malformed : Bytes → Text)

/-- `RoomPreferenceDataStore.getBoolean`. -/
def getBoolean (key : Text) : Fallible PrivateStore PreferenceException (Option Bool) :=
  fun store => match store.get? key with
  | none => (.ok none, store)
  | some pair => (pair.boolean.mapError .buffer, store)

/-- `RoomPreferenceDataStore.getLong`. -/
def getLong (key : Text) : Fallible PrivateStore PreferenceException (Option Int64) :=
  fun store => match store.get? key with
  | none => (.ok none, store)
  | some pair => (pair.long.mapError .buffer, store)

/-- `RoomPreferenceDataStore.getString`. -/
def getString (key : Text) : Fallible PrivateStore PreferenceException (Option String) :=
  fun store =>
    (.ok (((store.get? key).bind (KeyValuePair.string malformed)).map String.ofList), store)

variable {malformed} {store : PrivateStore} {key : Text}

theorem getBoolean_of_get? {value : Bool}
    (h : store.get? key = some (KeyValuePair.putBoolean { key } value)) :
    getBoolean key store = (.ok (some value), store) := by
  rw [getBoolean, h]
  simp only [KeyValuePair.boolean_putBoolean]
  rfl

theorem getLong_of_get? {value : Option Int64}
    (h : store.get? key = value.map (KeyValuePair.putLong { key })) :
    getLong key store = (.ok value, store) := by
  rw [getLong, h]
  cases value with
  | none => rfl
  | some value =>
    simp only [Option.map_some, KeyValuePair.long_putLong]
    rfl

theorem getString_of_get? {value : Option String}
    (h : store.get? key = value.map fun value => KeyValuePair.putText { key } value.toList) :
    getString malformed key store = (.ok value, store) := by
  rw [getString, h]
  cases value with
  | none => rfl
  | some value => simp [KeyValuePair.string_putText]

/-! ## The keys -/

namespace Key

/-- `Key.id`. -/
def id : Text := "profileId".toList

/-- `Key.name`. -/
def name : Text := "profileName".toList

/-- `Key.individual`. -/
def individual : Text := "Proxyed".toList

/-- `Key.route`. -/
def route : Text := "route".toList

/-- `Key.proxyApps`. -/
def proxyApps : Text := "isProxyApps".toList

/-- `Key.bypass`. -/
def bypass : Text := "isBypassApps".toList

/-- `Key.udpdns`. -/
def udpdns : Text := "isUdpDns".toList

/-- `Key.ipv6`. -/
def ipv6 : Text := "isIpv6".toList

/-- `Key.metered`. -/
def metered : Text := "metered".toList

/-- `Key.host`. -/
def host : Text := "proxy".toList

/-- `Key.password`. -/
def password : Text := "sitekey".toList

/-- `Key.method`. -/
def method : Text := "encMethod".toList

/-- `Key.remotePort`. -/
def remotePort : Text := "remotePortNum".toList

/-- `Key.remoteDns`. -/
def remoteDns : Text := "remoteDns".toList

/-- `Key.plugin`. -/
def plugin : Text := "plugin".toList

/-- `Key.udpFallback`. -/
def udpFallback : Text := "udpFallback".toList

/-- `Key.dirty`. -/
def dirty : Text := "profileDirty".toList

end Key

end PrivateStore

/-- `parsePort`. -/
def parsePort (str : Option String) (default min : ℤ) : ℤ :=
  let value := (str.bind fun s => Text.parseInt s.toList).getD default
  -- the default also replaces a port that is out of range
  if value < min ∨ 65535 < value then default else value

namespace Profile

open PrivateStore

/-- `Profile.serialize`. -/
def serialize (p : Profile) (store : PrivateStore) : PrivateStore :=
  let store := store.putLong Key.id (some p.id)
  let store := store.putString Key.name p.name
  let store := store.putString Key.host (some p.host)
  let store := store.putString Key.remotePort (some (toString p.remotePort))
  let store := store.putString Key.password (some p.password)
  let store := store.putString Key.route (some p.route)
  let store := store.putString Key.remoteDns (some p.remoteDns)
  let store := store.putString Key.method (some p.method)
  let store := store.putBoolean Key.proxyApps p.proxyApps
  let store := store.putBoolean Key.bypass p.bypass
  let store := store.putBoolean Key.udpdns p.udpdns
  let store := store.putBoolean Key.ipv6 p.ipv6
  let store := store.putBoolean Key.metered p.metered
  let store := store.putString Key.individual (some p.individual)
  -- `plugin ?: ""`: an absent plugin is written as an empty one
  let store := store.putString Key.plugin (some (p.plugin.getD ""))
  let store := store.putLong Key.udpFallback p.udpFallback
  store.remove Key.dirty

/-- `check(id == 0L || DataStore.editingId == id)`. -/
def checkEditingId (q : Profile) : Fallible PrivateStore PreferenceException Unit :=
  if q.id = 0 then pure ()
  else do
    let editingId ← getLong Key.id
    Fallible.throwIf (editingId ≠ some q.id) (.illegalState "Check failed.")

/-- `Profile.deserialize`. -/
def deserialize (malformed : Bytes → Text) (q : Profile) :
    Fallible PrivateStore PreferenceException Profile := do
  q.checkEditingId
  Fallible.modify fun store => store.putLong Key.id none
  let name := (← getString malformed Key.name).getD ""
  let host := (← getString malformed Key.host).getD ""
  let remotePort ← getString malformed Key.remotePort
  let password := (← getString malformed Key.password).getD ""
  let method := (← getString malformed Key.method).getD ""
  let route := (← getString malformed Key.route).getD ""
  let remoteDns := (← getString malformed Key.remoteDns).getD ""
  let proxyApps := (← getBoolean Key.proxyApps).getD false
  let bypass := (← getBoolean Key.bypass).getD false
  let udpdns := (← getBoolean Key.udpdns).getD false
  let ipv6 := (← getBoolean Key.ipv6).getD false
  let metered := (← getBoolean Key.metered).getD false
  let individual := (← getString malformed Key.individual).getD ""
  let plugin := (← getString malformed Key.plugin).getD ""
  let udpFallback ← getLong Key.udpFallback
  return { q with
    name := some name
    -- "It's safe to trim the hostname, as we expect no leading or trailing whitespaces here"
    host := String.ofList (Kotlin.trim host.toList)
    remotePort := parsePort remotePort 8388 1
    password, method, route, remoteDns, proxyApps, bypass, udpdns, ipv6, metered, individual
    plugin := some plugin
    udpFallback }

/-- What `serialize` writes, key by key. -/
def written (p : Profile) : List (Text × Option KeyValuePair) :=
  let string (key : Text) (value : Option String) :=
    (key, value.map fun value => KeyValuePair.putText { key } value.toList)
  let boolean (key : Text) (value : Bool) := (key, some (KeyValuePair.putBoolean { key } value))
  let long (key : Text) (value : Option Int64) :=
    (key, value.map (KeyValuePair.putLong { key }))
  [long Key.id (some p.id), string Key.name p.name, string Key.host (some p.host),
    string Key.remotePort (some (toString p.remotePort)), string Key.password (some p.password),
    string Key.route (some p.route), string Key.remoteDns (some p.remoteDns),
    string Key.method (some p.method), boolean Key.proxyApps p.proxyApps,
    boolean Key.bypass p.bypass, boolean Key.udpdns p.udpdns, boolean Key.ipv6 p.ipv6,
    boolean Key.metered p.metered, string Key.individual (some p.individual),
    string Key.plugin (some (p.plugin.getD "")), long Key.udpFallback p.udpFallback,
    (Key.dirty, none)]

theorem serialize_eq (p : Profile) (store : PrivateStore) :
    p.serialize store = store.writeAll p.written := by
  have hstring : ∀ (store : PrivateStore) key (value : Option String), store.putString key value =
      store.write key (value.map fun value => KeyValuePair.putText { key } value.toList) := by
    intro store key value
    cases value with
    | none => rfl
    | some value => rfl
  have hlong : ∀ (store : PrivateStore) key (value : Option Int64), store.putLong key value =
      store.write key (value.map (KeyValuePair.putLong { key })) := by
    intro store key value
    cases value with
    | none => rfl
    | some value => rfl
  simp only [serialize, hstring, hlong]
  rfl

/-- No two columns share a key. -/
theorem nodup_written (p : Profile) : (p.written.map Prod.fst).Nodup := by
  show [Key.id, Key.name, Key.host, Key.remotePort, Key.password, Key.route, Key.remoteDns,
    Key.method, Key.proxyApps, Key.bypass, Key.udpdns, Key.ipv6, Key.metered, Key.individual,
    Key.plugin, Key.udpFallback, Key.dirty].Nodup
  decide

/-- Every key but `Key.id`, which `deserialize` removes first, holds what was written. -/
theorem get?_serialize (p : Profile) (store : PrivateStore) {w : Text × Option KeyValuePair}
    (hw : w ∈ p.written) (hne : w.1 ≠ Key.id) :
    ((p.serialize store).remove Key.id).get? w.1 = w.2 := by
  rw [LinkedMap.get?_remove, if_neg hne, serialize_eq]
  exact LinkedMap.get?_writeAll p.nodup_written hw

/-- A port that was printed is read back if it is one. -/
theorem parsePort_toString (n : ℤ) :
    parsePort (some (toString n)) 8388 1 = if 1 ≤ n ∧ n ≤ 65535 then n else 8388 := by
  rw [parsePort, Option.bind_some, Text.parseInt, Text.parseSigned_toString]
  by_cases hint : -2147483648 ≤ n ∧ n ≤ 2147483647
  · simp only [Option.filter_some, decide_eq_true hint, if_true, Option.getD_some]
    split_ifs <;> omega
  · simp only [Option.filter_some, decide_eq_false hint, Bool.false_eq_true, if_false,
      Option.getD_none]
    rw [if_neg (by omega), if_neg (by omega)]

/-- What is left of `q` after the columns of `p` were read into it. -/
def edited (p q : Profile) : Profile :=
  { q with
    name := some (p.name.getD "")
    host := String.ofList (Kotlin.trim p.host.toList)
    remotePort := if 1 ≤ p.remotePort ∧ p.remotePort ≤ 65535 then p.remotePort else 8388
    password := p.password
    method := p.method
    route := p.route
    remoteDns := p.remoteDns
    proxyApps := p.proxyApps
    bypass := p.bypass
    udpdns := p.udpdns
    ipv6 := p.ipv6
    metered := p.metered
    individual := p.individual
    plugin := some (p.plugin.getD "")
    udpFallback := p.udpFallback }

theorem checkEditingId_serialize (store : PrivateStore) {p q : Profile}
    (hid : q.id = 0 ∨ q.id = p.id) :
    q.checkEditingId (p.serialize store) = (.ok (), p.serialize store) := by
  rw [checkEditingId]
  split
  · rfl
  next hne =>
    have hget : (p.serialize store).get? Key.id =
        some (KeyValuePair.putLong { key := Key.id } p.id) := by
      rw [serialize_eq]
      exact LinkedMap.get?_writeAll p.nodup_written (w := (Key.id, _)) (by simp [written])
    have hlong : getLong Key.id (p.serialize store) = (.ok (some p.id), p.serialize store) :=
      getLong_of_get? hget
    rw [Fallible.bind_of_ok hlong, hid.resolve_left hne]
    simp [Fallible.throwIf]
    rfl

/-- **Editing.** A profile that is put into the private store and read from there comes back,
whatever the store held before. -/
theorem deserialize_serialize (malformed : Bytes → Text) (store : PrivateStore) (p q : Profile)
    (hid : q.id = 0 ∨ q.id = p.id) :
    (deserialize malformed q (p.serialize store)).1 = .ok (p.edited q) := by
  have hstring : ∀ key value, (key, Option.map (fun value : String =>
      KeyValuePair.putText { key } value.toList) value) ∈ p.written → key ≠ Key.id →
      getString malformed key ((p.serialize store).remove Key.id) =
        (.ok value, (p.serialize store).remove Key.id) :=
    fun key value hw hne => getString_of_get? (p.get?_serialize store hw hne)
  have hboolean : ∀ key value, (key, some (KeyValuePair.putBoolean { key } value)) ∈ p.written →
      key ≠ Key.id → getBoolean key ((p.serialize store).remove Key.id) =
        (.ok (some value), (p.serialize store).remove Key.id) :=
    fun key value hw hne => getBoolean_of_get? (p.get?_serialize store hw hne)
  have hlong : ∀ key value, (key, Option.map (KeyValuePair.putLong { key }) value) ∈ p.written →
      key ≠ Key.id → getLong key ((p.serialize store).remove Key.id) =
        (.ok value, (p.serialize store).remove Key.id) :=
    fun key value hw hne => getLong_of_get? (p.get?_serialize store hw hne)
  have hmodify : (Fallible.modify fun store : PrivateStore => store.putLong Key.id none :
      Fallible PrivateStore PreferenceException Unit) (p.serialize store) =
        (.ok (), (p.serialize store).remove Key.id) := rfl
  rw [deserialize, Fallible.bind_of_ok (checkEditingId_serialize store hid),
    Fallible.bind_of_ok hmodify,
    Fallible.bind_of_ok (hstring Key.name p.name (by simp [written]) (by decide)),
    Fallible.bind_of_ok (hstring Key.host (some p.host) (by simp [written]) (by decide)),
    Fallible.bind_of_ok (hstring Key.remotePort (some (toString p.remotePort)) (by simp [written])
      (by decide)),
    Fallible.bind_of_ok (hstring Key.password (some p.password) (by simp [written]) (by decide)),
    Fallible.bind_of_ok (hstring Key.method (some p.method) (by simp [written]) (by decide)),
    Fallible.bind_of_ok (hstring Key.route (some p.route) (by simp [written]) (by decide)),
    Fallible.bind_of_ok (hstring Key.remoteDns (some p.remoteDns) (by simp [written]) (by decide)),
    Fallible.bind_of_ok (hboolean Key.proxyApps p.proxyApps (by simp [written]) (by decide)),
    Fallible.bind_of_ok (hboolean Key.bypass p.bypass (by simp [written]) (by decide)),
    Fallible.bind_of_ok (hboolean Key.udpdns p.udpdns (by simp [written]) (by decide)),
    Fallible.bind_of_ok (hboolean Key.ipv6 p.ipv6 (by simp [written]) (by decide)),
    Fallible.bind_of_ok (hboolean Key.metered p.metered (by simp [written]) (by decide)),
    Fallible.bind_of_ok (hstring Key.individual (some p.individual) (by simp [written])
      (by decide)),
    Fallible.bind_of_ok (hstring Key.plugin (some (p.plugin.getD "")) (by simp [written])
      (by decide)),
    Fallible.bind_of_ok (hlong Key.udpFallback p.udpFallback (by simp [written]) (by decide))]
  simp only [Option.getD_some, parsePort_toString]
  rfl

/-- A new profile, read after a profile whose name, plugin and fallback are missing, from a store in
which an older profile left all three. -/
theorem deserialize_serialize_leftover :
    (deserialize KeyValuePair.replacement {}
      (serialize { name := none, host := " a ", remotePort := 0 }
        (serialize { name := some "old", plugin := some "x", udpFallback := some 7 }
          LinkedMap.empty))).1 = .ok (edited { name := none, host := " a ", remotePort := 0 } {}) :=
  deserialize_serialize _ _ _ _ (Or.inl rfl)

end Profile
