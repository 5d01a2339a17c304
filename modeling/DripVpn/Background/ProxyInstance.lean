import DripVpn.Db.Profile
import DripVpn.Foundations.Base64
import DripVpn.Foundations.ListMap

/-!
# Keys of the 2022 ciphers

The constructor of `ProxyInstance` checks the keys of the three `2022-blake3` ciphers before
`ss-local` is started; `password_to_keys` of the engine reads the same password again and panics at
what it does not like. Both split it at `:`, but the constructor takes 16 or 32 bytes for any part
and any cipher, and its Base64 decoder is lenient.

`passwordToKeys_isOk_iff` says which of the passwords that the constructor accepts the engine
accepts as well. Neither decoder is part of the repository: `android.util.Base64` is a parameter, and
of the decoder that `config.rs` configures we use that it is strict up to missing padding.
-/

open Reactive

/-- The ciphers of SIP022. -/
inductive Aead2022 where
  | aes128Gcm
  | aes256Gcm
  | chacha20Poly1305
  deriving DecidableEq, Repr

namespace Aead2022

/-- The name of the cipher. -/
def name : Aead2022 → String
  | aes128Gcm => "2022-blake3-aes-128-gcm"
  | aes256Gcm => "2022-blake3-aes-256-gcm"
  | chacha20Poly1305 => "2022-blake3-chacha20-poly1305"

/-- `CipherKind.key_len`. -/
def keyLen : Aead2022 → ℕ
  | aes128Gcm => 16
  | aes256Gcm => 32
  | chacha20Poly1305 => 32

/-- `method_support_eih`. -/
def supportEih : Aead2022 → Bool
  | aes128Gcm => true
  | aes256Gcm => true
  | chacha20Poly1305 => false

end Aead2022

/-! ## The constructor -/

namespace ProxyInstance

/-- The check of one part of a password. -/
def checkKey (android : Text → Option Bytes) (pwd : Text) : Except String Unit :=
  match android pwd with
  | none => .error "bad base-64"
  | some key =>
    if key.length = 16 ∨ key.length = 32 then .ok () else .error "The Base64 Key is invalid."

/-- The `init` block of `ProxyInstance`; `android` is `Base64.decode` with the flags `DEFAULT`,
`none` an `IllegalArgumentException`. -/
def init (android : Text → Option Bytes) (profile : Profile) : Except String Unit :=
  if ¬ (profile.host ≠ "" ∧ (profile.method = "none" ∨ profile.password ≠ "")) then .error ""
  else if profile.method ∈ ["aes-192-gcm", "chacha20", "salsa20"] then
    .error ("cipher " ++ profile.method ++ " is deprecated.")
  else if profile.method ∈ ["2022-blake3-aes-128-gcm", "2022-blake3-aes-256-gcm",
      "2022-blake3-chacha20-poly1305"] then
    (profile.password.toList.splitOn ':').forM (checkKey android)
  else .ok ()

end ProxyInstance

/-! ## The engine -/

namespace Engine

/-- Why the engine panics. -/
inductive KeyPanic where
  /-- "… is expecting a … bytes key" -/
  | keyLength (expected actual : ℕ)
  /-- "password … is not base64 encoded" -/
  | notBase64
  /-- "iPSK … is not base64 encoded" -/
  | identityKey (ipsk : Text)
  deriving DecidableEq

/-- `make_derived_key` -/
def makeDerivedKey (decode : Text → Option Bytes) (method : Aead2022) (password : Text) :
    Except KeyPanic Bytes :=
  match decode password with
  | some v => if v.length ≠ method.keyLen then .error (.keyLength method.keyLen v.length) else .ok v
  | none => .error .notBase64

/-- An identity key. -/
def identityKey (decode : Text → Option Bytes) (ipsk : Text) : Except KeyPanic Bytes :=
  match decode ipsk with
  | some v => .ok v
  | none => .error (.identityKey ipsk)

/-- `password_to_keys` -/
def passwordToKeys (decode : Text → Option Bytes) (method : Aead2022) (password : Text) :
    Except KeyPanic (Text × Bytes × List Bytes) :=
  if method.supportEih then do
    -- iPSK1:iPSK2:iPSK3:...:uPSK, from the right
    let parts := password.splitOn ':'
    let upsk := parts.getLastD []
    let encKey ← makeDerivedKey decode method upsk
    let identityKeys ← parts.dropLast.reverse.mapM (identityKey decode)
    return (upsk, encKey, identityKeys.reverse)
  else do
    let encKey ← makeDerivedKey decode method password
    return (password, encKey, [])

/-- The text is standard Base64, with all, some or none of its padding, of `n` bytes. -/
def IsKey (n : ℕ) (t : Text) : Prop :=
  ∃ key : Bytes, key.length = n ∧ Base64.IsText Base64.standard key t

/-- The password has the form that the cipher needs. -/
def FitsMethod (method : Aead2022) (password : Text) : Prop :=
  if method.supportEih then
    (∀ part ∈ password.splitOn ':', ∃ n, IsKey n part) ∧
      IsKey method.keyLen ((password.splitOn ':').getLastD [])
  else IsKey method.keyLen password

section

variable {decode : Text → Option Bytes} {method : Aead2022} {password : Text}

theorem isKey_iff {n : ℕ} {t : Text} :
    IsKey n t ↔ ∃ key, Base64.decode Base64.standard t = some key ∧ key.length = n := by
  constructor
  · rintro ⟨key, hlength, htext⟩
    exact ⟨key, (Base64.decode_eq_some_iff _).mpr htext, hlength⟩
  · rintro ⟨key, hdecode, hlength⟩
    exact ⟨key, hlength, (Base64.decode_eq_some_iff _).mp hdecode⟩

variable (hdecode : ∀ t, decode t = Base64.decode Base64.standard t)
include hdecode

theorem makeDerivedKey_isOk_iff (t : Text) :
    (∃ key, makeDerivedKey decode method t = .ok key) ↔ IsKey method.keyLen t := by
  rw [makeDerivedKey, isKey_iff, hdecode]
  cases Base64.decode Base64.standard t with
  | none => simp
  | some v =>
    by_cases hlength : v.length = method.keyLen
    · simp [hlength]
    · simp [hlength]

theorem identityKey_isOk_iff (t : Text) :
    (∃ key, identityKey decode t = .ok key) ↔ ∃ n, IsKey n t := by
  rw [identityKey, hdecode]
  simp only [isKey_iff]
  cases Base64.decode Base64.standard t with
  | none => simp
  | some v => simp

/-- The engine reads a password exactly if it has the form that the cipher needs. -/
theorem passwordToKeys_iff_fitsMethod (method : Aead2022) (password : Text) :
    (∃ keys, passwordToKeys decode method password = .ok keys) ↔ FitsMethod method password := by
  rw [passwordToKeys, FitsMethod]
  by_cases heih : method.supportEih = true
  · rw [if_pos heih, if_pos heih]
    dsimp only
    have hparts : (∀ part ∈ password.splitOn ':', ∃ n, IsKey n part) ↔
        (∃ keys, (password.splitOn ':').dropLast.reverse.mapM (identityKey decode) = .ok keys) ∧
          ∃ n, IsKey n ((password.splitOn ':').getLastD []) := by
      simp only [exists_mapM_eq_ok_iff, identityKey_isOk_iff hdecode, List.mem_reverse]
      exact forall_mem_iff_dropLast (List.splitOn_ne_nil _ _) []
    rw [hparts, ← makeDerivedKey_isOk_iff hdecode]
    constructor
    · rintro ⟨keys, hkeys⟩
      cases hkey : makeDerivedKey decode method ((password.splitOn ':').getLastD []) with
      | error e =>
        rw [hkey] at hkeys
        cases hkeys
      | ok key =>
        cases hidentity : (password.splitOn ':').dropLast.reverse.mapM (identityKey decode) with
        | error e =>
          rw [hkey, hidentity] at hkeys
          cases hkeys
        | ok identityKeys =>
          exact ⟨⟨⟨identityKeys, rfl⟩, _, (makeDerivedKey_isOk_iff hdecode _).mp ⟨key, hkey⟩⟩,
            key, rfl⟩
    · rintro ⟨⟨⟨identityKeys, hidentity⟩, -⟩, key, hkey⟩
      rw [hkey, hidentity]
      exact ⟨_, rfl⟩
  · rw [if_neg heih, if_neg heih, ← makeDerivedKey_isOk_iff hdecode]
    cases makeDerivedKey decode method password with
    | error e => simp
    | ok key => simp

omit hdecode

theorem colon_notMem_of_isKey {n : ℕ} {t : Text} (h : IsKey n t) : ':' ∉ t := by
  obtain ⟨key, -, k, -, rfl⟩ := h
  rw [List.mem_append, not_or]
  constructor
  · intro hmem
    exact Base64.notMem_standardChars (by decide) (Base64.mem_of_mem_encodeUnpadded _ hmem)
  · intro hmem
    exact absurd (List.eq_of_mem_replicate hmem) (by decide)

theorem isKey_encode_iff {n : ℕ} {key : Bytes} :
    IsKey n (Base64.encode Base64.standard key) ↔ key.length = n := by
  rw [isKey_iff, Base64.decode_encode]
  simp

theorem colon_notMem_encode (key : Bytes) : ':' ∉ Base64.encode Base64.standard key :=
  colon_notMem_of_isKey (isKey_encode_iff.mpr rfl)

end

/-- The keys of a password, joined by `:`. -/
def joinKeys (keys : List Bytes) : Text :=
  [':'].intercalate (keys.map (Base64.encode Base64.standard))

theorem splitOn_joinKeys {keys : List Bytes} (h : keys ≠ []) :
    (joinKeys keys).splitOn ':' = keys.map (Base64.encode Base64.standard) := by
  refine List.splitOn_intercalate ':' ?_ ?_
  · intro t ht
    obtain ⟨key, -, rfl⟩ := List.mem_map.mp ht
    exact colon_notMem_encode key
  · rwa [ne_eq, List.map_eq_nil_iff]

/-- What the engine needs, of a password made of keys. -/
theorem fitsMethod_joinKeys_iff (method : Aead2022) {keys : List Bytes} (h : keys ≠ []) :
    FitsMethod method (joinKeys keys) ↔
      (method.supportEih = true ∨ keys.length = 1) ∧
        (keys.getLastD []).length = method.keyLen := by
  have hlast : (keys.map (Base64.encode Base64.standard)).getLastD [] =
      Base64.encode Base64.standard (keys.getLastD []) := by
    show (keys.map (Base64.encode Base64.standard)).getLastD (Base64.encode Base64.standard []) = _
    exact List.getLastD_map
  rw [FitsMethod]
  split
  next heih =>
    rw [splitOn_joinKeys h, hlast, isKey_encode_iff]
    constructor
    · exact fun hfits => ⟨.inl heih, hfits.2⟩
    · refine fun hfits => ⟨fun part hpart => ?_, hfits.2⟩
      obtain ⟨key, -, rfl⟩ := List.mem_map.mp hpart
      exact ⟨_, isKey_encode_iff.mpr rfl⟩
  next heih =>
    match keys with
    | [] => exact absurd rfl h
    | [key] =>
      rw [joinKeys, List.map_singleton, List.intercalate_singleton, isKey_encode_iff]
      exact ⟨fun hlength => ⟨.inr rfl, hlength⟩, fun hfits => hfits.2⟩
    | key₁ :: key₂ :: keys =>
      -- the engine decodes the whole password, with its colons
      constructor
      · intro hkey
        refine absurd ?_ (colon_notMem_of_isKey hkey)
        rw [joinKeys, List.map_cons, List.map_cons, List.intercalate_cons_cons]
        exact List.mem_append_left _ (List.mem_append_right _ List.mem_cons_self)
      · rintro ⟨hsingle, -⟩
        rcases hsingle with heih' | hsingle
        · exact absurd heih' heih
        · simp at hsingle

end Engine

/-! ## Both -/

namespace ProxyInstance

open Engine

variable {android decode : Text → Option Bytes}

/-- If the constructor accepts the profile, the engine does not panic. -/
def KeysAgree (android decode : Text → Option Bytes) (method : Aead2022) (profile : Profile) :
    Prop :=
  init android profile = .ok () →
    ∃ keys, passwordToKeys decode method profile.password.toList = .ok keys

theorem checkKey_eq_ok_iff {pwd : Text} :
    checkKey android pwd = .ok () ↔
      ∃ key, android pwd = some key ∧ (key.length = 16 ∨ key.length = 32) := by
  rw [checkKey]
  cases android pwd with
  | none => simp
  | some key => simp [or_iff_not_imp_left]

theorem forM_eq_ok_iff {f : Text → Except String Unit} {parts : List Text} :
    parts.forM f = .ok () ↔ ∀ part ∈ parts, f part = .ok () := by
  induction parts with
  | nil => exact iff_of_true rfl (List.forall_mem_nil _)
  | cons part parts ih =>
    rw [List.forall_mem_cons, ← ih]
    show (f part >>= fun _ => parts.forM f) = .ok () ↔ _
    rw [Reactive.bind_eq_ok_iff]
    exact ⟨fun ⟨_, hpart, hparts⟩ => ⟨hpart, hparts⟩, fun h => ⟨(), h⟩⟩

theorem init_eq_ok_iff {profile : Profile} {method : Aead2022}
    (hmethod : profile.method = method.name) :
    init android profile = .ok () ↔ profile.host ≠ "" ∧ profile.password ≠ "" ∧
      ∀ part ∈ profile.password.toList.splitOn ':',
        ∃ key, android part = some key ∧ (key.length = 16 ∨ key.length = 32) := by
  have hnone : profile.method ≠ "none" := by
    rw [hmethod]
    cases method <;> decide
  have hdeprecated : profile.method ∉ ["aes-192-gcm", "chacha20", "salsa20"] := by
    rw [hmethod]
    cases method <;> decide
  have haead : profile.method ∈ ["2022-blake3-aes-128-gcm", "2022-blake3-aes-256-gcm",
      "2022-blake3-chacha20-poly1305"] := by
    rw [hmethod]
    cases method <;> decide
  rw [init, if_neg hdeprecated, if_pos haead]
  split
  next hnot =>
    constructor
    · intro h
      cases h
    · exact fun h => absurd ⟨h.1, .inr h.2.1⟩ hnot
  next hfilled =>
    obtain ⟨hhost, hpassword⟩ := not_not.mp hfilled
    rw [forM_eq_ok_iff]
    simp only [checkKey_eq_ok_iff]
    exact ⟨fun h => ⟨hhost, hpassword.resolve_left hnone, h⟩, fun h => h.2.2⟩

/-- **Keys.** A password that the constructor accepts is one that the engine accepts exactly if it
has the form that the cipher needs: strict Base64 parts, the last of the length of the key, or for
`chacha20-poly1305` a single key. Of passwords made of standard Base64 texts, these are the ones whose
last key has the right length. -/
theorem keysAgree_iff (hdecode : ∀ t, decode t = Base64.decode Base64.standard t)
    (handroid : ∀ key, android (Base64.encode Base64.standard key) = some key)
    (method : Aead2022) (profile : Profile) (hmethod : profile.method = method.name) :
    (KeysAgree android decode method profile ↔
      (init android profile = .ok () → FitsMethod method profile.password.toList)) ∧
    ∀ keys, keys ≠ [] → profile.host ≠ "" → profile.password.toList = joinKeys keys →
      (KeysAgree android decode method profile ↔
        (∃ key ∈ keys, key.length ≠ 16 ∧ key.length ≠ 32) ∨
          (method.supportEih = true ∨ keys.length = 1) ∧
            (keys.getLastD []).length = method.keyLen) := by
  have hgeneral : KeysAgree android decode method profile ↔
      (init android profile = .ok () → FitsMethod method profile.password.toList) :=
    imp_congr_right fun _ => passwordToKeys_iff_fitsMethod hdecode method _
  refine ⟨hgeneral, fun keys hkeys hhost hpassword => ?_⟩
  have haccepts : init android profile = .ok () ↔
      ∀ key ∈ keys, key.length = 16 ∨ key.length = 32 := by
    rw [init_eq_ok_iff hmethod, hpassword, splitOn_joinKeys hkeys]
    simp only [List.forall_mem_map, handroid, Option.some.injEq, exists_eq_left']
    constructor
    · exact fun h => h.2.2
    · refine fun h => ⟨hhost, ?_, h⟩
      -- the empty password is that of one empty key
      intro hempty
      rw [hempty] at hpassword
      have hparts : [[]] = keys.map (Base64.encode Base64.standard) := by
        rw [← splitOn_joinKeys hkeys, ← hpassword]
        rfl
      obtain ⟨key, hkey, hnil⟩ := List.mem_map.mp (hparts ▸ List.mem_cons_self)
      have hdecoded := Base64.decode_encode Base64.standard key
      rw [hnil] at hdecoded
      obtain rfl : [] = key := Option.some.inj hdecoded
      rcases h [] hkey with hlength | hlength <;> cases hlength
  rw [hgeneral, haccepts, hpassword, fitsMethod_joinKeys_iff method hkeys, imp_iff_not_or]
  push Not
  rfl

/-- A profile with the cipher and the keys. -/
def sampleProfile (method : Aead2022) (password : String) : Profile :=
  { method := method.name, password := password }

/-- A key of 16 zeros behind an identity key of 16 zeros. -/
theorem keysAgree_sample :
    KeysAgree (Base64.decode Base64.standard) (Base64.decode Base64.standard) .aes128Gcm
      (sampleProfile .aes128Gcm "AAAAAAAAAAAAAAAAAAAAAA==:AAAAAAAAAAAAAAAAAAAAAA==") := by
  have hagree := (keysAgree_iff (fun _ => rfl) (Base64.decode_encode Base64.standard) .aes128Gcm
    (sampleProfile .aes128Gcm "AAAAAAAAAAAAAAAAAAAAAA==:AAAAAAAAAAAAAAAAAAAAAA==") rfl).2
  refine (hagree [List.replicate 16 0, List.replicate 16 0] (by decide) (by decide)
    (by decide)).mpr ?_
  exact .inr (by decide)

/-- A key of 32 zeros is accepted for `aes-128-gcm`, and the engine panics. -/
theorem longKey_panics :
    init (Base64.decode Base64.standard) (sampleProfile .aes128Gcm
        "AAAAAAAAAAAAAAAAAAAAAAAAAAAAAAAAAAAAAAAAAAA=") = .ok () ∧
      passwordToKeys (Base64.decode Base64.standard) .aes128Gcm
        "AAAAAAAAAAAAAAAAAAAAAAAAAAAAAAAAAAAAAAAAAAA=".toList = .error (.keyLength 16 32) ∧
      ¬ KeysAgree (Base64.decode Base64.standard) (Base64.decode Base64.standard) .aes128Gcm
        (sampleProfile .aes128Gcm "AAAAAAAAAAAAAAAAAAAAAAAAAAAAAAAAAAAAAAAAAAA=") := by
  have hinit : init (Base64.decode Base64.standard) (sampleProfile .aes128Gcm
      "AAAAAAAAAAAAAAAAAAAAAAAAAAAAAAAAAAAAAAAAAAA=") = .ok () := by decide
  have hpanic : passwordToKeys (Base64.decode Base64.standard) .aes128Gcm
      "AAAAAAAAAAAAAAAAAAAAAAAAAAAAAAAAAAAAAAAAAAA=".toList = .error (.keyLength 16 32) := by
    decide
  refine ⟨hinit, hpanic, fun hagree => ?_⟩
  obtain ⟨keys, hkeys⟩ := hagree hinit
  have hcontra := hpanic.symm.trans hkeys
  cases hcontra

end ProxyInstance
