import DripVpn.Foundations.Bytes
import DripVpn.Foundations.Text
import Mathlib.Data.List.GetD
import Mathlib.Data.List.Nodup

/-!
# Base64

Bytes as texts over an alphabet of 64 characters: three bytes are four characters, and a last group
of one or two bytes is two or three characters, filled up with zero bits and padded with `=`.

`decode` is the strict reader: it takes no other characters, no other bits than zeros in the filling,
and at most the padding that belongs to the text. `decode_eq_some_iff` says that it reads exactly
the encodings, with all, some or none of their padding. `decodeLenient` takes more, and of an
encoding that is cut off it reads the first bytes.
-/

namespace Base64

/-! ## Groups of six bits -/

/-- The bytes in groups of six bits. -/
def sextets : Bytes → List ℕ
  | [] => []
  | [a] => [a.toNat / 4, a.toNat % 4 * 16]
  | [a, b] => [a.toNat / 4, a.toNat % 4 * 16 + b.toNat / 16, b.toNat % 16 * 4]
  | a :: b :: c :: bytes =>
    a.toNat / 4 :: (a.toNat % 4 * 16 + b.toNat / 16) :: (b.toNat % 16 * 4 + c.toNat / 64) ::
      (c.toNat % 64) :: sextets bytes

/-- The bytes of groups of six bits. -/
def ofSextets : List ℕ → Option Bytes
  | [] => some []
  | [_] => none
  -- the bits of the filling must be zero
  | [w, x] => if x % 16 = 0 then some [UInt8.ofNat (w * 4 + x / 16)] else none
  | [w, x, y] =>
    if y % 4 = 0 then
      some [UInt8.ofNat (w * 4 + x / 16), UInt8.ofNat (x % 16 * 16 + y / 4)]
    else none
  | w :: x :: y :: z :: values =>
    (ofSextets values).map fun bytes =>
      UInt8.ofNat (w * 4 + x / 16) :: UInt8.ofNat (x % 16 * 16 + y / 4) ::
        UInt8.ofNat (y % 4 * 64 + z) :: bytes

theorem sextets_lt (bytes : Bytes) : ∀ v ∈ sextets bytes, v < 64 := by
  induction bytes using sextets.induct with
  | case1 => simp [sextets]
  | case2 a =>
    have ha := a.toNat_lt
    simp only [sextets, List.mem_cons, List.not_mem_nil, or_false]
    rintro v (rfl | rfl) <;> omega
  | case3 a b =>
    have ha := a.toNat_lt
    have hb := b.toNat_lt
    simp only [sextets, List.mem_cons, List.not_mem_nil, or_false]
    rintro v (rfl | rfl | rfl) <;> omega
  | case4 a b c bytes ih =>
    have ha := a.toNat_lt
    have hb := b.toNat_lt
    have hc := c.toNat_lt
    simp only [sextets, List.mem_cons]
    rintro v (rfl | rfl | rfl | rfl | hv)
    · omega
    · omega
    · omega
    · omega
    · exact ih v hv

theorem ofNat_eq {n : ℕ} {b : UInt8} (h : n = b.toNat) : UInt8.ofNat n = b := by
  rw [h, UInt8.ofNat_toNat]

theorem ofSextets_sextets (bytes : Bytes) : ofSextets (sextets bytes) = some bytes := by
  induction bytes using sextets.induct with
  | case1 => rfl
  | case2 a =>
    have ha := a.toNat_lt
    rw [sextets, ofSextets, if_pos (by omega), ofNat_eq (b := a) (by omega)]
  | case3 a b =>
    have ha := a.toNat_lt
    have hb := b.toNat_lt
    rw [sextets, ofSextets, if_pos (by omega), ofNat_eq (b := a) (by omega),
      ofNat_eq (b := b) (by omega)]
  | case4 a b c bytes ih =>
    have ha := a.toNat_lt
    have hb := b.toNat_lt
    have hc := c.toNat_lt
    rw [sextets, ofSextets, ih, Option.map_some]
    congr 2
    · exact ofNat_eq (b := a) (by omega)
    congr 1
    · exact ofNat_eq (b := b) (by omega)
    congr 1
    exact ofNat_eq (b := c) (by omega)

theorem toNat_ofNat_of_lt {n : ℕ} (h : n < 256) : (UInt8.ofNat n).toNat = n := by
  rw [UInt8.toNat_ofNat']
  exact Nat.mod_eq_of_lt h

/-- Groups that are read are those of the bytes. -/
theorem sextets_of_ofSextets {values : List ℕ} {bytes : Bytes} (hlt : ∀ v ∈ values, v < 64)
    (h : ofSextets values = some bytes) : values = sextets bytes := by
  induction values using ofSextets.induct generalizing bytes with
  | case1 =>
    obtain rfl := Option.some.inj h
    rfl
  | case2 w => cases h
  | case3 w x hx =>
    have hw := hlt w (by simp)
    have hx' := hlt x (by simp)
    rw [ofSextets, if_pos hx] at h
    obtain rfl := Option.some.inj h
    rw [sextets, toNat_ofNat_of_lt (by omega)]
    congr 1
    · omega
    congr 1
    omega
  | case4 w x hx =>
    rw [ofSextets, if_neg hx] at h
    cases h
  | case5 w x y hy =>
    have hw := hlt w (by simp)
    have hx := hlt x (by simp)
    have hy' := hlt y (by simp)
    rw [ofSextets, if_pos hy] at h
    obtain rfl := Option.some.inj h
    rw [sextets, toNat_ofNat_of_lt (by omega), toNat_ofNat_of_lt (by omega)]
    congr 1
    · omega
    congr 1
    · omega
    congr 1
    omega
  | case6 w x y hy =>
    rw [ofSextets, if_neg hy] at h
    cases h
  | case7 w x y z values ih =>
    have hw := hlt w (by simp)
    have hx := hlt x (by simp)
    have hy := hlt y (by simp)
    have hz := hlt z (by simp)
    rw [ofSextets, Option.map_eq_some_iff] at h
    obtain ⟨rest, hrest, rfl⟩ := h
    rw [sextets, toNat_ofNat_of_lt (by omega), toNat_ofNat_of_lt (by omega),
      toNat_ofNat_of_lt (by omega), ih (fun v hv => hlt v (by simp [hv])) hrest]
    congr 1
    · omega
    congr 1
    · omega
    congr 1
    · omega
    congr 1
    omega

/-! ## Characters -/

/-- The characters that stand for the numbers below 64. -/
structure Alphabet where
  chars : List Char
  length_eq : chars.length = 64
  nodup : chars.Nodup
  pad_notMem : '=' ∉ chars

variable (A : Alphabet)

/-- The character of a number. -/
def charOf (n : ℕ) : Char := A.chars.getD n 'A'

/-- The number of a character. -/
def valueOf (c : Char) : Option ℕ := if c ∈ A.chars then some (A.chars.idxOf c) else none

theorem charOf_mem {n : ℕ} (h : n < 64) : charOf A n ∈ A.chars := by
  rw [← A.length_eq] at h
  rw [charOf, List.getD_eq_getElem _ _ h]
  exact List.getElem_mem h

theorem valueOf_charOf {n : ℕ} (h : n < 64) : valueOf A (charOf A n) = some n := by
  rw [valueOf, if_pos (charOf_mem A h)]
  rw [← A.length_eq] at h
  rw [charOf, List.getD_eq_getElem _ _ h, A.nodup.idxOf_getElem]

theorem valueOf_eq_some {c : Char} {n : ℕ} (h : valueOf A c = some n) :
    n < 64 ∧ charOf A n = c := by
  rw [valueOf, Option.ite_none_right_eq_some] at h
  obtain ⟨hmem, hidx⟩ := h
  obtain rfl := Option.some.inj hidx
  have hlt := List.idxOf_lt_length_of_mem hmem
  refine ⟨A.length_eq ▸ hlt, ?_⟩
  rw [charOf, List.getD_eq_getElem _ _ hlt, List.getElem_idxOf]

/-- The text of bytes, without padding. -/
def encodeUnpadded (bytes : Bytes) : Text := (sextets bytes).map (charOf A)

/-- How much padding belongs to a text of `n` characters. -/
def padding (n : ℕ) : ℕ := if n % 4 = 2 then 2 else if n % 4 = 3 then 1 else 0

/-- The text of bytes. -/
def encode (bytes : Bytes) : Text :=
  encodeUnpadded A bytes ++ List.replicate (padding (sextets bytes).length) '='

/-- The bytes of a text. Padding may be missing, but nothing else. -/
def decode (t : Text) : Option Bytes :=
  let body := t.takeWhile (· ≠ '=')
  let pad := t.dropWhile (· ≠ '=')
  if pad.all (· = '=') ∧ pad.length ≤ padding body.length then
    (body.mapM (valueOf A)).bind ofSextets
  else none

theorem mem_of_mem_encodeUnpadded {bytes : Bytes} {c : Char} (h : c ∈ encodeUnpadded A bytes) :
    c ∈ A.chars := by
  obtain ⟨v, hv, rfl⟩ := List.mem_map.mp h
  exact charOf_mem A (sextets_lt bytes v hv)

theorem mapM_valueOf_charOf {values : List ℕ} (h : ∀ v ∈ values, v < 64) :
    (values.map (charOf A)).mapM (valueOf A) = some values := by
  induction values with
  | nil => rfl
  | cons v values ih =>
    rw [List.map_cons, List.mapM_cons, valueOf_charOf A (h v List.mem_cons_self),
      ih fun w hw => h w (List.mem_cons_of_mem _ hw)]
    rfl

theorem map_charOf_of_mapM {body : Text} {values : List ℕ}
    (h : body.mapM (valueOf A) = some values) :
    body = values.map (charOf A) ∧ ∀ v ∈ values, v < 64 := by
  induction body generalizing values with
  | nil =>
    obtain rfl := Option.some.inj h
    exact ⟨rfl, List.forall_mem_nil _⟩
  | cons c body ih =>
    rw [List.mapM_cons] at h
    simp only [Option.bind_eq_bind, Option.bind_eq_some_iff, Option.pure_def] at h
    obtain ⟨v, hv, rest, hrest, hvalues⟩ := h
    obtain rfl := Option.some.inj hvalues
    obtain ⟨hlt, rfl⟩ := valueOf_eq_some A hv
    obtain ⟨rfl, hall⟩ := ih hrest
    exact ⟨rfl, List.forall_mem_cons.mpr ⟨hlt, hall⟩⟩

/-- The text is that of the bytes, with all, some or none of its padding. -/
def IsText (bytes : Bytes) (t : Text) : Prop :=
  ∃ k ≤ padding (sextets bytes).length, t = encodeUnpadded A bytes ++ List.replicate k '='

theorem isText_encode (bytes : Bytes) : IsText A bytes (encode A bytes) :=
  ⟨_, le_rfl, rfl⟩

theorem decode_eq_some_iff {t : Text} {bytes : Bytes} :
    decode A t = some bytes ↔ IsText A bytes t := by
  constructor
  · intro h
    rw [decode, Option.ite_none_right_eq_some] at h
    obtain ⟨⟨hall, hlength⟩, hbytes⟩ := h
    obtain ⟨values, hvalues, hsextets⟩ := Option.bind_eq_some_iff.mp hbytes
    obtain ⟨hbody, hlt⟩ := map_charOf_of_mapM A hvalues
    obtain rfl := sextets_of_ofSextets hlt hsextets
    have hpad : t.dropWhile (· ≠ '=') = List.replicate (t.dropWhile (· ≠ '=')).length '=' := by
      refine List.eq_replicate_iff.mpr ⟨rfl, fun c hc => ?_⟩
      simpa using List.all_eq_true.mp hall c hc
    refine ⟨(t.dropWhile (· ≠ '=')).length, ?_, ?_⟩
    · rwa [hbody, List.length_map] at hlength
    · rw [encodeUnpadded, ← hbody, ← hpad, List.takeWhile_append_dropWhile]
  · rintro ⟨k, hk, rfl⟩
    have hne : ∀ c ∈ encodeUnpadded A bytes, (decide (c ≠ '=')) = true := by
      intro c hc
      have hmem := mem_of_mem_encodeUnpadded A hc
      simp only [ne_eq, decide_not, Bool.not_eq_eq_eq_not, Bool.not_true, decide_eq_false_iff_not]
      rintro rfl
      exact A.pad_notMem hmem
    have hbody : (encodeUnpadded A bytes ++ List.replicate k '=').takeWhile (· ≠ '=') =
        encodeUnpadded A bytes := by
      rw [List.takeWhile_append_of_pos hne]
      cases k <;> simp [List.replicate_succ]
    have hpad : (encodeUnpadded A bytes ++ List.replicate k '=').dropWhile (· ≠ '=') =
        List.replicate k '=' := by
      rw [List.dropWhile_append_of_pos hne]
      cases k <;> simp [List.replicate_succ]
    rw [decode]
    simp only [hbody, hpad]
    rw [if_pos, encodeUnpadded, mapM_valueOf_charOf A (sextets_lt bytes), Option.bind_some,
      ofSextets_sextets]
    refine ⟨by simp, ?_⟩
    rwa [List.length_replicate, encodeUnpadded, List.length_map]

theorem decode_encode (bytes : Bytes) : decode A (encode A bytes) = some bytes :=
  (decode_eq_some_iff A).mpr (isText_encode A bytes)

/-! ## The lenient reader -/

/-- The bytes of groups of six bits, whatever is in the filling. -/
def lenientBytes : List ℕ → Option Bytes
  | [] => some []
  | [_] => none
  | [w, x] => some [UInt8.ofNat (w * 4 + x / 16)]
  | [w, x, y] => some [UInt8.ofNat (w * 4 + x / 16), UInt8.ofNat (x % 16 * 16 + y / 4)]
  | w :: x :: y :: z :: values =>
    (lenientBytes values).map fun bytes =>
      UInt8.ofNat (w * 4 + x / 16) :: UInt8.ofNat (x % 16 * 16 + y / 4) ::
        UInt8.ofNat (y % 4 * 64 + z) :: bytes

/-- The bytes of a text, by a reader that skips what is not in the alphabet and does not look at
the filling. The padding is there in full or not at all. -/
def decodeLenient (t : Text) : Option Bytes :=
  let kept := t.filter fun c => c ∈ A.chars ∨ c = '='
  let body := kept.takeWhile (· ≠ '=')
  let pad := kept.dropWhile (· ≠ '=')
  if pad = [] ∨ pad = List.replicate (padding body.length) '=' then
    (body.mapM (valueOf A)).bind lenientBytes
  else none

theorem lenientBytes_of_ofSextets {values : List ℕ} {bytes : Bytes}
    (h : ofSextets values = some bytes) : lenientBytes values = some bytes := by
  induction values using ofSextets.induct generalizing bytes with
  | case1 => exact h
  | case2 w => cases h
  | case3 w x hx => rwa [ofSextets, if_pos hx] at h
  | case4 w x hx =>
    rw [ofSextets, if_neg hx] at h
    cases h
  | case5 w x y hy => rwa [ofSextets, if_pos hy] at h
  | case6 w x y hy =>
    rw [ofSextets, if_neg hy] at h
    cases h
  | case7 w x y z values ih =>
    rw [ofSextets, Option.map_eq_some_iff] at h
    obtain ⟨rest, hrest, rfl⟩ := h
    rw [lenientBytes, ih hrest, Option.map_some]

theorem lenientBytes_sextets (bytes : Bytes) : lenientBytes (sextets bytes) = some bytes :=
  lenientBytes_of_ofSextets (ofSextets_sextets bytes)

/-- All groups give all bytes. -/
theorem eq_of_lenientBytes_take {bytes read : Bytes} {k : ℕ} (hk : (sextets bytes).length ≤ k)
    (h : lenientBytes ((sextets bytes).take k) = some read) : read = bytes := by
  rw [List.take_of_length_le hk, lenientBytes_sextets] at h
  exact (Option.some.inj h).symm

/-- The first groups give the first bytes, and one byte is missing if a group is. -/
theorem prefix_of_lenientBytes {bytes read : Bytes} {k : ℕ}
    (h : lenientBytes ((sextets bytes).take k) = some read) :
    read <+: bytes ∧ (k < (sextets bytes).length → read.length < bytes.length) := by
  induction bytes using sextets.induct generalizing read k with
  | case1 =>
    rw [sextets, List.take_nil] at h
    obtain rfl := Option.some.inj h
    exact ⟨List.prefix_rfl, fun hk => absurd hk (Nat.not_lt_zero k)⟩
  | case2 a =>
    have ha := a.toNat_lt
    match k with
    | 0 => obtain rfl := Option.some.inj h; simp
    | 1 => cases h
    | k + 2 =>
      obtain rfl := eq_of_lenientBytes_take (by simp [sextets]) h
      exact ⟨List.prefix_rfl, fun hk => absurd hk (by simp [sextets])⟩
  | case3 a b =>
    have ha := a.toNat_lt
    have hb := b.toNat_lt
    match k with
    | 0 => obtain rfl := Option.some.inj h; simp
    | 1 => cases h
    | 2 =>
      obtain rfl := Option.some.inj h
      rw [ofNat_eq (b := a) (by omega)]
      simp
    | k + 3 =>
      obtain rfl := eq_of_lenientBytes_take (by simp [sextets]) h
      exact ⟨List.prefix_rfl, fun hk => absurd hk (by simp [sextets])⟩
  | case4 a b c bytes ih =>
    have ha := a.toNat_lt
    have hb := b.toNat_lt
    have hc := c.toNat_lt
    match k with
    | 0 => obtain rfl := Option.some.inj h; simp
    | 1 => cases h
    | 2 =>
      obtain rfl := Option.some.inj h
      rw [ofNat_eq (b := a) (by omega)]
      simp
    | 3 =>
      obtain rfl := Option.some.inj h
      rw [ofNat_eq (b := a) (by omega), ofNat_eq (b := b) (by omega)]
      simp
    | k + 4 =>
      rw [sextets, List.take_succ_cons, List.take_succ_cons, List.take_succ_cons,
        List.take_succ_cons, lenientBytes, Option.map_eq_some_iff] at h
      obtain ⟨rest, hrest, rfl⟩ := h
      obtain ⟨hinitial, hlength⟩ := ih hrest
      rw [ofNat_eq (b := a) (by omega), ofNat_eq (b := b) (by omega),
        ofNat_eq (b := c) (by omega)]
      refine ⟨by simpa using hinitial, fun hk => ?_⟩
      simp only [sextets, List.length_cons] at hk ⊢
      have := hlength (by omega)
      omega

/-- A text of the alphabet is read without skipping anything. -/
theorem decodeLenient_map_charOf {values : List ℕ} (h : ∀ v ∈ values, v < 64) :
    decodeLenient A (values.map (charOf A)) = lenientBytes values := by
  have hmem : ∀ c ∈ values.map (charOf A), c ∈ A.chars := by
    intro c hc
    obtain ⟨v, hv, rfl⟩ := List.mem_map.mp hc
    exact charOf_mem A (h v hv)
  have hkept : (values.map (charOf A)).filter (fun c => c ∈ A.chars ∨ c = '=') =
      values.map (charOf A) := by
    refine List.filter_eq_self.mpr fun c hc => ?_
    simp [hmem c hc]
  have hne : ∀ c ∈ values.map (charOf A), decide (c ≠ '=') = true := by
    intro c hc
    refine decide_eq_true fun heq => A.pad_notMem ?_
    rw [← heq]
    exact hmem c hc
  have hbody : (values.map (charOf A)).takeWhile (· ≠ '=') = values.map (charOf A) :=
    List.takeWhile_eq_self_iff.mpr hne
  have hpad : (values.map (charOf A)).dropWhile (· ≠ '=') = [] :=
    List.dropWhile_eq_nil_iff.mpr hne
  rw [decodeLenient]
  simp only [hkept, hbody, hpad, true_or, if_true]
  rw [mapM_valueOf_charOf A h, Option.bind_some]

theorem decodeLenient_encodeUnpadded (bytes : Bytes) :
    decodeLenient A (encodeUnpadded A bytes) = some bytes := by
  rw [encodeUnpadded, decodeLenient_map_charOf A (sextets_lt bytes), lenientBytes_sextets]

/-- A text that is cut off is read as fewer bytes, if at all. -/
theorem prefix_of_decodeLenient_take {bytes read : Bytes} {k : ℕ}
    (h : decodeLenient A ((encodeUnpadded A bytes).take k) = some read) :
    read <+: bytes ∧ (k < (encodeUnpadded A bytes).length → read.length < bytes.length) := by
  rw [encodeUnpadded, ← List.map_take, decodeLenient_map_charOf A
    fun v hv => sextets_lt bytes v (List.mem_of_mem_take hv)] at h
  rw [encodeUnpadded, List.length_map]
  exact prefix_of_lenientBytes h

/-! ## The alphabets of RFC 4648 -/

/-- The standard alphabet. -/
def standardChars : List Char :=
  "ABCDEFGHIJKLMNOPQRSTUVWXYZabcdefghijklmnopqrstuvwxyz0123456789+/".toList

theorem nodup_standardChars : standardChars.Nodup := by decide

theorem standardChars_cases : ∀ c ∈ standardChars, c.isAlphanum = true ∨ c = '+' ∨ c = '/' :=
  Text.forall_mem_of_all (by decide)

theorem notMem_standardChars {c : Char} (h : ¬ (c.isAlphanum = true ∨ c = '+' ∨ c = '/')) :
    c ∉ standardChars := fun hmem => h (standardChars_cases c hmem)

theorem pad_notMem_standardChars : '=' ∉ standardChars := notMem_standardChars (by decide)

def standard : Alphabet := ⟨standardChars, rfl, nodup_standardChars, pad_notMem_standardChars⟩

/-- The alphabet for texts in addresses. -/
def urlSafeChars : List Char :=
  "ABCDEFGHIJKLMNOPQRSTUVWXYZabcdefghijklmnopqrstuvwxyz0123456789-_".toList

theorem nodup_urlSafeChars : urlSafeChars.Nodup := by decide

theorem urlSafeChars_cases : ∀ c ∈ urlSafeChars, c.isAlphanum = true ∨ c = '-' ∨ c = '_' :=
  Text.forall_mem_of_all (by decide)

theorem notMem_urlSafeChars {c : Char} (h : ¬ (c.isAlphanum = true ∨ c = '-' ∨ c = '_')) :
    c ∉ urlSafeChars := fun hmem => h (urlSafeChars_cases c hmem)

theorem pad_notMem_urlSafeChars : '=' ∉ urlSafeChars := notMem_urlSafeChars (by decide)

def urlSafe : Alphabet := ⟨urlSafeChars, rfl, nodup_urlSafeChars, pad_notMem_urlSafeChars⟩

end Base64
