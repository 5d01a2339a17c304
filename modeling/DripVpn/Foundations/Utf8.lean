import DripVpn.Foundations.Bytes
import DripVpn.Foundations.Text

/-!
# Texts as bytes

The UTF-8 bytes of a text, its length in UTF-16 code units, and how the two compare: a text has as
many bytes as code units exactly if it is ASCII, and more otherwise.
-/

namespace Text

/-- The UTF-8 bytes of a text. -/
def utf8 (t : Text) : Bytes := t.flatMap String.utf8EncodeChar

/-- The number of UTF-16 code units of a character. -/
def utf16Size (c : Char) : ℕ := if c.val.toNat ≤ 0xffff then 1 else 2

/-- The length of a text in UTF-16 code units. -/
def utf16Length (t : Text) : ℕ := (t.map utf16Size).sum

/-- All characters are ASCII. -/
def IsAscii (t : Text) : Prop := ∀ c ∈ t, c.val.toNat ≤ 0x7f

instance (t : Text) : Decidable (IsAscii t) :=
  List.decidableBAll (fun c : Char => c.val.toNat ≤ 0x7f) t

/-- The text of UTF-8 bytes; what becomes of bytes that are not UTF-8 is `malformed`. -/
def ofUtf8 (malformed : Bytes → Text) (bytes : Bytes) : Text :=
  match bytes.toByteArray.utf8Decode? with
  | some chars => chars.toList
  | none => malformed bytes

theorem utf8_append (s t : Text) : utf8 (s ++ t) = utf8 s ++ utf8 t :=
  List.flatMap_append

theorem utf8_cons (c : Char) (t : Text) : utf8 (c :: t) = String.utf8EncodeChar c ++ utf8 t :=
  List.flatMap_cons

theorem ofUtf8_utf8 (malformed : Bytes → Text) (t : Text) : ofUtf8 malformed (utf8 t) = t := by
  have hdecode : (utf8 t).toByteArray.utf8Decode? = some t.toArray := List.utf8Decode?_utf8Encode
  rw [ofUtf8, hdecode]

/-- Bytes are those of the text they are read as, or not UTF-8. -/
theorem ofUtf8_cases (malformed : Bytes → Text) (bytes : Bytes) :
    bytes = utf8 (ofUtf8 malformed bytes) ∨
      (∀ t, bytes ≠ utf8 t) ∧ ofUtf8 malformed bytes = malformed bytes := by
  cases hdecode : bytes.toByteArray.utf8Decode? with
  | none =>
    refine .inr ⟨?_, by rw [ofUtf8, hdecode]⟩
    rintro t rfl
    have hsome : (utf8 t).toByteArray.utf8Decode? = some t.toArray := List.utf8Decode?_utf8Encode
    rw [hsome] at hdecode
    cases hdecode
  | some chars =>
    have hsome : bytes.toByteArray.utf8Decode?.isSome = true := by rw [hdecode]; rfl
    obtain ⟨t, ht⟩ := ByteArray.isSome_utf8Decode?_iff.mp hsome
    have hbytes : bytes = utf8 t := by
      have hdata := congrArg (fun b => b.data.toList) ht
      rw [utf8]
      simpa [List.utf8Encode] using hdata
    rw [hbytes, ofUtf8_utf8]
    exact .inl rfl

theorem utf16Length_append (s t : Text) :
    utf16Length (s ++ t) = utf16Length s + utf16Length t := by
  rw [utf16Length, List.map_append, List.sum_append]
  rfl

theorem utf16Length_cons (c : Char) (t : Text) :
    utf16Length (c :: t) = utf16Size c + utf16Length t := by
  rw [utf16Length, List.map_cons, List.sum_cons]
  rfl

/-! ## Bytes and code units -/

theorem length_utf8EncodeChar (c : Char) :
    (String.utf8EncodeChar c).length =
      if c.val.toNat ≤ 0x7f then 1
      else if c.val.toNat ≤ 0x7ff then 2
      else if c.val.toNat ≤ 0xffff then 3
      else 4 := by
  unfold String.utf8EncodeChar
  simp only [apply_ite List.length]
  rfl

theorem length_utf8EncodeChar_pos (c : Char) : 0 < (String.utf8EncodeChar c).length := by
  rw [length_utf8EncodeChar]
  split_ifs <;> omega

theorem utf16Size_of_ascii {c : Char} (h : c.val.toNat ≤ 0x7f) :
    utf16Size c = (String.utf8EncodeChar c).length := by
  rw [length_utf8EncodeChar, if_pos h, utf16Size, if_pos (by omega)]

theorem utf16Size_lt {c : Char} (h : ¬ c.val.toNat ≤ 0x7f) :
    utf16Size c < (String.utf8EncodeChar c).length := by
  rw [length_utf8EncodeChar, if_neg h, utf16Size]
  split_ifs <;> omega

theorem utf16Length_le (t : Text) : utf16Length t ≤ (utf8 t).length := by
  induction t with
  | nil => exact le_rfl
  | cons c t ih =>
    rw [utf16Length_cons, utf8_cons, List.length_append]
    by_cases h : c.val.toNat ≤ 0x7f
    · rw [utf16Size_of_ascii h]
      omega
    · have := utf16Size_lt h
      omega

/-- The bytes of a text are as many as its code units exactly if it is ASCII. -/
theorem utf16Length_eq_iff (t : Text) : utf16Length t = (utf8 t).length ↔ IsAscii t := by
  induction t with
  | nil => simp [utf16Length, utf8, IsAscii]
  | cons c t ih =>
    have hle := utf16Length_le t
    rw [utf16Length_cons, utf8_cons, List.length_append, IsAscii, List.forall_mem_cons]
    by_cases h : c.val.toNat ≤ 0x7f
    · rw [utf16Size_of_ascii h, Nat.add_left_cancel_iff, ih]
      exact (and_iff_right h).symm
    · have := utf16Size_lt h
      constructor
      · intro heq
        omega
      · intro hascii
        exact absurd hascii.1 h

theorem length_utf8_of_isAscii {t : Text} (h : IsAscii t) : (utf8 t).length = t.length := by
  induction t with
  | nil => rfl
  | cons c t ih =>
    obtain ⟨hc, ht⟩ := List.forall_mem_cons.mp h
    rw [utf8_cons, List.length_append, length_utf8EncodeChar, if_pos hc, ih ht, List.length_cons,
      Nat.add_comm]

theorem isAscii_of_isDigit {t : Text} (h : ∀ c ∈ t, c.isDigit = true) : IsAscii t := by
  intro c hc
  have hdigit := Char.isDigit_iff_toNat.mp (h c hc)
  simp only [Char.reduceToNat] at hdigit
  have hval : c.toNat = c.val.toNat := rfl
  omega

theorem utf16Length_lt {t : Text} (h : ¬ IsAscii t) : utf16Length t < (utf8 t).length :=
  lt_of_le_of_ne (utf16Length_le t) fun heq => h ((utf16Length_eq_iff t).mp heq)

/-! ## Cutting the bytes of a text -/

/-- The bytes of a character after the first have the high bit set. -/
theorem le_of_mem_tail_utf8EncodeChar {c : Char} {b : UInt8}
    (h : b ∈ (String.utf8EncodeChar c).tail) : 128 ≤ b.toNat := by
  have hbyte : ∀ n, 128 ≤ (UInt8.ofNat (n % 64 + 128)).toNat := by
    intro n
    rw [UInt8.toNat_ofNat']
    omega
  unfold String.utf8EncodeChar at h
  simp only at h
  split_ifs at h
  · cases h
  all_goals
    simp only [List.tail_cons, List.mem_cons, List.not_mem_nil, or_false] at h
    rcases h with rfl | rfl | rfl <;> exact hbyte _

/-- A byte without the high bit is a character. -/
theorem exists_mem_of_mem_utf8 {t : Text} {b : UInt8} (h : b ∈ utf8 t) (hb : b.toNat < 128) :
    ∃ c ∈ t, c.val.toNat = b.toNat := by
  obtain ⟨c, hc, hmem⟩ := List.mem_flatMap.mp h
  refine ⟨c, hc, ?_⟩
  have hlead : ∀ n, 192 ≤ n → n < 256 → 128 ≤ (UInt8.ofNat n).toNat := by
    intro n hn hlt
    rw [UInt8.toNat_ofNat']
    omega
  cases hbytes : String.utf8EncodeChar c with
  | nil => rw [hbytes] at hmem; cases hmem
  | cons first rest =>
    have htail : ∀ b' ∈ rest, 128 ≤ b'.toNat := fun b' hb' =>
      le_of_mem_tail_utf8EncodeChar (c := c) (by rw [hbytes]; exact hb')
    rw [hbytes] at hmem
    rcases List.mem_cons.mp hmem with rfl | hrest
    · unfold String.utf8EncodeChar at hbytes
      simp only at hbytes
      split_ifs at hbytes
      · obtain ⟨hb', -⟩ := List.cons.inj hbytes
        rw [← hb', UInt8.toNat_ofNat']
        omega
      all_goals
        obtain ⟨hb', -⟩ := List.cons.inj hbytes
        have := hlead _ (by omega) (by omega) |>.trans_eq (congrArg UInt8.toNat hb')
        omega
    · have := htail b hrest
      omega

/-- The bytes of a text are cut at the end of a character, or what follows the cut begins with the
high bit set. -/
theorem cut_cases {t : Text} {n : ℕ} (h : n < (utf8 t).length) :
    (∃ s u, t = s ++ u ∧ u ≠ [] ∧ (utf8 t).take n = utf8 s) ∨
      ∃ b bytes, (utf8 t).drop n = b :: bytes ∧ 128 ≤ b.toNat := by
  induction t generalizing n with
  | nil => exact absurd h (Nat.not_lt_zero n)
  | cons c t ih =>
    rw [utf8_cons] at h ⊢
    rcases Nat.lt_or_ge n (String.utf8EncodeChar c).length with hlt | hge
    · cases n with
      | zero => exact .inl ⟨[], c :: t, rfl, List.cons_ne_nil c t, rfl⟩
      | succ n =>
        -- the cut is inside the first character
        right
        rw [List.drop_append_of_le_length hlt.le]
        cases hdrop : (String.utf8EncodeChar c).drop (n + 1) with
        | nil => exact absurd (List.drop_eq_nil_iff.mp hdrop) (Nat.not_le.mpr hlt)
        | cons b bytes =>
          refine ⟨b, bytes ++ utf8 t, rfl, le_of_mem_tail_utf8EncodeChar (c := c) ?_⟩
          rw [← List.drop_one]
          have hmem : b ∈ (String.utf8EncodeChar c).drop (n + 1) := hdrop ▸ List.mem_cons_self
          rw [Nat.add_comm, ← List.drop_drop] at hmem
          exact List.mem_of_mem_drop hmem
    · rw [List.length_append] at h
      obtain ⟨s, u, rfl, hu, htake⟩ | ⟨b, bytes, hdrop, hb⟩ :=
        ih (n := n - (String.utf8EncodeChar c).length) (by omega)
      · refine .inl ⟨c :: s, u, rfl, hu, ?_⟩
        rw [List.take_append, List.take_of_length_le hge, htake, utf8_cons]
      · refine .inr ⟨b, bytes, ?_, hb⟩
        rw [List.drop_append, List.drop_eq_nil_of_le hge, List.nil_append, hdrop]

end Text
