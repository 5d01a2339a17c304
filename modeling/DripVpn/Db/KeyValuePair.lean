import DripVpn.Foundations.Utf8
import Mathlib.Data.Finset.Max

/-!
# Key-value pairs

A `KeyValuePair` stores a value of one of several types as bytes. A set of strings is stored as the
concatenation of its strings, each behind four bytes of length.

The length is that of the string, in UTF-16 code units; what follows are its UTF-8 bytes. The two
agree for ASCII strings only, and `survives_iff` says that the sets of ASCII strings are exactly
those that can be stored and read back.
-/

/-- What reading a `ByteBuffer` throws. -/
inductive BufferException where
  | bufferUnderflow
  | negativeArraySize
  deriving DecidableEq, Repr

/-- `TYPE_UNINITIALIZED`. -/
def KeyValuePair.typeUninitialized : ℕ := 0

/-- `TYPE_STRING_SET`. -/
def KeyValuePair.typeStringSet : ℕ := 6

/-- A row of the table `KeyValuePair`. -/
structure KeyValuePair where
  key : Text := []
  valueType : ℕ := KeyValuePair.typeUninitialized
  value : Bytes := []
  deriving DecidableEq

namespace KeyValuePair

/-- `ByteBuffer.int`, of the next four bytes. -/
def int (bytes : Bytes) : ℤ :=
  if ofBigEndian bytes < 2 ^ 31 then ofBigEndian bytes else ofBigEndian bytes - 2 ^ 32

/-- The bytes of one string of a set. -/
def putString (v : Text) : Bytes := bigEndian 4 v.utf16Length ++ v.utf8

/-- `KeyValuePair.put`, of a set that is iterated in the order of the list. -/
def put (pair : KeyValuePair) (value : List Text) : KeyValuePair :=
  { pair with valueType := typeStringSet, value := value.flatMap putString }

/-- The loop of `KeyValuePair.stringSet`. -/
def readStrings (malformed : Bytes → Text) (buffer : Bytes) (result : Finset Text) :
    Except BufferException (Finset Text) :=
  match buffer with
  | [] => .ok result
  | b₁ :: b₂ :: b₃ :: b₄ :: rest =>
    -- `buffer.int`, which the writer took from `String.length`
    let size := int [b₁, b₂, b₃, b₄]
    if size < 0 then .error .negativeArraySize
    else if rest.length < size.toNat then .error .bufferUnderflow
    else
      readStrings malformed (rest.drop size.toNat)
        (insert (Text.ofUtf8 malformed (rest.take size.toNat)) result)
  | _ => .error .bufferUnderflow
termination_by buffer.length
decreasing_by
  rw [List.length_drop]
  simp only [List.length_cons]
  omega

/-- `KeyValuePair.stringSet`. -/
def stringSet (malformed : Bytes → Text) (pair : KeyValuePair) :
    Except BufferException (Option (Finset Text)) :=
  if pair.valueType = typeStringSet then some <$> readStrings malformed pair.value ∅ else .ok none

/-- A set of strings is read back as it was stored, in whatever order it is iterated. -/
def Survives (malformed : Bytes → Text) (strings : Finset Text) : Prop :=
  ∀ order : List Text, order.Nodup → order.toFinset = strings →
    stringSet malformed (put {} order) = .ok (some strings)

/-! ## Reading -/

variable {malformed : Bytes → Text}

theorem int_of_lt {bytes : Bytes} (h : ofBigEndian bytes < 2 ^ 31) : int bytes = ofBigEndian bytes :=
  if_pos h

theorem stringSet_put (order : List Text) :
    stringSet malformed (put {} order) =
      some <$> readStrings malformed (order.flatMap putString) ∅ := by
  show (if typeStringSet = typeStringSet then _ else _) = _
  rw [if_pos rfl]
  rfl

theorem readStrings_of_stringSet {order : List Text} {strings : Finset Text}
    (h : stringSet malformed (put {} order) = .ok (some strings)) :
    readStrings malformed (order.flatMap putString) ∅ = .ok strings := by
  rw [stringSet_put] at h
  cases hread : readStrings malformed (order.flatMap putString) ∅ with
  | error e =>
    rw [hread] at h
    cases h
  | ok result =>
    rw [hread] at h
    exact congrArg Except.ok (Option.some.inj (Except.ok.inj h))

/-- The next string is what the length says, whatever its bytes are. -/
theorem readStrings_length {n : ℕ} (hn : n < 2 ^ 31) {rest : Bytes} (h : n ≤ rest.length)
    (result : Finset Text) :
    readStrings malformed (bigEndian 4 n ++ rest) result =
      readStrings malformed (rest.drop n)
        (insert (Text.ofUtf8 malformed (rest.take n)) result) := by
  have hvalue : ofBigEndian (bigEndian 4 n) = n :=
    ofBigEndian_bigEndian_of_lt (lt_trans hn (by decide))
  have hint : int (bigEndian 4 n) = n := by rw [int_of_lt (by rw [hvalue]; exact hn), hvalue]
  match hbytes : bigEndian 4 n, length_bigEndian 4 n with
  | [b₁, b₂, b₃, b₄], _ =>
    rw [hbytes] at hint
    show readStrings malformed (b₁ :: b₂ :: b₃ :: b₄ :: rest) result = _
    rw [readStrings]
    simp only [hint]
    rw [if_neg (by omega), if_neg (by omega)]
    rfl

theorem readStrings_short {buffer : Bytes} (hne : buffer ≠ []) (h : buffer.length < 4)
    (result : Finset Text) : readStrings malformed buffer result = .error .bufferUnderflow := by
  rw [readStrings]
  · exact hne
  · rintro b₁ b₂ b₃ b₄ rest rfl
    simp only [List.length_cons] at h
    omega

/-- A buffer that begins with the high bit set holds no string. -/
theorem readStrings_high {b : UInt8} (hb : 128 ≤ b.toNat) (bytes : Bytes) (result : Finset Text) :
    ∃ e, readStrings malformed (b :: bytes) result = .error e := by
  match bytes with
  | b₂ :: b₃ :: b₄ :: rest =>
    have hle := le_ofBigEndian b [b₂, b₃, b₄]
    have hlt := ofBigEndian_lt [b, b₂, b₃, b₄]
    simp only [List.length_cons, List.length_nil] at hle hlt
    have hneg : int [b, b₂, b₃, b₄] < 0 := by
      rw [int, if_neg (by omega)]
      omega
    refine ⟨.negativeArraySize, ?_⟩
    rw [readStrings]
    simp only [if_pos hneg]
  | [] => exact ⟨_, readStrings_short (List.cons_ne_nil _ _) (by simp) result⟩
  | [b₂] => exact ⟨_, readStrings_short (List.cons_ne_nil _ _) (by simp) result⟩
  | [b₂, b₃] => exact ⟨_, readStrings_short (List.cons_ne_nil _ _) (by simp) result⟩

/-- Strings that were read stay in the set. -/
theorem subset_of_readStrings {buffer : Bytes} {result strings : Finset Text}
    (h : readStrings malformed buffer result = .ok strings) : result ⊆ strings := by
  induction buffer, result using readStrings.induct malformed with
  | case1 result =>
    rw [readStrings] at h
    exact (Except.ok.inj h).subset
  | case2 result b₁ b₂ b₃ b₄ rest size hneg =>
    rw [readStrings] at h
    simp only [size] at hneg
    simp [hneg] at h
  | case3 result b₁ b₂ b₃ b₄ rest size hneg hshort =>
    rw [readStrings] at h
    simp only [size] at hneg hshort
    simp [hneg, hshort] at h
  | case4 result b₁ b₂ b₃ b₄ rest size hneg hshort ih =>
    rw [readStrings] at h
    simp only [size] at hneg hshort
    simp only [hneg, hshort, if_false] at h
    exact (Finset.subset_insert _ _).trans (ih h)
  | case5 buffer result hnil hcons =>
    rw [readStrings] at h
    · cases h
    · exact hnil
    · exact hcons

/-! ## Storing and reading back -/

/-- ASCII strings are read back one after the other. -/
theorem readStrings_ascii {order : List Text} (hascii : ∀ v ∈ order, v.IsAscii)
    (hlength : ∀ v ∈ order, v.utf16Length < 2 ^ 31) (rest : Bytes) (result : Finset Text) :
    readStrings malformed (order.flatMap putString ++ rest) result =
      readStrings malformed rest (result ∪ order.toFinset) := by
  induction order generalizing result with
  | nil => rw [List.toFinset_nil, Finset.union_empty]; rfl
  | cons v order ih =>
    have hsize : v.utf16Length = v.utf8.length :=
      (Text.utf16Length_eq_iff v).mpr (hascii v List.mem_cons_self)
    rw [List.flatMap_cons, putString, List.append_assoc, List.append_assoc,
      readStrings_length (hlength v List.mem_cons_self) (by rw [hsize, List.length_append]; omega),
      hsize, List.drop_left, List.take_left, Text.ofUtf8_utf8,
      ih (fun w hw => hascii w (List.mem_cons_of_mem _ hw))
        (fun w hw => hlength w (List.mem_cons_of_mem _ hw)),
      List.toFinset_cons, Finset.insert_union, Finset.union_insert]

/-- Of a string that is not ASCII, a piece without some of its bytes is read, or nothing. -/
theorem readStrings_nonascii {v : Text} (hv : ¬ v.IsAscii) (hlength : v.utf16Length < 2 ^ 31)
    {rest : Bytes} {result strings : Finset Text}
    (h : readStrings malformed (putString v ++ rest) result = .ok strings) :
    ∃ piece ∈ strings, ¬ piece.IsAscii ∧ piece.utf8.length < v.utf8.length := by
  have hlt := Text.utf16Length_lt hv
  rw [putString, List.append_assoc,
    readStrings_length hlength (by rw [List.length_append]; omega),
    List.take_append_of_le_length hlt.le, List.drop_append_of_le_length hlt.le] at h
  obtain ⟨s, u, hsplit, hu, htake⟩ | ⟨b, bytes, hdrop, hb⟩ := Text.cut_cases hlt
  · have hbytes : s.utf8.length = v.utf16Length := by
      rw [← htake, List.length_take]
      omega
    rw [htake, Text.ofUtf8_utf8] at h
    refine ⟨s, subset_of_readStrings h (Finset.mem_insert_self _ _), fun hascii => ?_, by omega⟩
    -- the code units after the cut would be none
    have hsame := (Text.utf16Length_eq_iff s).mpr hascii
    rw [hbytes, hsplit, Text.utf16Length_append] at hsame
    obtain ⟨c, u, rfl⟩ := List.exists_cons_of_ne_nil hu
    have hpos : 0 < Text.utf16Size c := by
      rw [Text.utf16Size]
      split_ifs <;> omega
    rw [Text.utf16Length_cons] at hsame
    omega
  · rw [hdrop, List.cons_append] at h
    obtain ⟨e, he⟩ := readStrings_high hb (bytes ++ rest)
      (insert (Text.ofUtf8 malformed (v.utf8.take v.utf16Length)) result)
    rw [he] at h
    cases h

/-- **String sets.** A set of strings survives the store, in every order in which it is iterated,
exactly if all of them are ASCII. The length of a string is an `Int`. -/
theorem survives_iff (malformed : Bytes → Text) (strings : Finset Text)
    (hlength : ∀ v ∈ strings, v.utf16Length < 2 ^ 31) :
    Survives malformed strings ↔ ∀ v ∈ strings, v.IsAscii := by
  constructor
  · intro hsurvives
    by_contra hnot
    -- the shortest of the strings that are not ASCII, stored first
    have hne : (strings.filter fun v => ¬ v.IsAscii).Nonempty := by
      push Not at hnot
      obtain ⟨v, hv, hascii⟩ := hnot
      exact ⟨v, Finset.mem_filter.mpr ⟨hv, hascii⟩⟩
    obtain ⟨v, hv, hmin⟩ := Finset.exists_min_image _ (fun v => v.utf8.length) hne
    obtain ⟨hmem, hascii⟩ := Finset.mem_filter.mp hv
    have hnodup : (v :: (strings.erase v).toList).Nodup := by
      refine List.nodup_cons.mpr ⟨?_, Finset.nodup_toList _⟩
      rw [Finset.mem_toList]
      exact Finset.notMem_erase v strings
    have horder : (v :: (strings.erase v).toList).toFinset = strings := by
      rw [List.toFinset_cons, Finset.toList_toFinset, Finset.insert_erase hmem]
    obtain ⟨piece, hpiece, hpieceAscii, hshorter⟩ :=
      readStrings_nonascii hascii (hlength v hmem)
        (readStrings_of_stringSet (hsurvives _ hnodup horder))
    have hle := hmin piece (Finset.mem_filter.mpr ⟨hpiece, hpieceAscii⟩)
    omega
  · intro hascii order hnodup horder
    have hmem : ∀ v ∈ order, v ∈ strings := fun v hv => horder ▸ List.mem_toFinset.mpr hv
    have hread : readStrings malformed (order.flatMap putString ++ []) ∅ = _ :=
      readStrings_ascii (fun v hv => hascii v (hmem v hv)) (fun v hv => hlength v (hmem v hv)) [] ∅
    rw [List.append_nil, Finset.empty_union, readStrings, horder] at hread
    rw [stringSet_put, hread]
    rfl

/-- What `String` makes of a byte that is not UTF-8. -/
def replacement (_ : Bytes) : Text := ['\ufffd']

/-- The strings of the set that the test stores, and the empty one. -/
theorem survives_digits : Survives replacement {"0".toList, "1".toList, "2".toList, []} :=
  (survives_iff replacement _ (by decide)).mpr (by decide)

/-- One character that is not ASCII is enough to make the set unreadable. -/
theorem accent_unreadable :
    (put {} ["é".toList]).value = [0, 0, 0, 1, 0xc3, 0xa9] ∧
      stringSet replacement (put {} ["é".toList]) = .error .bufferUnderflow ∧
        ¬ Survives replacement {"é".toList} := by
  have hbytes : ["é".toList].flatMap putString = bigEndian 4 1 ++ [0xc3, 0xa9] := by decide
  have hread : stringSet replacement (put {} ["é".toList]) = .error .bufferUnderflow := by
    rw [stringSet_put, hbytes, readStrings_length (by decide) (by decide),
      readStrings_short (by decide) (by decide)]
    rfl
  refine ⟨by decide, hread, fun hsurvives => ?_⟩
  have hok := hsurvives ["é".toList] (by decide) (by decide)
  rw [hread] at hok
  cases hok

end KeyValuePair
