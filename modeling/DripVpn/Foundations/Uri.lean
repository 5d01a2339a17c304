import DripVpn.Foundations.Utf8

/-!
# Addresses

The parts of an address `scheme://authority/path?query#fragment`, given by what follows
`scheme://`. The text is cut at the delimiters, and a part is decoded when it is asked for: nothing
is an error. `decode_encode` says that what is encoded is decoded again, and `authority_build`,
`encodedQuery_build` and `encodedFragment_build` that an address has the parts it is built from.
-/

namespace Uri

/-! ## Escapes -/

/-- The characters that stand for themselves. -/
def isUnreserved (c : Char) : Bool := c.isAlphanum || "_-!.~'()*".toList.contains c

/-- The digit of a number below 16. -/
def hexDigit (n : ℕ) : Char := "0123456789ABCDEF".toList.getD n '0'

/-- The value of a hexadecimal digit. -/
def hexValue (c : Char) : Option ℕ :=
  if "0123456789ABCDEF".toList.contains c.toUpper then
    some ("0123456789ABCDEF".toList.idxOf c.toUpper)
  else none

/-- The escape of a byte. -/
def escapeByte (b : UInt8) : Text := ['%', hexDigit (b.toNat / 16), hexDigit (b.toNat % 16)]

/-- The text with all other characters escaped. -/
def encode (t : Text) : Text :=
  t.flatMap fun c =>
    if isUnreserved c then [c] else (String.utf8EncodeChar c).flatMap escapeByte

/-- Every `%` is followed by two hexadecimal digits, and every other character is allowed. -/
def isLegal (allowed : Char → Bool) : Text → Bool
  | [] => true
  | c :: t =>
    if c = '%' then
      match t with
      | a :: b :: t => (hexValue a).isSome && (hexValue b).isSome && isLegal allowed t
      | _ => false
    else allowed c && isLegal allowed t

/-- The byte of an escape. -/
def escapedByte (a b : Char) : UInt8 := UInt8.ofNat ((hexValue a).getD 0 * 16 + (hexValue b).getD 0)

section Decode

variable (malformed : Bytes → Text)

/-- The text whose escapes are resolved; `bytes` are those of the escapes just before. -/
def decodeFrom (convertPlus : Bool) : Bytes → Text → Text
  | bytes, [] => Text.ofUtf8 malformed bytes
  | bytes, c :: t =>
    if c = '%' then
      match t with
      | a :: b :: t => decodeFrom convertPlus (bytes ++ [escapedByte a b]) t
      | _ => Text.ofUtf8 malformed bytes
    else
      -- the bytes of a run of escapes are decoded together
      Text.ofUtf8 malformed bytes ++
        (if convertPlus && c = '+' then ' ' else c) :: decodeFrom convertPlus [] t

/-- The text of an encoded part; `broken` is what becomes of a text with an incomplete escape. -/
def decode (broken : Text → Text) (convertPlus : Bool) (t : Text) : Text :=
  if isLegal (fun _ => true) t then decodeFrom malformed convertPlus [] t else broken t

end Decode

theorem hexValue_hexDigit {n : ℕ} (h : n < 16) : hexValue (hexDigit n) = some n := by
  have hall : ∀ n < 16, hexValue (hexDigit n) = some n := by decide
  exact hall n h

theorem hexValue_high (b : UInt8) : hexValue (hexDigit (b.toNat / 16)) = some (b.toNat / 16) := by
  have hb := b.toNat_lt
  exact hexValue_hexDigit (by omega)

theorem hexValue_low (b : UInt8) : hexValue (hexDigit (b.toNat % 16)) = some (b.toNat % 16) :=
  hexValue_hexDigit (Nat.mod_lt _ (by decide))

theorem escapedByte_hexDigit (b : UInt8) :
    escapedByte (hexDigit (b.toNat / 16)) (hexDigit (b.toNat % 16)) = b := by
  rw [escapedByte, hexValue_high, hexValue_low, Option.getD_some, Option.getD_some,
    Nat.div_add_mod' b.toNat 16, UInt8.ofNat_toNat]

theorem encode_cons (c : Char) (t : Text) :
    encode (c :: t) = (if isUnreserved c then [c]
      else (String.utf8EncodeChar c).flatMap escapeByte) ++ encode t :=
  List.flatMap_cons

theorem encode_append (t u : Text) : encode (t ++ u) = encode t ++ encode u :=
  List.flatMap_append

theorem ne_of_isUnreserved {c d : Char} (h : isUnreserved c = true) (hd : isUnreserved d = false) :
    c ≠ d := by
  rintro rfl
  rw [h] at hd
  cases hd

theorem isUnreserved_hexDigit {n : ℕ} (h : n < 16) : isUnreserved (hexDigit n) = true := by
  have hall : ∀ n < 16, isUnreserved (hexDigit n) = true := by decide
  exact hall n h

theorem mem_escapeByte {b : UInt8} {c : Char} (h : c ∈ escapeByte b) :
    isUnreserved c = true ∨ c = '%' := by
  have hb := b.toNat_lt
  rw [escapeByte, List.mem_cons, List.mem_cons, List.mem_singleton] at h
  rcases h with rfl | rfl | rfl
  · exact Or.inr rfl
  · exact Or.inl (isUnreserved_hexDigit (by omega))
  · exact Or.inl (isUnreserved_hexDigit (by omega))

/-- The characters of an encoded text. -/
theorem mem_encode {t : Text} {c : Char} (h : c ∈ encode t) : isUnreserved c = true ∨ c = '%' := by
  obtain ⟨d, -, hd⟩ := List.mem_flatMap.mp h
  split at hd
  · next hunreserved =>
    rw [List.mem_singleton.mp hd]
    exact Or.inl hunreserved
  · obtain ⟨b, -, hb⟩ := List.mem_flatMap.mp hd
    exact mem_escapeByte hb

theorem notMem_encode {c : Char} (hc : isUnreserved c = false) (hpercent : c ≠ '%') (t : Text) :
    c ∉ encode t := by
  intro hmem
  rcases mem_encode hmem with h | h
  · rw [h] at hc
    cases hc
  · exact hpercent h

/-- A character that stands for itself. -/
theorem isLegal_cons {allowed : Char → Bool} {c : Char} (hc : c ≠ '%') (t : Text) :
    isLegal allowed (c :: t) = (allowed c && isLegal allowed t) := by
  rw [isLegal.eq_def]
  simp only [if_neg hc]

theorem isLegal_escape (allowed : Char → Bool) (a b : Char) (t : Text) :
    isLegal allowed ('%' :: a :: b :: t) =
      ((hexValue a).isSome && (hexValue b).isSome && isLegal allowed t) := by
  rw [isLegal.eq_def]
  simp only [if_true]

theorem decodeFrom_cons (malformed : Bytes → Text) (convertPlus : Bool) (bytes : Bytes) {c : Char}
    (hc : c ≠ '%') (t : Text) :
    decodeFrom malformed convertPlus bytes (c :: t) =
      Text.ofUtf8 malformed bytes ++
        (if convertPlus && c = '+' then ' ' else c) :: decodeFrom malformed convertPlus [] t := by
  rw [decodeFrom.eq_def]
  simp only [if_neg hc]

theorem decodeFrom_escape (malformed : Bytes → Text) (convertPlus : Bool) (bytes : Bytes)
    (a b : Char) (t : Text) :
    decodeFrom malformed convertPlus bytes ('%' :: a :: b :: t) =
      decodeFrom malformed convertPlus (bytes ++ [escapedByte a b]) t := by
  rw [decodeFrom.eq_def]
  simp only [if_true]

/-- The bytes of escapes are collected. -/
theorem decodeFrom_escapes (malformed : Bytes → Text) (convertPlus : Bool) (bytes bs : Bytes)
    (t : Text) :
    decodeFrom malformed convertPlus bytes (bs.flatMap escapeByte ++ t) =
      decodeFrom malformed convertPlus (bytes ++ bs) t := by
  induction bs generalizing bytes with
  | nil => simp
  | cons b bs ih =>
    rw [List.flatMap_cons, escapeByte, List.append_assoc]
    simp only [List.cons_append, List.nil_append]
    rw [decodeFrom_escape, escapedByte_hexDigit, ih, List.append_assoc]
    rfl

theorem decodeFrom_encode (malformed : Bytes → Text) (convertPlus : Bool) (s t : Text) :
    decodeFrom malformed convertPlus (Text.utf8 s) (encode t) = s ++ t := by
  induction t generalizing s with
  | nil =>
    show decodeFrom malformed convertPlus (Text.utf8 s) [] = _
    rw [decodeFrom, Text.ofUtf8_utf8, List.append_nil]
  | cons c t ih =>
    rw [encode_cons]
    by_cases hc : isUnreserved c = true
    · have hpercent : c ≠ '%' := ne_of_isUnreserved hc (by decide)
      have hplus : c ≠ '+' := ne_of_isUnreserved hc (by decide)
      have hrest := ih []
      rw [if_pos hc, List.cons_append, List.nil_append, decodeFrom_cons _ _ _ hpercent,
        Text.ofUtf8_utf8]
      simp only [hplus, decide_false, Bool.and_false, Bool.false_eq_true, if_false]
      exact congrArg (fun u => s ++ c :: u) hrest
    · have hbytes : Text.utf8 s ++ String.utf8EncodeChar c = Text.utf8 (s ++ [c]) := by
        rw [Text.utf8_append]
        simp [Text.utf8]
      rw [if_neg hc, decodeFrom_escapes, hbytes, ih, List.append_assoc]
      rfl

/-- What is escaped is legal wherever the characters that stand for themselves are. -/
theorem isLegal_escapes (allowed : Char → Bool) (bs : Bytes) (t : Text) :
    isLegal allowed (bs.flatMap escapeByte ++ t) = isLegal allowed t := by
  induction bs with
  | nil => rfl
  | cons b bs ih =>
    rw [List.flatMap_cons, escapeByte, List.append_assoc]
    simp only [List.cons_append, List.nil_append]
    rw [isLegal_escape, hexValue_high, hexValue_low, ih]
    rfl

theorem isLegal_encode_append {allowed : Char → Bool}
    (h : ∀ c, isUnreserved c = true → allowed c = true) (t u : Text) :
    isLegal allowed (encode t ++ u) = isLegal allowed u := by
  induction t with
  | nil => rfl
  | cons c t ih =>
    rw [encode_cons, List.append_assoc]
    by_cases hc : isUnreserved c = true
    · rw [if_pos hc, List.cons_append, List.nil_append,
        isLegal_cons (ne_of_isUnreserved hc (by decide)), h c hc, Bool.true_and, ih]
    · rw [if_neg hc, isLegal_escapes, ih]

theorem isLegal_encode {allowed : Char → Bool}
    (h : ∀ c, isUnreserved c = true → allowed c = true) (t : Text) :
    isLegal allowed (encode t) = true := by
  have hlegal := isLegal_encode_append h t []
  rwa [List.append_nil] at hlegal

/-- A text without escapes is legal if its characters are. -/
theorem isLegal_of_forall {allowed : Char → Bool} {t : Text} (hpercent : '%' ∉ t)
    (h : ∀ c ∈ t, allowed c = true) : isLegal allowed t = true := by
  induction t with
  | nil => rfl
  | cons c t ih =>
    rw [List.mem_cons, not_or] at hpercent
    rw [isLegal_cons fun heq => hpercent.1 heq.symm, h c List.mem_cons_self, Bool.true_and]
    exact ih hpercent.2 fun d hd => h d (List.mem_cons_of_mem c hd)

section Decode

variable (malformed : Bytes → Text) (broken : Text → Text)

theorem decode_encode (convertPlus : Bool) (t : Text) :
    decode malformed broken convertPlus (encode t) = t := by
  rw [decode, if_pos (isLegal_encode (fun _ _ => rfl) t)]
  exact decodeFrom_encode malformed convertPlus [] t

/-- A text without escapes is decoded as it is. -/
theorem decode_of_percent_notMem {t : Text} (h : '%' ∉ t) :
    decode malformed broken false t = t := by
  have hfrom : ∀ {t : Text}, '%' ∉ t → decodeFrom malformed false [] t = t := by
    intro t ht
    induction t with
    | nil => exact Text.ofUtf8_utf8 malformed []
    | cons c t ih =>
      rw [List.mem_cons, not_or] at ht
      have hempty : Text.ofUtf8 malformed [] = [] := Text.ofUtf8_utf8 malformed []
      rw [decodeFrom_cons _ _ _ fun heq => ht.1 heq.symm, hempty, ih ht.2]
      rfl
  rw [decode, if_pos (isLegal_of_forall h fun _ _ => rfl), hfrom h]

end Decode

/-! ## Parts -/

/-- The characters that end an authority. -/
def isDelimiter (c : Char) : Bool := "/\\?#".toList.contains c

/-- The authority of an address. -/
def authority (t : Text) : Text := t.takeWhile fun c => !isDelimiter c

/-- The fragment of an address, encoded. -/
def encodedFragment (t : Text) : Option Text := (Text.splitFirst '#' t).2

/-- The query of an address, encoded. -/
def encodedQuery (t : Text) : Option Text := (Text.splitFirst '?' (Text.splitFirst '#' t).1).2

/-- What stands before the last `@` of an authority. -/
def encodedUserInfo (t : Text) : Option Text := (Text.splitLast '@' (authority t)).map Prod.fst

/-- What stands after the last `@` of an authority. -/
def hostPort (t : Text) : Text :=
  match Text.splitLast '@' (authority t) with
  | some (_, hostPort) => hostPort
  | none => authority t

/-- The host of an address, encoded: a port is digits after a colon. -/
def encodedHost (t : Text) : Text :=
  match (hostPort t).rdropWhile Char.isDigit |>.getLast? with
  | some ':' => ((hostPort t).rdropWhile Char.isDigit).dropLast
  | _ => hostPort t

/-- The value of a parameter of the query. A parameter without a value is empty. -/
def queryParameter (decodeValue : Text → Text) (key t : Text) : Option Text :=
  (encodedQuery t).bind fun query =>
    (query.splitOn '&').findSome? fun parameter =>
      if (Text.splitFirst '=' parameter).1 = encode key then
        some ((Text.splitFirst '=' parameter).2.elim [] decodeValue)
      else none

/-- The address with the given parts. -/
def build (authority : Text) (query fragment : Option Text) : Text :=
  authority ++ (query.elim [] ('?' :: ·) ++ fragment.elim [] ('#' :: ·))

section Build

variable {auth : Text} {query fragment : Option Text}

/-- What follows the authority starts with a delimiter. -/
theorem head_build (query fragment : Option Text) {p : Char → Bool} (hquery : p '?' = false)
    (hfragment : p '#' = false) :
    ∀ c ∈ (query.elim [] ('?' :: ·) ++ fragment.elim [] ('#' :: ·) : Text).head?, p c = false := by
  intro c hc
  cases query with
  | some q =>
    cases hc
    exact hquery
  | none =>
    cases fragment with
    | some f =>
      cases hc
      exact hfragment
    | none => cases hc

theorem takeWhile_build {p : Char → Bool} (hauth : ∀ c ∈ auth, p c = true)
    (hquery : p '?' = false) (hfragment : p '#' = false) :
    (build auth query fragment).takeWhile p = auth := by
  have hhead := head_build query fragment hquery hfragment
  rw [build, List.takeWhile_append_of_pos hauth]
  cases hrest : (query.elim [] ('?' :: ·) ++ fragment.elim [] ('#' :: ·) : Text) with
  | nil => simp
  | cons c t =>
    rw [hrest] at hhead
    simp [hhead c rfl]

theorem dropWhile_build {p : Char → Bool} (hauth : ∀ c ∈ auth, p c = true)
    (hquery : p '?' = false) (hfragment : p '#' = false) :
    (build auth query fragment).dropWhile p =
      query.elim [] ('?' :: ·) ++ fragment.elim [] ('#' :: ·) := by
  have hsplit := List.takeWhile_append_dropWhile (p := p) (l := build auth query fragment)
  rw [takeWhile_build hauth hquery hfragment] at hsplit
  exact List.append_cancel_left hsplit

theorem authority_build (h : ∀ c ∈ auth, isDelimiter c = false) :
    authority (build auth query fragment) = auth := by
  refine takeWhile_build (fun c hc => ?_) (by decide) (by decide)
  simp [h c hc]

/-- The address without its fragment, and its fragment. -/
theorem splitFirst_build (hauth : '#' ∉ auth) (hquery : ∀ q ∈ query, '#' ∉ q) :
    Text.splitFirst '#' (build auth query fragment) =
      (auth ++ query.elim [] ('?' :: ·), fragment) := by
  have hbefore : '#' ∉ auth ++ query.elim [] ('?' :: ·) := by
    cases query with
    | none => simpa using hauth
    | some q => simpa using ⟨hauth, hquery q rfl⟩
  rw [build, ← List.append_assoc]
  cases fragment with
  | none => simpa using Text.splitFirst_of_not_mem hbefore
  | some f => exact Text.splitFirst_append_cons f hbefore

theorem encodedFragment_build (hauth : '#' ∉ auth) (hquery : ∀ q ∈ query, '#' ∉ q) :
    encodedFragment (build auth query fragment) = fragment := by
  rw [encodedFragment, splitFirst_build hauth hquery]

theorem encodedQuery_build (hauth : ∀ c ∈ auth, isDelimiter c = false)
    (hquery : ∀ q ∈ query, '#' ∉ q) : encodedQuery (build auth query fragment) = query := by
  have hnotMem : ∀ d, isDelimiter d = true → d ∉ auth := by
    intro d hd hmem
    rw [hauth d hmem] at hd
    cases hd
  rw [encodedQuery, splitFirst_build (hnotMem '#' (by decide)) hquery]
  cases query with
  | none => simp [Text.splitFirst_of_not_mem (hnotMem '?' (by decide))]
  | some q => simp [Text.splitFirst_append_cons q (hnotMem '?' (by decide))]

end Build

end Uri
