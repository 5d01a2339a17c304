import Mathlib.Data.List.DropRight
import Mathlib.Tactic.Common

/-!
# Texts

A text is the list of its characters. The module collects what line-oriented formats need:

* `lines` and `unlines`, with `lines_unlines` for lines without terminators;
* `splitFirst`, the split at the first occurrence of a character;
* `trimBy`, which drops the characters of a class at both ends, and `trimEndBy`, at the end only;
* `parseInt`, the signed decimal numbers of a machine word, with `parseInt_toDigits`.

Classes of characters that differ between platforms are parameters or definitions of their own.
-/

/-- A text, as the list of its characters. -/
abbrev Text := List Char

namespace Text

/-! ## Lines -/

/-- The characters that end a line. -/
def isTerminator (c : Char) : Bool := c = '\n' || c = '\r'

/-- The lines of a text. A line ends at `\n`, `\r` or `\r\n`; what follows the last terminator is
a line when it is not empty. -/
def lines : Text → List Text
  | [] => []
  | '\r' :: '\n' :: t => [] :: lines t
  | c :: t =>
    if isTerminator c then [] :: lines t
    else match lines t with
      | [] => [[c]]
      | l :: ls => (c :: l) :: ls

/-- The text with the given lines, each ended by `\n`. -/
def unlines (ls : List Text) : Text := ls.flatMap (· ++ ['\n'])

@[simp]
theorem unlines_nil : unlines [] = [] := rfl

@[simp]
theorem unlines_cons (l : Text) (ls : List Text) : unlines (l :: ls) = l ++ '\n' :: unlines ls := by
  simp [unlines]

theorem unlines_append (ls ms : List Text) : unlines (ls ++ ms) = unlines ls ++ unlines ms := by
  simp [unlines]

/-- A line holds no terminator. -/
def IsLine (l : Text) : Prop := ∀ c ∈ l, isTerminator c = false

instance (l : Text) : Decidable (IsLine l) :=
  List.decidableBAll (fun c => isTerminator c = false) l

@[simp]
theorem isLine_nil : IsLine [] := by simp [IsLine]

@[simp]
theorem isLine_cons {c : Char} {l : Text} :
    IsLine (c :: l) ↔ isTerminator c = false ∧ IsLine l := by
  simp [IsLine]

@[simp]
theorem isLine_append {l m : Text} : IsLine (l ++ m) ↔ IsLine l ∧ IsLine m := by
  simp only [IsLine, List.mem_append, or_imp, forall_and]

/-- One step of `lines` at a character that ends no line. -/
private theorem lines_cons_of_not_terminator {c : Char} (t : Text) (hc : isTerminator c = false) :
    lines (c :: t) = match lines t with
      | [] => [[c]]
      | l :: ls => (c :: l) :: ls := by
  -- the `\r\n` equation does not apply: its first character is a terminator
  have hr : c ≠ '\r' := by rintro rfl; exact absurd hc (by decide)
  rw [lines.eq_3 _ _ (fun _ h => absurd h hr)]
  simp [hc]

/-- The first line of a text is what stands before the first `\n`. -/
theorem lines_append_newline {l : Text} (t : Text) (hl : IsLine l) :
    lines (l ++ '\n' :: t) = l :: lines t := by
  induction l with
  | nil => simp [lines, isTerminator]
  | cons c l ih =>
    obtain ⟨hc, hl⟩ := isLine_cons.mp hl
    rw [List.cons_append, lines_cons_of_not_terminator _ hc, ih hl]

/-- Reading back lines that were written one by one. -/
theorem lines_unlines {ls : List Text} (h : ∀ l ∈ ls, IsLine l) : lines (unlines ls) = ls := by
  induction ls with
  | nil => rfl
  | cons l ls ih =>
    rw [unlines_cons, lines_append_newline _ (h l (by simp)), ih fun m hm => h m (by simp [hm])]

/-- What `lines` returns are lines. -/
theorem isLine_of_mem_lines {t l : Text} (h : l ∈ lines t) : IsLine l := by
  induction t using lines.induct generalizing l with
  | case1 => simp [lines] at h
  | case2 t ih =>
    simp only [lines, List.mem_cons] at h
    rcases h with rfl | h
    · exact isLine_nil
    · exact ih h
  | case3 c t hnot hc ih =>
    rw [lines.eq_3 _ _ hnot, if_pos hc, List.mem_cons] at h
    rcases h with rfl | h
    · exact isLine_nil
    · exact ih h
  | case4 c t hnot hc ht ih =>
    rw [lines.eq_3 _ _ hnot, if_neg hc, ht] at h
    simp only [List.mem_singleton] at h
    subst h
    simpa using hc
  | case5 c t hnot hc l₀ ls ht ih =>
    rw [lines.eq_3 _ _ hnot, if_neg hc, ht, List.mem_cons] at h
    rcases h with rfl | h
    · exact isLine_cons.mpr ⟨by simpa using hc, ih (by simp [ht])⟩
    · exact ih (by simp [ht, h])

/-! ## Letters -/

/-- A character that changes in upper case is a letter. -/
theorem toUpper_cases (c : Char) : c.isAlphanum = true ∨ c.toUpper = c := by
  by_cases hrange : c.val ≥ 'a'.val ∧ c.val ≤ 'z'.val
  · left
    have hlower : c.isLower = true :=
      Bool.and_eq_true_iff.mpr ⟨decide_eq_true hrange.1, decide_eq_true hrange.2⟩
    show ((c.isUpper || c.isLower) || c.isDigit) = true
    rw [hlower, Bool.or_true, Bool.true_or]
  · exact .inr (dif_neg hrange)

/-- A character that changes in lower case is a letter. -/
theorem toLower_cases (c : Char) : c.isAlphanum = true ∨ c.toLower = c := by
  by_cases hrange : c.val ≥ 'A'.val ∧ c.val ≤ 'Z'.val
  · left
    have hupper : c.isUpper = true := decide_eq_true hrange
    show ((c.isUpper || c.isLower) || c.isDigit) = true
    rw [hupper, Bool.true_or, Bool.true_or]
  · exact .inr (dif_neg hrange)

/-! ## Splitting at a character -/

/-- What stands before the first `c`, and what stands after it if there is one. -/
def splitFirst (c : Char) : Text → Text × Option Text
  | [] => ([], none)
  | x :: t =>
    if x = c then ([], some t)
    else ((x :: (splitFirst c t).1), (splitFirst c t).2)

@[simp]
theorem splitFirst_nil (c : Char) : splitFirst c [] = ([], none) := rfl

@[simp]
theorem splitFirst_cons_self (c : Char) (t : Text) : splitFirst c (c :: t) = ([], some t) :=
  if_pos rfl

theorem splitFirst_cons_of_ne {c x : Char} (h : x ≠ c) (t : Text) :
    splitFirst c (x :: t) = (x :: (splitFirst c t).1, (splitFirst c t).2) := if_neg h

theorem splitFirst_of_not_mem {c : Char} {t : Text} (h : c ∉ t) : splitFirst c t = (t, none) := by
  induction t with
  | nil => rfl
  | cons x t ih =>
    have hx : x ≠ c := fun hx => h (by simp [hx])
    have ht := ih fun hc => h (by simp [hc])
    rw [splitFirst_cons_of_ne hx, ht]

theorem splitFirst_append_cons {c : Char} {t : Text} (u : Text) (h : c ∉ t) :
    splitFirst c (t ++ c :: u) = (t, some u) := by
  induction t with
  | nil => exact splitFirst_cons_self c u
  | cons x t ih =>
    have hx : x ≠ c := fun hx => h (by simp [hx])
    have ht := ih fun hc => h (by simp [hc])
    rw [List.cons_append, splitFirst_cons_of_ne hx, ht]

/-- The first part holds no `c`. -/
theorem not_mem_splitFirst_fst (c : Char) (t : Text) : c ∉ (splitFirst c t).1 := by
  induction t with
  | nil => simp
  | cons x t ih =>
    by_cases hx : x = c
    · simp [hx]
    · simp [splitFirst_cons_of_ne hx, ih, Ne.symm hx]

/-- The two parts are the text again. -/
theorem splitFirst_eq (c : Char) (t : Text) :
    t = (splitFirst c t).1 ++ ((splitFirst c t).2.elim [] (c :: ·)) := by
  induction t with
  | nil => rfl
  | cons x t ih =>
    by_cases hx : x = c
    · simp [hx]
    · simpa [splitFirst_cons_of_ne hx] using ih

theorem splitFirst_fst_subset (c : Char) (t : Text) : (splitFirst c t).1 ⊆ t := by
  intro x hx
  rw [splitFirst_eq c t]
  exact List.mem_append_left _ hx

/-- What stands before and after the last `c`, if there is one. -/
def splitLast (c : Char) (t : Text) : Option (Text × Text) :=
  match splitFirst c t.reverse with
  | (after, some before) => some (before.reverse, after.reverse)
  | (_, none) => none

theorem splitLast_of_not_mem {c : Char} {t : Text} (h : c ∉ t) : splitLast c t = none := by
  rw [splitLast, splitFirst_of_not_mem (by simpa using h)]

theorem splitLast_append_cons {c : Char} (t : Text) {u : Text} (h : c ∉ u) :
    splitLast c (t ++ c :: u) = some (t, u) := by
  have hreverse : (t ++ c :: u).reverse = u.reverse ++ c :: t.reverse := by simp
  rw [splitLast, hreverse, splitFirst_append_cons _ (by simpa using h)]
  simp

/-- The parts between separators hold no separator. -/
theorem not_mem_of_mem_splitOn {c : Char} {t part : Text} (h : part ∈ t.splitOn c) : c ∉ part := by
  induction t generalizing part with
  | nil =>
    rw [List.splitOn_nil, List.mem_singleton] at h
    simp [h]
  | cons d t ih =>
    rw [List.splitOn_cons_eq_if_modifyHead] at h
    split at h
    · rcases List.mem_cons.mp h with rfl | h
      · simp
      · exact ih h
    next hd =>
      -- the first part grows by `d`, which is no separator
      obtain ⟨first, rest, hsplit⟩ := List.exists_cons_of_ne_nil (List.splitOn_ne_nil c t)
      rw [hsplit, List.modifyHead_cons] at h
      rcases List.mem_cons.mp h with rfl | h
      · intro hmem
        rcases List.mem_cons.mp hmem with rfl | hmem
        · simp at hd
        · exact ih (hsplit ▸ List.mem_cons_self) hmem
      · exact ih (hsplit ▸ List.mem_cons_of_mem _ h)

/-- The characters of joined texts are theirs and the separator. -/
theorem mem_intercalate {sep c : Char} {ls : List Text} (h : c ∈ [sep].intercalate ls) :
    c = sep ∨ ∃ l ∈ ls, c ∈ l := by
  induction ls with
  | nil => simp at h
  | cons l ls ih =>
    cases ls with
    | nil => exact Or.inr ⟨l, by simp, by simpa using h⟩
    | cons m ls =>
      rw [List.intercalate_cons_cons] at h
      simp only [List.mem_append, List.mem_singleton] at h
      rcases h with (h | h) | h
      · exact Or.inr ⟨l, by simp, h⟩
      · exact Or.inl h
      · rcases ih h with rfl | ⟨m', hm', hc⟩
        · exact Or.inl rfl
        · exact Or.inr ⟨m', by simp [hm'], hc⟩

/-- The characters of a text are the separators and those between them. -/
theorem mem_splitOn_cases {c : Char} {t : Text} (h : c ∈ t) (sep : Char) :
    c = sep ∨ ∃ part ∈ t.splitOn sep, c ∈ part := by
  have hjoined : c ∈ [sep].intercalate (t.splitOn sep) := by rwa [List.intercalate_splitOn]
  exact mem_intercalate hjoined

/-- A property of the characters of a text, checked one by one. -/
theorem forall_mem_of_all {P : Char → Prop} [DecidablePred P] {t : Text}
    (h : t.all (fun c => decide (P c)) = true) : ∀ c ∈ t, P c :=
  fun c hc => of_decide_eq_true (List.all_eq_true.mp h c hc)

theorem forall_mem_getLast?_of_all {P : Char → Prop} [DecidablePred P] {t : Text}
    (h : t.getLast?.all (fun c => decide (P c)) = true) : ∀ c ∈ t.getLast?, P c := by
  intro c hc
  rw [Option.mem_def.mp hc] at h
  exact of_decide_eq_true h

/-! ## Trimming -/

/-- The text without the characters of the class `p` at its two ends. -/
def trimBy (p : Char → Bool) (t : Text) : Text := (t.dropWhile p).rdropWhile p

theorem trimBy_subset (p : Char → Bool) (t : Text) : trimBy p t ⊆ t := by
  intro c hc
  have hpre : trimBy p t <+: t.dropWhile p := List.rdropWhile_prefix p _
  exact (List.dropWhile_sublist p).subset (hpre.subset hc)

/-- A trimmed text starts with no character of the class. -/
theorem head_trimBy {p : Char → Bool} {t : Text} {c : Char} (h : (trimBy p t).head? = some c) :
    p c = false := by
  obtain ⟨u, hu⟩ := List.rdropWhile_prefix p (l := t.dropWhile p)
  have hhead : (t.dropWhile p).head? = some c := by
    rw [← hu]
    cases htrim : (t.dropWhile p).rdropWhile p with
    | nil => simp [trimBy, htrim] at h
    | cons x s => simpa [trimBy, htrim] using h
  have := List.head?_dropWhile_not p t
  rw [hhead] at this
  simpa using this

/-- A text is trimmed exactly when neither end is in the class. -/
theorem trimBy_eq_self_iff {p : Char → Bool} {t : Text} :
    trimBy p t = t ↔
      (∀ c, t.head? = some c → p c = false) ∧ ∀ c, t.getLast? = some c → p c = false := by
  constructor
  · intro h
    refine ⟨fun c hc => head_trimBy (t := t) (by rwa [h]), fun c hc => ?_⟩
    have hne : (t.dropWhile p).rdropWhile p ≠ [] := by
      intro hnil
      have : t = [] := h.symm.trans hnil
      simp [this] at hc
    have hlast := List.rdropWhile_last_not p (t.dropWhile p) hne
    have hc' : ((t.dropWhile p).rdropWhile p).getLast? = some c := by
      rw [← trimBy, h, hc]
    rw [List.getLast?_eq_some_getLast hne, Option.some_inj] at hc'
    simpa [hc'] using hlast
  · rintro ⟨hhead, hlast⟩
    have hdrop : t.dropWhile p = t := by
      cases t with
      | nil => rfl
      | cons c t => simp [hhead c rfl]
    rw [trimBy, hdrop, List.rdropWhile_eq_self_iff]
    intro hne
    simpa using hlast _ (List.getLast?_eq_some_getLast hne)

/-- Trimming twice is trimming once. -/
@[simp]
theorem trimBy_trimBy (p : Char → Bool) (t : Text) : trimBy p (trimBy p t) = trimBy p t := by
  refine trimBy_eq_self_iff.mpr ⟨fun c hc => head_trimBy hc, fun c hc => ?_⟩
  have hne : (t.dropWhile p).rdropWhile p ≠ [] := by
    intro hnil
    simp [trimBy, hnil] at hc
  have hlast := List.rdropWhile_last_not p (t.dropWhile p) hne
  rw [trimBy, List.getLast?_eq_some_getLast hne, Option.some_inj] at hc
  simpa [hc] using hlast

/-- A text without characters of the class is trimmed. -/
theorem trimBy_of_forall_not {p : Char → Bool} {t : Text} (h : ∀ c ∈ t, p c = false) :
    trimBy p t = t :=
  trimBy_eq_self_iff.mpr
    ⟨fun c hc => h c (List.mem_of_mem_head? hc), fun c hc => h c (List.mem_of_mem_getLast? hc)⟩

/-- The text without the characters of the class `p` at its end. -/
def trimEndBy (p : Char → Bool) (t : Text) : Text := t.rdropWhile p

section TrimEnd

variable {p : Char → Bool}

theorem trimEndBy_concat_of_pos {c : Char} (hc : p c = true) (t : Text) :
    trimEndBy p (t ++ [c]) = trimEndBy p t := List.rdropWhile_concat_pos _ _ _ hc

theorem trimEndBy_concat_of_neg {c : Char} (hc : p c = false) (t : Text) :
    trimEndBy p (t ++ [c]) = t ++ [c] := List.rdropWhile_concat_neg _ _ _ (by simp [hc])

/-- Nothing is dropped exactly if the last character is not of the class. -/
theorem trimEndBy_eq_self_iff {t : Text} :
    trimEndBy p t = t ↔ ∀ c ∈ t.getLast?, p c = false := by
  rw [trimEndBy, List.rdropWhile_eq_self_iff]
  constructor
  · intro h c hc
    have hne : t ≠ [] := by
      rintro rfl
      cases hc
    rw [List.getLast?_eq_some_getLast hne, Option.mem_some_iff] at hc
    simpa [hc] using h hne
  · intro h hne
    simp [h _ (List.getLast?_eq_some_getLast hne)]

theorem trimEndBy_eq_nil_iff {t : Text} : trimEndBy p t = [] ↔ ∀ c ∈ t, p c = true :=
  List.rdropWhile_eq_nil_iff

theorem trimEndBy_prefix (p : Char → Bool) (t : Text) : trimEndBy p t <+: t :=
  List.rdropWhile_prefix _ _

/-- What is dropped is of the class. -/
theorem trimEndBy_append (p : Char → Bool) (t : Text) :
    ∃ dropped, t = trimEndBy p t ++ dropped ∧ ∀ c ∈ dropped, p c = true :=
  ⟨t.rtakeWhile p, List.rdropWhile_append_rtakeWhile.symm,
    fun _ hc => List.mem_rtakeWhile_imp hc⟩

end TrimEnd

/-! ## Decimal numbers -/

/-- Where the blocks of ten decimal digits of the basic multilingual plane start. -/
def digitBlocks : List ℕ :=
  [0x0030, 0x0660, 0x06F0, 0x07C0, 0x0966, 0x09E6, 0x0A66, 0x0AE6, 0x0B66, 0x0BE6, 0x0C66, 0x0CE6,
    0x0D66, 0x0DE6, 0x0E50, 0x0ED0, 0x0F20, 0x1040, 0x1090, 0x17E0, 0x1810, 0x1946, 0x19D0, 0x1A80,
    0x1A90, 0x1B50, 0x1BB0, 0x1C40, 0x1C50, 0xA620, 0xA8D0, 0xA900, 0xA9D0, 0xA9F0, 0xAA50, 0xABF0,
    0xFF10]

/-- The value of a decimal digit of any script. -/
def digit (c : Char) : Option ℕ :=
  (digitBlocks.find? fun b => decide (b ≤ c.toNat ∧ c.toNat < b + 10)).map (c.toNat - ·)

/-- The value of a sequence of digits that follows the digits of `n`. -/
def parseDigits : Text → ℕ → Option ℕ
  | [], n => some n
  | c :: t, n => (digit c).bind fun d => parseDigits t (10 * n + d)

/-- A decimal number with an optional sign. -/
def parseSigned : Text → Option ℤ
  | [] => none
  | '-' :: t => if t = [] then none else Option.map (fun n : ℕ => -(n : ℤ)) (parseDigits t 0)
  | '+' :: t => if t = [] then none else Option.map (fun n : ℕ => (n : ℤ)) (parseDigits t 0)
  | t => Option.map (fun n : ℕ => (n : ℤ)) (parseDigits t 0)

/-- A decimal number with an optional sign, as a signed 32-bit integer. -/
def parseInt (t : Text) : Option ℤ :=
  (parseSigned t).filter fun n => decide (-2147483648 ≤ n ∧ n ≤ 2147483647)

/-- The digits `0` to `9` have their own value. -/
theorem digit_of_isDigit {c : Char} (h : c.isDigit = true) : digit c = some (c.toNat - 48) := by
  have hc : 48 ≤ c.toNat ∧ c.toNat < 48 + 10 := by
    have := Char.isDigit_iff_toNat.mp h
    simp only [Char.reduceToNat] at this
    omega
  simp [digit, digitBlocks, hc]

theorem parseDigits_of_isDigit {t : Text} (h : ∀ c ∈ t, c.isDigit = true) (n : ℕ) :
    parseDigits t n = some (Nat.ofDigitChars 10 t n) := by
  induction t generalizing n with
  | nil => simp [parseDigits]
  | cons c t ih =>
    rw [parseDigits, digit_of_isDigit (h c (by simp)), Option.bind_some,
      ih fun d hd => h d (by simp [hd]), Nat.ofDigitChars_cons]
    rfl

theorem parseSigned_of_isDigit {t : Text} (hne : t ≠ []) (h : ∀ c ∈ t, c.isDigit = true) :
    parseSigned t = some (Nat.ofDigitChars 10 t 0 : ℤ) := by
  obtain ⟨c, u, rfl⟩ := List.exists_cons_of_ne_nil hne
  have hdigit := h c (by simp)
  have hminus : c ≠ '-' := by rintro rfl; exact absurd hdigit (by decide)
  have hplus : c ≠ '+' := by rintro rfl; exact absurd hdigit (by decide)
  unfold parseSigned
  split
  · contradiction
  · next heq => exact absurd (List.cons.inj heq).1 hminus
  · next heq => exact absurd (List.cons.inj heq).1 hplus
  · rw [parseDigits_of_isDigit h 0, Option.map_some]

/-- A sequence of digits `0` to `9` is its decimal value, when it fits. -/
theorem parseInt_of_isDigit {t : Text} (hne : t ≠ []) (h : ∀ c ∈ t, c.isDigit = true)
    (hle : Nat.ofDigitChars 10 t 0 ≤ 2147483647) :
    parseInt t = some (Nat.ofDigitChars 10 t 0 : ℤ) := by
  simp only [parseInt, parseSigned_of_isDigit hne h, Option.filter_some, ite_eq_left_iff,
    decide_eq_true_eq]
  omega

theorem parseInt_eq_of_isDigit {t : Text} (hne : t ≠ []) (h : ∀ c ∈ t, c.isDigit = true) {k : ℤ}
    (hk : parseInt t = some k) : k = Nat.ofDigitChars 10 t 0 := by
  rw [parseInt, parseSigned_of_isDigit hne h] at hk
  exact (Option.some_inj.mp (Option.eq_some_of_filter_eq_some hk)).symm

/-- Reading back a number that was printed in decimal. -/
theorem parseInt_toDigits {n : ℕ} (h : n ≤ 2147483647) :
    parseInt (Nat.toDigits 10 n) = some (n : ℤ) := by
  have hvalue : Nat.ofDigitChars 10 (Nat.toDigits 10 n) 0 = n := Nat.ofDigitChars_ten_toDigits
  have hdigits : ∀ c ∈ Nat.toDigits 10 n, c.isDigit = true := fun c hc =>
    Nat.isDigit_of_mem_toDigits (by decide) (by decide) hc
  rw [parseInt_of_isDigit Nat.toDigits_ne_nil hdigits (by rwa [hvalue]), hvalue]

/-- Reading back an integer that was printed in decimal. -/
theorem parseSigned_toString (n : ℤ) : parseSigned (toString n).toList = some n := by
  have hdigits : ∀ m, ∀ c ∈ Nat.toDigits 10 m, c.isDigit = true := fun m c hc =>
    Nat.isDigit_of_mem_toDigits (by decide) (by decide) hc
  cases n with
  | ofNat n =>
    rw [show (toString (Int.ofNat n)).toList = Nat.toDigits 10 n from Nat.toList_repr,
      parseSigned_of_isDigit Nat.toDigits_ne_nil (hdigits n), Nat.ofDigitChars_ten_toDigits]
    rfl
  | negSucc n =>
    have htext : (toString (Int.negSucc n)).toList = '-' :: Nat.toDigits 10 (n + 1) := by
      show ("-" ++ Nat.repr (n + 1)).toList = _
      rw [String.toList_append, Nat.toList_repr]
      rfl
    rw [htext, parseSigned, if_neg Nat.toDigits_ne_nil, parseDigits_of_isDigit (hdigits _),
      Nat.ofDigitChars_ten_toDigits]
    rfl

theorem ofDigitChars_lt {t : Text} (h : ∀ c ∈ t, c.isDigit = true) (n : ℕ) :
    Nat.ofDigitChars 10 t n < (n + 1) * Nat.pow 10 t.length := by
  induction t generalizing n with
  | nil => simp
  | cons c t ih =>
    have hc := Char.isDigit_iff_toNat.mp (h c (by simp))
    simp only [Char.reduceToNat] at hc
    have hrest := ih (fun d hd => h d (by simp [hd])) (10 * n + (c.toNat - 48))
    have hpower : Nat.pow 10 (c :: t).length = Nat.pow 10 t.length * 10 := rfl
    rw [Nat.ofDigitChars_cons, hpower]
    calc Nat.ofDigitChars 10 t (10 * n + (c.toNat - 48))
        < (10 * n + (c.toNat - 48) + 1) * Nat.pow 10 t.length := hrest
      _ ≤ (10 * (n + 1)) * Nat.pow 10 t.length := Nat.mul_le_mul_right _ (by omega)
      _ = (n + 1) * (Nat.pow 10 t.length * 10) := by
        rw [Nat.mul_comm 10, Nat.mul_assoc, Nat.mul_comm 10]

/-- The printed number is not longer than any sequence of digits that is read as the number. -/
theorem length_toDigits_le {t : Text} (hne : t ≠ []) (h : ∀ c ∈ t, c.isDigit = true) {n : ℕ}
    (hn : parseInt t = some (n : ℤ)) : (Nat.toDigits 10 n).length ≤ t.length := by
  have hvalue : n = Nat.ofDigitChars 10 t 0 := by exact_mod_cast parseInt_eq_of_isDigit hne h hn
  have hlt := ofDigitChars_lt h 0
  rw [Nat.zero_add, Nat.one_mul, ← hvalue] at hlt
  exact (Nat.length_toDigits_le_iff (by decide) (List.length_pos_iff.mpr hne)).mpr hlt

example : parseInt "+٣2".toList = some 32 := by decide

end Text
