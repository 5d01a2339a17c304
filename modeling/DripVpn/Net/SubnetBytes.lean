import DripVpn.Net.Subnet

/-!
# Subnets, byte by byte

The methods of `Subnet.kt` that walk over the bytes of an address: `compareTo`, `toImmutable` and
`Immutable.matches`. A Kotlin `Byte` is signed; it is modelled by its eight bits, and `toInt`
extends the sign as the conversion of the source does.

`compareToBytes_lawful` says that the comparison is the total order that the sorted list of
subnets needs, and `toImmutable_matches` that a subnet matches exactly the addresses with its
prefix.
-/

open Reactive

/-! ## Bytes -/

namespace ByteArithmetic

/-- `Byte.toInt()`. -/
def toInt (b : UInt8) : Int32 := b.toInt8.toInt32

/-- `Int.toByte()`. -/
def toByte (n : Int32) : UInt8 := n.toInt8.toUInt8

/-- `Byte.unsigned()`. -/
def unsigned (b : UInt8) : Int32 := toInt b &&& 0xFF

/-- `(b.toInt() and -(1 shl shift)).toByte()`. -/
def mask (b : UInt8) (shift : ℤ) : UInt8 :=
  toByte (toInt b &&& -((1 : Int32) <<< Int32.ofInt shift))

/-- The mask `0xFF` cuts off what the sign extension added. -/
theorem toBitVec_unsigned (b : UInt8) : (unsigned b).toBitVec = b.toBitVec.setWidth 32 := by
  have hmask : ∀ j < 32, (255#32).getLsbD j = decide (j < 8) := by decide
  show b.toBitVec.signExtend 32 &&& 255#32 = _
  apply BitVec.eq_of_getLsbD_eq
  intro j hj
  rw [BitVec.getLsbD_and, BitVec.getLsbD_signExtend, hmask j hj, BitVec.getLsbD_setWidth]
  by_cases h : j < 8
  · simp [h, hj]
  · simp [h, BitVec.getLsbD_of_ge _ _ (Nat.le_of_not_lt h)]

theorem toInt_unsigned (b : UInt8) : (unsigned b).toInt = b.toNat := by
  have hlt := b.toNat_lt
  rw [Int32.toInt, toBitVec_unsigned, BitVec.toInt_setWidth, UInt8.toNat_toBitVec, Int.bmod_def]
  omega

theorem compare_unsigned (a b : UInt8) :
    compare (unsigned a) (unsigned b) = compare a.toNat b.toNat := by
  have hlt : unsigned a < unsigned b ↔ a.toNat < b.toNat := by
    rw [Int32.lt_iff_toInt_lt, toInt_unsigned, toInt_unsigned, Int.ofNat_lt]
  have heq : unsigned a = unsigned b ↔ a.toNat = b.toNat := by
    rw [← Int32.toInt_inj, toInt_unsigned, toInt_unsigned, Int.ofNat_inj]
  show compareOfLessAndEq _ _ = compareOfLessAndEq _ _
  simp only [compareOfLessAndEq, hlt, heq]

/-- The mask keeps the bits from `shift` on. -/
theorem getLsbD_mask (b : UInt8) {shift j : ℕ} (hpos : 0 < shift) (hshift : shift < 8)
    (hj : j < 8) :
    (mask b shift).toBitVec.getLsbD j = (decide (shift ≤ j) && b.toBitVec.getLsbD j) := by
  have hmask : ∀ shift < 8, 0 < shift → ∀ j < 8,
      (-((1 : Int32) <<< Int32.ofInt (shift : ℕ))).toBitVec.getLsbD j = decide (shift ≤ j) := by
    decide
  show ((b.toBitVec.signExtend 32 &&&
    (-((1 : Int32) <<< Int32.ofInt shift)).toBitVec).signExtend 8).getLsbD j = _
  rw [BitVec.signExtend_eq_setWidth_of_le _ (by decide), BitVec.getLsbD_setWidth,
    BitVec.getLsbD_and, BitVec.getLsbD_signExtend, hmask shift hshift hpos j hj]
  simp [hj, Nat.lt_trans hj (by decide : 8 < 32), Bool.and_comm]

/-- Masked bytes are equal exactly if the bytes have the same leading bits. -/
theorem mask_eq_mask_iff (b b' : UInt8) {count : ℕ} (hpos : 0 < count) (hcount : count < 8) :
    mask b (8 - count : ℕ) = mask b' (8 - count : ℕ) ↔
      ∀ i < count, b.toBitVec.getMsbD i = b'.toBitVec.getMsbD i := by
  have hbits : ∀ j < 8, ∀ x : UInt8, (mask x (8 - count : ℕ)).toBitVec.getLsbD j =
      (decide (8 - count ≤ j) && x.toBitVec.getLsbD j) :=
    fun j hj x => getLsbD_mask x (by omega) (by omega) hj
  constructor
  · intro h i hi
    have hbit := congrArg (fun x : UInt8 => x.toBitVec.getLsbD (7 - i)) h
    simp only [hbits (7 - i) (by omega), decide_eq_true (by omega : 8 - count ≤ 7 - i),
      Bool.true_and] at hbit
    simpa [BitVec.getMsbD, hi, Nat.lt_trans hi hcount] using hbit
  · intro h
    apply UInt8.toBitVec_inj.mp
    apply BitVec.eq_of_getLsbD_eq
    intro j hj
    rw [hbits j hj, hbits j hj]
    by_cases hle : 8 - count ≤ j
    · have hbit := h (7 - j) (by omega)
      have hback : 7 - (7 - j) = j := by omega
      simpa [BitVec.getMsbD, hback, hle, show 7 - j < 8 by omega] using hbit
    · simp [hle]

/-- Bit `n` of some bytes, the most significant bit of the first byte being bit 0. -/
def bit (bytes : List UInt8) (n : ℕ) : Bool := (bytes.getD (n / 8) 0).toBitVec.getMsbD (n % 8)

theorem bit_of_getElem? {bytes : List UInt8} {i : ℕ} {b : UInt8} (h : bytes[i]? = some b) {j : ℕ}
    (hj : j < 8) : bit bytes (i * 8 + j) = b.toBitVec.getMsbD j := by
  have hdiv : (i * 8 + j) / 8 = i := by omega
  have hmod : (i * 8 + j) % 8 = j := by omega
  rw [bit, hdiv, hmod, List.getD_eq_getElem?_getD, h, Option.getD_some]

/-- Bytes are equal exactly if their bits are. -/
theorem eq_iff_getMsbD {b b' : UInt8} :
    b = b' ↔ ∀ j < 8, b.toBitVec.getMsbD j = b'.toBitVec.getMsbD j := by
  constructor
  · rintro rfl j _
    rfl
  · intro h
    apply UInt8.toBitVec_inj.mp
    exact BitVec.eq_of_getMsbD_eq fun j hj => h j hj

end ByteArithmetic

namespace Subnet

open ByteArithmetic

/-! ## The order -/

/-- The loop of `compareTo`, over arrays of one size. -/
def compareBytes : List UInt8 → List UInt8 → Ordering
  | a :: as, b :: bs =>
    match compare (unsigned a) (unsigned b) with
    | .eq => compareBytes as bs
    | result => result
  | _, _ => .eq

/-- `compareTo`, as the source computes it. `Subnet.compareTo` is the order it stands for. -/
def compareToBytes (s other : Subnet) : Ordering :=
  match compare s.address.size other.address.size with
  | .eq => match compareBytes s.address.address other.address.address with
    | .eq => compare s.prefixSize other.prefixSize
    | result => result
  | result => result

/-- `equals`. What is no `Subnet` is `none`. -/
def equals (s : Subnet) (other : Option Subnet) : Bool :=
  match other with
  | some that => decide (s.address = that.address) && decide (s.prefixSize = that.prefixSize)
  | none => false

/-- `hashCode`, given the one of addresses: `Objects.hash(address, prefixSize)`. -/
def hashCode (addressHash : InetAddress → Int32) (s : Subnet) : Int32 :=
  31 * (31 * 1 + addressHash s.address) + Int32.ofNat s.prefixSize

theorem compareBytes_eq {as bs : List UInt8} (h : as.length = bs.length) :
    compareBytes as bs = compare (as.map UInt8.toNat) (bs.map UInt8.toNat) := by
  induction as generalizing bs with
  | nil =>
    cases bs with
    | nil => rfl
    | cons b bs => cases h
  | cons a as ih =>
    cases bs with
    | nil => cases h
    | cons b bs =>
      rw [compareBytes, compare_unsigned, List.map_cons, List.map_cons, List.compare_cons_cons]
      cases compare a.toNat b.toNat with
      | lt => rfl
      | eq => exact ih (Nat.succ.inj h)
      | gt => rfl

/-- The loop computes the lexicographic order. -/
theorem compareToBytes_eq (s other : Subnet) : compareToBytes s other = compareTo s other := by
  rw [compareToBytes, compareTo, compareLex, compareLex, compareOn, compareOn, compareOn]
  cases hsize : compare s.address.size other.address.size with
  | lt => rfl
  | gt => rfl
  | eq =>
    have hlength : s.address.address.length = other.address.address.length :=
      Nat.compare_eq_eq.mp hsize
    rw [compareBytes_eq hlength]
    cases compare (s.address.address.map UInt8.toNat) (other.address.address.map UInt8.toNat) with
    | lt => rfl
    | eq => rfl
    | gt => rfl

theorem equals_iff {s other : Subnet} : s.equals (some other) = true ↔ s = other := by
  obtain ⟨address, prefixSize, hle⟩ := s
  obtain ⟨address', prefixSize', hle'⟩ := other
  simp [equals]

theorem compareTo_eq_iff {s other : Subnet} : compareTo s other = .eq ↔ s = other := by
  constructor
  · intro h
    rw [compareTo, compareLex_eq_eq, compareLex_eq_eq] at h
    obtain ⟨-, hbytes, hprefixSize⟩ := h
    have hmap : s.address.address.map UInt8.toNat = other.address.address.map UInt8.toNat :=
      Std.LawfulEqCmp.eq_of_compare hbytes
    have haddress : s.address.address = other.address.address :=
      List.map_injective_iff.mpr (fun _ _ => UInt8.toNat_inj.mp) hmap
    obtain ⟨⟨bytes, hsize⟩, n, hle⟩ := s
    obtain ⟨⟨bytes', hsize'⟩, n', hle'⟩ := other
    obtain rfl : bytes = bytes' := haddress
    obtain rfl : n = n' := Nat.compare_eq_eq.mp hprefixSize
    rfl
  · rintro rfl
    exact Std.ReflCmp.compare_self

/-- The order of the bytes: the first byte that differs decides, as an unsigned number. -/
def BytesPrecede (as bs : List UInt8) : Prop :=
  ∃ i, as.take i = bs.take i ∧ ∃ a b, as[i]? = some a ∧ bs[i]? = some b ∧ a.toNat < b.toNat

theorem compareBytes_lt_iff {as bs : List UInt8} (h : as.length = bs.length) :
    compareBytes as bs = .lt ↔ BytesPrecede as bs := by
  induction as generalizing bs with
  | nil =>
    cases bs with
    | nil => simp [compareBytes, BytesPrecede]
    | cons b bs => cases h
  | cons a as ih =>
    cases bs with
    | nil => cases h
    | cons b bs =>
      rw [compareBytes, compare_unsigned]
      cases hcompare : compare a.toNat b.toNat with
      | lt =>
        have hlt := Nat.compare_eq_lt.mp hcompare
        exact iff_of_true rfl ⟨0, rfl, a, b, rfl, rfl, hlt⟩
      | gt =>
        have hgt := Nat.compare_eq_gt.mp hcompare
        refine iff_of_false (by simp) ?_
        rintro ⟨i, htake, a', b', ha', hb', hlt⟩
        cases i with
        | zero =>
          obtain rfl := Option.some.inj ha'
          obtain rfl := Option.some.inj hb'
          omega
        | succ i =>
          have hhead := (List.cons.inj htake).1
          rw [hhead] at hgt
          omega
      | eq =>
        have heq : a = b := UInt8.toNat_inj.mp (Nat.compare_eq_eq.mp hcompare)
        rw [heq]
        refine (ih (Nat.succ.inj h)).trans ⟨?_, ?_⟩
        · rintro ⟨i, htake, hbytes⟩
          exact ⟨i + 1, congrArg (b :: ·) htake, hbytes⟩
        · rintro ⟨i, htake, a', b', ha', hb', hlt⟩
          cases i with
          | zero =>
            obtain rfl := Option.some.inj ha'
            obtain rfl := Option.some.inj hb'
            omega
          | succ i => exact ⟨i, (List.cons.inj htake).2, a', b', ha', hb', hlt⟩

/-- The order of subnets whose addresses have one size. -/
def Precedes (s other : Subnet) : Prop :=
  BytesPrecede s.address.address other.address.address ∨
    (s.address = other.address ∧ s.prefixSize < other.prefixSize)

theorem compareBytes_eq_iff {as bs : List UInt8} (h : as.length = bs.length) :
    compareBytes as bs = .eq ↔ as = bs := by
  rw [compareBytes_eq h, Std.LawfulEqOrd.compare_eq_iff_eq]
  exact (List.map_injective_iff.mpr fun _ _ => UInt8.toNat_inj.mp).eq_iff

theorem compareToBytes_lt_iff {s other : Subnet} (h : s.address.size = other.address.size) :
    compareToBytes s other = .lt ↔ Precedes s other := by
  have heq := compareBytes_eq_iff h
  have hlt := compareBytes_lt_iff h
  have haddress : s.address = other.address ↔ s.address.address = other.address.address := by
    obtain ⟨⟨bytes, hsize⟩, n, hle⟩ := s
    obtain ⟨⟨bytes', hsize'⟩, n', hle'⟩ := other
    simp
  rw [compareToBytes, Nat.compare_eq_eq.mpr h, Precedes, haddress, ← heq, ← hlt]
  cases compareBytes s.address.address other.address.address with
  | lt => simp
  | eq => simp [Nat.compare_eq_lt]
  | gt => simp

/-- The items of a sorted list of subnets are strictly ascending. -/
theorem pairwise_compareToBytes (l : SortedList sorter) :
    l.items.Pairwise fun x y => compareToBytes x y = .lt := by
  refine (l.sorted.and l.distinct).imp ?_
  rintro x y ⟨hle, hdistinct⟩
  rw [compareToBytes_eq]
  have hle' : (compareTo x y).isLE = true := hle
  cases hcompare : compareTo x y with
  | lt => rfl
  | gt =>
    rw [hcompare] at hle'
    cases hle'
  | eq =>
    rw [compareTo_eq_iff.mp hcompare, sorter.same_refl] at hdistinct
    cases hdistinct

/-- **Order of subnets.** `compareTo` is a total order whose equality is `equals`: IPv4 before IPv6,
then by the bytes as unsigned numbers, then by the prefix. A sorted list of subnets is strictly
ascending in it. -/
theorem compareToBytes_lawful (addressHash : InetAddress → Int32) :
    (∀ a b, compareToBytes b a = (compareToBytes a b).swap) ∧
    (∀ a b c, (compareToBytes a b).isLE → (compareToBytes b c).isLE →
      (compareToBytes a c).isLE) ∧
    (∀ a b c, compareToBytes a b = .lt → compareToBytes b c = .lt → compareToBytes a c = .lt) ∧
    (∀ a b, compareToBytes a b = .eq ↔ a.equals (some b) = true) ∧
    (∀ a b : Subnet, a.equals (some b) = true → a.hashCode addressHash = b.hashCode addressHash) ∧
    (∀ a b : Subnet, a.address.size = 4 → b.address.size = 16 → compareToBytes a b = .lt) ∧
    (∀ a b : Subnet, a.address.size = b.address.size →
      (compareToBytes a b = .lt ↔ Precedes a b)) ∧
    ∀ l : SortedList sorter, l.items.Pairwise fun x y => compareToBytes x y = .lt := by
  simp only [show compareToBytes = compareTo from funext₂ compareToBytes_eq]
  refine ⟨?_, ?_, ?_, ?_, ?_, ?_, ?_, ?_⟩
  · exact fun a b => Std.OrientedCmp.eq_swap
  · exact fun a b c hab hbc => Std.TransCmp.isLE_trans hab hbc
  · exact fun a b c hab hbc => Std.TransCmp.lt_trans hab hbc
  · exact fun a b => compareTo_eq_iff.trans equals_iff.symm
  · intro a b h
    rw [equals_iff.mp h]
  · intro a b ha hb
    rw [← compareToBytes_eq, compareToBytes, ha, hb]
    rfl
  · intro a b h
    rw [← compareToBytes_eq]
    exact compareToBytes_lt_iff h
  · intro l
    simpa only [compareToBytes_eq] using pairwise_compareToBytes l

/-! ## Matching -/

/-- The class `Subnet.Immutable`. -/
structure Immutable where
  a : List UInt8
  prefixSize : ℕ

/-- `while (i < it.size) it[i++] = 0`. -/
def clearFrom (it : List UInt8) (i : ℕ) : List UInt8 :=
  if i < it.length then clearFrom (it.set i 0) (i + 1) else it
termination_by it.length - i
decreasing_by
  rw [List.length_set]
  omega

/-- `toImmutable`. Here and in `matches`, `none` is an index out of bounds. -/
def toImmutable (s : Subnet) : Option Immutable := do
  let it := s.address.address
  let i := s.prefixSize / 8
  if 0 < s.prefixSize % 8 then
    let b ← it[i]?
    some ⟨clearFrom (it.set i (mask b (i * 8 + 8 - s.prefixSize))) (i + 1), s.prefixSize⟩
  else some ⟨clearFrom it i, s.prefixSize⟩

/-- The loop of `matches`, and the comparison after it. -/
def Immutable.matchesFrom (m : Immutable) (b : List UInt8) (i : ℕ) : Option Bool :=
  if i * 8 < m.prefixSize ∧ i * 8 + 8 ≤ m.prefixSize then do
    if (← m.a[i]?) ≠ (← b[i]?) then some false else m.matchesFrom b (i + 1)
  else if i * 8 = m.prefixSize then some true
  else do
    some ((← m.a[i]?) == mask (← b[i]?) (i * 8 + 8 - m.prefixSize))
termination_by m.prefixSize - i * 8

/-- `Immutable.matches`. -/
def Immutable.matches (m : Immutable) (b : List UInt8) : Option Bool :=
  if m.a.length ≠ b.length then some false else m.matchesFrom b 0

theorem length_clearFrom (it : List UInt8) (i : ℕ) : (clearFrom it i).length = it.length := by
  fun_induction clearFrom it i with
  | case1 it i h ih => rw [ih, List.length_set]
  | case2 it i h => rfl

/-- Bytes before the first one that is cleared stay. -/
theorem getElem?_clearFrom (it : List UInt8) {i j : ℕ} (hj : j < i) :
    (clearFrom it i)[j]? = it[j]? := by
  fun_induction clearFrom it i with
  | case1 it i h ih => rw [ih (by omega), List.getElem?_set_ne (by omega)]
  | case2 it i h => rfl

/-- What `toImmutable` makes of a subnet: the bytes of the prefix, the last of them masked. -/
theorem toImmutable_eq (s : Subnet) :
    ∃ m, s.toImmutable = some m ∧ m.prefixSize = s.prefixSize ∧ m.a.length = s.address.size ∧
      (∀ i < s.prefixSize / 8, m.a[i]? = s.address.address[i]?) ∧
      (0 < s.prefixSize % 8 → m.a[s.prefixSize / 8]? =
        s.address.address[s.prefixSize / 8]?.map (mask · (8 - s.prefixSize % 8 : ℕ))) := by
  have hle := s.prefixSize_le
  by_cases hpartial : 0 < s.prefixSize % 8
  · have hlt : s.prefixSize / 8 < s.address.address.length := by
      have hsize : s.address.size = s.address.address.length := rfl
      omega
    have hget := List.getElem?_eq_getElem hlt
    have hshift : ((s.prefixSize / 8 : ℕ) * 8 + 8 - s.prefixSize : ℤ) =
        (8 - s.prefixSize % 8 : ℕ) := by omega
    refine ⟨_, by rw [toImmutable, if_pos hpartial, hget]; rfl, rfl, ?_, ?_, fun _ => ?_⟩
    · rw [length_clearFrom, List.length_set]
      rfl
    · intro i hi
      rw [getElem?_clearFrom _ (by omega), List.getElem?_set_ne (by omega)]
    · rw [getElem?_clearFrom _ (by omega), List.getElem?_set_self hlt, hget, hshift,
        Option.map_some]
  · refine ⟨_, by rw [toImmutable, if_neg hpartial], rfl, ?_, ?_, fun h => absurd h hpartial⟩
    · rw [length_clearFrom]
      rfl
    · exact fun i hi => getElem?_clearFrom _ hi

/-- A matcher holds the prefix of an address. -/
structure Immutable.Holds (m : Immutable) (address : List UInt8) : Prop where
  prefixSize_le : m.prefixSize ≤ address.length * 8
  whole : ∀ i < m.prefixSize / 8, m.a[i]? = address[i]?
  rest : 0 < m.prefixSize % 8 → m.a[m.prefixSize / 8]? =
    address[m.prefixSize / 8]?.map (mask · (8 - m.prefixSize % 8 : ℕ))

/-- The loop compares the bits from byte `i` on: whole bytes one after another, and of the last
byte those that belong to the prefix. -/
theorem Immutable.Holds.matchesFrom {m : Immutable} {address b : List UInt8}
    (h : m.Holds address) (hlength : b.length = address.length) {i : ℕ}
    (hi : i * 8 ≤ m.prefixSize) :
    ∃ r, m.matchesFrom b i = some r ∧
      (r = true ↔ ∀ n, i * 8 ≤ n → n < m.prefixSize → bit b n = bit address n) := by
  have hle := h.prefixSize_le
  -- on the number of bytes that are left
  induction hleft : m.prefixSize / 8 - i generalizing i with
  | zero =>
    obtain rfl : i = m.prefixSize / 8 := by omega
    rw [Immutable.matchesFrom, if_neg (by omega)]
    by_cases hpartial : 0 < m.prefixSize % 8
    · have hlt : m.prefixSize / 8 < address.length := by omega
      have hshift : ((m.prefixSize / 8 : ℕ) * 8 + 8 - m.prefixSize : ℤ) =
          (8 - m.prefixSize % 8 : ℕ) := by omega
      have hx := List.getElem?_eq_getElem hlt
      have hy := List.getElem?_eq_getElem (hlength.symm ▸ hlt : m.prefixSize / 8 < b.length)
      have ha := h.rest hpartial
      rw [hx, Option.map_some] at ha
      refine ⟨_, by rw [if_neg (by omega), ha, hy, hshift]; rfl, ?_⟩
      rw [beq_iff_eq, mask_eq_mask_iff _ _ hpartial (by omega)]
      constructor
      · intro hbits n hn hn'
        obtain ⟨j, rfl⟩ := Nat.exists_eq_add_of_le hn
        rw [bit_of_getElem? hx (by omega), bit_of_getElem? hy (by omega)]
        exact (hbits j (by omega)).symm
      · intro hbits j hj
        rw [← bit_of_getElem? hx (by omega), ← bit_of_getElem? hy (by omega)]
        exact (hbits _ (by omega) (by omega)).symm
    · refine ⟨true, by rw [if_pos (by omega)], iff_of_true rfl fun n hn hn' => ?_⟩
      omega
  | succ left ih =>
    have hlt : i < address.length := by omega
    have hx := List.getElem?_eq_getElem hlt
    have hy := List.getElem?_eq_getElem (hlength.symm ▸ hlt : i < b.length)
    have ha := (h.whole i (by omega)).trans hx
    rw [Immutable.matchesFrom, if_pos (by omega), ha, hy]
    show ∃ r, (if address[i] ≠ b[i] then some false else m.matchesFrom b (i + 1)) = some r ∧ _
    by_cases hsame : address[i] = b[i]
    · obtain ⟨r, hr, hiff⟩ := ih (i := i + 1) (by omega) (by omega)
      refine ⟨r, by rw [if_neg (not_not.mpr hsame), hr], hiff.trans ⟨?_, ?_⟩⟩
      · intro hbits n hn hn'
        by_cases hnext : (i + 1) * 8 ≤ n
        · exact hbits n hnext hn'
        · obtain ⟨j, rfl⟩ := Nat.exists_eq_add_of_le hn
          rw [bit_of_getElem? hx (by omega), bit_of_getElem? hy (by omega), hsame]
      · exact fun hbits n hn hn' => hbits n (by omega) hn'
    · refine ⟨false, by rw [if_pos hsame], iff_of_false (by simp) fun hbits => hsame ?_⟩
      rw [eq_iff_getMsbD]
      intro j hj
      rw [← bit_of_getElem? hx hj, ← bit_of_getElem? hy hj]
      exact (hbits _ (by omega) (by omega)).symm

/-- Whether an address has the prefix of a subnet. -/
def HasPrefix (s : Subnet) (b : List UInt8) : Prop :=
  b.length = s.address.size ∧ ∀ n < s.prefixSize, bit b n = bit s.address.address n

theorem toImmutable_matches_eq (s : Subnet) (b : List UInt8) :
    ∃ r, (s.toImmutable.bind fun m => m.matches b) = some r ∧ (r = true ↔ s.HasPrefix b) := by
  obtain ⟨m, hm, hprefixSize, hsize, hwhole, hrest⟩ := s.toImmutable_eq
  rw [hm, Option.bind_some, Immutable.matches]
  by_cases hlength : b.length = s.address.size
  · have hholds : m.Holds s.address.address := by
      refine ⟨?_, ?_, ?_⟩
      · rw [hprefixSize]
        exact s.prefixSize_le
      · rw [hprefixSize]
        exact hwhole
      · rw [hprefixSize]
        exact hrest
    obtain ⟨r, hr, hiff⟩ := hholds.matchesFrom hlength (i := 0) (by omega)
    refine ⟨r, by rw [if_neg (by omega), hr], hiff.trans ?_⟩
    rw [hprefixSize, HasPrefix]
    exact ⟨fun hbits => ⟨hlength, fun n hn => hbits n (by omega) hn⟩, fun h n _ hn => h.2 n hn⟩
  · exact ⟨false, by rw [if_pos (by omega)], iff_of_false (by simp) fun h => hlength h.1⟩

/-- **Matching.** No index is out of bounds, and a subnet matches exactly the arrays of its size
that have its prefix; so the bits behind the prefix do not matter. -/
theorem toImmutable_matches (s : Subnet) (b : List UInt8) :
    (∃ r, (s.toImmutable.bind fun m => m.matches b) = some r ∧ (r = true ↔ s.HasPrefix b)) ∧
      ∀ t : Subnet, t.prefixSize = s.prefixSize → s.HasPrefix t.address.address →
        (t.toImmutable.bind fun m => m.matches b) = s.toImmutable.bind fun m => m.matches b := by
  refine ⟨s.toImmutable_matches_eq b, fun t hprefixSize hsame => ?_⟩
  obtain ⟨r, hr, hiff⟩ := s.toImmutable_matches_eq b
  obtain ⟨r', hr', hiff'⟩ := t.toImmutable_matches_eq b
  rw [hr, hr', Option.some_inj, Bool.eq_iff_iff, hiff, hiff', HasPrefix, HasPrefix, hprefixSize]
  refine and_congr ?_ (forall₂_congr fun n hn => ?_)
  · rw [show t.address.size = s.address.size from hsame.1]
  · rw [hsame.2 n hn]

end Subnet
