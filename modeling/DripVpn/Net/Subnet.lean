import DripVpn.Foundations.SortedList
import DripVpn.Foundations.Text

/-!
# Subnets

`Subnet.kt`: an address with the length of a prefix, read from and printed as `address/prefix`.

The numeric address parser (`Os.inet_pton`) and `InetAddress.getHostAddress` belong to the
platform. `NumericAddresses` is what the code relies on: printed addresses consist of hexadecimal
digits, dots and colons, and an address the parser returned is parsed back from its print.
-/

open Reactive

/-- An IPv4 or IPv6 address, as its bytes in network order. -/
structure InetAddress where
  address : List UInt8
  size_eq : address.length = 4 ∨ address.length = 16
deriving DecidableEq

/-- The number of bytes of the address. -/
def InetAddress.size (a : InetAddress) : ℕ := a.address.length

theorem InetAddress.size_le (a : InetAddress) : a.size ≤ 16 := by
  rcases a.size_eq with h | h <;> simp [InetAddress.size, h]

/-- The characters of a printed address. -/
def isAddressChar (c : Char) : Bool :=
  c.isDigit || decide (c ∈ ['a', 'b', 'c', 'd', 'e', 'f', 'A', 'B', 'C', 'D', 'E', 'F', '.', ':'])

theorem toNat_of_isAddressChar {c : Char} (h : isAddressChar c = true) :
    0x20 < c.toNat ∧ c.toNat < 0x7F := by
  simp only [isAddressChar, Bool.or_eq_true, decide_eq_true_eq] at h
  rcases h with h | h
  · have hdigit := Char.isDigit_iff_toNat.mp h
    simp only [Char.reduceToNat] at hdigit
    omega
  · have hall : ['a', 'b', 'c', 'd', 'e', 'f', 'A', 'B', 'C', 'D', 'E', 'F', '.', ':'].all
        (fun d => decide (0x20 < d.toNat ∧ d.toNat < 0x7F)) = true := by decide
    exact of_decide_eq_true (List.all_eq_true.mp hall c h)

/-- The platform's numeric address parser and printer. -/
structure NumericAddresses where
  parseNumericAddress : Text → Option InetAddress
  hostAddress : InetAddress → Text
  /-- An address that was parsed is parsed back from its print. -/
  parse_hostAddress : ∀ {t a}, parseNumericAddress t = some a →
    parseNumericAddress (hostAddress a) = some a
  hostAddress_ne_nil : ∀ a, hostAddress a ≠ []
  hostAddress_char : ∀ a, ∀ c ∈ hostAddress a, isAddressChar c = true

/-- A network: an address and how many of its leading bits count. -/
structure Subnet where
  address : InetAddress
  prefixSize : ℕ
  /-- `require(prefixSize in 0..addressLength)` -/
  prefixSize_le : prefixSize ≤ address.size * 8
deriving DecidableEq

namespace Subnet

/-- The number of bits of the address. -/
def addressLength (s : Subnet) : ℕ := s.address.size * 8

/-- Size first, then the bytes as unsigned numbers, then the prefix. -/
def compareTo : Subnet → Subnet → Ordering :=
  compareLex (compareOn fun s => s.address.size)
    (compareLex (compareOn fun s => s.address.address.map UInt8.toNat)
      (compareOn fun s => s.prefixSize))

instance : Std.TransCmp compareTo := inferInstanceAs (Std.TransCmp (compareLex _ _))

/-- `SubnetSorter` -/
def sorter : Sorter Subnet := Sorter.ofCompare compareTo

theorem exact_sorter : sorter.Exact := Sorter.exact_ofCompare compareTo

variable (N : NumericAddresses)

/-- The subnet with the given prefix, unless the prefix is out of range. -/
def ofPrefix (addr : InetAddress) (prefixSize : ℤ) : Option Subnet :=
  if h : prefixSize < 0 ∨ addr.size * 8 < prefixSize then none
  else some ⟨addr, prefixSize.toNat, by omega⟩

/-- Read `address/prefix` or `address`. The length check of the source is off by default, and no
caller of the access control lists turns it on. -/
def fromString (value : Text) : Option Subnet :=
  match Text.splitFirst '/' value with
  | (host, rest) => (N.parseNumericAddress host).bind fun addr =>
    match rest with
    | some p => (Text.parseInt p).bind (ofPrefix addr)
    | none => some ⟨addr, addr.size * 8, Nat.le_refl _⟩

/-- Print the subnet; a prefix that covers the whole address is left out. -/
def toString (s : Subnet) : Text :=
  if s.prefixSize = s.addressLength then N.hostAddress s.address
  else N.hostAddress s.address ++ '/' :: Nat.toDigits 10 s.prefixSize

theorem isAddressChar_ne_slash {c : Char} (h : isAddressChar c = true) : c ≠ '/' := by
  rintro rfl
  exact absurd h (by decide)

theorem slash_not_mem_hostAddress (a : InetAddress) : '/' ∉ N.hostAddress a := fun h =>
  isAddressChar_ne_slash (N.hostAddress_char a _ h) rfl

/-- What `fromString` accepts: a parsed address with a prefix in range. -/
theorem fromString_eq_some_iff {value : Text} {s : Subnet} :
    fromString N value = some s ↔
      N.parseNumericAddress (Text.splitFirst '/' value).1 = some s.address ∧
        (match (Text.splitFirst '/' value).2 with
          | some p => Text.parseInt p = some (s.prefixSize : ℤ)
          | none => s.prefixSize = s.addressLength) := by
  obtain ⟨addr, n, hn⟩ := s
  rw [fromString]
  cases hparse : N.parseNumericAddress (Text.splitFirst '/' value).1 with
  | none => simp [hparse]
  | some a =>
    cases hrest : (Text.splitFirst '/' value).2 with
    | none =>
      simp only [hparse, hrest, Option.bind_some, Option.some_inj, mk.injEq, addressLength]
      constructor
      · rintro ⟨rfl, rfl⟩
        exact ⟨rfl, rfl⟩
      · rintro ⟨rfl, rfl⟩
        exact ⟨rfl, rfl⟩
    | some p =>
      simp only [hparse, hrest, Option.bind_some, Option.bind_eq_some_iff, Option.some_inj]
      constructor
      · rintro ⟨k, hk, hof⟩
        rw [ofPrefix] at hof
        split at hof
        · contradiction
        · next hrange =>
          obtain ⟨rfl, rfl⟩ := Subnet.mk.inj (Option.some_inj.mp hof)
          refine ⟨rfl, hk.trans (congrArg some ?_)⟩
          omega
      · rintro ⟨rfl, hk⟩
        refine ⟨n, hk, ?_⟩
        rw [ofPrefix, dif_neg (by omega)]
        simp

/-- A printed subnet is read back. -/
theorem fromString_toString {t : Text} {s : Subnet}
    (h : N.parseNumericAddress t = some s.address) : fromString N (s.toString N) = some s := by
  have hback := N.parse_hostAddress h
  rw [fromString_eq_some_iff]
  by_cases hfull : s.prefixSize = s.addressLength
  · rw [toString, if_pos hfull, Text.splitFirst_of_not_mem (slash_not_mem_hostAddress N _)]
    exact ⟨hback, hfull⟩
  · rw [toString, if_neg hfull, Text.splitFirst_append_cons _ (slash_not_mem_hostAddress N _)]
    refine ⟨hback, Text.parseInt_toDigits ?_⟩
    -- a prefix has at most 128 bits
    have hsize := s.address.size_le
    have hprefixOk := s.prefixSize_le
    omega

/-- A printed subnet consists of address characters and perhaps a slash. -/
theorem char_of_mem_toString {s : Subnet} {c : Char} (h : c ∈ s.toString N) :
    isAddressChar c = true ∨ c = '/' := by
  rw [toString] at h
  split at h
  · exact Or.inl (N.hostAddress_char _ c h)
  · simp only [List.mem_append, List.mem_cons] at h
    rcases h with h | rfl | h
    · exact Or.inl (N.hostAddress_char _ c h)
    · exact Or.inr rfl
    · have hdigit := Nat.isDigit_of_mem_toDigits (by decide) (by decide) h
      exact Or.inl (by simp [isAddressChar, hdigit])

theorem toString_ne_nil (s : Subnet) : s.toString N ≠ [] := by
  rw [toString]
  split
  · exact N.hostAddress_ne_nil _
  · simp

end Subnet
