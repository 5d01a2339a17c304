import Mathlib.Data.List.Basic
import Mathlib.Data.List.Infix
import Mathlib.Tactic.Ring

/-!
# Bytes and byte streams

Numbers in network byte order, and an input stream whose bytes arrive in chunks: one read delivers
bytes of one chunk only, so that it may deliver fewer bytes than were asked for.
-/

abbrev Bytes := List UInt8

/-! ## Network byte order -/

/-- The last `width` bytes of a number, the most significant first. -/
def bigEndian : ℕ → ℕ → Bytes
  | 0, _ => []
  | width + 1, n => bigEndian width (n / 256) ++ [UInt8.ofNat n]

theorem bigEndian_succ (width n : ℕ) :
    bigEndian (width + 1) n = bigEndian width (n / 256) ++ [UInt8.ofNat n] := rfl

/-- The number that bytes stand for, the most significant first. -/
def ofBigEndian (bytes : Bytes) : ℕ :=
  bytes.foldl (fun n b => 256 * n + b.toNat) 0

@[simp]
theorem length_bigEndian (width n : ℕ) : (bigEndian width n).length = width := by
  induction width generalizing n with
  | zero => rfl
  | succ width ih => rw [bigEndian_succ, List.length_append, ih, List.length_singleton]

theorem ofBigEndian_concat (bytes : Bytes) (b : UInt8) :
    ofBigEndian (bytes ++ [b]) = 256 * ofBigEndian bytes + b.toNat := by
  rw [ofBigEndian, List.foldl_append]
  rfl

theorem ofBigEndian_bigEndian (width n : ℕ) : ofBigEndian (bigEndian width n) = n % 256 ^ width := by
  induction width generalizing n with
  | zero => rw [pow_zero, Nat.mod_one]; rfl
  | succ width ih =>
    rw [bigEndian_succ, ofBigEndian_concat, ih, pow_succ', Nat.mod_mul, UInt8.toNat_ofNat']
    omega

theorem ofBigEndian_bigEndian_of_lt {width n : ℕ} (h : n < 256 ^ width) :
    ofBigEndian (bigEndian width n) = n := by
  rw [ofBigEndian_bigEndian, Nat.mod_eq_of_lt h]

theorem ofBigEndian_lt (bytes : Bytes) : ofBigEndian bytes < 256 ^ bytes.length := by
  induction bytes using List.reverseRecOn with
  | nil => exact Nat.one_pos
  | append_singleton bytes last ih =>
    have hlast : last.toNat < 256 := last.toNat_lt
    rw [ofBigEndian_concat, List.length_append, List.length_singleton, pow_succ]
    omega

/-- The first byte alone bounds the number from below. -/
theorem le_ofBigEndian (b : UInt8) (bytes : Bytes) :
    b.toNat * 256 ^ bytes.length ≤ ofBigEndian (b :: bytes) := by
  induction bytes using List.reverseRecOn with
  | nil => simp [ofBigEndian]
  | append_singleton bytes last ih =>
    rw [← List.cons_append, ofBigEndian_concat, List.length_append, List.length_singleton, pow_succ]
    calc b.toNat * (256 ^ bytes.length * 256) = 256 * (b.toNat * 256 ^ bytes.length) := by ring
      _ ≤ 256 * ofBigEndian (b :: bytes) := Nat.mul_le_mul_left 256 ih
      _ ≤ 256 * ofBigEndian (b :: bytes) + last.toNat := Nat.le_add_right _ _

/-! ## Input streams -/

/-- An input stream: the chunks that are still to arrive, none of them empty. -/
structure InputStream where
  chunks : List Bytes
  nonempty : ∀ chunk ∈ chunks, chunk ≠ []

namespace InputStream

/-- The bytes that are still to arrive. -/
def bytes (s : InputStream) : Bytes := s.chunks.flatten

theorem ne_nil_of_mem_filter (chunks : List Bytes) :
    ∀ chunk ∈ chunks.filter (· ≠ []), chunk ≠ [] := by
  intro chunk hchunk
  simpa using (List.mem_filter.mp hchunk).2

/-- The stream of some chunks; empty ones do not count. -/
def ofChunks (chunks : List Bytes) : InputStream where
  chunks := chunks.filter (· ≠ [])
  nonempty := ne_nil_of_mem_filter chunks

/-- One read into a buffer of `n` bytes: what is left of a chunk, or none at the end of the
stream. -/
def read (s : InputStream) (n : ℕ) : Option Bytes × InputStream :=
  if n = 0 then (some [], s)
  else match s.chunks with
    | [] => (none, s)
    | chunk :: chunks => (some (chunk.take n), ofChunks (chunk.drop n :: chunks))

/-- One byte. -/
def readByte (s : InputStream) : Option (UInt8 × InputStream) :=
  match s.read 1 with
  | (some [b], rest) => some (b, rest)
  | _ => none

/-- Two bytes as a number, none if the stream ends before. -/
def readUnsignedShort (s : InputStream) : Option (ℕ × InputStream) := do
  let (b₁, s) ← s.readByte
  let (b₂, s) ← s.readByte
  return (ofBigEndian [b₁, b₂], s)

/-! ## What the reads deliver -/

/-- Chunks without their first `n` bytes. -/
def dropBytes : ℕ → List Bytes → List Bytes
  | _, [] => []
  | n, chunk :: chunks =>
    if n < chunk.length then chunk.drop n :: chunks else dropBytes (n - chunk.length) chunks

theorem dropBytes_of_lt {n : ℕ} {chunk : Bytes} (h : n < chunk.length) (chunks : List Bytes) :
    dropBytes n (chunk :: chunks) = chunk.drop n :: chunks := if_pos h

theorem dropBytes_of_ge {n : ℕ} {chunk : Bytes} (h : chunk.length ≤ n) (chunks : List Bytes) :
    dropBytes n (chunk :: chunks) = dropBytes (n - chunk.length) chunks :=
  if_neg (Nat.not_lt.mpr h)

theorem dropBytes_zero {chunks : List Bytes} (h : ∀ chunk ∈ chunks, chunk ≠ []) :
    dropBytes 0 chunks = chunks := by
  cases chunks with
  | nil => rfl
  | cons chunk chunks =>
    rw [dropBytes_of_lt (List.length_pos_iff.mpr (h chunk List.mem_cons_self)), List.drop_zero]

theorem ne_nil_of_mem_dropBytes (n : ℕ) (chunks : List Bytes)
    (h : ∀ chunk ∈ chunks, chunk ≠ []) : ∀ chunk ∈ dropBytes n chunks, chunk ≠ [] := by
  induction chunks generalizing n with
  | nil => exact h
  | cons first chunks ih =>
    rcases Nat.lt_or_ge n first.length with hlt | hge
    · rw [dropBytes_of_lt hlt]
      intro chunk hchunk
      rcases List.mem_cons.mp hchunk with rfl | hchunk
      · intro hnil
        have hlength := congrArg List.length hnil
        rw [List.length_drop, List.length_nil] at hlength
        omega
      · exact h chunk (List.mem_cons_of_mem _ hchunk)
    · rw [dropBytes_of_ge hge]
      exact ih _ fun chunk hchunk => h chunk (List.mem_cons_of_mem _ hchunk)

theorem dropBytes_dropBytes (m n : ℕ) (chunks : List Bytes) :
    dropBytes m (dropBytes n chunks) = dropBytes (n + m) chunks := by
  induction chunks generalizing n with
  | nil => rfl
  | cons chunk chunks ih =>
    rcases Nat.lt_or_ge n chunk.length with hlt | hge
    · rw [dropBytes_of_lt hlt]
      rcases Nat.lt_or_ge (n + m) chunk.length with hlt' | hge'
      · rw [dropBytes_of_lt hlt', dropBytes_of_lt (by rw [List.length_drop]; omega),
          List.drop_drop]
      · rw [dropBytes_of_ge hge', dropBytes_of_ge (by rw [List.length_drop]; omega),
          List.length_drop]
        congr 1
        omega
    · rw [dropBytes_of_ge hge, dropBytes_of_ge (by omega), ih]
      congr 1
      omega

theorem flatten_dropBytes (n : ℕ) (chunks : List Bytes) :
    (dropBytes n chunks).flatten = chunks.flatten.drop n := by
  induction chunks generalizing n with
  | nil => exact List.drop_nil.symm
  | cons chunk chunks ih =>
    rw [List.flatten_cons, List.drop_append]
    rcases Nat.lt_or_ge n chunk.length with hlt | hge
    · rw [dropBytes_of_lt hlt, List.flatten_cons, Nat.sub_eq_zero_of_le hlt.le, List.drop_zero]
    · rw [dropBytes_of_ge hge, ih, List.drop_eq_nil_of_le hge, List.nil_append]

/-- The stream without its first `n` bytes. -/
def skip (s : InputStream) (n : ℕ) : InputStream where
  chunks := dropBytes n s.chunks
  nonempty := ne_nil_of_mem_dropBytes n s.chunks s.nonempty

@[ext]
theorem ext_chunks {s t : InputStream} (h : s.chunks = t.chunks) : s = t := by
  cases s
  cases t
  congr

variable {s : InputStream}

theorem skip_skip (m n : ℕ) : (s.skip n).skip m = s.skip (n + m) := by
  ext1
  exact dropBytes_dropBytes m n s.chunks

theorem bytes_skip (n : ℕ) : (s.skip n).bytes = s.bytes.drop n :=
  flatten_dropBytes n s.chunks

/-- A stream with a byte left has a chunk left. -/
theorem exists_chunk {b : UInt8} {bs : Bytes} (h : s.bytes = b :: bs) :
    ∃ chunk chunks, s.chunks = (b :: chunk) :: chunks := by
  obtain ⟨chunks, hne⟩ := s
  cases chunks with
  | nil => cases h
  | cons chunk chunks =>
    cases chunk with
    | nil => exact absurd rfl (hne [] List.mem_cons_self)
    | cons b' chunk =>
      obtain rfl : b' = b := (List.cons.inj h).1
      exact ⟨chunk, chunks, rfl⟩

theorem readByte_of_cons {b : UInt8} {bs : Bytes} (h : s.bytes = b :: bs) :
    s.readByte = some (b, s.skip 1) := by
  obtain ⟨chunk, chunks, hchunks⟩ := exists_chunk h
  have hrest : ofChunks (chunk :: chunks) = s.skip 1 := by
    have hne : ∀ c ∈ chunks, c ≠ [] := fun c hc =>
      s.nonempty c (hchunks ▸ List.mem_cons_of_mem _ hc)
    have hself : chunks.filter (· ≠ []) = chunks :=
      List.filter_eq_self.mpr fun c hc => by simpa using hne c hc
    ext1
    show (chunk :: chunks).filter (· ≠ []) = dropBytes 1 s.chunks
    rw [hchunks]
    cases chunk with
    | nil =>
      rw [List.filter_cons_of_neg (by simp), hself, dropBytes_of_ge (by simp)]
      exact (dropBytes_zero hne).symm
    | cons c chunk =>
      rw [List.filter_cons_of_pos (by simp), hself, dropBytes_of_lt (by simp)]
      rfl
  have hread : s.read 1 = (some [b], ofChunks (chunk :: chunks)) := by
    rw [read, if_neg one_ne_zero, hchunks]
    rfl
  rw [readByte, hread, hrest]

theorem readByte_of_nil (h : s.bytes = []) : s.readByte = none := by
  have hchunks : s.chunks = [] := by
    cases hs : s.chunks with
    | nil => rfl
    | cons chunk chunks =>
      have hne := s.nonempty chunk (hs ▸ List.mem_cons_self)
      rw [bytes, hs, List.flatten_cons] at h
      exact absurd (List.append_eq_nil_iff.mp h).1 hne
  have hread : s.read 1 = (none, s) := by
    rw [read, if_neg one_ne_zero, hchunks]
  rw [readByte, hread]

/-- The length of what follows is read, however its bytes arrive. -/
theorem readUnsignedShort_of_cons {b₁ b₂ : UInt8} {bs : Bytes} (h : s.bytes = b₁ :: b₂ :: bs) :
    s.readUnsignedShort = some (ofBigEndian [b₁, b₂], s.skip 2) := by
  have hsecond : (s.skip 1).bytes = b₂ :: bs := by rw [bytes_skip, h, List.drop_succ_cons,
    List.drop_zero]
  simp only [readUnsignedShort, readByte_of_cons h, readByte_of_cons hsecond, Option.bind_eq_bind,
    Option.bind_some, skip_skip]
  rfl

theorem readUnsignedShort_of_short (h : s.bytes.length < 2) : s.readUnsignedShort = none := by
  match hbytes : s.bytes with
  | [] =>
    rw [readUnsignedShort, readByte_of_nil hbytes]
    rfl
  | [b] =>
    have hsecond : (s.skip 1).bytes = [] := by rw [bytes_skip, hbytes]; rfl
    simp only [readUnsignedShort, readByte_of_cons hbytes, readByte_of_nil hsecond,
      Option.bind_eq_bind, Option.bind_some]
    rfl
  | b₁ :: b₂ :: bs =>
    rw [hbytes, List.length_cons, List.length_cons] at h
    omega

/-- One read delivers bytes of the first chunk only. -/
theorem read_getD (n : ℕ) : (s.read n).1.getD [] = (s.chunks.headD []).take n := by
  by_cases hn : n = 0
  · rw [read, if_pos hn, hn, List.take_zero]
    rfl
  · rw [read, if_neg hn]
    cases s.chunks with
    | nil => exact List.take_nil.symm
    | cons chunk chunks => rfl

end InputStream
