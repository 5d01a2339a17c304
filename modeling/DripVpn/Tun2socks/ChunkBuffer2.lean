import DripVpn.Foundations.Bytes
import Mathlib.Logic.Function.Basic

/-!
# Packets in a circular buffer

`structure/ChunkBuffer2.h`. A packet lies in consecutive blocks of four bytes: a header with its length,
and its data. A packet never goes around the end of the buffer. Where less than the largest packet fits
behind the last one, the rest of the buffer is left out (`wrap`), and the next packet starts at block 0.

An operation gives `none` where one of the assertions of the source fails.
-/

namespace Badvpn

/-! ## Blocks -/

/-- A `struct ChunkBuffer2_block`: the header of a packet, or four bytes of the data of one. -/
inductive Block
  | len (n : ℕ)
  | data (bytes : Bytes)
deriving DecidableEq

/-- `bdivide_up` -/
def bdivideUp (a b : ℕ) : ℕ := if a % b > 0 then a / b + 1 else a / b

/-- The number of blocks that data takes. -/
def blocklen (len : ℕ) : ℕ := bdivideUp len 4

theorem blocklen_eq (len : ℕ) : blocklen len = (len + 3) / 4 := by
  rw [blocklen, bdivideUp]
  split <;> omega

theorem blocklen_mono {m n : ℕ} (h : m ≤ n) : blocklen m ≤ blocklen n := by
  rw [blocklen_eq, blocklen_eq]
  omega

/-- The memory of a buffer. -/
abbrev Blocks := ℕ → Block

namespace Blocks

/-- The data of a block; a header is none. -/
def bytes (m : Blocks) (i : ℕ) : Bytes :=
  match m i with
  | .len _ => []
  | .data bytes => bytes

/-- What someone who is given a pointer to block `i` reads there. -/
def read (m : Blocks) (i len : ℕ) : Bytes :=
  ((List.range (blocklen len)).flatMap fun k => m.bytes (i + k)).take len

/-- What someone who is given a pointer to block `i` writes there. -/
def write (m : Blocks) (i : ℕ) (packet : Bytes) : Blocks := fun k =>
  if i ≤ k ∧ k < i + blocklen packet.length then .data ((packet.drop (4 * (k - i))).take 4) else m k

variable {m m' : Blocks} {i j k len : ℕ} {p : Bytes}

theorem read_congr (h : ∀ k, i ≤ k → k < i + blocklen len → m k = m' k) :
    m.read i len = m'.read i len := by
  have hbytes : ∀ k ∈ List.range (blocklen len), m.bytes (i + k) = m'.bytes (i + k) := by
    intro k hk
    have hlt := List.mem_range.mp hk
    rw [bytes, bytes, h (i + k) (by omega) (by omega)]
  rw [read, read, List.flatMap_congr hbytes]

theorem write_of_not_mem (h : k < i ∨ i + blocklen p.length ≤ k) : m.write i p k = m k :=
  if_neg (by omega)

theorem flatMap_take_drop (p : Bytes) (n : ℕ) :
    ((List.range n).flatMap fun k => (p.drop (4 * k)).take 4) = p.take (4 * n) := by
  induction n with
  | zero => rfl
  | succ n ih =>
    rw [List.range_succ, List.flatMap_append, ih, List.flatMap_singleton, Nat.mul_succ, List.take_add]

/-- What was written is read back. -/
theorem read_write (m : Blocks) (i : ℕ) (p : Bytes) : (m.write i p).read i p.length = p := by
  have hbytes : ∀ k ∈ List.range (blocklen p.length),
      (m.write i p).bytes (i + k) = (p.drop (4 * k)).take 4 := by
    intro k hk
    have hlt := List.mem_range.mp hk
    rw [bytes, write, if_pos (by omega), Nat.add_sub_cancel_left]
  have hlen : p.length ≤ 4 * blocklen p.length := by
    rw [blocklen_eq]
    omega
  rw [read, List.flatMap_congr hbytes, flatMap_take_drop, List.take_take, Nat.min_eq_left hlen,
    List.take_length]

end Blocks

/-! ## The buffer -/

/-- `ChunkBuffer2`. The pointers are indices of blocks; `inputAvail` and `outputAvail` are -1 where there
is no pointer. -/
structure ChunkBuffer2 where
  buffer : Blocks
  size : ℕ
  wrap : ℕ
  start : ℕ
  used : ℕ
  /-- in blocks -/
  mtu : ℕ
  inputDest : Option ℕ
  inputAvail : ℤ
  outputDest : Option ℕ
  outputAvail : ℤ

def INT_MAX : ℕ := 2 ^ 31 - 1

/-- A number of type `size_t` that is stored in an `int`. -/
def toInt (n : ℤ) : ℤ := n.bmod (2 ^ 32)

namespace ChunkBuffer2

/-- `_ChunkBuffer2_end`: where the next packet goes. -/
def endBlock (b : ChunkBuffer2) : ℕ :=
  if b.used ≥ b.wrap - b.start then b.used - (b.wrap - b.start) else b.start + b.used

/-- `_ChunkBuffer2_assert_buffer` -/
def assertBuffer (b : ChunkBuffer2) : Bool :=
  decide (0 < b.size ∧ 0 < b.wrap ∧ b.wrap ≤ b.size ∧ b.start < b.wrap ∧ b.used ≤ b.wrap ∧
    (b.wrap = b.size ∨ b.used ≥ b.wrap - b.start))

/-- The number of free blocks at the end. -/
def free (b : ChunkBuffer2) : ℤ :=
  if b.used ≥ b.wrap - b.start then (b.start : ℤ) - b.endBlock else (b.size : ℤ) - b.endBlock

/-- `_ChunkBuffer2_update_input` -/
def updateInput (b : ChunkBuffer2) : ChunkBuffer2 :=
  -- it will never be possible to write a packet of the largest size here
  if (b.size : ℤ) - b.endBlock - 1 < b.mtu then { b with inputDest := none, inputAvail := -1 }
  else if 0 < b.free then
    { b with inputDest := some (b.endBlock + 1), inputAvail := toInt ((b.free - 1) * 4) }
  else { b with inputDest := none, inputAvail := -1 }

/-- `buffer[i].len`, where block `i` is a header. -/
def lenAt (b : ChunkBuffer2) (i : ℕ) : Option ℕ :=
  match b.buffer i with
  | .len n => if i < b.size then some n else none
  | .data _ => none

/-- `_ChunkBuffer2_update_output` -/
def updateOutput (b : ChunkBuffer2) : Option ChunkBuffer2 :=
  if 0 < b.used then
    (b.lenAt b.start).bind fun datalen =>
      if blocklen datalen + 1 ≤ b.used ∧ b.start + blocklen datalen + 1 ≤ b.wrap then
        some { b with outputDest := some (b.start + 1), outputAvail := datalen }
      else none
  else some { b with outputDest := none, outputAvail := -1 }

/-- `_ChunkBuffer2_assert_io`: the pointers are those that the two updates would give. -/
def assertIo (b : ChunkBuffer2) : Bool :=
  decide (b.updateInput.inputDest = b.inputDest ∧ b.updateInput.inputAvail = b.inputAvail) &&
    b.updateOutput.any fun b' =>
      decide (b'.outputDest = b.outputDest ∧ b'.outputAvail = b.outputAvail)

/-- `ChunkBuffer2_calc_blocks`: the size of a buffer for `num` packets of `chunkLen` bytes. -/
def calcBlocks (chunkLen num : ℕ) : Option ℕ :=
  if blocklen chunkLen > INT_MAX - 1 then none
  else if num > INT_MAX - 1 then none
  else if 1 + blocklen chunkLen > INT_MAX / (num + 1) then none
  else some ((1 + blocklen chunkLen) * (num + 1))

/-- `ChunkBuffer2_Init` -/
def init (buffer : Blocks) (blocks mtu : ℕ) : Option ChunkBuffer2 :=
  let b : ChunkBuffer2 :=
    { buffer, size := blocks, wrap := blocks, start := 0, used := 0, mtu := blocklen mtu,
      inputDest := none, inputAvail := -1, outputDest := none, outputAvail := -1 }
  if b.assertBuffer then b.updateInput.updateOutput.filter assertIo else none

/-- The header of a packet is written, and the packet belongs to the buffer. -/
def addPacket (b : ChunkBuffer2) (len : ℕ) : ChunkBuffer2 :=
  let used := b.used + (1 + blocklen len)
  { b with
    buffer := Function.update b.buffer b.endBlock (.len len)
    used
    wrap :=
      if used ≤ b.wrap - b.start ∧ (b.mtu : ℤ) > (b.size : ℤ) - (b.endBlock + 1 + blocklen len) - 1 then
        b.endBlock + 1 + blocklen len
      else b.wrap }

/-- `ChunkBuffer2_SubmitPacket` -/
def submitPacket (b : ChunkBuffer2) (len : ℕ) : Option ChunkBuffer2 :=
  if b.inputDest.isSome ∧ (len : ℤ) ≤ b.inputAvail ∧ b.assertBuffer ∧ b.assertIo ∧
      (blocklen len : ℤ) ≤ (b.size : ℤ) - b.endBlock - 1 ∧
      (b.used < b.wrap - b.start ∨ (blocklen len : ℤ) ≤ (b.start : ℤ) - b.endBlock - 1) ∧
      (b.addPacket len).assertBuffer then
    let b := (b.addPacket len).updateInput
    (if b.used = 1 + blocklen len then b.updateOutput else some b).filter assertIo
  else none

/-- The first packet, of `1 + blocklen len` blocks, is dropped. -/
def dropPacket (b : ChunkBuffer2) (len : ℕ) : ChunkBuffer2 :=
  let start := b.start + (1 + blocklen len)
  let b := { b with used := b.used - (1 + blocklen len) }
  if start = b.wrap then { b with start := 0, wrap := b.size } else { b with start }

/-- `ChunkBuffer2_ConsumePacket` -/
def consumePacket (b : ChunkBuffer2) : Option ChunkBuffer2 :=
  (b.lenAt b.start).bind fun len =>
    if b.outputDest.isSome ∧ b.assertBuffer ∧ b.assertIo ∧ 1 ≤ b.wrap - b.start ∧ 1 ≤ b.used ∧
        b.start + blocklen len + 1 ≤ b.wrap ∧ blocklen len + 1 ≤ b.used ∧
        (b.dropPacket len).assertBuffer then
      let dataWrapped := b.used ≥ b.wrap - b.start
      let b := b.dropPacket len
      (if dataWrapped then b.updateInput else b).updateOutput.filter assertIo
    else none

end ChunkBuffer2

end Badvpn
