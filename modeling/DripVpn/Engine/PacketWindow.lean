import DripVpn.Foundations.Simulation
import Mathlib.Data.Nat.Bitwise
import Mathlib.Tactic.Ring

/-!
# The packet window filter

`PacketWindowFilter` decides for every packet id of a session whether it is accepted: each id at most
once, and none that is too far behind the highest one. The filter keeps only the highest id and one
bit for each of the last ids, in a ring of 128 blocks of 64 bits; blocks are cleared when the window
moves over them, and a reset clears a single block.

`Window` says what the filter is for, with all accepted ids in memory. `represents_validatePacketId`
is the step of the simulation: the ring holds the bits of the blocks behind the highest id, whatever
else is left in it. `validatePacketId_refines` follows for every sequence of packets and resets.
-/

namespace Engine

/-! ## The ring -/

/-- `1 << 6 == 64` bits -/
def BLOCK_BIT_LOG : UInt64 := 6

def BLOCK_BITS : UInt64 := (1 : UInt64) <<< BLOCK_BIT_LOG

def RING_BLOCKS : UInt64 := (1 : UInt64) <<< (7 : UInt64)

def WINDOW_SIZE : UInt64 := (RING_BLOCKS - 1) * BLOCK_BITS

def BLOCK_MASK : UInt64 := RING_BLOCKS - 1

def BIT_MASK : UInt64 := BLOCK_BITS - 1

/-- `[u64; RING_BLOCKS]` -/
abbrev Ring := Vector UInt64 128

/-- A masked block number is an index of the ring. -/
theorem and_blockMask_lt (i : UInt64) : (i &&& BLOCK_MASK).toNat < 128 := by
  have hmask : BLOCK_MASK.toNat = 127 := by decide
  rw [UInt64.toNat_and, hmask]
  exact Nat.lt_of_le_of_lt Nat.and_le_right (by decide)

namespace Ring

/-- The word of block `i`. -/
def word (ring : Ring) (i : UInt64) : UInt64 := ring.get ⟨(i &&& BLOCK_MASK).toNat, and_blockMask_lt i⟩

/-- Replace the word of block `i`. -/
def setWord (ring : Ring) (i w : UInt64) : Ring :=
  ring.set (i &&& BLOCK_MASK).toNat w (and_blockMask_lt i)

/-- The loop `for d in 1..=diff` that clears the blocks after `current`. -/
def clearAfter (ring : Ring) (current : UInt64) : ℕ → Ring
  | 0 => ring
  | d + 1 => (clearAfter ring current d).setWord (current + UInt64.ofNat (d + 1)) 0

end Ring

/-! ## The filter -/

/-- Packet window for checking that a packet id is in the sliding window. -/
structure PacketWindowFilter where
  lastPacketId : UInt64
  packetRing : Ring

namespace PacketWindowFilter

/-- Create an empty filter. -/
def new : PacketWindowFilter := ⟨0, Vector.replicate 128 0⟩

/-- Reset the filter: only the first block is cleared. -/
def reset (f : PacketWindowFilter) : PacketWindowFilter := ⟨0, f.packetRing.set 0 0⟩

/-- The last part of `validate_packet_id`: check and set the bit of the id. -/
def checkAndSet (f : PacketWindowFilter) (packetId : UInt64) : Bool × PacketWindowFilter :=
  let indexBlock := packetId >>> BLOCK_BIT_LOG
  let indexBit := packetId &&& BIT_MASK
  let old := f.packetRing.word indexBlock
  let new := old ||| (1 <<< indexBit)
  (old != new, { f with packetRing := f.packetRing.setWord indexBlock new })

/-- The middle part of `validate_packet_id`: move the window forward. -/
def moveForward (f : PacketWindowFilter) (packetId : UInt64) : PacketWindowFilter :=
  let current := f.lastPacketId >>> BLOCK_BIT_LOG
  let diff := packetId >>> BLOCK_BIT_LOG - current
  -- more blocks than the ring has: clear the whole filter
  let diff := if diff > RING_BLOCKS then RING_BLOCKS else diff
  ⟨packetId, f.packetRing.clearAfter current diff.toNat⟩

/-- Check and remember the packet id; ids from `limit` on are always rejected. -/
def validatePacketId (f : PacketWindowFilter) (packetId limit : UInt64) :
    Bool × PacketWindowFilter :=
  if packetId ≥ limit then (false, f)
  else if packetId > f.lastPacketId then (f.moveForward packetId).checkAndSet packetId
  else if f.lastPacketId - packetId > WINDOW_SIZE then (false, f)  -- behind the current window
  else f.checkAndSet packetId

end PacketWindowFilter

/-- What is done with a filter. -/
inductive WindowAction
  | validate (packetId limit : UInt64)
  | reset
deriving DecidableEq

/-- The filter as a machine that shows its decisions. -/
def packetFilter : Reactive.Machine PacketWindowFilter WindowAction Bool where
  init := .new
  step f
    | .validate packetId limit =>
      let (accepted, f') := f.validatePacketId packetId limit
      some (f', [accepted])
    | .reset => some (f.reset, [])

/-! ## What the filter is for -/

/-- All ids accepted since the last reset, and the highest of them. -/
structure Window where
  last : ℕ
  seen : List ℕ

namespace Window

/-- An id is accepted if it is below the limit, not too old and new. -/
def accepts (w : Window) (packetId limit : ℕ) : Bool :=
  decide (packetId < limit ∧ w.last ≤ packetId + 8128 ∧ packetId ∉ w.seen)

/-- Remember an accepted id. -/
def accept (w : Window) (packetId : ℕ) : Window := ⟨max w.last packetId, packetId :: w.seen⟩

end Window

/-- The window as a machine that shows its decisions. -/
def packetWindow : Reactive.Machine Window WindowAction Bool where
  init := ⟨0, []⟩
  step w
    | .validate packetId limit =>
      if w.accepts packetId.toNat limit.toNat then some (w.accept packetId.toNat, [true])
      else some (w, [false])
    | .reset => some (⟨0, []⟩, [])

/-! ## Blocks and bits -/

theorem toNat_windowSize : WINDOW_SIZE.toNat = 8128 := by decide

theorem toNat_ringBlocks : RING_BLOCKS.toNat = 128 := by decide

theorem toNat_block (packetId : UInt64) : (packetId >>> BLOCK_BIT_LOG).toNat = packetId.toNat / 64 := by
  rw [UInt64.toNat_shiftRight, Nat.shiftRight_eq_div_pow]
  rfl

theorem toNat_and_blockMask (i : UInt64) : (i &&& BLOCK_MASK).toNat = i.toNat % 128 := by
  have hmask : BLOCK_MASK.toNat = 2 ^ 7 - 1 := by decide
  rw [UInt64.toNat_and, hmask, Nat.and_two_pow_sub_one_eq_mod]

theorem toNat_and_bitMask (packetId : UInt64) : (packetId &&& BIT_MASK).toNat = packetId.toNat % 64 := by
  have hmask : BIT_MASK.toNat = 2 ^ 6 - 1 := by decide
  rw [UInt64.toNat_and, hmask, Nat.and_two_pow_sub_one_eq_mod]

/-- Setting bit `i` of a word. -/
theorem testBit_or_shiftLeft (w i : UInt64) (hi : i.toNat < 64) (j : ℕ) :
    (w ||| (1 <<< i)).toNat.testBit j = (w.toNat.testBit j || decide (i.toNat = j)) := by
  have hbit : ((1 : UInt64) <<< i).toNat = 2 ^ i.toNat := by
    rw [UInt64.toNat_shiftLeft, Nat.mod_eq_of_lt hi, UInt64.toNat_one, Nat.one_shiftLeft,
      Nat.mod_eq_of_lt (Nat.pow_lt_pow_right (by decide) hi)]
  rw [UInt64.toNat_or, Nat.testBit_or, hbit, Nat.testBit_two_pow]

namespace Ring

/-- The bit of packet id `n`. -/
def bit (ring : Ring) (n : ℕ) : Bool :=
  (ring.get ⟨n / 64 % 128, Nat.mod_lt _ (by decide)⟩).toNat.testBit (n % 64)

theorem get_setWord (ring : Ring) (i w : UInt64) (j : Fin 128) :
    (ring.setWord i w).get j = if i.toNat % 128 = j then w else ring.get j := by
  show (ring.set (i &&& BLOCK_MASK).toNat w (and_blockMask_lt i))[j.val] = _
  rw [Vector.getElem_set, toNat_and_blockMask]
  rfl

theorem word_eq_get (ring : Ring) (i : UInt64) :
    ring.word i = ring.get ⟨i.toNat % 128, Nat.mod_lt _ (by decide)⟩ := by
  rw [word]
  congr 1
  exact Fin.ext (toNat_and_blockMask i)

theorem toNat_add_ofNat {current : UInt64} {d : ℕ} (h : current.toNat + d < 2 ^ 64) :
    (current + UInt64.ofNat d).toNat = current.toNat + d := by
  have hd : d < UInt64.size := Nat.lt_of_le_of_lt (Nat.le_add_left d current.toNat) h
  rw [UInt64.toNat_add, UInt64.toNat_ofNat_of_lt' hd, Nat.mod_eq_of_lt h]

/-- A block that is none of those after `current` stays. -/
theorem get_clearAfter_of_ne (ring : Ring) {current : UInt64} {d : ℕ} {j : Fin 128}
    (hd : current.toNat + d < 2 ^ 64)
    (h : ∀ e, 1 ≤ e → e ≤ d → (current.toNat + e) % 128 ≠ j) :
    (ring.clearAfter current d).get j = ring.get j := by
  induction d with
  | zero => rfl
  | succ d ih =>
    rw [clearAfter, get_setWord, toNat_add_ofNat hd, if_neg (h (d + 1) (by omega) le_rfl)]
    exact ih (by omega) fun e hpos hle => h e hpos (by omega)

/-- The blocks after `current` are cleared. -/
theorem get_clearAfter_of_eq (ring : Ring) {current : UInt64} {d e : ℕ} {j : Fin 128}
    (hd : current.toNat + d < 2 ^ 64) (hpos : 1 ≤ e) (hle : e ≤ d)
    (h : (current.toNat + e) % 128 = j) : (ring.clearAfter current d).get j = 0 := by
  induction d with
  | zero => omega
  | succ d ih =>
    rw [clearAfter, get_setWord, toNat_add_ofNat hd]
    split
    · rfl
    next hne =>
      have hlt : e ≠ d + 1 := by
        rintro rfl
        exact hne h
      exact ih (by omega) (by omega)

end Ring

/-! ## The ring holds the window -/

namespace PacketWindowFilter

/-- The filter holds the window: of the blocks up to the one of the highest id, the last 128 are in
the ring. What the other bits of the ring are does not matter. -/
structure Represents (f : PacketWindowFilter) (w : Window) : Prop where
  last : f.lastPacketId.toNat = w.last
  bit : ∀ n, n / 64 ≤ w.last / 64 → w.last / 64 < n / 64 + 128 →
    (f.packetRing.bit n = true ↔ n ∈ w.seen)
  seen : ∀ n ∈ w.seen, n ≤ w.last

theorem fst_checkAndSet (f : PacketWindowFilter) (packetId : UInt64) :
    (f.checkAndSet packetId).1 = !f.packetRing.bit packetId.toNat := by
  have hbit : (packetId &&& BIT_MASK).toNat = packetId.toNat % 64 := toNat_and_bitMask packetId
  have hlt : packetId.toNat % 64 < 64 := Nat.mod_lt _ (by decide)
  have hword : f.packetRing.word (packetId >>> BLOCK_BIT_LOG) =
      f.packetRing.get ⟨packetId.toNat / 64 % 128, Nat.mod_lt _ (by decide)⟩ := by
    rw [Ring.word_eq_get]
    simp only [toNat_block]
  rw [checkAndSet, hword, Ring.bit]
  generalize f.packetRing.get _ = w
  -- the word changes exactly if the bit was not set
  have hset := testBit_or_shiftLeft w (packetId &&& BIT_MASK) (hbit ▸ hlt)
  cases hw : w.toNat.testBit (packetId.toNat % 64) with
  | false =>
    rw [Bool.not_false, bne_iff_ne]
    intro heq
    have := hset (packetId.toNat % 64)
    rw [← heq, hw, hbit] at this
    simp at this
  | true =>
    have heq : w = w ||| (1 <<< (packetId &&& BIT_MASK)) := by
      refine UInt64.toNat_inj.mp (Nat.eq_of_testBit_eq fun j => ?_)
      rw [hset j, hbit]
      by_cases hj : packetId.toNat % 64 = j
      · rw [← hj, hw, Bool.true_or]
      · rw [decide_eq_false hj, Bool.or_false]
    simp only [← heq, bne_self_eq_false, Bool.not_true]

theorem bit_checkAndSet (f : PacketWindowFilter) (packetId : UInt64) (n : ℕ) :
    (f.checkAndSet packetId).2.packetRing.bit n = (f.packetRing.bit n ||
      decide (packetId.toNat / 64 % 128 = n / 64 % 128 ∧ packetId.toNat % 64 = n % 64)) := by
  have hbit : (packetId &&& BIT_MASK).toNat = packetId.toNat % 64 := toNat_and_bitMask packetId
  have hlt : packetId.toNat % 64 < 64 := Nat.mod_lt _ (by decide)
  simp only [checkAndSet, Ring.bit, Ring.get_setWord, toNat_block]
  by_cases hslot : packetId.toNat / 64 % 128 = n / 64 % 128
  · rw [if_pos hslot, testBit_or_shiftLeft _ _ (hbit ▸ hlt), Ring.word_eq_get, hbit]
    simp only [toNat_block, hslot, true_and]
  · rw [if_neg hslot, decide_eq_false (fun h => hslot h.1), Bool.or_false]

/-- Setting the bit of an id of the window. -/
theorem Represents.checkAndSet {f : PacketWindowFilter} {w : Window} {packetId : UInt64}
    (h : f.Represents w) (hle : packetId.toNat ≤ w.last) (hwindow : w.last ≤ packetId.toNat + 8128) :
    (f.checkAndSet packetId).2.Represents ⟨w.last, packetId.toNat :: w.seen⟩ := by
  refine ⟨h.last, fun n hblock hnear => ?_, ?_⟩
  · dsimp only at hblock hnear ⊢
    rw [bit_checkAndSet, Bool.or_eq_true, h.bit n hblock hnear, decide_eq_true_iff, List.mem_cons,
      or_comm]
    refine or_congr ⟨fun ⟨hslot, hbit⟩ => ?_, fun heq => heq ▸ ⟨rfl, rfl⟩⟩ Iff.rfl
    -- two ids of the window with the same slot and bit are equal
    omega
  · intro n hn
    rcases List.mem_cons.mp hn with rfl | hn
    · exact hle
    · exact h.seen n hn

/-- How many blocks are cleared, without the machine arithmetic. -/
theorem packetRing_moveForward (f : PacketWindowFilter) {packetId : UInt64}
    (hle : f.lastPacketId.toNat ≤ packetId.toNat) :
    (f.moveForward packetId).packetRing = f.packetRing.clearAfter (f.lastPacketId >>> BLOCK_BIT_LOG)
      (min (packetId.toNat / 64 - f.lastPacketId.toNat / 64) 128) := by
  have hdiff : (packetId >>> BLOCK_BIT_LOG - f.lastPacketId >>> BLOCK_BIT_LOG).toNat =
      packetId.toNat / 64 - f.lastPacketId.toNat / 64 := by
    have hblocks : f.lastPacketId >>> BLOCK_BIT_LOG ≤ packetId >>> BLOCK_BIT_LOG := by
      rw [UInt64.le_iff_toNat_le, toNat_block, toNat_block]
      exact Nat.div_le_div_right hle
    rw [UInt64.toNat_sub_of_le _ _ hblocks, toNat_block, toNat_block]
  rw [moveForward]
  dsimp only
  congr 1
  rw [apply_ite UInt64.toNat, hdiff, toNat_ringBlocks]
  simp only [gt_iff_lt, UInt64.lt_iff_toNat_lt, hdiff, toNat_ringBlocks]
  split <;> omega

/-- Moving the window forward forgets what falls out of it and clears what comes in. -/
theorem Represents.moveForward {f : PacketWindowFilter} {w : Window} {packetId : UInt64}
    (h : f.Represents w) (hlt : w.last < packetId.toNat) :
    (f.moveForward packetId).Represents ⟨packetId.toNat, w.seen⟩ := by
  have hid : packetId.toNat < 2 ^ 64 := packetId.toNat_lt
  have hring := packetRing_moveForward f (h.last ▸ hlt.le)
  have hcurrent : (f.lastPacketId >>> BLOCK_BIT_LOG).toNat = w.last / 64 := by
    rw [toNat_block, h.last]
  refine ⟨rfl, fun n hblock hnear => ?_, fun n hn => (h.seen n hn).trans hlt.le⟩
  dsimp only at hblock hnear ⊢
  rw [hring, Ring.bit, h.last]
  rcases Nat.lt_or_ge (w.last / 64) (n / 64) with hnew | hold
  · -- a block that comes into the window is cleared, and none of its ids was seen
    have hunseen : n ∉ w.seen := fun hn => by
      have := h.seen n hn
      omega
    -- if the window jumps over the whole ring, the block is cleared on behalf of an earlier one
    have hcleared : ((f.lastPacketId >>> BLOCK_BIT_LOG).toNat +
        ((n / 64 - w.last / 64 - 1) % 128 + 1)) % 128 = n / 64 % 128 := by
      omega
    rw [Ring.get_clearAfter_of_eq f.packetRing (by omega) (by omega) (by omega) hcleared]
    simp [hunseen]
  · -- a block that stays in the window has another slot than those that are cleared
    rw [Ring.get_clearAfter_of_ne f.packetRing (by omega)]
    · exact h.bit n hold (by omega)
    · intro e hpos hle heq
      rw [hcurrent] at heq
      dsimp only at heq
      omega

theorem represents_new : new.Represents ⟨0, []⟩ := by
  refine ⟨rfl, fun n _ _ => ?_, fun n hn => absurd hn List.not_mem_nil⟩
  have hword : ∀ j, (Vector.replicate 128 (0 : UInt64)).get j = 0 := fun j =>
    Vector.getElem_replicate j.isLt
  simp [new, Ring.bit, hword]

/-- A reset leaves old bits in the ring, but only where the window will clear them. -/
theorem Represents.reset {f : PacketWindowFilter} {w : Window} (_ : f.Represents w) :
    f.reset.Represents ⟨0, []⟩ := by
  refine ⟨rfl, fun n hblock _ => ?_, fun n hn => absurd hn List.not_mem_nil⟩
  dsimp only at hblock ⊢
  obtain hzero : n / 64 = 0 := by omega
  have hword : (f.packetRing.set 0 0).get 0 = 0 := Vector.getElem_set_self (by decide)
  simp only [PacketWindowFilter.reset, Ring.bit, hzero]
  simp [hword]

/-- An id that was seen changes nothing. -/
theorem Represents.of_mem {f : PacketWindowFilter} {last n : ℕ} {seen : List ℕ}
    (h : f.Represents ⟨last, n :: seen⟩) (hn : n ∈ seen) : f.Represents ⟨last, seen⟩ := by
  refine ⟨h.last, fun m hblock hnear => (h.bit m hblock hnear).trans ?_, fun m hm =>
    h.seen m (List.mem_cons_of_mem n hm)⟩
  rw [List.mem_cons, or_iff_right_of_imp]
  rintro rfl
  exact hn

/-- Checking an id of the window decides whether it is new, and remembers it. -/
theorem Represents.checked {f : PacketWindowFilter} {w : Window} {packetId : UInt64}
    (h : f.Represents w) (hle : packetId.toNat ≤ w.last) (hwindow : w.last ≤ packetId.toNat + 8128) :
    (f.checkAndSet packetId).1 = decide (packetId.toNat ∉ w.seen) ∧
      (f.checkAndSet packetId).2.Represents
        (if packetId.toNat ∉ w.seen then w.accept packetId.toNat else w) := by
  have hset := h.checkAndSet hle hwindow
  have hbit := h.bit packetId.toNat (Nat.div_le_div_right hle) (by omega)
  rw [fst_checkAndSet]
  by_cases hseen : packetId.toNat ∈ w.seen
  · refine ⟨by simp [hseen, hbit.mpr hseen], ?_⟩
    rw [if_neg (not_not.mpr hseen)]
    exact hset.of_mem hseen
  · have hfalse : f.packetRing.bit packetId.toNat = false :=
      Bool.eq_false_iff.mpr fun ht => hseen (hbit.mp ht)
    refine ⟨by simp [hseen, hfalse], ?_⟩
    rw [if_pos hseen, Window.accept, max_eq_left hle]
    exact hset

/-- One packet id: the filter decides as the window does and goes on holding it. -/
theorem represents_validatePacketId {f : PacketWindowFilter} {w : Window} (packetId limit : UInt64)
    (h : f.Represents w) :
    (f.validatePacketId packetId limit).1 = w.accepts packetId.toNat limit.toNat ∧
      (f.validatePacketId packetId limit).2.Represents
        (if w.accepts packetId.toNat limit.toNat then w.accept packetId.toNat else w) := by
  simp only [validatePacketId, Window.accepts, decide_eq_true_eq]
  by_cases hlimit : packetId.toNat < limit.toNat
  · rw [if_neg (by rw [ge_iff_le, UInt64.le_iff_toNat_le]; omega)]
    by_cases hforward : w.last < packetId.toNat
    · -- an id above all others is new
      have hmoved := (h.moveForward hforward).checked le_rfl (Nat.le_add_right _ _)
      have hunseen : packetId.toNat ∉ w.seen := fun hn => absurd (h.seen _ hn) (by omega)
      have hacc : packetId.toNat < limit.toNat ∧ w.last ≤ packetId.toNat + 8128 ∧
          packetId.toNat ∉ w.seen := ⟨hlimit, by omega, hunseen⟩
      rw [if_pos (by rw [gt_iff_lt, UInt64.lt_iff_toNat_lt, h.last]; exact hforward), if_pos hacc,
        decide_eq_true hacc]
      simp only [hunseen, not_false_eq_true, decide_true, if_true, Window.accept, max_self] at hmoved
      refine ⟨hmoved.1, ?_⟩
      rw [Window.accept, max_eq_right hforward.le]
      exact hmoved.2
    · rw [if_neg (by rw [gt_iff_lt, UInt64.lt_iff_toNat_lt, h.last]; exact hforward)]
      have hsub : (f.lastPacketId - packetId).toNat = w.last - packetId.toNat := by
        rw [UInt64.toNat_sub_of_le _ _ (by rw [UInt64.le_iff_toNat_le, h.last]; omega), h.last]
      by_cases hbehind : w.last - packetId.toNat > 8128
      · have hnot : ¬ (packetId.toNat < limit.toNat ∧ w.last ≤ packetId.toNat + 8128 ∧
            packetId.toNat ∉ w.seen) := by omega
        rw [if_pos (by rw [gt_iff_lt, UInt64.lt_iff_toNat_lt, hsub, toNat_windowSize]; exact hbehind),
          if_neg hnot, decide_eq_false hnot]
        exact ⟨rfl, h⟩
      · rw [if_neg (by rw [gt_iff_lt, UInt64.lt_iff_toNat_lt, hsub, toNat_windowSize]; exact hbehind)]
        have hnear : w.last ≤ packetId.toNat + 8128 := by omega
        simp only [hlimit, hnear, true_and]
        exact h.checked (by omega) hnear
  · have hnot : ¬ (packetId.toNat < limit.toNat ∧ w.last ≤ packetId.toNat + 8128 ∧
        packetId.toNat ∉ w.seen) := fun hacc => hlimit hacc.1
    rw [if_pos (by rw [ge_iff_le, UInt64.le_iff_toNat_le]; omega), if_neg hnot, decide_eq_false hnot]
    exact ⟨rfl, h⟩

/-- The filter is simulated by the window. -/
theorem simulation : packetFilter.Simulation packetWindow Represents where
  init := represents_new
  step {f w a f' o} h hstep := by
    cases a with
    | validate packetId limit =>
      obtain ⟨hdecision, hnext⟩ := represents_validatePacketId packetId limit h
      simp only [packetFilter, Option.some.injEq, Prod.mk.injEq] at hstep
      obtain ⟨rfl, rfl⟩ := hstep
      rw [hdecision]
      simp only [packetWindow]
      cases hacc : w.accepts packetId.toNat limit.toNat with
      | true => exact ⟨_, rfl, by simpa [hacc] using hnext⟩
      | false => exact ⟨_, rfl, by simpa [hacc] using hnext⟩
    | reset =>
      simp only [packetFilter, Option.some.injEq, Prod.mk.injEq] at hstep
      obtain ⟨rfl, rfl⟩ := hstep
      exact ⟨_, rfl, h.reset⟩

/-- **Replay protection.** Whatever packet ids arrive in whatever order, with whatever limits and
resets in between, the ring of bits takes the decisions of the window that remembers every accepted
id. -/
theorem validatePacketId_refines (actions : List WindowAction) :
    ∃ f w decisions, packetFilter.run packetFilter.init actions = some (f, decisions) ∧
      packetWindow.run packetWindow.init actions = some (w, decisions) := by
  have htotal : ∀ f a, ∃ f' o, packetFilter.step f a = some (f', o) := by
    intro f a
    cases a with
    | validate packetId limit => exact ⟨_, _, rfl⟩
    | reset => exact ⟨_, _, rfl⟩
  obtain ⟨f, decisions, hrun⟩ := Reactive.Machine.exists_run htotal packetFilter.init actions
  obtain ⟨w, hrun', -⟩ := simulation.run hrun
  exact ⟨f, w, decisions, hrun, hrun'⟩

end PacketWindowFilter

end Engine
