import DripVpn.Tun2socks.ChunkBuffer2

/-!
# How packets lie in a circular buffer

A buffer that holds packets has one of two shapes (`ChunkBuffer2.Layout`): the packets lie one behind the
other and there is room for another one behind the last, or the first of them reach up to `wrap` and the
others start at block 0. No packet starts within the last blocks of the buffer, so the room that is left
out at `wrap` is never needed to let the packets in front of it go on.
-/

namespace Badvpn

/-! ## Packets in memory -/

namespace Blocks

/-- A packet whose header is block `i`. Packets start up to block `last` and have up to `mtu` blocks of
data. -/
structure Holds (m : Blocks) (last mtu i : ℕ) (p : Bytes) : Prop where
  len : m i = .len p.length
  read : m.read (i + 1) p.length = p
  start : i ≤ last
  fits : blocklen p.length ≤ mtu

/-- Packets that fill the blocks from `i` up to `j`. -/
def Packed (m : Blocks) (last mtu i j : ℕ) : List Bytes → Prop
  | [] => i = j
  | p :: ps => m.Holds last mtu i p ∧ Packed m last mtu (i + 1 + blocklen p.length) j ps

variable {m m' : Blocks} {last mtu i j k : ℕ} {p : Bytes} {ps : List Bytes}

theorem Holds.congr (h : m.Holds last mtu i p)
    (hm : ∀ k, i ≤ k → k < i + 1 + blocklen p.length → m k = m' k) : m'.Holds last mtu i p where
  len := (hm i le_rfl (by omega)).symm.trans h.len
  read := by
    rw [← read_congr fun k hik hk => hm k (by omega) (by omega)]
    exact h.read
  start := h.start
  fits := h.fits

theorem Packed.le (h : m.Packed last mtu i j ps) : i ≤ j := by
  induction ps generalizing i with
  | nil => exact le_of_eq h
  | cons p ps ih =>
    have := ih h.2
    omega

theorem Packed.congr (h : m.Packed last mtu i j ps) (hm : ∀ k, i ≤ k → k < j → m k = m' k) :
    m'.Packed last mtu i j ps := by
  induction ps generalizing i with
  | nil => exact h
  | cons p ps ih =>
    have hle := h.2.le
    exact ⟨h.1.congr fun k hik hk => hm k hik (by omega), ih h.2 fun k hik hk => hm k (by omega) hk⟩

theorem Packed.concat (h : m.Packed last mtu i j ps) (hp : m.Holds last mtu j p) :
    m.Packed last mtu i (j + 1 + blocklen p.length) (ps ++ [p]) := by
  induction ps generalizing i with
  | nil =>
    cases h
    exact ⟨hp, rfl⟩
  | cons q ps ih => exact ⟨h.1, ih h.2⟩

theorem Packed.length_le (h : m.Packed last mtu i j ps) : j ≤ i + ps.length * (mtu + 1) := by
  induction ps generalizing i with
  | nil => exact le_of_eq (h.symm.trans (by rw [List.length_nil, Nat.zero_mul, Nat.add_zero]))
  | cons p ps ih =>
    have hrest := ih h.2
    have hfits := h.1.fits
    rw [List.length_cons, Nat.succ_mul]
    omega

/-- Where there are blocks there is a packet, which starts at the first of them. -/
theorem Packed.exists_cons (h : m.Packed last mtu i j ps) (hij : i < j) :
    ∃ p qs, ps = p :: qs ∧ m.Holds last mtu i p ∧
      m.Packed last mtu (i + 1 + blocklen p.length) j qs := by
  cases ps with
  | nil => exact absurd h (by intro h; exact absurd h (Nat.ne_of_lt hij))
  | cons p qs => exact ⟨p, qs, rfl, h.1, h.2⟩

end Blocks

namespace ChunkBuffer2

/-! ## The two shapes -/

/-- The packets that are in a buffer, the last of which starts at block `last` at most. -/
inductive Layout (b : ChunkBuffer2) (last : ℕ) (ps : List Bytes) : Prop
  | straight (hwrap : b.wrap = b.size) (hend : b.start + b.used ≤ last)
      (hps : b.buffer.Packed last b.mtu b.start (b.start + b.used) ps)
  | wrapped (first second : List Bytes) (stop : ℕ) (hused : b.used + b.start = b.wrap + stop)
      (hstart : b.start < b.wrap) (hwrap : b.wrap ≤ b.size) (hroom : b.size ≤ b.wrap + b.mtu)
      (hstop : stop ≤ b.start) (hps : ps = first ++ second)
      (hfirst : b.buffer.Packed last b.mtu b.start b.wrap first)
      (hsecond : b.buffer.Packed last b.mtu 0 stop second)

/-- The largest packet fits in at the end. -/
def HasRoom (b : ChunkBuffer2) : Prop := (b.mtu : ℤ) + 1 ≤ b.free

variable {b : ChunkBuffer2} {last : ℕ} {p : Bytes} {ps : List Bytes}

theorem endBlock_of_lt (h : b.start + b.used < b.wrap) : b.endBlock = b.start + b.used :=
  if_neg (by omega)

theorem endBlock_of_le {stop : ℕ} (h : b.used + b.start = b.wrap + stop) (hstart : b.start ≤ b.wrap) :
    b.endBlock = stop := by
  rw [endBlock, if_pos (by omega)]
  omega

theorem free_of_lt (h : b.start + b.used < b.wrap) : b.free = (b.size : ℤ) - b.endBlock :=
  if_neg (by omega)

theorem free_of_le (h : b.wrap ≤ b.start + b.used) : b.free = (b.start : ℤ) - b.endBlock :=
  if_pos (by omega)

/-- In both shapes the assertions about the buffer hold. -/
theorem Layout.assertBuffer (h : b.Layout last ps) (hsize : b.size = last + 1 + b.mtu) :
    b.assertBuffer = true := by
  rw [ChunkBuffer2.assertBuffer, decide_eq_true_eq]
  cases h with
  | straight hwrap hend hps => omega
  | wrapped first second stop hused hstart hwrap hroom hstop hps hfirst hsecond => omega

/-- The first packet lies at the start, in one piece. -/
theorem Layout.head (h : b.Layout last (p :: ps)) (hsize : b.size = last + 1 + b.mtu) :
    b.buffer.Holds last b.mtu b.start p ∧ b.start + blocklen p.length + 1 ≤ b.wrap ∧
      blocklen p.length + 1 ≤ b.used := by
  cases h with
  | straight hwrap hend hps =>
    have hle := hps.2.le
    exact ⟨hps.1, by omega, by omega⟩
  | wrapped first second stop hused hstart hwrap hroom hstop hps hfirst hsecond =>
    obtain ⟨q, qs, rfl, hq, hqs⟩ := hfirst.exists_cons hstart
    obtain ⟨rfl, -⟩ := List.cons.inj hps
    have hle := hqs.le
    exact ⟨hq, by omega, by omega⟩

theorem Layout.used_eq_zero (h : b.Layout last []) : b.used = 0 := by
  cases h with
  | straight hwrap hend hps =>
    have : b.start = b.start + b.used := hps
    omega
  | wrapped first second stop hused hstart hwrap hroom hstop hps hfirst hsecond =>
    obtain ⟨q, qs, rfl, -, -⟩ := hfirst.exists_cons hstart
    cases hps

/-- Packets never start behind `last`, so there is always room behind the last one for the largest packet,
though it may not be free yet. -/
theorem Layout.endBlock_le (h : b.Layout last ps) (hsize : b.size = last + 1 + b.mtu) :
    b.endBlock ≤ last := by
  cases h with
  | straight hwrap hend hps =>
    rw [endBlock_of_lt (by omega)]
    exact hend
  | wrapped first second stop hused hstart hwrap hroom hstop hps hfirst hsecond =>
    -- the others end before a packet that starts at `last` at most
    obtain ⟨q, qs, rfl, hq, -⟩ := hfirst.exists_cons hstart
    rw [endBlock_of_le hused hstart.le]
    exact hstop.trans hq.start

/-- A buffer for `num` packets has room while it holds fewer. -/
theorem Layout.hasRoom (h : b.Layout last ps) (hsize : b.size = last + 1 + b.mtu) {num : ℕ}
    (hnum : b.size = (1 + b.mtu) * (num + 1)) (hlt : ps.length < num) : b.HasRoom := by
  cases h with
  | straight hwrap hend hps =>
    rw [HasRoom, free_of_lt (by omega), endBlock_of_lt (by omega)]
    omega
  | wrapped first second stop hused hstart hwrap hroom hstop hps hfirst hsecond =>
    have hfirst' := hfirst.length_le
    have hsecond' := hsecond.length_le
    have hlen : ps.length = first.length + second.length := by rw [hps, List.length_append]
    -- two of the largest packets would still fit in, and what `wrap` leaves out is less than one
    have hmul : (first.length + second.length + 2) * (b.mtu + 1) ≤ (1 + b.mtu) * (num + 1) := by
      rw [Nat.mul_comm (1 + b.mtu), Nat.add_comm 1]
      exact Nat.mul_le_mul_right _ (by omega)
    rw [Nat.add_mul, Nat.add_mul] at hmul
    rw [HasRoom, free_of_le (by omega), endBlock_of_le hused hstart.le]
    omega

/-! ## Adding and dropping a packet -/

theorem Layout.add (h : b.Layout last ps) (hsize : b.size = last + 1 + b.mtu) (hroom : b.HasRoom)
    (hfits : blocklen p.length ≤ b.mtu) (hread : b.buffer.read (b.endBlock + 1) p.length = p) :
    (b.addPacket p.length).Layout last (ps ++ [p]) := by
  have hend := h.endBlock_le hsize
  -- the header at the end belongs to none of the packets, nor to the data of the new one
  have hother : ∀ k, k ≠ b.endBlock → b.buffer k = (b.addPacket p.length).buffer k := fun k hk =>
    (Function.update_of_ne hk _ _).symm
  have hp : (b.addPacket p.length).buffer.Holds last b.mtu b.endBlock p :=
    { len := Function.update_self _ _ _
      read := by
        rw [← Blocks.read_congr fun k hk _ => hother k (by omega)]
        exact hread
      start := hend
      fits := hfits }
  cases h with
  | straight hwrap hend' hps =>
    have hblock := endBlock_of_lt (b := b) (by omega)
    have hps' := (hps.congr fun k _ hk => hother k (by omega)).concat (hblock ▸ hp)
    by_cases hlast : b.start + b.used + 1 + blocklen p.length ≤ last
    · -- there is room for another packet behind this one
      have hwrap' : (b.addPacket p.length).wrap = b.wrap := if_neg (by omega)
      refine .straight (hwrap'.trans hwrap) ?_ ?_
      · change b.start + (b.used + (1 + blocklen p.length)) ≤ last
        omega
      · change (b.addPacket p.length).buffer.Packed last b.mtu b.start
          (b.start + (b.used + (1 + blocklen p.length))) (ps ++ [p])
        have heq : b.start + (b.used + (1 + blocklen p.length)) =
          b.start + b.used + 1 + blocklen p.length := by omega
        rw [heq]
        exact hps'
    · -- the next packet has to go to the beginning
      have hwrap' : (b.addPacket p.length).wrap = b.endBlock + 1 + blocklen p.length :=
        if_pos ⟨by omega, by omega⟩
      refine .wrapped (ps ++ [p]) [] 0 ?_ ?_ ?_ ?_ (Nat.zero_le _) (List.append_nil _).symm ?_ rfl
      · rw [hwrap', hblock]
        change b.used + (1 + blocklen p.length) + b.start = _
        omega
      · rw [hwrap', hblock]
        change b.start < _
        omega
      · rw [hwrap', hblock]
        change _ ≤ b.size
        omega
      · rw [hwrap', hblock]
        change b.size ≤ _ + b.mtu
        omega
      · rw [hwrap', hblock]
        exact hps'
  | wrapped first second stop hused hstart hwrap hroom' hstop hps hfirst hsecond =>
    -- the packet goes between the second part and the start
    have hblock := endBlock_of_le hused hstart.le
    have hfree := free_of_le (b := b) (by omega)
    rw [HasRoom] at hroom
    have hwrap' : (b.addPacket p.length).wrap = b.wrap := if_neg (by omega)
    refine .wrapped first (second ++ [p]) (stop + 1 + blocklen p.length) ?_ ?_ ?_ ?_ ?_ ?_ ?_ ?_
    · rw [hwrap']
      change b.used + (1 + blocklen p.length) + b.start = _
      omega
    · rw [hwrap']
      exact hstart
    · rw [hwrap']
      exact hwrap
    · rw [hwrap']
      exact hroom'
    · change _ ≤ b.start
      omega
    · rw [hps, List.append_assoc]
    · rw [hwrap']
      exact hfirst.congr fun k hk _ => hother k (by omega)
    · exact (hsecond.congr fun k _ hk => hother k (by omega)).concat (hblock ▸ hp)

/-- The next packet goes where it would have gone before, and there is not less room for it. -/
theorem Layout.drop (h : b.Layout last (p :: ps)) (hsize : b.size = last + 1 + b.mtu) :
    (b.dropPacket p.length).Layout last ps ∧ (b.dropPacket p.length).endBlock = b.endBlock ∧
      b.free ≤ (b.dropPacket p.length).free ∧
      (b.start + b.used < b.wrap → (b.dropPacket p.length).free = b.free) := by
  obtain ⟨-, hwrap₁, hused₁⟩ := h.head hsize
  have hend := h.endBlock_le hsize
  cases h with
  | straight hwrap hend' hps =>
    have hle := hps.2.le
    -- the start never reaches `wrap`, which is behind the room for another packet
    have hdrop : b.dropPacket p.length =
        { b with start := b.start + (1 + blocklen p.length), used := b.used - (1 + blocklen p.length) } :=
      if_neg (by change b.start + (1 + blocklen p.length) ≠ b.wrap; omega)
    have hsum : b.start + (1 + blocklen p.length) + (b.used - (1 + blocklen p.length)) =
      b.start + b.used := by omega
    have hblock : (b.dropPacket p.length).endBlock = b.endBlock := by
      rw [endBlock_of_lt (b := b) (by omega), hdrop, endBlock_of_lt, hsum]
      change b.start + (1 + blocklen p.length) + (b.used - (1 + blocklen p.length)) < b.wrap
      omega
    have hfree : (b.dropPacket p.length).free = b.free := by
      rw [free_of_lt (b := b) (by omega), ← hblock, hdrop, free_of_lt]
      change b.start + (1 + blocklen p.length) + (b.used - (1 + blocklen p.length)) < b.wrap
      omega
    refine ⟨?_, hblock, hfree.ge, fun _ => hfree⟩
    rw [hdrop]
    refine .straight hwrap (hsum.trans_le hend') ?_
    change b.buffer.Packed last b.mtu (b.start + (1 + blocklen p.length)) (_ + _) ps
    rw [hsum, ← Nat.add_assoc]
    exact hps.2
  | wrapped first second stop hused hstart hwrap hroom hstop hps hfirst hsecond =>
    obtain ⟨q, qs, rfl, hq, hqs⟩ := hfirst.exists_cons hstart
    obtain ⟨rfl, rfl⟩ := List.cons.inj hps
    have hblock := endBlock_of_le hused hstart.le
    have hfree := free_of_le (b := b) (by omega)
    by_cases hall : b.start + (1 + blocklen p.length) = b.wrap
    · -- the end of the buffer can be used again
      have hdrop : b.dropPacket p.length =
          { b with start := 0, used := b.used - (1 + blocklen p.length), wrap := b.size } := if_pos hall
      have hused' : b.used - (1 + blocklen p.length) = stop := by omega
      have hlt : 0 + (b.used - (1 + blocklen p.length)) < b.size := by omega
      have hblock' : (b.dropPacket p.length).endBlock = stop := by
        rw [hdrop, endBlock_of_lt hlt]
        exact (Nat.zero_add _).trans hused'
      have hfree' : (b.dropPacket p.length).free = (b.size : ℤ) - stop := by
        rw [← hblock', hdrop, free_of_lt hlt]
      refine ⟨?_, hblock'.trans hblock.symm, by omega, fun hlt => by omega⟩
      have hqs' : qs = [] := by
        cases qs with
        | nil => rfl
        | cons q qs =>
          have := hqs.2.le
          omega
      rw [hdrop, hqs']
      refine .straight rfl ?_ ?_
      · change 0 + (b.used - (1 + blocklen p.length)) ≤ last
        omega
      · change b.buffer.Packed last b.mtu 0 (0 + (b.used - (1 + blocklen p.length))) second
        rw [hused', Nat.zero_add]
        exact hsecond
    · have hdrop : b.dropPacket p.length =
          { b with start := b.start + (1 + blocklen p.length), used := b.used - (1 + blocklen p.length) } :=
        if_neg hall
      have hused' : b.used - (1 + blocklen p.length) + (b.start + (1 + blocklen p.length)) =
        b.wrap + stop := by omega
      have hstart' : b.start + (1 + blocklen p.length) < b.wrap := by omega
      have hblock' : (b.dropPacket p.length).endBlock = stop := by
        rw [hdrop]
        exact endBlock_of_le hused' hstart'.le
      have hfree' : (b.dropPacket p.length).free = (b.start + (1 + blocklen p.length) : ℕ) - (stop : ℤ) := by
        rw [← hblock', hdrop]
        refine free_of_le ?_
        change b.wrap ≤ b.start + (1 + blocklen p.length) + (b.used - (1 + blocklen p.length))
        omega
      refine ⟨?_, hblock'.trans hblock.symm, by omega, fun hlt => by omega⟩
      rw [hdrop]
      refine .wrapped qs second stop hused' hstart' hwrap hroom ?_ rfl ?_ hsecond
      · change stop ≤ b.start + (1 + blocklen p.length)
        omega
      · change b.buffer.Packed last b.mtu (b.start + (1 + blocklen p.length)) b.wrap qs
        rw [← Nat.add_assoc]
        exact hqs

/-! ## The pointers -/

/-- A buffer that holds packets, with its pointers up to date. -/
structure Stores (b : ChunkBuffer2) (last : ℕ) (ps : List Bytes) : Prop where
  layout : b.Layout last ps
  size : b.size = last + 1 + b.mtu
  inputDest : b.inputDest = if 0 < b.free then some (b.endBlock + 1) else none
  inputAvail : b.inputAvail = if 0 < b.free then toInt ((b.free - 1) * 4) else -1
  outputDest : b.outputDest = ps.head?.map fun _ => b.start + 1
  outputAvail : b.outputAvail = ps.head?.elim (-1) fun p => (p.length : ℤ)

/-- The layout does not depend on the pointers. -/
theorem Layout.pointers (h : b.Layout last ps) (d a d' a') :
    ({ b with inputDest := d, inputAvail := a, outputDest := d', outputAvail := a' } :
      ChunkBuffer2).Layout last ps := by
  cases h with
  | straight hwrap hend hps => exact .straight hwrap hend hps
  | wrapped first second stop hused hstart hwrap hroom hstop hps hfirst hsecond =>
    exact .wrapped first second stop hused hstart hwrap hroom hstop hps hfirst hsecond

theorem updateInput_eq (h : b.endBlock + 1 + b.mtu ≤ b.size) : b.updateInput =
    { b with
      inputDest := if 0 < b.free then some (b.endBlock + 1) else none
      inputAvail := if 0 < b.free then toInt ((b.free - 1) * 4) else -1 } := by
  rw [updateInput, if_neg (by omega)]
  by_cases hfree : 0 < b.free
  · rw [if_pos hfree, if_pos hfree, if_pos hfree]
  · rw [if_neg hfree, if_neg hfree, if_neg hfree]

theorem Layout.updateInput_eq (h : b.Layout last ps) (hsize : b.size = last + 1 + b.mtu) :
    b.updateInput =
      { b with
        inputDest := if 0 < b.free then some (b.endBlock + 1) else none
        inputAvail := if 0 < b.free then toInt ((b.free - 1) * 4) else -1 } := by
  have := h.endBlock_le hsize
  exact ChunkBuffer2.updateInput_eq (by omega)

theorem Layout.lenAt_start (h : b.Layout last (p :: ps)) (hsize : b.size = last + 1 + b.mtu) :
    b.lenAt b.start = some p.length := by
  have hhead := (h.head hsize).1
  have hstart := hhead.start
  rw [lenAt, hhead.len]
  exact if_pos (by omega)

theorem Layout.updateOutput_eq (h : b.Layout last ps) (hsize : b.size = last + 1 + b.mtu) :
    b.updateOutput = some
      { b with
        outputDest := ps.head?.map fun _ => b.start + 1
        outputAvail := ps.head?.elim (-1) fun p => (p.length : ℤ) } := by
  cases ps with
  | nil => exact if_neg (by rw [h.used_eq_zero]; exact lt_irrefl 0)
  | cons p ps =>
    obtain ⟨-, hwrap, hused⟩ := h.head hsize
    rw [updateOutput, if_pos (by omega), h.lenAt_start hsize, Option.bind_some,
      if_pos ⟨hused, hwrap⟩]
    rfl

/-- Whatever the pointers were, the two updates set them. -/
theorem Layout.stores (h : b.Layout last ps) (hsize : b.size = last + 1 + b.mtu) :
    ∃ b', b.updateInput.updateOutput = some b' ∧ b'.Stores last ps ∧ b'.size = b.size ∧
      b'.mtu = b.mtu ∧ b'.buffer = b.buffer ∧ b'.endBlock = b.endBlock ∧ b'.free = b.free ∧
      b'.start = b.start := by
  have hpointers := h.pointers (if 0 < b.free then some (b.endBlock + 1) else none)
    (if 0 < b.free then toInt ((b.free - 1) * 4) else -1) b.outputDest b.outputAvail
  rw [h.updateInput_eq hsize, hpointers.updateOutput_eq hsize]
  exact ⟨_, rfl, ⟨h.pointers _ _ _ _, hsize, rfl, rfl, rfl, rfl⟩, rfl, rfl, rfl, rfl, rfl, rfl⟩

theorem Stores.assertIo (h : b.Stores last ps) : b.assertIo = true := by
  rw [ChunkBuffer2.assertIo, h.layout.updateInput_eq h.size, h.layout.updateOutput_eq h.size,
    Option.any_some, ← h.inputDest, ← h.inputAvail, ← h.outputDest, ← h.outputAvail]
  simp only [decide_true, and_self, Bool.and_self]

theorem toInt_eq {n : ℤ} (h : 0 ≤ n) (hn : n ≤ INT_MAX) : toInt n = n := by
  have hmax : ((INT_MAX : ℕ) : ℤ) = 2 ^ 31 - 1 := rfl
  exact Int.bmod_eq_of_le_mul_two (by omega) (by omega)

theorem free_le_size (b : ChunkBuffer2) (hstart : b.start ≤ b.size) : b.free ≤ b.size := by
  rw [free]
  split_ifs <;> omega

theorem Stores.start_le (h : b.Stores last ps) : b.start ≤ b.size := by
  have hbuffer := h.layout.assertBuffer h.size
  rw [ChunkBuffer2.assertBuffer, decide_eq_true_eq] at hbuffer
  omega

/-- As long as its size in bytes is an `int`, the free space is what the buffer says it is. -/
theorem Stores.inputAvail_eq (h : b.Stores last ps) (hint : 4 * b.size ≤ INT_MAX) :
    b.inputAvail = if 0 < b.free then (b.free - 1) * 4 else -1 := by
  have hle := b.free_le_size h.start_le
  rw [h.inputAvail]
  split_ifs with hfree
  · exact toInt_eq (by omega) (by omega)
  · rfl

/-- There is room for the largest packet exactly when a packet of `inputMtu` bytes is said to fit in. -/
theorem Stores.hasRoom_iff (h : b.Stores last ps) (hint : 4 * b.size ≤ INT_MAX) {inputMtu : ℕ}
    (hmtu : b.mtu = blocklen inputMtu) : (inputMtu : ℤ) ≤ b.inputAvail ↔ b.HasRoom := by
  rw [h.inputAvail_eq hint, HasRoom, hmtu, blocklen_eq]
  split_ifs with hfree <;> omega

theorem HasRoom.inputDest (hroom : b.HasRoom) (h : b.Stores last ps) :
    b.inputDest = some (b.endBlock + 1) := by
  rw [HasRoom] at hroom
  rw [h.inputDest, if_pos (by omega)]

/-- Someone may write behind the last packet where the largest packet has room. -/
theorem Stores.write (h : b.Stores last ps) (hroom : b.HasRoom) (hfits : blocklen p.length ≤ b.mtu) :
    ({ b with buffer := b.buffer.write (b.endBlock + 1) p } : ChunkBuffer2).Stores last ps := by
  refine { h with layout := ?_ }
  have hother : ∀ k, k ≤ b.endBlock ∨ b.endBlock + 1 + b.mtu ≤ k →
      b.buffer k = b.buffer.write (b.endBlock + 1) p k := fun k hk =>
    (Blocks.write_of_not_mem (by omega)).symm
  have hsize := h.size
  rw [HasRoom] at hroom
  cases h.layout with
  | straight hwrap hend hps =>
    have hblock := endBlock_of_lt (b := b) (by omega)
    exact .straight hwrap hend (hps.congr fun k _ hk => hother k (.inl (by omega)))
  | wrapped first second stop hused hstart hwrap hroom' hstop hps hfirst hsecond =>
    have hblock := endBlock_of_le hused hstart.le
    have hfree := free_of_le (b := b) (by omega)
    exact .wrapped first second stop hused hstart hwrap hroom' hstop hps
      (hfirst.congr fun k hk _ => hother k (.inr (by omega)))
      (hsecond.congr fun k _ hk => hother k (.inl (by omega)))

/-! ## The operations -/

theorem exists_init (buffer : Blocks) {blocks mtu : ℕ} (h : blocklen mtu < blocks) :
    ∃ b, init buffer blocks mtu = some b ∧ b.Stores (blocks - 1 - blocklen mtu) [] ∧
      b.size = blocks ∧ b.mtu = blocklen mtu := by
  have hlayout : ChunkBuffer2.Layout
      { buffer, size := blocks, wrap := blocks, start := 0, used := 0, mtu := blocklen mtu,
        inputDest := none, inputAvail := -1, outputDest := none, outputAvail := -1 }
      (blocks - 1 - blocklen mtu) [] := .straight rfl (Nat.zero_le _) rfl
  have hsize : blocks = blocks - 1 - blocklen mtu + 1 + blocklen mtu := by omega
  obtain ⟨b, hb, hstores, hsize', hmtu', -⟩ := hlayout.stores hsize
  refine ⟨b, ?_, hstores, hsize', hmtu'⟩
  rw [init]
  rw [if_pos (hlayout.assertBuffer hsize), hb, Option.filter_some, hstores.assertIo]
  rfl

theorem Stores.exists_submitPacket (h : b.Stores last ps) (hint : 4 * b.size ≤ INT_MAX)
    (hroom : b.HasRoom) (hfits : blocklen p.length ≤ b.mtu)
    (hread : b.buffer.read (b.endBlock + 1) p.length = p) :
    ∃ b', b.submitPacket p.length = some b' ∧ b'.Stores last (ps ++ [p]) ∧ b'.size = b.size ∧
      b'.mtu = b.mtu ∧ b'.start = b.start := by
  have hlayout := h.layout.add h.size hroom hfits hread
  have hend := h.layout.endBlock_le h.size
  have hsize := h.size
  rw [submitPacket, if_pos]
  · cases ps with
    | nil =>
      -- the packet is the first one
      have hused : (b.addPacket p.length).updateInput.used = 1 + blocklen p.length := by
        rw [hlayout.updateInput_eq hsize]
        change b.used + (1 + blocklen p.length) = _
        rw [h.layout.used_eq_zero, Nat.zero_add]
      obtain ⟨b', hb', hstores, hsize', hmtu', -, -, -, hstart'⟩ := hlayout.stores hsize
      refine ⟨b', ?_, hstores, hsize', hmtu', hstart'⟩
      dsimp only
      rw [if_pos hused, hb', Option.filter_some, hstores.assertIo]
      rfl
    | cons q qs =>
      -- the first packet is still there, and the output pointer belongs to it
      have hused : (b.addPacket p.length).updateInput.used ≠ 1 + blocklen p.length := by
        rw [hlayout.updateInput_eq hsize]
        change b.used + (1 + blocklen p.length) ≠ _
        have := (h.layout.head hsize).2.2
        omega
      have hstores : (b.addPacket p.length).updateInput.Stores last (q :: qs ++ [p]) := by
        rw [hlayout.updateInput_eq hsize]
        exact ⟨hlayout.pointers _ _ _ _, hsize, rfl, rfl, h.outputDest, h.outputAvail⟩
      refine ⟨_, ?_, hstores, ?_, ?_, ?_⟩
      · dsimp only
        rw [if_neg hused, Option.filter_some, hstores.assertIo]
        rfl
      · rw [hlayout.updateInput_eq hsize]
        rfl
      · rw [hlayout.updateInput_eq hsize]
        rfl
      · rw [hlayout.updateInput_eq hsize]
        rfl
  · have hlen : p.length ≤ 4 * blocklen p.length := by
      rw [blocklen_eq]
      omega
    have hdest := hroom.inputDest h
    have havail := h.inputAvail_eq hint
    rw [HasRoom] at hroom
    rw [if_pos (by omega)] at havail
    refine ⟨by rw [hdest]; rfl, by omega, h.layout.assertBuffer hsize, h.assertIo, by omega, ?_,
      hlayout.assertBuffer hsize⟩
    by_cases hused : b.used < b.wrap - b.start
    · exact .inl hused
    · rw [free, if_pos (by omega)] at hroom
      exact .inr (by omega)

theorem Stores.exists_consumePacket (h : b.Stores last (p :: ps)) :
    ∃ b', b.consumePacket = some b' ∧ b'.Stores last ps ∧ b'.size = b.size ∧ b'.mtu = b.mtu ∧
      b'.buffer = b.buffer ∧ b'.endBlock = b.endBlock ∧ b.free ≤ b'.free := by
  obtain ⟨hlayout, hblock, hfree, hfree'⟩ := h.layout.drop h.size
  obtain ⟨hhead, hwrap, hused⟩ := h.layout.head h.size
  have hkeep : (b.dropPacket p.length).size = b.size ∧ (b.dropPacket p.length).mtu = b.mtu ∧
      (b.dropPacket p.length).buffer = b.buffer ∧ (b.dropPacket p.length).inputDest = b.inputDest ∧
      (b.dropPacket p.length).inputAvail = b.inputAvail := by
    rw [dropPacket]
    split_ifs <;> exact ⟨rfl, rfl, rfl, rfl, rfl⟩
  obtain ⟨hsize', hmtu', hbuffer', hdest', havail'⟩ := hkeep
  have hsize : (b.dropPacket p.length).size = last + 1 + (b.dropPacket p.length).mtu := by
    rw [hsize', hmtu', h.size]
  rw [consumePacket, h.layout.lenAt_start h.size, Option.bind_some, if_pos]
  · by_cases hwrapped : b.used ≥ b.wrap - b.start
    · -- the blocks of the packet become free behind the last one
      obtain ⟨b', hb', hstores, hsize'', hmtu'', hbuffer'', hblock'', hfree'', -⟩ := hlayout.stores hsize
      refine ⟨b', ?_, hstores, hsize''.trans hsize', hmtu''.trans hmtu', hbuffer''.trans hbuffer',
        hblock''.trans hblock, by omega⟩
      dsimp only
      rw [if_pos hwrapped, hb', Option.filter_some, hstores.assertIo]
      rfl
    · -- the free blocks are those behind the last packet, as before
      have hsame := hfree' (by omega)
      have hstores : ChunkBuffer2.Stores
          { b.dropPacket p.length with
            outputDest := ps.head?.map fun _ => (b.dropPacket p.length).start + 1
            outputAvail := ps.head?.elim (-1) fun p => (p.length : ℤ) } last ps :=
        { layout := hlayout.pointers _ _ _ _
          size := hsize
          inputDest := by
            change (b.dropPacket p.length).inputDest =
              if 0 < (b.dropPacket p.length).free then some ((b.dropPacket p.length).endBlock + 1) else none
            rw [hdest', h.inputDest, hsame, hblock]
          inputAvail := by
            change (b.dropPacket p.length).inputAvail =
              if 0 < (b.dropPacket p.length).free then toInt (((b.dropPacket p.length).free - 1) * 4) else -1
            rw [havail', h.inputAvail, hsame]
          outputDest := rfl
          outputAvail := rfl }
      refine ⟨_, ?_, hstores, hsize', hmtu', hbuffer', hblock, hfree⟩
      dsimp only
      rw [if_neg hwrapped, hlayout.updateOutput_eq hsize, Option.filter_some, hstores.assertIo]
      rfl
  · exact ⟨by rw [h.outputDest]; rfl, h.layout.assertBuffer h.size, h.assertIo, by omega, by omega, hwrap,
      hused, hlayout.assertBuffer hsize⟩

end ChunkBuffer2

end Badvpn
