import DripVpn.Foundations.Confluence
import DripVpn.Tun2socks.PacketLayout

/-!
# The packet buffer

`flow/PacketBuffer.c`: a buffer between an input that receives packets and an output that sends them, at
their own speeds. The packets that a `PacketProtoFlow` frames for the connection to the `udpgw` server wait
in one.

The input is given a pointer into the buffer and may write there at any time until it is done; the output
reads from the buffer at any time until it is done. A buffer is a queue nevertheless (`queue_of_run`).
-/

namespace Badvpn

/-! ## The source -/

/-- `PacketBuffer`, with the operations in progress at its two interfaces, the packets that the input has
delivered and those that the output has taken. -/
structure PacketBuffer where
  buf : ChunkBuffer2
  inputMtu : ℕ
  outputMtu : ℕ
  /-- the block that the input writes a packet to -/
  receiving : Option ℕ
  /-- the block and the length of the packet that the output sends -/
  sending : Option (ℕ × ℕ)
  received : List Bytes
  sent : List Bytes
  /-- An assertion has failed. -/
  fault : Bool

/-- What the two interfaces do. -/
inductive PacketAction
  /-- The input writes to the buffer and is not done yet. -/
  | write (data : Bytes)
  | received (packet : Bytes)
  | sent

namespace PacketBuffer

/-- `PacketRecvInterface_Receiver_Recv` -/
def receiverRecv (s : PacketBuffer) : PacketBuffer :=
  if s.receiving = none ∧ s.buf.inputDest ≠ none then { s with receiving := s.buf.inputDest }
  else { s with fault := true }

/-- `PacketPassInterface_Sender_Send` -/
def senderSend (s : PacketBuffer) : PacketBuffer :=
  if s.sending = none ∧ 0 ≤ s.buf.outputAvail ∧ s.buf.outputAvail ≤ s.outputMtu then
    { s with sending := s.buf.outputDest.map fun dest => (dest, s.buf.outputAvail.toNat) }
  else { s with fault := true }

/-- `input_handler_done` -/
def inputHandlerDone (s : PacketBuffer) (inLen : ℕ) : PacketBuffer :=
  -- remember if the buffer is empty
  let wasEmpty := s.buf.outputAvail < 0
  match s.buf.submitPacket inLen with
  | none => { s with fault := true }
  | some buf =>
    let s := { s with buf, fault := s.fault || decide (s.inputMtu < inLen) }
    -- if there is space, schedule receive
    let s := if s.buf.inputAvail ≥ s.inputMtu then s.receiverRecv else s
    -- if the buffer was empty, schedule send
    if wasEmpty then s.senderSend else s

/-- `output_handler_done` -/
def outputHandlerDone (s : PacketBuffer) : PacketBuffer :=
  -- remember if the buffer is full
  let wasFull := s.buf.inputAvail < s.inputMtu
  match s.buf.consumePacket with
  | none => { s with fault := true }
  | some buf =>
    let s := { s with buf }
    -- if the buffer was full and there is space, schedule receive
    let s := if wasFull ∧ s.buf.inputAvail ≥ s.inputMtu then s.receiverRecv else s
    -- if there is more data, schedule send
    if s.buf.outputAvail ≥ 0 then s.senderSend else s

/-- `PacketBuffer_Init`, with the memory that is allocated; `none` when it fails. -/
def init (buffer : Blocks) (inputMtu outputMtu numPackets : ℕ) : Option PacketBuffer :=
  if outputMtu ≥ inputMtu ∧ numPackets > 0 then
    (ChunkBuffer2.calcBlocks inputMtu numPackets).bind fun blocks =>
      (ChunkBuffer2.init buffer blocks inputMtu).map fun buf =>
        receiverRecv
          { buf, inputMtu, outputMtu, receiving := none, sending := none, received := [], sent := [],
            fault := false }
  else none

/-- One event; `none` when it cannot happen. -/
def step (s : PacketBuffer) : PacketAction → Option PacketBuffer
  | .write data => s.receiving.bind fun dest =>
    if data.length ≤ s.inputMtu then
      some { s with buf := { s.buf with buffer := s.buf.buffer.write dest data } }
    else none
  | .received packet => s.receiving.bind fun dest =>
    if packet.length ≤ s.inputMtu then
      some (inputHandlerDone
        { s with
          buf := { s.buf with buffer := s.buf.buffer.write dest packet }
          receiving := none
          received := s.received ++ [packet] } packet.length)
    else none
  | .sent => s.sending.map fun (dest, len) =>
    outputHandlerDone { s with sending := none, sent := s.sent ++ [s.buf.buffer.read dest len] }

/-! ## The invariant -/

/-- What holds between the events when the packets `ps` are in a buffer for `num` packets of `mtu` bytes. -/
structure Kept (s : PacketBuffer) (mtu num last : ℕ) (ps : List Bytes) : Prop where
  stores : s.buf.Stores last ps
  order : s.received = s.sent ++ ps
  inputMtu : s.inputMtu = mtu
  mtu : s.buf.mtu = blocklen s.inputMtu
  /-- in bytes, an `int` -/
  bytes : 4 * s.buf.size ≤ INT_MAX
  size : s.buf.size = (1 + s.buf.mtu) * (num + 1)
  outputMtu : s.inputMtu ≤ s.outputMtu
  lengths : ∀ p ∈ ps, p.length ≤ s.inputMtu
  receiving : s.receiving = if (s.inputMtu : ℤ) ≤ s.buf.inputAvail then s.buf.inputDest else none
  sending : s.sending = ps.head?.map fun p => (s.buf.start + 1, p.length)
  fault : s.fault = false

variable {s s' : PacketBuffer} {mtu num last dest : ℕ} {p : Bytes} {ps : List Bytes}

/-- The input writes to the blocks behind the last packet. -/
theorem Kept.dest_eq (h : s.Kept mtu num last ps) (hdest : s.receiving = some dest) :
    s.buf.HasRoom ∧ dest = s.buf.endBlock + 1 := by
  have hreceiving := h.receiving
  rw [hdest] at hreceiving
  by_cases havail : (s.inputMtu : ℤ) ≤ s.buf.inputAvail
  · have hroom := (h.stores.hasRoom_iff h.bytes h.mtu).mp havail
    rw [if_pos havail, hroom.inputDest h.stores] at hreceiving
    exact ⟨hroom, Option.some.inj hreceiving⟩
  · rw [if_neg havail] at hreceiving
    cases hreceiving

/-- A receive is in progress exactly when the largest packet fits in. -/
theorem Kept.receiving_iff (h : s.Kept mtu num last ps) : s.receiving ≠ none ↔ s.buf.HasRoom := by
  rw [h.receiving, ← h.stores.hasRoom_iff h.bytes h.mtu]
  by_cases havail : (s.inputMtu : ℤ) ≤ s.buf.inputAvail
  · rw [if_pos havail,
      ((h.stores.hasRoom_iff h.bytes h.mtu).mp havail).inputDest h.stores]
    exact ⟨fun _ => havail, fun _ => Option.some_ne_none _⟩
  · rw [if_neg havail]
    exact ⟨fun hne => absurd rfl hne, fun hle => absurd hle havail⟩

/-! ### The interfaces -/

/-- A receive is scheduled where there is space. -/
theorem receiverRecv_eq (hstores : s.buf.Stores last ps) (hmtu : s.buf.mtu = blocklen s.inputMtu)
    (hbytes : 4 * s.buf.size ≤ INT_MAX) (hnone : s.receiving = none) :
    (if s.buf.inputAvail ≥ s.inputMtu then s.receiverRecv else s) =
      { s with receiving := if (s.inputMtu : ℤ) ≤ s.buf.inputAvail then s.buf.inputDest else none } := by
  by_cases havail : (s.inputMtu : ℤ) ≤ s.buf.inputAvail
  · have hdest := ((hstores.hasRoom_iff hbytes hmtu).mp havail).inputDest hstores
    have hsome : s.buf.inputDest ≠ none := by
      rw [hdest]
      exact Option.some_ne_none _
    rw [if_pos havail, if_pos havail]
    exact if_pos ⟨hnone, hsome⟩
  · rw [if_neg havail, if_neg havail, ← hnone]

/-- The first packet is sent. -/
theorem senderSend_eq (hstores : s.buf.Stores last (p :: ps)) (hlen : p.length ≤ s.outputMtu)
    (hnone : s.sending = none) :
    s.senderSend = { s with sending := some (s.buf.start + 1, p.length) } := by
  have havail : s.buf.outputAvail = (p.length : ℤ) := hstores.outputAvail
  have hdest : s.buf.outputDest = some (s.buf.start + 1) := hstores.outputDest
  rw [senderSend, if_pos ⟨hnone, by omega, by omega⟩, hdest, havail]
  rfl

/-! ### The steps -/

/-- The output may still be reading: nothing of the packets changes. -/
theorem Kept.write {data : Bytes} (h : s.Kept mtu num last ps) (hdest : s.receiving = some dest)
    (hlen : data.length ≤ s.inputMtu) :
    Kept { s with buf := { s.buf with buffer := s.buf.buffer.write dest data } } mtu num last ps := by
  obtain ⟨hroom, rfl⟩ := h.dest_eq hdest
  exact { h with stores := h.stores.write hroom (h.mtu ▸ blocklen_mono hlen) }

theorem Kept.inputHandlerDone (h : s.Kept mtu num last ps) (hdest : s.receiving = some dest)
    (hlen : p.length ≤ s.inputMtu) :
    Kept (PacketBuffer.inputHandlerDone
      { s with
        buf := { s.buf with buffer := s.buf.buffer.write dest p }
        receiving := none
        received := s.received ++ [p] } p.length) mtu num last (ps ++ [p]) := by
  obtain ⟨hroom, rfl⟩ := h.dest_eq hdest
  have hfits : blocklen p.length ≤ s.buf.mtu := h.mtu ▸ blocklen_mono hlen
  obtain ⟨b, hb, hstores, hsize, hmtu, hstart⟩ :=
    (h.stores.write hroom hfits).exists_submitPacket h.bytes hroom hfits (Blocks.read_write _ _ _)
  have hbytes : 4 * b.size ≤ INT_MAX := hsize.symm ▸ h.bytes
  have hsize' : b.size = (1 + b.mtu) * (num + 1) := by
    rw [hsize, hmtu]
    exact h.size
  have hfault : (s.fault || decide (s.inputMtu < p.length)) = false := by
    rw [h.fault, decide_eq_false (by omega)]
    rfl
  have hlengths : ∀ q ∈ ps ++ [p], q.length ≤ s.inputMtu := by
    intro q hq
    rcases List.mem_append.mp hq with hq | hq
    · exact h.lengths q hq
    · rw [List.mem_singleton.mp hq]
      exact hlen
  have horder : s.received ++ [p] = s.sent ++ (ps ++ [p]) := by rw [h.order, List.append_assoc]
  have hrecv := receiverRecv_eq
    (s := { s with
      buf := b
      receiving := none
      received := s.received ++ [p]
      fault := s.fault || decide (s.inputMtu < p.length) }) hstores (hmtu.trans h.mtu) hbytes rfl
  dsimp only at hrecv
  rw [PacketBuffer.inputHandlerDone, hb]
  dsimp only
  rw [hrecv, hfault]
  cases ps with
  | nil =>
    -- nothing was being sent
    have havail : s.buf.outputAvail = -1 := h.stores.outputAvail
    have hsend := senderSend_eq
      (s := { s with
        buf := b
        receiving := if (s.inputMtu : ℤ) ≤ b.inputAvail then b.inputDest else none
        received := s.received ++ [p]
        fault := false }) (p := p) hstores (hlen.trans h.outputMtu) h.sending
    rw [if_pos (by omega), hsend]
    exact ⟨hstores, horder, h.inputMtu, hmtu.trans h.mtu, hbytes, hsize', h.outputMtu, hlengths, rfl, rfl, rfl⟩
  | cons q qs =>
    -- the first packet is still being sent
    have havail : s.buf.outputAvail = (q.length : ℤ) := h.stores.outputAvail
    have hsending : s.sending = some (b.start + 1, q.length) := by
      rw [h.sending, hstart]
      rfl
    rw [if_neg (by omega)]
    exact ⟨hstores, horder, h.inputMtu, hmtu.trans h.mtu, hbytes, hsize', h.outputMtu, hlengths, rfl, hsending, rfl⟩

theorem Kept.outputHandlerDone (h : s.Kept mtu num last (p :: ps)) :
    Kept (PacketBuffer.outputHandlerDone
      { s with sending := none, sent := s.sent ++ [s.buf.buffer.read (s.buf.start + 1) p.length] })
      mtu num last ps := by
  have hread := (h.stores.layout.head h.stores.size).1.read
  obtain ⟨b, hb, hstores, hsize, hmtu, -, hblock, hfree⟩ := h.stores.exists_consumePacket
  have hbytes : 4 * b.size ≤ INT_MAX := hsize.symm ▸ h.bytes
  have horder : s.received = s.sent ++ [p] ++ ps := by
    rw [h.order, List.append_assoc]
    rfl
  have hlengths : ∀ q ∈ ps, q.length ≤ s.inputMtu := fun q hq => h.lengths q (List.mem_cons_of_mem p hq)
  have hroom := h.stores.hasRoom_iff h.bytes h.mtu
  have hroom' := hstores.hasRoom_iff hbytes (hmtu.trans h.mtu)
  -- a receive that is in progress keeps its place
  have hreceiving : (if s.buf.inputAvail < s.inputMtu ∧ b.inputAvail ≥ s.inputMtu then
        receiverRecv { s with buf := b, sending := none, sent := s.sent ++ [p] }
      else { s with buf := b, sending := none, sent := s.sent ++ [p] }) =
      { s with
        buf := b
        sending := none
        sent := s.sent ++ [p]
        receiving := if (s.inputMtu : ℤ) ≤ b.inputAvail then b.inputDest else none } := by
    by_cases hfull : s.buf.inputAvail < s.inputMtu
    · have hnone : s.receiving = none := by rw [h.receiving, if_neg (by omega)]
      have hrecv := receiverRecv_eq
        (s := { s with buf := b, sending := none, sent := s.sent ++ [p] }) hstores (hmtu.trans h.mtu)
        hbytes hnone
      simp only [hfull, true_and]
      exact hrecv
    · have hhas := hroom.mp (by omega)
      have hhas' : b.HasRoom := by
        rw [ChunkBuffer2.HasRoom] at hhas ⊢
        omega
      have hsame : s.receiving = b.inputDest := by
        rw [h.receiving, if_pos (by omega), hhas.inputDest h.stores, hhas'.inputDest hstores, hblock]
      rw [if_neg fun hcond => hfull hcond.1, if_pos (hroom'.mpr hhas'), ← hsame]
  rw [hread, PacketBuffer.outputHandlerDone]
  dsimp only
  rw [hb]
  dsimp only
  rw [hreceiving]
  cases ps with
  | nil =>
    have havail : b.outputAvail = -1 := hstores.outputAvail
    rw [if_neg (by change ¬ b.outputAvail ≥ 0; omega)]
    exact ⟨hstores, horder, h.inputMtu, hmtu.trans h.mtu, hbytes, by rw [hsize, hmtu, ← h.size], h.outputMtu, hlengths,
      rfl, rfl, h.fault⟩
  | cons q qs =>
    have havail : b.outputAvail = (q.length : ℤ) := hstores.outputAvail
    have hq := (hlengths q List.mem_cons_self).trans h.outputMtu
    have hsend := senderSend_eq
      (s := { s with
        buf := b
        sending := none
        sent := s.sent ++ [p]
        receiving := if (s.inputMtu : ℤ) ≤ b.inputAvail then b.inputDest else none }) (p := q) hstores hq rfl
    rw [if_pos (by change b.outputAvail ≥ 0; omega), hsend]
    exact ⟨hstores, horder, h.inputMtu, hmtu.trans h.mtu, hbytes, by rw [hsize, hmtu, ← h.size], h.outputMtu, hlengths,
      rfl, rfl, h.fault⟩

theorem Kept.step (h : s.Kept mtu num last ps) {a : PacketAction} (hstep : s.step a = some s') :
    ∃ ps', s'.Kept mtu num last ps' := by
  cases a with
  | write data =>
    obtain ⟨dest, hdest, hrest⟩ := Option.bind_eq_some_iff.mp hstep
    split at hrest
    · rename_i hlen
      cases hrest
      exact ⟨ps, h.write hdest hlen⟩
    · cases hrest
  | received packet =>
    obtain ⟨dest, hdest, hrest⟩ := Option.bind_eq_some_iff.mp hstep
    split at hrest
    · rename_i hlen
      cases hrest
      exact ⟨ps ++ [packet], h.inputHandlerDone hdest hlen⟩
    · cases hrest
  | sent =>
    obtain ⟨⟨dest, len⟩, hsending, rfl⟩ := Option.map_eq_some_iff.mp hstep
    rw [h.sending] at hsending
    cases ps with
    | nil => cases hsending
    | cons p ps =>
      cases hsending
      exact ⟨ps, h.outputHandlerDone⟩

theorem calcBlocks_eq {chunkLen num : ℕ} (h : (1 + blocklen chunkLen) * (num + 1) ≤ INT_MAX) :
    ChunkBuffer2.calcBlocks chunkLen num = some ((1 + blocklen chunkLen) * (num + 1)) := by
  have hchunk : 1 + blocklen chunkLen ≤ INT_MAX := (Nat.le_mul_of_pos_right _ num.succ_pos).trans h
  have hnum : num + 1 ≤ INT_MAX := (Nat.le_mul_of_pos_left _ (by omega)).trans h
  have hdiv : 1 + blocklen chunkLen ≤ INT_MAX / (num + 1) := (Nat.le_div_iff_mul_le num.succ_pos).mpr h
  rw [ChunkBuffer2.calcBlocks, if_neg (by omega), if_neg (by omega), if_neg (by omega)]

theorem exists_init (buffer : Blocks) {inputMtu outputMtu : ℕ} (hmtu : inputMtu ≤ outputMtu)
    (hnum : 0 < num) (hbytes : 4 * ((1 + blocklen inputMtu) * (num + 1)) ≤ INT_MAX) :
    ∃ s last, init buffer inputMtu outputMtu num = some s ∧ s.Kept inputMtu num last [] := by
  have hblocks : blocklen inputMtu < (1 + blocklen inputMtu) * (num + 1) :=
    (Nat.lt_one_add_iff.mpr le_rfl).trans_le (Nat.le_mul_of_pos_right _ num.succ_pos)
  obtain ⟨b, hb, hstores, hsize, hmtu'⟩ := ChunkBuffer2.exists_init buffer hblocks
  have hbytes' : 4 * b.size ≤ INT_MAX := hsize.symm ▸ hbytes
  have hsize' : b.size = (1 + b.mtu) * (num + 1) := by rw [hsize, hmtu']
  have hroom := hstores.layout.hasRoom hstores.size hsize' hnum
  have hdest := hroom.inputDest hstores
  have havail := (hstores.hasRoom_iff hbytes' hmtu').mpr hroom
  refine
    ⟨{ buf := b, inputMtu, outputMtu, receiving := b.inputDest, sending := none, received := [], sent := [],
       fault := false }, _, ?_,
      ⟨hstores, rfl, rfl, hmtu', hbytes', hsize', hmtu, ?_, (if_pos havail).symm, rfl, rfl⟩⟩
  · rw [init, if_pos ⟨hmtu, hnum⟩, calcBlocks_eq (by omega), Option.bind_some, hb, Option.map_some,
      receiverRecv, if_pos ⟨rfl, by rw [hdest]; exact Option.some_ne_none _⟩]
  · intro p hp
    cases hp

/-- A run of a buffer in fresh memory. -/
def run (buffer : Blocks) (inputMtu outputMtu numPackets : ℕ) (actions : List PacketAction) :
    Option PacketBuffer :=
  (init buffer inputMtu outputMtu numPackets).bind fun s => Reactive.steps step s actions

/-- By induction on the run, with the packets that wait. -/
theorem kept_of_run (buffer : Blocks) {inputMtu outputMtu : ℕ} (hmtu : inputMtu ≤ outputMtu)
    (hnum : 0 < num) (hbytes : 4 * ((1 + blocklen inputMtu) * (num + 1)) ≤ INT_MAX)
    {actions : List PacketAction} (hrun : run buffer inputMtu outputMtu num actions = some s) :
    ∃ last ps, s.Kept inputMtu num last ps := by
  obtain ⟨s₀, last, hinit, hkept₀⟩ := exists_init buffer hmtu hnum hbytes
  rw [run, hinit, Option.bind_some] at hrun
  obtain ⟨ps, hkept⟩ : ∃ ps, s.Kept inputMtu num last ps :=
    Reactive.steps_invariant (P := fun s => ∃ ps, s.Kept inputMtu num last ps)
      (fun s s' a hstep ⟨ps, h⟩ => h.step hstep) hrun ⟨[], hkept₀⟩
  exact ⟨last, ps, hkept⟩

/-! ## The result -/

/-- A buffer of less than 2 GiB is a queue: no assertion fails, the output gets the packets of the input in
their order, what it reads is intact as long as it is sending, and the buffer receives while it holds fewer
packets than it was made for. -/
theorem queue_of_run (buffer : Blocks) {inputMtu outputMtu numPackets : ℕ} (hmtu : inputMtu ≤ outputMtu)
    (hnum : 0 < numPackets) (hbytes : 4 * ((1 + blocklen inputMtu) * (numPackets + 1)) ≤ INT_MAX) :
    (init buffer inputMtu outputMtu numPackets).isSome ∧
    ∀ actions s, run buffer inputMtu outputMtu numPackets actions = some s →
      s.fault = false ∧
      (∀ dest, s.receiving = some dest →
        dest + blocklen inputMtu ≤ (1 + blocklen inputMtu) * (numPackets + 1)) ∧
      ∃ ps, s.received = s.sent ++ ps ∧
        (s.sending.map fun (dest, len) => s.buf.buffer.read dest len) = ps.head? ∧
        (ps.length < numPackets → s.receiving ≠ none) := by
  obtain ⟨s₀, -, hinit, -⟩ := exists_init buffer hmtu hnum hbytes
  refine ⟨by rw [hinit]; rfl, fun actions s hrun => ?_⟩
  obtain ⟨last, ps, hkept⟩ := kept_of_run buffer hmtu hnum hbytes hrun
  refine ⟨hkept.fault, fun dest hdest => ?_, ps, hkept.order, ?_, fun hlt => ?_⟩
  · -- the destination lies behind the last packet, where there is room for the largest one
    have hend := hkept.stores.layout.endBlock_le hkept.stores.size
    have hblocks := hkept.size
    have hmtu' := hkept.mtu
    have hsize := hkept.stores.size
    rw [hkept.inputMtu] at hmtu'
    rw [(hkept.dest_eq hdest).2, ← hmtu', ← hblocks]
    omega
  · rw [hkept.sending]
    cases ps with
    | nil => rfl
    | cons p ps => exact congrArg some (hkept.stores.layout.head hkept.stores.size).1.read
  · exact hkept.receiving_iff.mpr (hkept.stores.layout.hasRoom hkept.stores.size hkept.size hlt)

/-- Four packets that go around the end of a buffer for two. -/
def sampleActions : List PacketAction :=
  [.received [1, 2, 3, 4, 5], .received [6], .write [7, 7], .sent, .received [7, 8, 9, 10, 11], .sent,
    .received [12, 13], .sent]

theorem queue_of_run_sample : ∃ s ps, run (fun _ => .data []) 5 6 2 sampleActions = some s ∧
    s.sent = [[1, 2, 3, 4, 5], [6], [7, 8, 9, 10, 11]] ∧ s.fault = false ∧ s.received = s.sent ++ ps := by
  have hrun : (run (fun _ => .data []) 5 6 2 sampleActions).map sent =
      some [[1, 2, 3, 4, 5], [6], [7, 8, 9, 10, 11]] := by decide
  obtain ⟨s, hs, hsent⟩ := Option.map_eq_some_iff.mp hrun
  obtain ⟨hfault, -, ps, hps, -⟩ :=
    (queue_of_run (fun _ => .data []) (by decide) (by decide) (by decide)).2 sampleActions s hs
  exact ⟨s, ps, hs, hsent, hfault, hps⟩

end PacketBuffer

end Badvpn
