import DripVpn.Foundations.Bytes
import DripVpn.Foundations.Confluence

/-!
# Packets in a stream

`flow/PacketProtoEncoder.c` and `flow/PacketProtoDecoder.c`: a packet goes through a connection as its
length, two bytes with the low one first, and its data. The decoder collects the stream, which arrives in
pieces of any size, in a buffer for one packet of the largest size and passes each packet on from there. It
receives or sends, but never both.

Whatever the pieces are, the decoder gives back the packets that were encoded (`decodes_of_run`).
-/

namespace Badvpn

/-! ## Memory -/

abbrev Memory := ℕ → UInt8

namespace Memory

/-- The `n` bytes at `i`. -/
def slice (m : Memory) (i n : ℕ) : Bytes := (List.range n).map fun k => m (i + k)

def write (m : Memory) (i : ℕ) (data : Bytes) : Memory := fun k =>
  if i ≤ k ∧ k < i + data.length then data.getD (k - i) 0 else m k

/-- `memmove` of the `n` bytes at `i` to the beginning. -/
def moveToFront (m : Memory) (i n : ℕ) : Memory := fun k => if k < n then m (i + k) else m k

variable {m m' : Memory} {i n : ℕ}

@[simp]
theorem length_slice (m : Memory) (i n : ℕ) : (m.slice i n).length = n := by
  rw [slice, List.length_map, List.length_range]

theorem slice_congr (h : ∀ k, i ≤ k → k < i + n → m k = m' k) : m.slice i n = m'.slice i n := by
  refine List.map_congr_left fun k hk => ?_
  have hlt := List.mem_range.mp hk
  exact h (i + k) (by omega) (by omega)

theorem slice_add (m : Memory) (i n k : ℕ) : m.slice i (n + k) = m.slice i n ++ m.slice (i + n) k := by
  rw [slice, List.range_add, List.map_append, List.map_map, slice, slice]
  congr 1
  refine List.map_congr_left fun j _ => ?_
  rw [Function.comp_apply, Nat.add_assoc]

theorem slice_two (m : Memory) (i n : ℕ) :
    m.slice i (2 + n) = m i :: m (i + 1) :: m.slice (i + 2) n := by
  rw [slice_add]
  rfl

theorem slice_write (m : Memory) (i : ℕ) (data : Bytes) : (m.write i data).slice i data.length = data := by
  refine List.ext_getElem (length_slice _ _ _) fun k hk hk' => ?_
  simp only [slice, List.getElem_map, List.getElem_range]
  rw [write, if_pos (by omega), Nat.add_sub_cancel_left,
    List.getD_eq_getElem?_getD, List.getElem?_eq_getElem hk', Option.getD_some]

theorem slice_write_of_le {j : ℕ} {data : Bytes} (h : i + n ≤ j) :
    (m.write j data).slice i n = m.slice i n :=
  slice_congr fun _ _ hk => if_neg (by omega)

theorem slice_moveToFront (m : Memory) (i n : ℕ) : (m.moveToFront i n).slice 0 n = m.slice i n := by
  refine List.map_congr_left fun k hk => ?_
  have hlt := List.mem_range.mp hk
  rw [moveToFront, Nat.zero_add, if_pos hlt]

end Memory

/-! ## The encoder -/

def PACKETPROTO_MAXPAYLOAD : ℕ := 2 ^ 16 - 1

/-- `htol16`, in memory. -/
def htol16 (n : ℕ) : Bytes := [UInt8.ofNat n, UInt8.ofNat (n / 256)]

/-- `ltoh16` of two bytes in memory. -/
def ltoh16 (low high : UInt8) : ℕ := low.toNat + 256 * high.toNat

theorem ltoh16_htol16 {n : ℕ} (h : n ≤ PACKETPROTO_MAXPAYLOAD) :
    ltoh16 (UInt8.ofNat n) (UInt8.ofNat (n / 256)) = n := by
  have hmax : PACKETPROTO_MAXPAYLOAD = 65535 := rfl
  rw [ltoh16, UInt8.toNat_ofNat', UInt8.toNat_ofNat']
  omega

namespace PacketProtoEncoder

/-- `input_handler_done`: what is passed on for a packet, whose data lies behind the header. -/
def inputHandlerDone (packet : Bytes) : Bytes := htol16 packet.length ++ packet

end PacketProtoEncoder

/-! ## The decoder -/

/-- `PacketProtoDecoder`, with the operations in progress at its two interfaces, what it has received and
sent, and how many errors it has reported. -/
structure PacketProtoDecoder where
  outputMtu : ℕ
  bufSize : ℕ
  bufStart : ℕ
  bufUsed : ℕ
  buf : Memory
  /-- where data is received and how much -/
  receiving : Option (ℕ × ℕ)
  /-- where the packet that is sent lies, and its length -/
  sending : Option (ℕ × ℕ)
  received : Bytes
  sent : List Bytes
  errors : ℕ
  /-- An assertion has failed. -/
  fault : Bool

/-- What the two interfaces do. -/
inductive DecoderAction
  | received (data : Bytes)
  | sent

namespace PacketProtoDecoder

/-- `StreamRecvInterface_Receiver_Recv`, for the rest of the buffer. -/
def receiverRecv (s : PacketProtoDecoder) : PacketProtoDecoder :=
  if s.receiving = none ∧ s.bufStart + s.bufUsed < s.bufSize then
    { s with receiving := some (s.bufStart + s.bufUsed, s.bufSize - (s.bufStart + s.bufUsed)) }
  else { s with fault := true }

/-- `PacketPassInterface_Sender_Send` -/
def senderSend (s : PacketProtoDecoder) (data dataLen : ℕ) : PacketProtoDecoder :=
  if s.sending = none ∧ dataLen ≤ s.outputMtu then { s with sending := some (data, dataLen) }
  else { s with fault := true }

/-- The end of `process_data` without an error. -/
def receiveMore (s : PacketProtoDecoder) : PacketProtoDecoder :=
  -- at the end of the buffer, wrap around to allow more data to be received
  if s.bufStart + s.bufUsed = s.bufSize then
    receiverRecv { s with buf := s.buf.moveToFront s.bufStart s.bufUsed, bufStart := 0 }
  else s.receiverRecv

/-- `process_data` -/
def processData (s : PacketProtoDecoder) : PacketProtoDecoder :=
  -- the header has to be there
  if s.bufUsed < 2 then s.receiveMore
  else
    let dataLen := ltoh16 (s.buf s.bufStart) (s.buf (s.bufStart + 1))
    if s.outputMtu < dataLen then
      -- the packet is too large: reset the buffer, and report the error
      let s := receiverRecv { s with bufStart := 0, bufUsed := 0 }
      { s with errors := s.errors + 1 }
    else if s.bufUsed - 2 < dataLen then s.receiveMore
    else
      senderSend
        { s with bufStart := s.bufStart + (2 + dataLen), bufUsed := s.bufUsed - (2 + dataLen) }
        (s.bufStart + 2) dataLen

/-- `PacketProtoDecoder_Init`, for an output that takes packets of up to `mtu` bytes. -/
def init (buf : Memory) (mtu : ℕ) : PacketProtoDecoder :=
  let outputMtu := min mtu PACKETPROTO_MAXPAYLOAD
  receiverRecv
    { outputMtu, bufSize := 2 + outputMtu, bufStart := 0, bufUsed := 0, buf, receiving := none,
      sending := none, received := [], sent := [], errors := 0, fault := false }

/-- One event; `none` when it cannot happen. -/
def step (s : PacketProtoDecoder) : DecoderAction → Option PacketProtoDecoder
  | .received data => s.receiving.bind fun (dest, len) =>
    if data ≠ [] ∧ data.length ≤ len then
      -- `input_handler_done`
      some (processData
        { s with
          buf := s.buf.write dest data
          receiving := none
          received := s.received ++ data
          bufUsed := s.bufUsed + data.length
          fault := s.fault || decide (s.bufSize < s.bufStart + s.bufUsed + data.length) })
    else none
  | .sent => s.sending.map fun (data, len) =>
    -- `output_handler_done`
    processData { s with sending := none, sent := s.sent ++ [s.buf.slice data len] }

/-- A run of a decoder. -/
def run (buf : Memory) (mtu : ℕ) (actions : List DecoderAction) : Option PacketProtoDecoder :=
  Reactive.steps step (init buf mtu) actions

/-! ### The invariant -/

/-- The stream of the encoder. -/
def stream (ps : List Bytes) : Bytes := ps.flatMap PacketProtoEncoder.inputHandlerDone

/-- The bytes that have not been passed on. -/
def buffered (s : PacketProtoDecoder) : Bytes := s.buf.slice s.bufStart s.bufUsed

/-- A decoder that has sent packets and still expects the packets `ps`, of which it has received some
bytes. -/
structure Expects (s : PacketProtoDecoder) (ps : List Bytes) : Prop where
  size : s.bufSize = 2 + s.outputMtu
  mtu : s.outputMtu ≤ PACKETPROTO_MAXPAYLOAD
  bounds : s.bufStart + s.bufUsed ≤ s.bufSize
  lengths : ∀ p ∈ ps, p.length ≤ s.outputMtu
  prefix_stream : s.buffered <+: stream ps
  errors : s.errors = 0
  fault : s.fault = false

/-- What holds between the events: the decoder waits for the rest of the first packet that it expects, or
it sends one. -/
inductive Kept (all : List Bytes) (s : PacketProtoDecoder) : Prop
  | receives (ps : List Bytes) (expects : s.Expects ps) (order : all = s.sent ++ ps)
      (received : s.received = stream s.sent ++ s.buffered)
      (receiving : s.receiving =
        some (s.bufStart + s.bufUsed, s.bufSize - (s.bufStart + s.bufUsed)))
      (sending : s.sending = none) (room : s.bufStart + s.bufUsed < s.bufSize)
      (incomplete : ∀ p qs, ps = p :: qs → s.bufUsed < 2 + p.length)
  | sends (p : Bytes) (ps : List Bytes) (data : ℕ) (expects : s.Expects ps)
      (order : all = s.sent ++ p :: ps) (received : s.received = stream (s.sent ++ [p]) ++ s.buffered)
      (receiving : s.receiving = none) (sending : s.sending = some (data, p.length))
      (packet : s.buf.slice data p.length = p)

variable {all ps : List Bytes} {s s' : PacketProtoDecoder} {p : Bytes}

@[simp]
theorem stream_append (ps qs : List Bytes) : stream (ps ++ qs) = stream ps ++ stream qs :=
  List.flatMap_append

theorem stream_cons (p : Bytes) (ps : List Bytes) : stream (p :: ps) =
    UInt8.ofNat p.length :: UInt8.ofNat (p.length / 256) :: (p ++ stream ps) := rfl

@[simp]
theorem length_buffered (s : PacketProtoDecoder) : s.buffered.length = s.bufUsed :=
  Memory.length_slice _ _ _

theorem receiverRecv_eq (hnone : s.receiving = none) (hroom : s.bufStart + s.bufUsed < s.bufSize) :
    s.receiverRecv =
      { s with receiving := some (s.bufStart + s.bufUsed, s.bufSize - (s.bufStart + s.bufUsed)) } :=
  if_pos ⟨hnone, hroom⟩

/-- The rest of the first packet fits in behind what is there of it, if need be after moving that to the
front. -/
theorem Expects.receiveMore (h : s.Expects ps) (order : all = s.sent ++ ps)
    (received : s.received = stream s.sent ++ s.buffered) (receiving : s.receiving = none)
    (sending : s.sending = none) (hused : s.bufUsed < s.bufSize)
    (incomplete : ∀ p qs, ps = p :: qs → s.bufUsed < 2 + p.length) : Kept all s.receiveMore := by
  have hbounds := h.bounds
  by_cases hend : s.bufStart + s.bufUsed = s.bufSize
  · -- the bytes are not at the front yet, since they are not a whole packet
    have hmoved : Memory.slice (s.buf.moveToFront s.bufStart s.bufUsed) 0 s.bufUsed = s.buffered :=
      Memory.slice_moveToFront _ _ _
    have hroom : 0 + s.bufUsed < s.bufSize := by omega
    have hrecv := receiverRecv_eq
      (s := { s with buf := s.buf.moveToFront s.bufStart s.bufUsed, bufStart := 0 }) receiving hroom
    rw [PacketProtoDecoder.receiveMore, if_pos hend, hrecv]
    exact .receives ps
      { h with
        bounds := hroom.le
        prefix_stream := by
          change Memory.slice (s.buf.moveToFront s.bufStart s.bufUsed) 0 s.bufUsed <+: stream ps
          rw [hmoved]
          exact h.prefix_stream }
      order (received.trans (congrArg _ hmoved.symm)) rfl sending hroom incomplete
  · have hroom : s.bufStart + s.bufUsed < s.bufSize := by omega
    rw [PacketProtoDecoder.receiveMore, if_neg hend, receiverRecv_eq receiving hroom]
    exact .receives ps { h with } order received rfl sending hroom incomplete

/-- The header of the packet that is expected is what the decoder reads. -/
theorem Expects.header (h : s.Expects (p :: ps)) (hused : 2 ≤ s.bufUsed) :
    ltoh16 (s.buf s.bufStart) (s.buf (s.bufStart + 1)) = p.length ∧
      s.buffered = htol16 p.length ++ s.buf.slice (s.bufStart + 2) (s.bufUsed - 2) ∧
      s.buf.slice (s.bufStart + 2) (s.bufUsed - 2) <+: p ++ stream ps := by
  have hprefix := h.prefix_stream
  obtain ⟨n, hn⟩ := Nat.exists_eq_add_of_le hused
  rw [buffered, hn, Memory.slice_two, stream_cons, List.cons_prefix_cons, List.cons_prefix_cons] at hprefix
  obtain ⟨hlow, hhigh, hrest⟩ := hprefix
  have hlen := (h.lengths p List.mem_cons_self).trans h.mtu
  rw [buffered, hn, Memory.slice_two, hlow, hhigh, ltoh16_htol16 hlen, Nat.add_sub_cancel_left]
  exact ⟨rfl, rfl, hrest⟩

theorem Expects.processData (h : s.Expects ps) (order : all = s.sent ++ ps)
    (received : s.received = stream s.sent ++ s.buffered) (receiving : s.receiving = none)
    (sending : s.sending = none) : Kept all s.processData := by
  have hsize := h.size
  rw [PacketProtoDecoder.processData]
  by_cases hheader : s.bufUsed < 2
  · rw [if_pos hheader]
    exact h.receiveMore order received receiving sending (by omega) fun p qs _ => by omega
  · rw [if_neg hheader]
    cases ps with
    | nil =>
      -- nothing is expected, so nothing is there
      have hlen := h.prefix_stream.length_le
      rw [length_buffered] at hlen
      exact absurd (hlen.trans_lt Nat.two_pos) hheader
    | cons p ps =>
      obtain ⟨hlen, hbuffered, hrest⟩ := h.header (by omega)
      have hmtu := h.lengths p List.mem_cons_self
      dsimp only
      rw [hlen, if_neg (by omega)]
      by_cases hpart : s.bufUsed - 2 < p.length
      · rw [if_pos hpart]
        refine h.receiveMore order received receiving sending (by omega) fun q qs hq => ?_
        obtain ⟨rfl, -⟩ := List.cons.inj hq
        omega
      · -- the whole packet is there, and what follows it belongs to the others
        obtain ⟨n, hn⟩ := Nat.exists_eq_add_of_le (show 2 + p.length ≤ s.bufUsed by omega)
        have hn' : s.bufUsed - (2 + p.length) = n := by omega
        have hsplit : s.buf.slice (s.bufStart + 2) (s.bufUsed - 2) =
            s.buf.slice (s.bufStart + 2) p.length ++ s.buf.slice (s.bufStart + (2 + p.length)) n := by
          rw [← Nat.add_assoc, ← Memory.slice_add]
          congr 1
          omega
        rw [hsplit] at hrest hbuffered
        obtain ⟨t, ht⟩ := hrest
        rw [List.append_assoc] at ht
        obtain ⟨hpacket, hothers⟩ := List.append_inj ht (Memory.length_slice _ _ _)
        rw [if_neg hpart, senderSend, if_pos ⟨sending, hmtu⟩]
        refine .sends p ps (s.bufStart + 2) ?_ order ?_ receiving rfl hpacket
        · exact
            { size := hsize
              mtu := h.mtu
              bounds := by
                have := h.bounds
                change s.bufStart + (2 + p.length) + (s.bufUsed - (2 + p.length)) ≤ s.bufSize
                omega
              lengths := fun q hq => h.lengths q (List.mem_cons_of_mem p hq)
              prefix_stream := by
                change s.buf.slice (s.bufStart + (2 + p.length)) (s.bufUsed - (2 + p.length)) <+: stream ps
                rw [hn']
                exact ⟨t, hothers⟩
              errors := h.errors
              fault := h.fault }
        · change s.received = stream (s.sent ++ [p]) ++
            s.buf.slice (s.bufStart + (2 + p.length)) (s.bufUsed - (2 + p.length))
          have hone : stream [p] = htol16 p.length ++ p := List.append_nil _
          rw [received, hbuffered, hpacket, hn', stream_append, hone]
          simp only [List.append_assoc]

/-! ### The runs -/

theorem received_receiverRecv (s : PacketProtoDecoder) : s.receiverRecv.received = s.received := by
  rw [receiverRecv]
  split <;> rfl

theorem received_processData (s : PacketProtoDecoder) : s.processData.received = s.received := by
  have hmore : s.receiveMore.received = s.received := by
    rw [receiveMore]
    split <;> exact received_receiverRecv _
  rw [processData]
  dsimp only
  split_ifs with hheader hlarge hpart
  · exact hmore
  · exact received_receiverRecv _
  · exact hmore
  · rw [senderSend]
    split <;> rfl

theorem kept_init (buf : Memory) {mtu : ℕ} (h : ∀ p ∈ ps, p.length ≤ min mtu PACKETPROTO_MAXPAYLOAD) :
    Kept ps (init buf mtu) := by
  have hroom : 0 + 0 < 2 + min mtu PACKETPROTO_MAXPAYLOAD := by omega
  have hrecv := receiverRecv_eq
    (s := { outputMtu := min mtu PACKETPROTO_MAXPAYLOAD, bufSize := 2 + min mtu PACKETPROTO_MAXPAYLOAD,
            bufStart := 0, bufUsed := 0, buf, receiving := none, sending := none, received := [],
            sent := [], errors := 0, fault := false }) rfl hroom
  rw [init, hrecv]
  exact .receives ps
    { size := rfl
      mtu := min_le_right _ _
      bounds := hroom.le
      lengths := h
      prefix_stream := List.nil_prefix
      errors := rfl
      fault := rfl } rfl rfl rfl rfl hroom fun p qs _ => by change 0 < 2 + p.length; omega

/-- As long as the stream is that of `all`, the decoder stays on its way. -/
theorem Kept.step {a : DecoderAction} (h : s.received <+: stream all → Kept all s)
    (hstep : s.step a = some s') (hall : s'.received <+: stream all) : Kept all s' := by
  cases a with
  | received data =>
    obtain ⟨⟨dest, len⟩, hdest, hrest⟩ := Option.bind_eq_some_iff.mp hstep
    dsimp only at hrest
    split at hrest
    · rename_i hdata
      cases hrest
      rw [received_processData] at hall
      dsimp only at hall
      cases h ((List.prefix_append _ _).trans hall) with
      | sends p ps data' expects order received receiving sending packet =>
        rw [receiving] at hdest
        cases hdest
      | receives ps expects order received receiving sending room incomplete =>
        rw [receiving] at hdest
        cases hdest
        -- the new data lies behind the old
        have hbuffered : Memory.slice (s.buf.write (s.bufStart + s.bufUsed) data) s.bufStart
            (s.bufUsed + data.length) = s.buffered ++ data := by
          rw [Memory.slice_add, Memory.slice_write_of_le le_rfl, Memory.slice_write]
          rfl
        have hlen := hdata.2
        have hfault : (s.fault || decide (s.bufSize < s.bufStart + s.bufUsed + data.length)) = false := by
          rw [expects.fault, decide_eq_false (by omega)]
          rfl
        refine @Expects.processData all ps _
          { expects with bounds := ?_, prefix_stream := ?_, fault := hfault } order ?_ rfl sending
        · change s.bufStart + (s.bufUsed + data.length) ≤ s.bufSize
          omega
        · change Memory.slice (s.buf.write (s.bufStart + s.bufUsed) data) s.bufStart
            (s.bufUsed + data.length) <+: stream ps
          rw [received, order, stream_append, List.append_assoc, List.prefix_append_right_inj] at hall
          rw [hbuffered]
          exact hall
        · change s.received ++ data = stream s.sent ++
            Memory.slice (s.buf.write (s.bufStart + s.bufUsed) data) s.bufStart (s.bufUsed + data.length)
          rw [hbuffered, received, List.append_assoc]
    · cases hrest
  | sent =>
    obtain ⟨⟨dest, len⟩, hsending, rfl⟩ := Option.map_eq_some_iff.mp hstep
    rw [received_processData] at hall
    dsimp only at hall
    cases h hall with
    | receives ps expects order received receiving sending room incomplete =>
      rw [sending] at hsending
      cases hsending
    | sends p ps data expects order received receiving sending packet =>
      rw [sending] at hsending
      cases hsending
      dsimp only
      rw [packet]
      refine @Expects.processData all ps _ { expects with } ?_ received receiving rfl
      rw [order, List.append_assoc]
      rfl

/-- The stream only grows, so it was a first part of that of `ps` all along. -/
theorem kept_of_run {buf : Memory} {mtu : ℕ} {actions : List DecoderAction}
    (hps : ∀ p ∈ ps, p.length ≤ min mtu PACKETPROTO_MAXPAYLOAD) (hrun : run buf mtu actions = some s)
    (hreceived : s.received <+: stream ps) : Kept ps s := by
  refine Reactive.steps_invariant (P := fun s => s.received <+: stream ps → Kept ps s) ?_ hrun
    (fun _ => kept_init buf hps) hreceived
  exact fun s s' a hstep h hall => Kept.step h hstep hall

theorem Kept.errors (h : Kept ps s) : s.errors = 0 ∧ s.fault = false := by
  cases h with
  | receives rest expects => exact ⟨expects.errors, expects.fault⟩
  | sends p rest data expects => exact ⟨expects.errors, expects.fault⟩

theorem Kept.sent (h : Kept ps s) : s.sent <+: ps ∧ stream s.sent <+: s.received := by
  cases h with
  | receives rest expects order received => exact ⟨⟨rest, order.symm⟩, ⟨_, received.symm⟩⟩
  | sends p rest data expects order received =>
    refine ⟨⟨p :: rest, order.symm⟩, ⟨stream [p] ++ s.buffered, ?_⟩⟩
    rw [received, stream_append, List.append_assoc]

/-- While the decoder receives, it has passed on every packet that is all there. -/
theorem Kept.prefix_sent {qs : List Bytes} (h : Kept ps s) (hsending : s.sending = none) (hqs : qs <+: ps)
    (hstream : stream qs <+: s.received) : qs <+: s.sent := by
  cases h with
  | sends p rest data expects order received receiving sending packet =>
    rw [sending] at hsending
    cases hsending
  | receives rest expects order received receiving sending room incomplete =>
    rcases List.prefix_or_prefix_of_prefix hqs ⟨rest, order.symm⟩ with hle | ⟨more, rfl⟩
    · exact hle
    · cases more with
      | nil => exact List.append_nil _ ▸ List.prefix_rfl
      | cons p more =>
        -- another whole packet would have been there
        rw [order, List.prefix_append_right_inj] at hqs
        obtain ⟨tail, htail⟩ := hqs
        have hpart := incomplete p (more ++ tail) htail.symm
        rw [received, stream_append, List.prefix_append_right_inj] at hstream
        have hlen := hstream.length_le
        rw [length_buffered, stream_cons, List.length_cons, List.length_cons, List.length_append] at hlen
        omega

/-- Whatever the pieces of a stream of encoded packets are, and however long the output takes: the decoder
reports no error and passes on the packets in their order, each as soon as all of it is there, and it is
always either receiving or sending. -/
theorem decodes_of_run {buf : Memory} {mtu : ℕ} {actions : List DecoderAction}
    (hps : ∀ p ∈ ps, p.length ≤ min mtu PACKETPROTO_MAXPAYLOAD) (hrun : run buf mtu actions = some s)
    (hreceived : s.received <+: stream ps) :
    s.errors = 0 ∧ s.fault = false ∧ s.sent <+: ps ∧
    (∀ data len, s.sending = some (data, len) → s.sent ++ [s.buf.slice data len] <+: ps) ∧
    (s.receiving = none ↔ s.sending ≠ none) ∧
    (s.sending = none → ∀ qs, qs <+: ps → stream qs <+: s.received → qs <+: s.sent) := by
  have hkept := kept_of_run hps hrun hreceived
  refine ⟨hkept.errors.1, hkept.errors.2, hkept.sent.1, ?_, ?_, fun hsending qs hqs hstream =>
    hkept.prefix_sent hsending hqs hstream⟩
  · intro data len hdata
    cases hkept with
    | receives rest expects order received receiving sending room incomplete =>
      rw [sending] at hdata
      cases hdata
    | sends p rest data expects order received receiving sending packet =>
      rw [sending] at hdata
      cases hdata
      rw [packet]
      exact ⟨rest, by rw [order, List.append_assoc]; rfl⟩
  · cases hkept with
    | receives rest expects order received receiving sending room incomplete =>
      rw [receiving, sending]
      exact ⟨fun h => (Option.some_ne_none _ h).elim, fun h => absurd rfl h⟩
    | sends p rest data expects order received receiving sending packet =>
      rw [receiving, sending]
      exact ⟨fun _ => Option.some_ne_none _, fun _ => rfl⟩

/-- Two packets in three pieces. -/
def sampleActions : List DecoderAction :=
  [.received [3, 0, 1, 2], .received [3, 1], .sent, .received [0, 4], .sent]

theorem decodes_of_run_sample : ∃ s, run (fun _ => 0) 4 sampleActions = some s ∧
    s.sent = [[1, 2, 3], [4]] ∧ s.errors = 0 ∧ s.sent <+: [[1, 2, 3], [4]] := by
  have hrun : (run (fun _ => 0) 4 sampleActions).map (fun s => (s.sent, s.received)) =
      some ([[1, 2, 3], [4]], [3, 0, 1, 2, 3, 1, 0, 4]) := by decide
  obtain ⟨s, hs, hsent⟩ := Option.map_eq_some_iff.mp hrun
  have hreceived : s.received = [3, 0, 1, 2, 3, 1, 0, 4] := congrArg Prod.snd hsent
  have hlengths : ∀ p ∈ ([[1, 2, 3], [4]] : List Bytes), p.length ≤ min 4 PACKETPROTO_MAXPAYLOAD := by
    decide
  obtain ⟨herrors, -, hprefix, -⟩ := decodes_of_run hlengths hs (by rw [hreceived]; decide)
  exact ⟨s, hs, congrArg Prod.fst hsent, herrors, hprefix⟩

end PacketProtoDecoder

end Badvpn
