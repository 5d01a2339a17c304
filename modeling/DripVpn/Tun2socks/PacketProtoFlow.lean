import DripVpn.Tun2socks.PacketBuffer
import DripVpn.Tun2socks.PacketProtoDecoder

/-!
# Packets through a connection

`flow/PacketProtoFlow.c` puts an encoder in front of a packet buffer, whose output is a connection; a decoder
stands at the other end. The connection may cut what the buffer sends into any pieces and may lag behind.
-/

namespace Badvpn

/-- `PACKETPROTO_ENCLEN` -/
def PACKETPROTO_ENCLEN (len : ℕ) : ℕ := 2 + len

/-- What happens to a flow. -/
inductive FlowAction
  /-- The encoder writes a part of a packet to the buffer. -/
  | write (data : Bytes)
  | packet (packet : Bytes)
  | sent

namespace PacketProtoFlow

/-- What the encoder passes on to the buffer. -/
def encoded : FlowAction → PacketAction
  | .write data => .write data
  | .packet packet => .received (PacketProtoEncoder.inputHandlerDone packet)
  | .sent => .sent

/-- The packet that goes in. -/
def input : FlowAction → Option Bytes
  | .write _ => none
  | .packet packet => some packet
  | .sent => none

/-- The packets that go into a flow. -/
def packets (actions : List FlowAction) : List Bytes := actions.filterMap input

/-- `PacketProtoFlow_Init`, and a run of what it sets up. -/
def run (buffer : Blocks) (inputMtu outputMtu numPackets : ℕ) (actions : List FlowAction) :
    Option PacketBuffer :=
  PacketBuffer.run buffer (PACKETPROTO_ENCLEN inputMtu) outputMtu numPackets (actions.map encoded)

end PacketProtoFlow

namespace PacketBuffer

variable {s s' : PacketBuffer}

theorem received_receiverRecv (s : PacketBuffer) : s.receiverRecv.received = s.received := by
  rw [receiverRecv]
  split <;> rfl

theorem received_senderSend (s : PacketBuffer) : s.senderSend.received = s.received := by
  rw [senderSend]
  split <;> rfl

theorem received_inputHandlerDone (s : PacketBuffer) (inLen : ℕ) :
    (s.inputHandlerDone inLen).received = s.received := by
  rw [inputHandlerDone]
  dsimp only
  cases s.buf.submitPacket inLen with
  | none => rfl
  | some buf =>
    dsimp only
    split_ifs <;> simp only [received_senderSend, received_receiverRecv]

theorem received_outputHandlerDone (s : PacketBuffer) : s.outputHandlerDone.received = s.received := by
  rw [outputHandlerDone]
  dsimp only
  cases s.buf.consumePacket with
  | none => rfl
  | some buf =>
    dsimp only
    split_ifs <;> simp only [received_senderSend, received_receiverRecv]

/-- A buffer has received the packets that were encoded for it. -/
theorem received_step {a : FlowAction} (hstep : s.step (PacketProtoFlow.encoded a) = some s') :
    s'.received = s.received ++ (PacketProtoFlow.packets [a]).map PacketProtoEncoder.inputHandlerDone := by
  cases a with
  | write data =>
    obtain ⟨dest, -, hrest⟩ := Option.bind_eq_some_iff.mp hstep
    split at hrest
    · cases hrest
      exact (List.append_nil _).symm
    · cases hrest
  | packet packet =>
    obtain ⟨dest, -, hrest⟩ := Option.bind_eq_some_iff.mp hstep
    split at hrest
    · cases hrest
      rw [received_inputHandlerDone]
      rfl
    · cases hrest
  | sent =>
    obtain ⟨⟨dest, len⟩, -, rfl⟩ := Option.map_eq_some_iff.mp hstep
    rw [received_outputHandlerDone]
    exact (List.append_nil _).symm

theorem received_steps {actions : List FlowAction}
    (hsteps : Reactive.steps step s (actions.map PacketProtoFlow.encoded) = some s') :
    s'.received =
      s.received ++ (PacketProtoFlow.packets actions).map PacketProtoEncoder.inputHandlerDone := by
  induction actions generalizing s with
  | nil =>
    cases hsteps
    exact (List.append_nil _).symm
  | cons a actions ih =>
    obtain ⟨s₁, hstep, hrest⟩ := Reactive.steps_cons_iff.mp hsteps
    have hsplit : PacketProtoFlow.packets (a :: actions) =
        PacketProtoFlow.packets [a] ++ PacketProtoFlow.packets actions :=
      List.filterMap_append (l := [a])
    rw [ih hrest, received_step hstep, List.append_assoc, ← List.map_append, hsplit]

theorem received_init {buffer : Blocks} {inputMtu outputMtu num : ℕ}
    (hinit : init buffer inputMtu outputMtu num = some s) : s.received = [] := by
  rw [init] at hinit
  split at hinit
  · obtain ⟨blocks, -, hrest⟩ := Option.bind_eq_some_iff.mp hinit
    obtain ⟨buf, -, rfl⟩ := Option.map_eq_some_iff.mp hrest
    rw [received_receiverRecv]
  · cases hinit

end PacketBuffer

namespace PacketProtoFlow

open PacketProtoDecoder (stream)

theorem stream_eq_flatten (ps : List Bytes) :
    stream ps = (ps.map PacketProtoEncoder.inputHandlerDone).flatten := List.flatMap_def

theorem eq_nil_of_stream_eq_nil {ps : List Bytes} (h : stream ps = []) : ps = [] := by
  cases ps with
  | nil => rfl
  | cons p ps => cases h

/-- The buffer sends the encodings of some first packets. -/
theorem sent_eq_of_run {buffer : Blocks} {inputMtu outputMtu numPackets : ℕ} {actions : List FlowAction}
    {s : PacketBuffer} (houtput : PACKETPROTO_ENCLEN inputMtu ≤ outputMtu) (hnum : 0 < numPackets)
    (hbytes : 4 * ((1 + blocklen (PACKETPROTO_ENCLEN inputMtu)) * (numPackets + 1)) ≤ INT_MAX)
    (hrun : run buffer inputMtu outputMtu numPackets actions = some s) :
    ∃ ps, ps <+: packets actions ∧ s.sent = ps.map PacketProtoEncoder.inputHandlerDone := by
  obtain ⟨last, waiting, hkept⟩ := PacketBuffer.kept_of_run buffer houtput hnum hbytes hrun
  obtain ⟨s₀, hinit, hsteps⟩ := Option.bind_eq_some_iff.mp hrun
  have hreceived := PacketBuffer.received_steps hsteps
  rw [PacketBuffer.received_init hinit, List.nil_append, hkept.order] at hreceived
  obtain ⟨ps, rest, hps, hsent, -⟩ := List.append_eq_map_iff.mp hreceived
  exact ⟨ps, ⟨rest, hps.symm⟩, hsent.symm⟩

/-- What goes into a flow comes out of a decoder at the other end of the connection, in whatever pieces the
connection delivers it: the decoder reports no error, and has passed on every packet of which all has been
delivered when it waits for more. -/
theorem delivers_of_run {buffer : Blocks} {inputMtu outputMtu numPackets : ℕ} {actions : List FlowAction}
    {s : PacketBuffer} {mem : Memory} {mtu : ℕ} {decoderActions : List DecoderAction}
    {d : PacketProtoDecoder} (houtput : PACKETPROTO_ENCLEN inputMtu ≤ outputMtu) (hnum : 0 < numPackets)
    (hbytes : 4 * ((1 + blocklen (PACKETPROTO_ENCLEN inputMtu)) * (numPackets + 1)) ≤ INT_MAX)
    (hpackets : ∀ p ∈ packets actions, p.length ≤ min mtu PACKETPROTO_MAXPAYLOAD)
    (hrun : run buffer inputMtu outputMtu numPackets actions = some s)
    (hdecoder : PacketProtoDecoder.run mem mtu decoderActions = some d)
    (hconnection : d.received <+: s.sent.flatten) :
    d.errors = 0 ∧ d.fault = false ∧ d.sent <+: packets actions ∧
    (d.sending = none → d.received = s.sent.flatten → d.sent.length = s.sent.length) := by
  obtain ⟨ps, hps, hsent⟩ := sent_eq_of_run houtput hnum hbytes hrun
  have hstream : s.sent.flatten = stream ps := by rw [hsent, stream_eq_flatten]
  have hall : d.received <+: stream (packets actions) := by
    obtain ⟨rest, hrest⟩ := hps
    rw [← hrest, PacketProtoDecoder.stream_append, ← hstream]
    exact hconnection.trans (List.prefix_append _ _)
  have hkept := PacketProtoDecoder.kept_of_run hpackets hdecoder hall
  refine ⟨hkept.errors.1, hkept.errors.2, hkept.sent.1, fun hsending hreceived => ?_⟩
  -- the decoder has passed on all of these packets, and no byte is left for another
  rw [hstream] at hreceived
  obtain ⟨more, hmore⟩ := hkept.prefix_sent hsending hps (hreceived ▸ List.prefix_rfl)
  have hrest := hkept.sent.2
  rw [← hmore, PacketProtoDecoder.stream_append, hreceived] at hrest
  have hlen := hrest.length_le
  rw [List.length_append] at hlen
  have hzero : (stream more).length = 0 := by omega
  have hnil := eq_nil_of_stream_eq_nil (List.length_eq_zero_iff.mp hzero)
  rw [← hmore, hnil, List.append_nil, hsent, List.length_map]

/-- Two packets, of which the connection has delivered one and a half. -/
def sampleActions : List FlowAction := [.packet [1, 2], .packet [3], .sent, .write [0, 0, 7], .sent]

theorem delivers_of_run_sample : ∃ s d, run (fun _ => .data []) 4 6 2 sampleActions = some s ∧
    PacketProtoDecoder.run (fun _ => 0) 4 [.received [2], .received [0, 1, 2, 1], .sent] = some d ∧
    d.sent = [[1, 2]] ∧ d.errors = 0 ∧ d.sent <+: packets sampleActions := by
  have hs : (run (fun _ => .data []) 4 6 2 sampleActions).map PacketBuffer.sent =
      some [[2, 0, 1, 2], [1, 0, 3]] := by decide
  have hd : (PacketProtoDecoder.run (fun _ => 0) 4 [.received [2], .received [0, 1, 2, 1], .sent]).map
      (fun d => (d.sent, d.received)) = some ([[1, 2]], [2, 0, 1, 2, 1]) := by decide
  obtain ⟨s, hrun, hsent⟩ := Option.map_eq_some_iff.mp hs
  obtain ⟨d, hdecoder, hd'⟩ := Option.map_eq_some_iff.mp hd
  have hreceived : d.received = [2, 0, 1, 2, 1] := congrArg Prod.snd hd'
  have hconnection : d.received <+: s.sent.flatten := by
    rw [hreceived, hsent]
    decide
  obtain ⟨herrors, -, hprefix, -⟩ := delivers_of_run (by decide) (by decide) (by decide) (by decide) hrun
    hdecoder hconnection
  exact ⟨s, d, hrun, hdecoder, congrArg Prod.fst hd', herrors, hprefix⟩

end PacketProtoFlow

end Badvpn
