import DripVpn.Engine.AeadFormat
import DripVpn.Engine.Socks5

/-!
# Streams to the proxy server

`ProxyClientStream` of `relay/tcprelay/proxy_stream/client.rs` puts the address of the target before
the first bytes that are written. The first packet is made once and kept until it is taken, so that
whoever writes has to offer the same bytes again.
-/

namespace Engine

variable {ω : Type} [PollWrite ω]

/-! ## The first packet -/

/-- An address that can be written, as every address that was read. -/
def TargetAddress := { addr : Address // addr.writeToBuf.isSome }

/-- The bytes of an address. -/
def TargetAddress.bytes (addr : TargetAddress) : Bytes := addr.1.writeToBuf.get addr.2

theorem TargetAddress.writeToBuf_eq (addr : TargetAddress) : addr.1.writeToBuf = some addr.bytes :=
  (Option.some_get addr.2).symm

inductive ProxyClientStreamWriteState
  | connect (addr : TargetAddress)
  | connecting (buffer : Bytes)
  | connected

/-- The half of a `ProxyClientStream` that is written to. -/
structure ProxyClientStream (ω : Type) where
  state : ProxyClientStreamWriteState
  stream : ω

/-- `make_first_packet_buffer`: Target Address should be sent with the first packet together. -/
def makeFirstPacketBuffer (addr : TargetAddress) (buf : Bytes) : Bytes := addr.bytes ++ buf

namespace ProxyClientStream

/-- The branch of `poll_write` for `Connecting`. -/
def pollConnecting (buffer : Bytes) (stream : ω) (buf : Bytes) :
    Poll (Except IoError ℕ) × ProxyClientStream ω :=
  match pollWrite stream buffer with
  | (.pending, stream) => (.pending, ⟨.connecting buffer, stream⟩)
  | (.ready (.error e), stream) => (.ready (.error e), ⟨.connecting buffer, stream⟩)
  -- In general, poll_write_encrypted should perform like write_all.
  | (.ready (.ok _), stream) => (.ready (.ok buf.length), ⟨.connected, stream⟩)

/-- `poll_write` -/
def pollWrite (s : ProxyClientStream ω) (buf : Bytes) :
    Poll (Except IoError ℕ) × ProxyClientStream ω :=
  match s.state with
  | .connect addr => pollConnecting (makeFirstPacketBuffer addr buf) s.stream buf
  | .connecting buffer => pollConnecting buffer s.stream buf
  | .connected =>
    match PollWrite.pollWrite s.stream buf with
    | (p, stream) => (p, { s with stream })

/-- `poll_flush` -/
def pollFlush (s : ProxyClientStream ω) : Poll (Except IoError Unit) × ProxyClientStream ω :=
  match PollWrite.pollFlush s.stream with
  | (p, stream) => (p, { s with stream })

/-- `poll_shutdown` -/
def pollShutdown (s : ProxyClientStream ω) : Poll (Except IoError Unit) × ProxyClientStream ω :=
  match PollWrite.pollShutdown s.stream with
  | (p, stream) => (p, { s with stream })

/-- Every poll is one of the stream below, for some bytes. -/
theorem pollWrite_cases {s s' : ProxyClientStream ω} {buf : Bytes} {p : Poll (Except IoError ℕ)}
    (h : s.pollWrite buf = (p, s')) :
    ∃ bytes q, PollWrite.pollWrite s.stream bytes = (q, s'.stream) ∧
      (q = p ∧ bytes = buf ∧ s.state = .connected ∧ s'.state = .connected ∨
        (q = .pending ∧ p = .pending ∨ (∃ e, q = .ready (.error e) ∧ p = .ready (.error e)) ∨
          ∃ n, q = .ready (.ok n) ∧ p = .ready (.ok buf.length) ∧ s'.state = .connected)) := by
  have hconnecting : ∀ buffer, pollConnecting buffer s.stream buf = (p, s') →
      ∃ q, PollWrite.pollWrite s.stream buffer = (q, s'.stream) ∧
        (q = .pending ∧ p = .pending ∨ (∃ e, q = .ready (.error e) ∧ p = .ready (.error e)) ∨
          ∃ n, q = .ready (.ok n) ∧ p = .ready (.ok buf.length) ∧ s'.state = .connected) := by
    intro buffer h
    rw [pollConnecting] at h
    split at h
    next hpoll =>
      cases h
      exact ⟨_, hpoll, .inl ⟨rfl, rfl⟩⟩
    next e _ hpoll =>
      cases h
      exact ⟨_, hpoll, .inr (.inl ⟨e, rfl, rfl⟩)⟩
    next n _ hpoll =>
      cases h
      exact ⟨_, hpoll, .inr (.inr ⟨n, rfl, rfl, rfl⟩)⟩
  rw [pollWrite] at h
  split at h
  · obtain ⟨q, hpoll, hq⟩ := hconnecting _ h
    exact ⟨_, q, hpoll, .inr hq⟩
  · obtain ⟨q, hpoll, hq⟩ := hconnecting _ h
    exact ⟨_, q, hpoll, .inr hq⟩
  next hstate =>
    split at h
    next q stream hpoll =>
      cases h
      exact ⟨buf, _, hpoll, .inl ⟨rfl, rfl, hstate, hstate⟩⟩

theorem pollFlush_eq_iff {s s' : ProxyClientStream ω} {p : Poll (Except IoError Unit)} :
    s.pollFlush = (p, s') ↔ PollWrite.pollFlush s.stream = (p, s'.stream) ∧ s'.state = s.state := by
  rw [pollFlush]
  obtain ⟨q, stream⟩ := PollWrite.pollFlush s.stream
  obtain ⟨state', stream'⟩ := s'
  simp only [Prod.mk.injEq, ProxyClientStream.mk.injEq]
  exact ⟨fun ⟨hp, hw, hs⟩ => ⟨⟨hp, hs⟩, hw.symm⟩, fun ⟨⟨hp, hs⟩, hw⟩ => ⟨hp, hw.symm, hs⟩⟩

theorem pollShutdown_eq_iff {s s' : ProxyClientStream ω} {p : Poll (Except IoError Unit)} :
    s.pollShutdown = (p, s') ↔
      PollWrite.pollShutdown s.stream = (p, s'.stream) ∧ s'.state = s.state := by
  rw [pollShutdown]
  obtain ⟨q, stream⟩ := PollWrite.pollShutdown s.stream
  obtain ⟨state', stream'⟩ := s'
  simp only [Prod.mk.injEq, ProxyClientStream.mk.injEq]
  exact ⟨fun ⟨hp, hw, hs⟩ => ⟨⟨hp, hs⟩, hw.symm⟩, fun ⟨⟨hp, hs⟩, hw⟩ => ⟨hp, hw.symm, hs⟩⟩

instance : PollWrite (ProxyClientStream ω) where
  pollWrite := pollWrite
  pollFlush := pollFlush
  pollShutdown := pollShutdown
  patience s := PollWrite.patience s.stream
  isShutdown s := PollWrite.isShutdown s.stream
  Reliable s := PollWrite.Reliable s.stream
  accepted_le h := by
    obtain ⟨bytes, q, hpoll, ⟨rfl, rfl, -, -⟩ | ⟨-, hp⟩ | ⟨e, -, hp⟩ | ⟨n, -, hp, -⟩⟩ := pollWrite_cases h
    · exact PollWrite.accepted_le hpoll
    · cases hp
    · cases hp
    · cases hp
      exact le_rfl
  patience_write h := by
    obtain ⟨bytes, q, hpoll, hq⟩ := pollWrite_cases h
    obtain ⟨hle, hlt⟩ := PollWrite.patience_write hpoll
    refine ⟨hle, fun hp => hlt ?_⟩
    obtain ⟨hqp, -⟩ | ⟨hq, -⟩ | ⟨e, -, hp'⟩ | ⟨n, -, hp', -⟩ := hq
    · exact hqp.trans hp
    · exact hq
    · cases hp.symm.trans hp'
    · cases hp.symm.trans hp'
  patience_flush h := PollWrite.patience_flush (pollFlush_eq_iff.mp h).1
  patience_shutdown h := PollWrite.patience_shutdown (pollShutdown_eq_iff.mp h).1
  isShutdown_write h := by
    obtain ⟨bytes, q, hpoll, -⟩ := pollWrite_cases h
    exact PollWrite.isShutdown_write hpoll
  isShutdown_flush h := PollWrite.isShutdown_flush (pollFlush_eq_iff.mp h).1
  isShutdown_shutdown h := PollWrite.isShutdown_shutdown (pollShutdown_eq_iff.mp h).1
  reliable_write hrel h := by
    obtain ⟨bytes, q, hpoll, hq⟩ := pollWrite_cases h
    obtain ⟨hrel', herror, hzero⟩ := PollWrite.reliable_write hrel hpoll
    refine ⟨hrel', fun e hp => ?_, fun hne hp => ?_⟩
    · obtain ⟨hqp, -⟩ | ⟨-, hp'⟩ | ⟨e', hq, -⟩ | ⟨n, -, hp', -⟩ := hq
      · exact herror e (hqp.trans hp)
      · cases hp'.symm.trans hp
      · exact herror e' hq
      · cases hp'.symm.trans hp
    · obtain ⟨hqp, rfl, -⟩ | ⟨-, hp'⟩ | ⟨e', hq, -⟩ | ⟨n, -, hp', -⟩ := hq
      · exact hzero hne (hqp.trans hp)
      · cases hp'.symm.trans hp
      · exact herror e' hq
      · rw [hp'] at hp
        simp only [Poll.ready.injEq, Except.ok.injEq, List.length_eq_zero_iff] at hp
        exact hne hp
  reliable_flush hrel h := PollWrite.reliable_flush hrel (pollFlush_eq_iff.mp h).1
  reliable_shutdown hrel h := PollWrite.reliable_shutdown hrel (pollShutdown_eq_iff.mp h).1

/-! ### What is taken -/

/-- Nothing was accepted yet of the bytes `rest`, which are sent after the address. -/
def Unsent (W : ω → Option Bytes → Bytes → Prop) (addr : TargetAddress) (rest : Bytes)
    (s : ProxyClientStream ω) : Prop :=
  s.state = .connect addr ∧ W s.stream none [] ∨
    s.state = .connecting (makeFirstPacketBuffer addr rest) ∧
      W s.stream (some (makeFirstPacketBuffer addr rest)) []

/-- After the first packet, `sent` was taken before what is written. -/
def Connected (W : ω → Option Bytes → Bytes → Prop) (sent : Bytes) (s : ProxyClientStream ω)
    (offered : Option Bytes) (taken : Bytes) : Prop :=
  s.state = .connected ∧ W s.stream offered (sent ++ taken)

/-- The first write: the packet is offered to the stream below until that accepts some of it. -/
theorem Unsent.pollWrite {W : ω → Option Bytes → Bytes → Prop} (hW : Writes W) {addr : TargetAddress}
    {rest : Bytes} {s s' : ProxyClientStream ω} {p : Poll (Except IoError ℕ)}
    (h : s.Unsent W addr rest) (hpoll : s.pollWrite rest = (p, s')) :
    (∀ n, p = .ready (.ok n) → n = rest.length ∧ ∃ m,
      PollWrite.pollWrite s.stream (makeFirstPacketBuffer addr rest) = (.ready (.ok m), s'.stream) ∧
      s'.Connected W ((makeFirstPacketBuffer addr rest).take m) none []) ∧
    ((∀ n, p ≠ .ready (.ok n)) → s'.Unsent W addr rest) := by
  obtain ⟨offered, hoffered, htakes, hconnecting⟩ : ∃ offered,
      (∀ b ∈ offered, b = makeFirstPacketBuffer addr rest) ∧ W s.stream offered [] ∧
      pollConnecting (makeFirstPacketBuffer addr rest) s.stream rest = (p, s') := by
    rw [ProxyClientStream.pollWrite] at hpoll
    rcases h with ⟨hstate, htakes⟩ | ⟨hstate, htakes⟩
    · rw [hstate] at hpoll
      exact ⟨none, (fun b hb => by cases hb), htakes, hpoll⟩
    · rw [hstate] at hpoll
      refine ⟨_, fun b hb => ?_, htakes, hpoll⟩
      cases hb
      rfl
  rw [pollConnecting] at hconnecting
  split at hconnecting
  next hinner =>
    cases hconnecting
    exact ⟨(fun n hn => by cases hn), fun _ => .inr ⟨rfl, hW.pending htakes hoffered hinner⟩⟩
  next hinner =>
    cases hconnecting
    exact ⟨(fun n hn => by cases hn), fun _ => .inr ⟨rfl, hW.failed htakes hoffered hinner⟩⟩
  next m _ hinner =>
    cases hconnecting
    refine ⟨fun n hn => ?_, fun hp => absurd rfl (hp _)⟩
    cases hn
    refine ⟨rfl, m, hinner, rfl, ?_⟩
    rw [List.append_nil]
    exact hW.ready htakes hoffered hinner

theorem pollWrite_of_connected {s s' : ProxyClientStream ω} {buf : Bytes}
    {p : Poll (Except IoError ℕ)} (hstate : s.state = .connected) (h : s.pollWrite buf = (p, s')) :
    PollWrite.pollWrite s.stream buf = (p, s'.stream) ∧ s'.state = .connected := by
  rw [ProxyClientStream.pollWrite, hstate] at h
  cases h
  exact ⟨rfl, rfl⟩

/-- After the first packet the stream takes what it accepts. -/
theorem writes {W : ω → Option Bytes → Bytes → Prop} (hW : Writes W) (sent : Bytes) :
    Writes (Connected W sent) where
  pending h hoffered hpoll := by
    obtain ⟨hinner, hstate⟩ := pollWrite_of_connected h.1 hpoll
    exact ⟨hstate, hW.pending h.2 hoffered hinner⟩
  ready h hoffered hpoll := by
    obtain ⟨hinner, hstate⟩ := pollWrite_of_connected h.1 hpoll
    refine ⟨hstate, ?_⟩
    rw [← List.append_assoc]
    exact hW.ready h.2 hoffered hinner
  failed h hoffered hpoll := by
    obtain ⟨hinner, hstate⟩ := pollWrite_of_connected h.1 hpoll
    exact ⟨hstate, hW.failed h.2 hoffered hinner⟩
  flush h hpoll := by
    obtain ⟨hflush, hstate⟩ := pollFlush_eq_iff.mp hpoll
    exact ⟨hstate.trans h.1, hW.flush h.2 hflush⟩
  shutdown h hpoll := by
    obtain ⟨hshutdown, hstate⟩ := pollShutdown_eq_iff.mp hpoll
    exact ⟨hstate.trans h.1, hW.shutdown h.2 hshutdown⟩

end ProxyClientStream

end Engine
