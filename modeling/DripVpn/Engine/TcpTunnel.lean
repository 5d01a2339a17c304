import DripVpn.Engine.Copy
import DripVpn.Engine.ProxyStream

/-!
# The tunnel of a proxied connection

`establish_tcp_tunnel` of `local/utils.rs` relays a connection of a client to the server. It waits for
the first bytes of the client for a while, so that they are sent together with the address of the
target, and relays the rest with `copy_encrypted_bidirectional`.

* `establishTcpTunnel_relays`: what a tunnel puts on the wire and gives to its client, however its
  connections behave;
* `server_receives` and `client_receives`: what the other end of the tunnel makes of it.
-/

namespace Engine

/-! ## The future -/

/-- Where `establish_tcp_tunnel` waits: for the first bytes of the client, for which it waits through
some more polls only, for them to be sent, for the address to be sent without them, or for the relay. -/
inductive TunnelPhase
  | reading (timeout : ℕ)
  | sending (rest : Bytes)
  | handshaking
  | relaying (aToB bToA : TransferState)

/-- A connection of a client, and one to the server. -/
structure TcpTunnel (method : CipherKind) where
  shadowRead : DecryptedStream method AsyncRead
  shadowWrite : ProxyClientStream (EncryptedStream method AsyncWrite)
  plainRead : AsyncRead
  plainWrite : AsyncWrite
  phase : TunnelPhase

namespace TcpTunnel

variable {method : CipherKind}

/-- The streams, as they are relayed. -/
def relay (t : TcpTunnel method) (aToB bToA : TransferState) :
    CopyBidirectional (DecryptedStream method AsyncRead) AsyncWrite AsyncRead
      (ProxyClientStream (EncryptedStream method AsyncWrite)) where
  aRead := t.shadowRead
  aWrite := t.shadowWrite
  bRead := t.plainRead
  bWrite := t.plainWrite
  aToB := aToB
  bToA := bToA

/-- `copy_encrypted_bidirectional(..).await`; how it ends is only logged. -/
def pollRelaying (t : TcpTunnel method) (aToB bToA : TransferState) :
    Poll (Except IoError Unit) × TcpTunnel method :=
  match (t.relay aToB bToA).poll with
  | (.pending, s) => (.pending, ⟨s.aRead, s.aWrite, s.bRead, s.bWrite, .relaying s.aToB s.bToA⟩)
  | (.ready _, s) => (.ready (.ok ()), ⟨s.aRead, s.aWrite, s.bRead, s.bWrite, .relaying s.aToB s.bToA⟩)

/-- The relay with its new buffers. -/
def startRelaying (t : TcpTunnel method) : Poll (Except IoError Unit) × TcpTunnel method :=
  t.pollRelaying (.running (.new (MAX_PACKET_SIZE + method.tagLen))) (.running (.new MAX_PACKET_SIZE))

/-- `shadow.write_all(rest).await?` -/
def pollSending (t : TcpTunnel method) (rest : Bytes) :
    Poll (Except IoError Unit) × TcpTunnel method :=
  if rest = [] then t.startRelaying
  else
    match pollWrite t.shadowWrite rest with
    | (.pending, shadowWrite) => (.pending, { t with shadowWrite, phase := .sending rest })
    | (.ready (.error e), shadowWrite) =>
      (.ready (.error e), { t with shadowWrite, phase := .sending rest })
    | (.ready (.ok 0), shadowWrite) =>
      (.ready (.error .writeZero), { t with shadowWrite, phase := .sending rest })
    | (.ready (.ok (n + 1)), shadowWrite) => pollSending { t with shadowWrite } (rest.drop (n + 1))
termination_by rest.length
decreasing_by
  next h =>
    have := List.length_pos_of_ne_nil h
    rw [List.length_drop]
    omega

/-- `shadow.write(&[]).await?` -/
def pollHandshaking (t : TcpTunnel method) : Poll (Except IoError Unit) × TcpTunnel method :=
  match pollWrite t.shadowWrite [] with
  | (.pending, shadowWrite) => (.pending, { t with shadowWrite, phase := .handshaking })
  | (.ready (.error e), shadowWrite) =>
    (.ready (.error e), { t with shadowWrite, phase := .handshaking })
  | (.ready (.ok _), shadowWrite) => { t with shadowWrite }.startRelaying

/-- `establish_tcp_tunnel` of a proxied stream -/
def poll (t : TcpTunnel method) : Poll (Except IoError Unit) × TcpTunnel method :=
  match t.phase with
  | .reading timeout =>
    match pollRead t.plainRead 8192 with
    | (.pending, plainRead) =>
      match timeout with
      -- Timeout. Send handshake to server.
      | 0 => { t with plainRead }.pollHandshaking
      | timeout + 1 => (.pending, { t with plainRead, phase := .reading timeout })
    | (.ready (.error e), plainRead) => (.ready (.error e), { t with plainRead })
    -- EOF. Just terminate right here.
    | (.ready (.ok []), plainRead) => (.ready (.ok ()), { t with plainRead })
    -- Send the first packet.
    | (.ready (.ok (b :: bytes)), plainRead) => { t with plainRead }.pollSending (b :: bytes)
  | .sending rest => t.pollSending rest
  | .handshaking => t.pollHandshaking
  | .relaying aToB bToA => t.pollRelaying aToB bToA

end TcpTunnel

/-- What a tunnel starts with, and everything that will happen to its connections. -/
structure TunnelInput where
  method : CipherKind
  key : Bytes
  salt : Bytes
  addr : TargetAddress
  fromServer : AsyncRead
  toServer : List WriteEvent
  fromClient : AsyncRead
  toClient : List WriteEvent
  timeout : ℕ

namespace TunnelInput

variable (i : TunnelInput)

/-- The tunnel before it is polled. -/
def start : TcpTunnel i.method where
  shadowRead := ⟨DecryptedReader.new i.method i.key, i.fromServer⟩
  shadowWrite := ⟨.connect i.addr, ⟨EncryptedWriter.new i.key i.salt, .ofEvents i.toServer⟩⟩
  plainRead := i.fromClient
  plainWrite := .ofEvents i.toClient
  phase := .reading i.timeout

/-- What the server sends to the client, and how it ends. -/
def response : Bytes × Option IoError :=
  decrypted i.method i.key i.fromServer.bytes i.fromServer.ending

/-- What is sent to the server: the address, and what the client sends. -/
def request : Bytes := i.addr.bytes ++ i.fromClient.bytes

/-! ## What is to be relayed -/

/-- What a connection to the server has taken. -/
def Takes : EncryptedStream i.method AsyncWrite → Option Bytes → Bytes → Prop :=
  EncryptedStream.Takes (fun w _ taken => w.written = taken) i.key i.salt

/-- From the server to the client. -/
def downstream : Task (DecryptedStream i.method AsyncRead) AsyncWrite where
  delivers := DecryptedStream.Delivers
  takes w _ taken := w.written = taken
  total := i.response.1
  ending := i.response.2
  reliable := (AsyncWrite.ofEvents i.toClient).Reliable
  reads := DecryptedStream.reads_delivers
  writes := AsyncWrite.writes

/-- From the client to the server, after the first packet was sent. -/
def upstream (first later : Bytes) :
    Task AsyncRead (ProxyClientStream (EncryptedStream i.method AsyncWrite)) where
  delivers s bytes ending := s.bytes = bytes ∧ s.ending = ending
  takes := ProxyClientStream.Connected i.Takes (i.addr.bytes ++ first)
  total := later
  ending := i.fromClient.ending
  reliable := (AsyncWrite.ofEvents i.toServer).Reliable
  reads := AsyncRead.reads
  writes := ProxyClientStream.writes (EncryptedStream.writes AsyncWrite.writes) _

/-- What was put on the wire: the packets of a first part of what is to be sent, or of all of it when
the connection is shut down. -/
def OnWire (w : AsyncWrite) : Prop :=
  ∃ chunks, (∀ chunk ∈ chunks, chunk.length ≤ MAX_PACKET_SIZE) ∧ chunks.flatten <+: i.request ∧
    w.written <+: wire i.method i.key i.salt chunks ∧
    (w.isShutdown = true → chunks.flatten = i.request ∧ w.written = wire i.method i.key i.salt chunks)

variable {i}

theorem onWire_of_takes {s : EncryptedStream i.method AsyncWrite} {offered : Option Bytes}
    {taken : Bytes} (h : i.Takes s offered taken) (hpart : taken ++ offered.getD [] <+: i.request)
    (hshut : s.stream.isShutdown = true → offered = none ∧ taken = i.request) :
    i.OnWire s.stream := by
  obtain ⟨chunks, rfl, hsent⟩ := h
  cases hstate : s.writer.state with
  | assemblePacket =>
    obtain ⟨-, -, hwritten⟩ := hsent.assembling hstate
    exact ⟨chunks, hsent.length_le, (List.prefix_append _ _).trans hpart, hwritten ▸ List.prefix_rfl,
      fun h => ⟨(hshut h).2, hwritten⟩⟩
  | writing pos =>
    obtain ⟨buf, rfl, -, offered', sent, rfl, hwire, -⟩ := hsent.writing pos hstate
    refine ⟨chunks ++ [buf.take MAX_PACKET_SIZE], ?_, ?_, hwire ▸ List.prefix_append _ _, fun h => ?_⟩
    · intro chunk hchunk
      rcases List.mem_append.mp hchunk with hchunk | hchunk
      · exact hsent.length_le chunk hchunk
      · rw [List.mem_singleton.mp hchunk]
        exact List.length_take_le _ _
    · rw [List.flatten_append, List.flatten_singleton]
      refine List.IsPrefix.trans ?_ hpart
      rw [Option.getD_some, List.prefix_append_right_inj]
      exact List.take_prefix _ _
    · cases (hshut h).1

/-! ## The invariant -/

/-- Before the relay nothing came from the server. -/
structure Fresh (i : TunnelInput) (t : TcpTunnel i.method) : Prop where
  delivers : t.shadowRead.Delivers i.response.1 i.response.2
  written : t.plainWrite.written = []
  plainOpen : t.plainWrite.isShutdown = false
  shadowOpen : t.shadowWrite.stream.stream.isShutdown = false
  plainReliable : (AsyncWrite.ofEvents i.toClient).Reliable → t.plainWrite.Reliable
  shadowReliable : (AsyncWrite.ofEvents i.toServer).Reliable → t.shadowWrite.stream.stream.Reliable

/-- The first bytes of the client, which are to be sent, and the others. -/
structure Sending (i : TunnelInput) (t : TcpTunnel i.method) (first : Bytes) : Prop where
  fresh : i.Fresh t
  unsent : t.shadowWrite.Unsent i.Takes i.addr first
  split : i.fromClient.bytes = first ++ t.plainRead.bytes
  ending : t.plainRead.ending = i.fromClient.ending
  length_le : first.length ≤ 8192

/-- What holds while a tunnel waits. -/
def Holds (i : TunnelInput) (t : TcpTunnel i.method) : Prop :=
  match t.phase with
  | .reading _ => i.Sending t [] ∧ t.shadowWrite.state = .connect i.addr
  | .sending rest => i.Sending t rest ∧ rest ≠ []
  | .handshaking => i.Sending t []
  | .relaying aToB bToA => ∃ first later, i.fromClient.bytes = first ++ later ∧
      (t.relay aToB bToA).Holds i.downstream (i.upstream first later)

/-- What a tunnel has done. -/
structure Served (i : TunnelInput) (t : TcpTunnel i.method) : Prop where
  toClient : t.plainWrite.written <+: i.response.1 ∧
    (t.plainWrite.isShutdown = true → t.plainWrite.written = i.response.1)
  toServer : i.OnWire t.shadowWrite.stream.stream

theorem Sending.served {t : TcpTunnel i.method} {first : Bytes} (h : i.Sending t first) :
    i.Served t where
  toClient := by
    refine ⟨h.fresh.written ▸ List.nil_prefix, fun hshut => ?_⟩
    rw [h.fresh.plainOpen] at hshut
    cases hshut
  toServer := by
    have hopen : t.shadowWrite.stream.stream.isShutdown = true → False := by
      rw [h.fresh.shadowOpen]
      exact nofun
    rcases h.unsent with ⟨-, htakes⟩ | ⟨-, htakes⟩
    · exact onWire_of_takes htakes List.nil_prefix fun hshut => (hopen hshut).elim
    · refine onWire_of_takes htakes ?_ fun hshut => (hopen hshut).elim
      rw [List.nil_append, Option.getD_some, makeFirstPacketBuffer, request, h.split,
        List.prefix_append_right_inj]
      exact List.prefix_append _ _

theorem served_of_took {t : TcpTunnel i.method} {first later : Bytes}
    (hsplit : i.fromClient.bytes = first ++ later) (hdown : i.downstream.Took t.plainWrite)
    (hup : (i.upstream first later).Took t.shadowWrite) : i.Served t where
  toClient := by
    obtain ⟨⟨offered, taken, htakes, hpart⟩, hshut⟩ := hdown
    refine ⟨?_, hshut⟩
    rw [show t.plainWrite.written = taken from htakes]
    exact (List.prefix_append _ _).trans hpart
  toServer := by
    obtain ⟨⟨offered, taken, ⟨-, htakes⟩, hpart⟩, hshut⟩ := hup
    have hrequest : i.request = (i.addr.bytes ++ first) ++ later := by
      rw [request, hsplit, List.append_assoc]
    by_cases hopen : t.shadowWrite.stream.stream.isShutdown = true
    · obtain ⟨-, htakes'⟩ := hshut hopen
      refine onWire_of_takes htakes' ?_ fun _ => ⟨rfl, hrequest.symm⟩
      rw [Option.getD_none, List.append_nil, hrequest]
      exact List.prefix_rfl
    · refine onWire_of_takes htakes ?_ fun h => absurd h hopen
      rw [List.append_assoc, hrequest, List.prefix_append_right_inj]
      exact hpart

theorem Holds.served {t : TcpTunnel i.method} (h : i.Holds t) : i.Served t := by
  rw [Holds] at h
  split at h
  · exact h.1.served
  · exact h.1.served
  · exact h.served
  · obtain ⟨first, later, hsplit, hrelay⟩ := h
    exact served_of_took hsplit hrelay.aToB.took hrelay.bToA.took

theorem holds_start : i.Holds i.start := by
  have hdelivers : i.start.shadowRead.Delivers i.response.1 i.response.2 :=
    DecryptedStream.delivers_new i.key i.fromServer
  refine ⟨⟨⟨hdelivers, rfl, rfl, rfl, id, id⟩, .inl ⟨rfl, ?_⟩, rfl, rfl, Nat.zero_le _⟩, rfl⟩
  exact ⟨[], rfl, EncryptedWriter.sent_new rfl⟩

/-! ## One poll -/

/-- Nothing goes wrong on the connections, and the server and the client close theirs properly. -/
structure Clean (i : TunnelInput) : Prop where
  toClient : (AsyncWrite.ofEvents i.toClient).Reliable
  toServer : (AsyncWrite.ofEvents i.toServer).Reliable
  response : i.response.2 = none
  fromClient : i.fromClient.ending = none

/-- What a tunnel that is ready leaves behind. If nothing goes wrong, both connections are shut down,
unless the client closed its connection before it sent anything. -/
structure Closed (i : TunnelInput) (t : TcpTunnel i.method) (result : Except IoError Unit) : Prop where
  served : i.Served t
  clean : i.Clean → result = .ok () ∧ (i.fromClient.bytes ≠ [] →
    t.plainWrite.isShutdown = true ∧ t.shadowWrite.stream.stream.isShutdown = true)

/-- What a poll leaves behind. -/
def After (i : TunnelInput) (t : TcpTunnel i.method) : Poll (Except IoError Unit) → Prop
  | .pending => i.Holds t
  | .ready result => i.Closed t result

theorem after_pollRelaying {t t' : TcpTunnel i.method} {aToB bToA : TransferState}
    {p : Poll (Except IoError Unit)} {first later : Bytes}
    (hsplit : i.fromClient.bytes = first ++ later)
    (h : (t.relay aToB bToA).Holds i.downstream (i.upstream first later))
    (hpoll : t.pollRelaying aToB bToA = (p, t')) : i.After t' p := by
  rw [TcpTunnel.pollRelaying] at hpoll
  split at hpoll
  next s hrelay =>
    cases hpoll
    exact ⟨first, later, hsplit, (CopyBidirectional.poll_spec h hrelay).1 rfl⟩
  next result s hrelay =>
    cases hpoll
    have hfinished := (CopyBidirectional.poll_spec h hrelay).2 _ rfl
    obtain ⟨hdown, hup⟩ := hfinished.took
    refine ⟨served_of_took hsplit hdown hup, fun hclean => ⟨rfl, fun _ => ?_⟩⟩
    match result, hfinished with
    | .ok (n, m), ⟨⟨_, hshut, _⟩, _, hshut', _⟩ => exact ⟨hshut, hshut'⟩
    | .error e, ⟨_, _, herror⟩ =>
      -- without a reason for an error there is none
      rcases herror hclean.toClient hclean.toServer with hending | hending
      · cases hclean.response.symm.trans hending
      · cases hclean.fromClient.symm.trans hending

/-- The first packet was accepted. -/
theorem after_startRelaying {t t' : TcpTunnel i.method} {p : Poll (Except IoError Unit)} {first : Bytes}
    (hfresh : i.Fresh t) (hsplit : i.fromClient.bytes = first ++ t.plainRead.bytes)
    (hending : t.plainRead.ending = i.fromClient.ending)
    (hconnected : t.shadowWrite.Connected i.Takes (i.addr.bytes ++ first) none [])
    (hpoll : t.startRelaying = (p, t')) : i.After t' p := by
  refine after_pollRelaying hsplit ?_ hpoll
  exact CopyBidirectional.holds_new
    (Nat.add_pos_left (by decide) _) (by decide) hfresh.delivers ⟨rfl, hending⟩ hfresh.written
    hconnected hfresh.plainOpen hfresh.shadowOpen hfresh.plainReliable hfresh.shadowReliable

/-- The first packet is short enough to be accepted as a whole. -/
theorem length_makeFirstPacketBuffer (addr : TargetAddress) {first : Bytes} (h : first.length ≤ 8192) :
    (makeFirstPacketBuffer addr first).length ≤ MAX_PACKET_SIZE := by
  have haddr := (Address.length_writeToBuf addr.writeToBuf_eq).2.2
  rw [makeFirstPacketBuffer, List.length_append, MAX_PACKET_SIZE]
  omega

/-- Writing to the server keeps what holds before the relay. -/
theorem Fresh.write {t : TcpTunnel i.method} {bytes : Bytes} {p : Poll (Except IoError ℕ)}
    {shadowWrite : ProxyClientStream (EncryptedStream i.method AsyncWrite)} {phase : TunnelPhase}
    (h : i.Fresh t) (hpoll : pollWrite t.shadowWrite bytes = (p, shadowWrite)) :
    i.Fresh { t with shadowWrite, phase } where
  delivers := h.delivers
  written := h.written
  plainOpen := h.plainOpen
  shadowOpen := (PollWrite.isShutdown_write hpoll).trans h.shadowOpen
  plainReliable := h.plainReliable
  shadowReliable := fun hrel => (PollWrite.reliable_write (h.shadowReliable hrel) hpoll).1

/-- The first packet is written until it is accepted, and then as a whole. -/
theorem Sending.write {t : TcpTunnel i.method} {first : Bytes} {p : Poll (Except IoError ℕ)}
    {shadowWrite : ProxyClientStream (EncryptedStream i.method AsyncWrite)}
    (h : i.Sending t first) (hpoll : pollWrite t.shadowWrite first = (p, shadowWrite))
    (phase : TunnelPhase) :
    (∀ n, p = .ready (.ok n) → n = first.length ∧
      shadowWrite.Connected i.Takes (i.addr.bytes ++ first) none []) ∧
    ((∀ n, p ≠ .ready (.ok n)) → i.Sending { t with shadowWrite, phase } first) := by
  obtain ⟨hready, hwaiting⟩ :=
    h.unsent.pollWrite (EncryptedStream.writes AsyncWrite.writes) hpoll
  refine ⟨fun n hn => ?_, fun hp => ⟨h.fresh.write hpoll, hwaiting hp, h.split, h.ending, h.length_le⟩⟩
  obtain ⟨hlength, m, hinner, hconnected⟩ := hready n hn
  have hpacket := length_makeFirstPacketBuffer i.addr h.length_le
  rw [EncryptedStream.accepted_eq hinner, List.take_of_length_le hpacket, List.take_length]
    at hconnected
  exact ⟨hlength, hconnected⟩

/-- A connection to the server that fails was not reliable. -/
theorem Sending.closed {t : TcpTunnel i.method} {first : Bytes} (h : i.Sending t first) {e : IoError}
    (hreliable : ¬ (AsyncWrite.ofEvents i.toServer).Reliable) : i.Closed t (.error e) :=
  ⟨h.served, fun hclean => absurd hclean.toServer hreliable⟩

theorem after_pollSending {t t' : TcpTunnel i.method} {first : Bytes} {p : Poll (Except IoError Unit)}
    (h : i.Sending t first) (hne : first ≠ []) (hpoll : t.pollSending first = (p, t')) :
    i.After t' p := by
  rw [TcpTunnel.pollSending, if_neg hne] at hpoll
  split at hpoll
  next shadowWrite hwrite =>
    cases hpoll
    exact ⟨(h.write hwrite _).2 (fun n hn => by cases hn), hne⟩
  next e shadowWrite hwrite =>
    cases hpoll
    refine ((h.write hwrite _).2 fun n hn => by cases hn).closed fun hrel => ?_
    exact absurd rfl ((PollWrite.reliable_write (h.fresh.shadowReliable hrel) hwrite).2.1 e)
  next shadowWrite hwrite =>
    -- the stream accepts all of the bytes or none
    have hzero := ((h.write hwrite t.phase).1 0 rfl).1
    exact absurd (List.length_eq_zero_iff.mp hzero.symm) hne
  next n shadowWrite hwrite =>
    obtain ⟨hlength, hconnected⟩ := (h.write hwrite t.phase).1 _ rfl
    rw [show n + 1 = first.length from hlength, List.drop_length, TcpTunnel.pollSending,
      if_pos rfl] at hpoll
    exact after_startRelaying (h.fresh.write hwrite) h.split h.ending hconnected hpoll

theorem after_pollHandshaking {t t' : TcpTunnel i.method} {p : Poll (Except IoError Unit)}
    (h : i.Sending t []) (hpoll : t.pollHandshaking = (p, t')) : i.After t' p := by
  rw [TcpTunnel.pollHandshaking] at hpoll
  split at hpoll
  next shadowWrite hwrite =>
    cases hpoll
    exact (h.write hwrite _).2 fun n hn => by cases hn
  next e shadowWrite hwrite =>
    cases hpoll
    refine ((h.write hwrite _).2 fun n hn => by cases hn).closed fun hrel => ?_
    exact absurd rfl ((PollWrite.reliable_write (h.fresh.shadowReliable hrel) hwrite).2.1 e)
  next n shadowWrite hwrite =>
    obtain ⟨-, hconnected⟩ := (h.write hwrite t.phase).1 _ rfl
    exact after_startRelaying (h.fresh.write hwrite) h.split h.ending hconnected hpoll

/-- What the client sent at first is read. -/
theorem Sending.read {t : TcpTunnel i.method} {received : Bytes} {plainRead : AsyncRead}
    {phase : TunnelPhase} (h : i.Sending t []) (hstate : t.shadowWrite.state = .connect i.addr)
    (hpoll : pollRead t.plainRead 8192 = (.ready (.ok received), plainRead)) :
    i.Sending { t with plainRead, phase } received := by
  obtain ⟨rest, hbytes, hrest, hending⟩ := AsyncRead.reads.ready ⟨rfl, rfl⟩ hpoll
  refine ⟨⟨h.fresh.delivers, h.fresh.written, h.fresh.plainOpen, h.fresh.shadowOpen,
    h.fresh.plainReliable, h.fresh.shadowReliable⟩, ?_, ?_, hending.trans h.ending,
    PollRead.length_le hpoll⟩
  · rcases h.unsent with hunsent | ⟨hconnecting, -⟩
    · exact .inl hunsent
    · cases hstate.symm.trans hconnecting
  · rw [h.split, List.nil_append, hbytes, ← hrest]

/-- The client has not sent anything yet. -/
theorem Sending.wait {t : TcpTunnel i.method} {plainRead : AsyncRead} {phase : TunnelPhase}
    (h : i.Sending t []) (hpoll : pollRead t.plainRead 8192 = (.pending, plainRead)) :
    i.Sending { t with plainRead, phase } [] := by
  obtain ⟨hbytes, hending⟩ := AsyncRead.reads.pending ⟨rfl, rfl⟩ hpoll
  refine ⟨⟨h.fresh.delivers, h.fresh.written, h.fresh.plainOpen, h.fresh.shadowOpen,
    h.fresh.plainReliable, h.fresh.shadowReliable⟩, h.unsent, ?_, hending.trans h.ending, h.length_le⟩
  rw [h.split, hbytes]

/-- A poll keeps the invariant until the tunnel is ready. -/
theorem after_poll {t t' : TcpTunnel i.method} {p : Poll (Except IoError Unit)} (h : i.Holds t)
    (hpoll : t.poll = (p, t')) : i.After t' p := by
  rw [Holds] at h
  rw [TcpTunnel.poll] at hpoll
  cases hphase : t.phase with
  | reading timeout =>
    rw [hphase] at h hpoll
    obtain ⟨hsending, hstate⟩ := h
    dsimp only at hpoll
    split at hpoll
    next plainRead hread =>
      cases timeout with
      | zero => exact after_pollHandshaking (hsending.wait hread) hpoll
      | succ timeout =>
        cases hpoll
        exact ⟨hsending.wait hread, hstate⟩
    next e plainRead hread =>
      cases hpoll
      refine ⟨⟨hsending.served.toClient, hsending.served.toServer⟩, fun hclean => ?_⟩
      have hfails := AsyncRead.reads.fails ⟨rfl, rfl⟩ (by decide) hread
      cases (hclean.fromClient.symm.trans (hsending.ending.symm.trans hfails.2))
    next plainRead hread =>
      cases hpoll
      refine ⟨⟨hsending.served.toClient, hsending.served.toServer⟩, fun _ => ⟨rfl, fun hne => ?_⟩⟩
      have hends := AsyncRead.reads.ends ⟨rfl, rfl⟩ (by decide) hread
      exact absurd (hsending.split.trans hends.1) hne
    next b bytes plainRead hread =>
      exact after_pollSending (hsending.read hstate hread) (List.cons_ne_nil _ _) hpoll
  | sending rest =>
    rw [hphase] at h hpoll
    exact after_pollSending h.1 h.2 hpoll
  | handshaking =>
    rw [hphase] at h hpoll
    exact after_pollHandshaking h hpoll
  | relaying aToB bToA =>
    rw [hphase] at h hpoll
    obtain ⟨first, later, hsplit, hrelay⟩ := h
    exact after_pollRelaying hsplit hrelay hpoll

end TunnelInput

/-! ## Waiting -/

namespace TcpTunnel

variable {method : CipherKind} {t t' : TcpTunnel method}

/-- The polls that the connections may keep a tunnel waiting. -/
def measure (t : TcpTunnel method) : ℕ :=
  PollRead.remaining t.shadowRead + PollWrite.patience t.plainWrite +
    (PollRead.remaining t.plainRead + PollWrite.patience t.shadowWrite)

theorem measure_pollRelaying {aToB bToA : TransferState}
    (h : t.pollRelaying aToB bToA = (.pending, t')) : t'.measure < t.measure := by
  rw [pollRelaying] at h
  split at h
  next s hrelay =>
    cases h
    exact CopyBidirectional.measure_poll hrelay
  · cases h

theorem measure_write {bytes : Bytes} {p : Poll (Except IoError ℕ)} {phase : TunnelPhase}
    {shadowWrite : ProxyClientStream (EncryptedStream method AsyncWrite)}
    (h : pollWrite t.shadowWrite bytes = (p, shadowWrite)) :
    measure { t with shadowWrite, phase } ≤ t.measure ∧
      (p = .pending → measure { t with shadowWrite, phase } < t.measure) := by
  obtain ⟨hle, hlt⟩ := PollWrite.patience_write h
  refine ⟨?_, fun hp => ?_⟩
  · exact Nat.add_le_add_left (Nat.add_le_add_left hle _) _
  · exact Nat.add_lt_add_left (Nat.add_lt_add_left (hlt hp) _) _

theorem measure_pollSending {rest : Bytes} (h : t.pollSending rest = (.pending, t')) :
    t'.measure < t.measure := by
  fun_induction pollSending t rest with
  | case1 t => exact measure_pollRelaying h
  | case2 t rest hne shadowWrite hwrite =>
    cases h
    exact (measure_write hwrite).2 rfl
  | case3 => cases h
  | case4 => cases h
  | case5 t rest hne n shadowWrite hwrite ih => exact (ih h).trans_le (measure_write hwrite).1

theorem measure_pollHandshaking (h : t.pollHandshaking = (.pending, t')) : t'.measure < t.measure := by
  rw [pollHandshaking] at h
  split at h
  next shadowWrite hwrite =>
    cases h
    exact (measure_write hwrite).2 rfl
  · cases h
  next n shadowWrite hwrite => exact (measure_pollRelaying h).trans_le (measure_write hwrite).1

/-- A tunnel that has to wait uses something up. -/
theorem measure_poll (h : t.poll = (.pending, t')) : t'.measure < t.measure := by
  rw [poll] at h
  split at h
  next timeout hphase =>
    split at h
    next plainRead hread =>
      have hlt : measure { t with plainRead } < t.measure :=
        Nat.add_lt_add_left (Nat.add_lt_add_right (PollRead.remaining_of_pending hread) _) _
      split at h
      · exact (measure_pollHandshaking h).trans hlt
      · cases h
        exact hlt
    · cases h
    · cases h
    next b bytes plainRead hread =>
      have hle : measure { t with plainRead } ≤ t.measure :=
        Nat.add_le_add_left (Nat.add_le_add_right
          ((Nat.le_add_right _ _).trans (PollRead.remaining_of_ready hread)) _) _
      exact (measure_pollSending h).trans_le hle
  · exact measure_pollSending h
  · exact measure_pollHandshaking h
  · exact measure_pollRelaying h

end TcpTunnel

namespace TunnelInput

theorem closed_drive {i : TunnelInput} {k : ℕ} {result : Except IoError Unit}
    (h : (drive TcpTunnel.poll k i.start).1 = .ready result) :
    i.Closed (drive TcpTunnel.poll k i.start).2 result :=
  (drive_induction (I := i.Holds) (Q := fun result t => i.Closed t result)
    (fun _ _ h hpoll => after_poll h hpoll) (fun _ _ _ h hpoll => after_poll h hpoll) (k := k)
    holds_start rfl).2 result h

theorem served_drive (i : TunnelInput) (k : ℕ) : i.Served (drive TcpTunnel.poll k i.start).2 := by
  cases hp : (drive TcpTunnel.poll k i.start).1 with
  | pending =>
    have hholds := (drive_induction (I := i.Holds) (Q := fun result t => i.Closed t result)
      (fun _ _ h hpoll => after_poll h hpoll) (fun _ _ _ h hpoll => after_poll h hpoll) (k := k)
      holds_start rfl).1 hp
    exact hholds.served
  | ready result => exact (closed_drive hp).served

/-- Every pending poll makes the tunnel's measure smaller. -/
theorem exists_ready {i : TunnelInput} {k : ℕ} (h : i.start.measure < k) :
    ∃ result, (drive TcpTunnel.poll k i.start).1 = .ready result := by
  obtain ⟨result, t, hdrive⟩ := drive_ready (fun _ _ => TcpTunnel.measure_poll) h
  exact ⟨result, by rw [hdrive]⟩

/-- **From one end to the other.** A server that shares the key and receives the bytes of the wire, cut
into whatever pieces, decrypts a first part of the request. If it receives all that a tunnel sent that
shut the connection down, it reads the address of the target, and then just what the client sent. -/
theorem server_receives {i : TunnelInput} (hmethod : i.method.Lawful)
    (hsalt : i.salt.length = i.method.saltLen) (k : ℕ) {s : AsyncRead}
    (hs : s.bytes <+: (drive TcpTunnel.poll k i.start).2.shadowWrite.stream.stream.written) :
    (decrypted i.method i.key s.bytes s.ending).1 <+: i.request ∧
      ((drive TcpTunnel.poll k i.start).2.shadowWrite.stream.stream.isShutdown = true →
        s.bytes = (drive TcpTunnel.poll k i.start).2.shadowWrite.stream.stream.written →
        let outcome := Address.readFrom.run.run
          (⟨DecryptedReader.new i.method i.key, s⟩ : DecryptedStream i.method AsyncRead)
        outcome.result = .ok i.addr.1 ∧ outcome.rest.Delivers i.fromClient.bytes s.ending) := by
  obtain ⟨chunks, hchunks, hpart, hwritten, hshut⟩ := (served_drive i k).toServer
  refine ⟨?_, fun hdown hall => ?_⟩
  · exact (decrypted_of_cut hmethod i.key hsalt hchunks (hs.trans hwritten) s.ending).trans hpart
  · obtain ⟨hflatten, hwire⟩ := hshut hdown
    -- there is an address to be sent
    have hne : chunks ≠ [] := by
      rintro rfl
      have haddr := (Address.length_writeToBuf i.addr.writeToBuf_eq).2.1
      have hlength := congrArg List.length hflatten
      rw [request, List.length_append, List.flatten_nil, List.length_nil] at hlength
      omega
    have hdelivers : DecryptedStream.Delivers
        (⟨DecryptedReader.new i.method i.key, s⟩ : DecryptedStream i.method AsyncRead) _ _ :=
      DecryptedStream.delivers_new i.key s
    rw [hall, hwire, decrypted_wire hmethod i.key hsalt hne hchunks, hflatten] at hdelivers
    exact (Address.parses_readFrom i.addr.writeToBuf_eq).run DecryptedStream.reads_delivers hdelivers

/-- A client sends two bytes and the server answers with one, over connections without errors. -/
def greeting : TunnelInput where
  method := countingTag
  key := []
  salt := [7]
  addr := ⟨.domainNameAddress ['a'] 80, by decide⟩
  fromServer := .ofChunks [wire countingTag [] [9] [[1]]]
  toServer := [.pending, .accept 1]
  fromClient := .ofChunks [[104], [105]]
  toClient := []
  timeout := 0

theorem clean_greeting : greeting.Clean where
  toClient := ⟨List.not_mem_nil, fun _ => List.not_mem_nil⟩
  toServer := ⟨by decide, fun e => by simp [AsyncWrite.ofEvents, greeting]⟩
  response := by
    have hwire : decrypted countingTag [] (wire countingTag [] [9] [[1]]) none = ([1], none) :=
      decrypted_wire lawful_countingTag [] rfl (List.cons_ne_nil _ _) (by decide) none
    show (decrypted countingTag [] (AsyncRead.ofChunks _).bytes none).2 = none
    rw [AsyncRead.bytes_ofChunks, List.flatten_singleton, hwire]
  fromClient := rfl

/-- The server of the example is told where to connect. -/
theorem server_receives_greeting :
    (Address.readFrom.run.run (⟨DecryptedReader.new countingTag [],
      .ofChunks [(drive TcpTunnel.poll (greeting.start.measure + 1)
        greeting.start).2.shadowWrite.stream.stream.written]⟩ :
        DecryptedStream countingTag AsyncRead)).result =
      .ok (.domainNameAddress ['a'] 80) := by
  have hbytes := AsyncRead.bytes_ofChunks [(drive TcpTunnel.poll (greeting.start.measure + 1)
    greeting.start).2.shadowWrite.stream.stream.written]
  rw [List.flatten_singleton] at hbytes
  obtain ⟨result, hp⟩ := exists_ready (i := greeting) (Nat.lt_succ_self _)
  have hshut := (((closed_drive hp).clean clean_greeting).2 (by decide)).2
  have hbegins := (List.append_nil _).trans hbytes
  exact ((server_receives lawful_countingTag rfl _ ⟨[], hbegins⟩).2 hshut hbytes).1

/-- **What a client is given was sent.** Whatever arrives from the network, a client is given a first
part of what was sent under the salt that arrived, unless the cipher accepts a piece that it did not
produce at that place. -/
theorem client_receives {i : TunnelInput} (hmethod : i.method.Lawful) (sessions : Bytes → List Bytes)
    (hsessions : ∀ salt, ∀ chunk ∈ sessions salt, chunk.length ≤ MAX_PACKET_SIZE) (k : ℕ) :
    (drive TcpTunnel.poll k i.start).2.plainWrite.written <+:
        (sessions (i.fromServer.bytes.take i.method.saltLen)).flatten ∨
      ForgedStream i.method i.key sessions i.fromServer.bytes := by
  refine (decrypted_authentic hmethod i.key hsessions i.fromServer.bytes
    i.fromServer.ending).imp_left fun hpart => ?_
  exact (served_drive i k).toClient.1.trans hpart

theorem client_receives_greeting :
    (drive TcpTunnel.poll 5 greeting.start).2.plainWrite.written <+: [1] ∨
      ForgedStream countingTag [] (fun salt => if salt = [9] then [[1]] else [])
        greeting.fromServer.bytes :=
  client_receives (i := greeting) lawful_countingTag (fun salt => if salt = [9] then [[1]] else [])
    (by intro salt chunk hchunk; split at hchunk <;> simp_all [MAX_PACKET_SIZE]) 5

end TunnelInput

end Engine
