import DripVpn.Engine.Socks5Server
import DripVpn.Tun2socks.BSocksClient

/-!
# The handshake of `tun2socks` with the engine

The client of `BSocksClient.c` and the server of `tcprelay.rs` at the two ends of a connection on the
device. Packets are sent and received piece by piece, and either side may be slower than the other.

* `Admitted` says for which clients and servers the handshake should succeed: it is about the offered
  methods, the users of the server and the connection to the target, and not about messages.
* `handshake_agrees`: whatever the order of events, the handshake comes to an end, and the client is up
  exactly if it is admitted. By then the server has its tunnel to the destination of the client, and
  every byte of the handshake has been consumed.
-/

namespace Badvpn

open Engine Exchange Reactive

/-! ## The connection -/

structure SocksHandshake where
  client : BSocksClient
  server : Exchange HandlerResult
  toClient : Bytes
  toServer : Bytes

inductive HandshakeAction
  /-- `dataLen` more bytes of a packet of the client were sent. -/
  | sent (dataLen : ℕ)
  /-- The client receives `dataLen` bytes. -/
  | received (dataLen : ℕ)
  /-- The client finds that the server has closed the connection. -/
  | recvClosed
  /-- The server goes on: it reads or writes a byte, or finds that the client is gone. -/
  | server
deriving DecidableEq

namespace SocksHandshake

/-- The client is connected. -/
def init (h : Socks5TcpHandler) (peerAddr : SocketAddr) (authInfo : List AuthInfo)
    (destAddr : SocketAddr) : SocksHandshake where
  client := (BSocksClient.init authInfo destAddr).connectorHandler false
  server := h.handleSocks5Client peerAddr
  toClient := []
  toServer := []

def step (s : SocksHandshake) : HandshakeAction → Option SocksHandshake
  | .sent dataLen =>
    if s.client.isSending ∧ 0 < dataLen ∧ dataLen ≤ s.client.sending.length then
      some { s with
        client := s.client.outputHandlerDone dataLen
        toServer := s.toServer ++ s.client.sending.take dataLen }
    else none
  | .received dataLen =>
    if s.client.isReceiving ∧ 0 < dataLen ∧ dataLen ≤ s.client.recvTotal - s.client.recvLen ∧
        dataLen ≤ s.toClient.length then
      some { s with
        client := s.client.recvHandlerDone (s.toClient.take dataLen)
        toClient := s.toClient.drop dataLen }
    else none
  | .recvClosed =>
    if s.client.isReceiving ∧ s.toClient = [] ∧ s.server.hasClosed Socks5TcpHandler.closes then
      some { s with client := s.client.connectionHandler }
    else none
  | .server =>
    (s.server.advance s.client.failed s.toServer).map fun (server, toServer, out) =>
      { s with server, toServer, toClient := s.toClient ++ out }

/-! ## The connection as a duet -/

/-- The steps of the client's program and of the server. -/
abbrev duetStep := Duet.step SocksEvent.closes Socks5TcpHandler.closes

def duet (s : SocksHandshake) : Duet SocksEvent HandlerResult :=
  ⟨s.client.program, s.server, s.toClient, s.toServer⟩

theorem hasClosed_program {o : BSocksClient} (hw : o.Waiting) :
    o.program.hasClosed SocksEvent.closes = o.failed := by
  cases hsending : o.isSending with
  | true =>
    obtain ⟨next, hprogram, -⟩ := BSocksClient.program_of_isSending hsending
    rw [show o.program = send o.sending fun _ => next from hprogram o.sending]
    rw [BSocksClient.isSending, Bool.and_eq_true, Bool.not_eq_true'] at hsending
    exact hsending.1.symm
  | false =>
    cases hreceiving : o.isReceiving with
    | true =>
      obtain ⟨next, hprogram, -⟩ := BSocksClient.program_of_isReceiving hreceiving
      rw [hprogram]
      rw [BSocksClient.isReceiving, Bool.and_eq_true, Bool.not_eq_true'] at hreceiving
      exact hreceiving.1.symm
    | false =>
      obtain ⟨hfailed, hprogram⟩ | ⟨hfailed, -, hprogram⟩ :=
        BSocksClient.program_of_idle hw hsending hreceiving
      · rw [hfailed, hprogram]
        rfl
      · rw [hfailed, hprogram]
        rfl

theorem duet_ne_of_toServer {s s' : SocksHandshake} (h : s.toServer.length ≠ s'.toServer.length) :
    s.duet ≠ s'.duet := fun heq => h (congrArg (fun d : Duet _ _ => d.toRight.length) heq)

theorem duet_ne_of_toClient {s s' : SocksHandshake} (h : s.toClient.length ≠ s'.toClient.length) :
    s.duet ≠ s'.duet := fun heq => h (congrArg (fun d : Duet _ _ => d.toLeft.length) heq)

/-- A schedule that changes something has a step. -/
theorem exists_steps_of_leads {d d' : Duet SocksEvent HandlerResult} (h : Leads duetStep d d')
    (hne : d ≠ d') : ∃ is, is ≠ [] ∧ steps duetStep d is = some d' := by
  obtain ⟨is, his⟩ := h
  refine ⟨is, ?_, his⟩
  rintro rfl
  exact hne (Option.some.inj his)

/-- Every callback performs some steps of the client's program. -/
theorem exists_steps {s s' : SocksHandshake} {a : HandshakeAction} (hw : s.client.Waiting)
    (hstep : s.step a = some s') :
    s'.client.Waiting ∧ ∃ is, is ≠ [] ∧ steps duetStep s.duet is = some s'.duet := by
  cases a with
  | sent dataLen =>
    simp only [step] at hstep
    split at hstep
    next henabled =>
      cases hstep
      obtain ⟨hsending, hpos, hle⟩ := henabled
      obtain ⟨hw', hruns⟩ := BSocksClient.runs_outputHandlerDone hsending hw dataLen
      refine ⟨hw', exists_steps_of_leads (Duet.leads_left (hruns _ s.toClient) s.toServer)
        (duet_ne_of_toServer ?_)⟩
      rw [List.length_append, List.length_take_of_le hle]
      omega
    · cases hstep
  | received dataLen =>
    simp only [step] at hstep
    split at hstep
    next henabled =>
      cases hstep
      obtain ⟨hreceiving, hpos, hle, hle'⟩ := henabled
      have hlength := List.length_take_of_le hle'
      obtain ⟨hw', hruns⟩ := BSocksClient.runs_recvHandlerDone hreceiving hw (hlength ▸ hle)
      have hleads : Leads duetStep _ _ := Duet.leads_left
        (hruns (s.server.hasClosed Socks5TcpHandler.closes) (s.toClient.drop dataLen)) s.toServer
      rw [List.take_append_drop, List.append_nil] at hleads
      refine ⟨hw', exists_steps_of_leads hleads (duet_ne_of_toClient ?_)⟩
      rw [List.length_drop]
      omega
    · cases hstep
  | recvClosed =>
    simp only [step] at hstep
    split at hstep
    next henabled =>
      cases hstep
      obtain ⟨hreceiving, hnil, hclosed⟩ := henabled
      refine ⟨BSocksClient.waiting_reportError _, ?_⟩
      obtain ⟨next, hprogram, -⟩ := BSocksClient.program_of_isReceiving hreceiving
      have hlt := hw.receiving hreceiving
      have hruns : Runs (s.server.hasClosed Socks5TcpHandler.closes) s.client.program s.toClient
          s.client.connectionHandler.program s.toClient [] := by
        rw [hclosed, hprogram, hnil, BSocksClient.connectionHandler, BSocksClient.program_reportError]
        exact runs_receive_eof (by rw [List.length_nil]; omega) _
      have hleads : Leads duetStep _ _ := Duet.leads_left hruns s.toServer
      rw [List.append_nil] at hleads
      refine exists_steps_of_leads hleads fun heq => ?_
      have hsame : s.client.program = s.client.connectionHandler.program := congrArg Duet.left heq
      rw [hprogram, BSocksClient.connectionHandler, BSocksClient.program_reportError] at hsame
      cases hsame
    · cases hstep
  | server =>
    simp only [step, Option.map_eq_some_iff] at hstep
    obtain ⟨⟨server, toServer, out⟩, hadvance, rfl⟩ := hstep
    refine ⟨hw, [.right], List.cons_ne_nil _ _, steps_cons_iff.mpr ⟨_, ?_, rfl⟩⟩
    exact Duet.step_right_iff.mpr ⟨server, toServer, out, (hasClosed_program hw).symm ▸ hadvance, rfl⟩

/-- A run of the connection is a schedule of the duet, with at least as many steps. -/
theorem exists_schedule {s s' : SocksHandshake} {actions : List HandshakeAction}
    (hw : s.client.Waiting) (hrun : steps step s actions = some s') :
    s'.client.Waiting ∧ ∃ is, actions.length ≤ is.length ∧ steps duetStep s.duet is = some s'.duet := by
  induction actions generalizing s with
  | nil =>
    cases hrun
    exact ⟨hw, [], le_rfl, rfl⟩
  | cons a actions ih =>
    obtain ⟨s₁, hstep, hrest⟩ := steps_cons_iff.mp hrun
    obtain ⟨hw₁, is, hne, his⟩ := exists_steps hw hstep
    obtain ⟨hw', js, hlength, hjs⟩ := ih hw₁ hrest
    refine ⟨hw', is ++ js, ?_, steps_append_iff.mpr ⟨_, his, hjs⟩⟩
    have hpos := List.length_pos_of_ne_nil hne
    rw [List.length_append, List.length_cons]
    omega

/-- A client that waits for something that can happen is not the end. -/
theorem exists_step_of_left {s : SocksHandshake} {d : Duet SocksEvent HandlerResult}
    (hw : s.client.Waiting) (h : duetStep s.duet .left = some d) : ∃ a, s.step a ≠ none := by
  obtain ⟨left, toLeft, out, hadvance, -⟩ := Duet.step_left_iff.mp h
  cases hsending : s.client.isSending with
  | true =>
    have hlength := List.length_pos_of_ne_nil (hw.sending hsending)
    refine ⟨.sent 1, ?_⟩
    rw [step, if_pos ⟨hsending, Nat.one_pos, hlength⟩]
    exact Option.some_ne_none _
  | false =>
    cases hreceiving : s.client.isReceiving with
    | true =>
      obtain ⟨next, hprogram, -⟩ := BSocksClient.program_of_isReceiving hreceiving
      have hlt := hw.receiving hreceiving
      obtain ⟨n, hn⟩ : ∃ n, s.client.recvTotal - s.client.recvLen = n + 1 :=
        ⟨s.client.recvTotal - s.client.recvLen - 1, by omega⟩
      cases hnil : s.toClient with
      | cons b rest =>
        refine ⟨.received 1, ?_⟩
        rw [step, if_pos ⟨hreceiving, Nat.one_pos, by omega, by rw [hnil, List.length_cons]; omega⟩]
        exact Option.some_ne_none _
      | nil =>
        -- nothing has arrived, so the connection was closed
        rw [duet, hprogram, hn, hnil, BSocksClient.receiveMessage, advance] at hadvance
        split at hadvance
        next hclosed =>
          refine ⟨.recvClosed, ?_⟩
          rw [step, if_pos ⟨hreceiving, hnil, hclosed⟩]
          exact Option.some_ne_none _
        · cases hadvance
    | false =>
      obtain ⟨-, hprogram⟩ | ⟨-, -, hprogram⟩ := BSocksClient.program_of_idle hw hsending hreceiving
      · rw [duet, hprogram] at hadvance
        cases hadvance
      · rw [duet, hprogram] at hadvance
        cases hadvance

/-- When nothing can happen on the connection, the duet is at its end. -/
theorem step_duet_eq_none {s : SocksHandshake} (hw : s.client.Waiting) (h : ∀ a, s.step a = none)
    (i : Side) : duetStep s.duet i = none := by
  by_contra hsome
  obtain ⟨d, hd⟩ := Option.ne_none_iff_exists'.mp hsome
  cases i with
  | left =>
    obtain ⟨a, ha⟩ := exists_step_of_left hw hd
    exact ha (h a)
  | right =>
    obtain ⟨right, toRight, out, hadvance, -⟩ := Duet.step_right_iff.mp hd
    have hserver := h .server
    rw [step, ← hasClosed_program hw] at hserver
    rw [show s.server.advance (s.client.program.hasClosed SocksEvent.closes) s.toServer = _ from
      hadvance] at hserver
    cases hserver

/-! ## Who is admitted -/

/-- The server takes the first of the offered methods that it accepts. -/
def acceptable (h : Socks5TcpHandler) : AuthInfo → Bool
  | .none => !h.authRequired
  | .password _ _ => true

/-- The authentication with a method succeeds. -/
def Authenticates (h : Socks5TcpHandler) : AuthInfo → Prop
  | .none => True
  | .password username password =>
    ¬ (username.length = 0 ∨ username.length > 255 ∨ password.length = 0 ∨ password.length > 255) ∧
      ∃ user pwd, fromUtf8 username = some user ∧ fromUtf8 password = some pwd ∧
        h.checkUser user pwd = true

/-- The request is granted. -/
def Granted (h : Socks5TcpHandler) (destAddr : SocketAddr) : Prop :=
  h.enableTcp = true ∧ ∃ localAddr, h.connect (.socketAddress destAddr) = .ok (.ok localAddr)

/-- The client offers a method that is accepted, proves who it is, and the connection to its
destination can be made. -/
structure Admitted (h : Socks5TcpHandler) (authInfo : List AuthInfo) (destAddr : SocketAddr) : Prop where
  offered : ¬ (authInfo.length = 0 ∨ authInfo.length > 255)
  authenticated : ∃ info, authInfo.find? (acceptable h) = some info ∧ Authenticates h info
  granted : Granted h destAddr

/-- The duet ends with a client that is up and its tunnel, or with an error. -/
def Ends (destAddr : SocketAddr) (d : Duet SocksEvent HandlerResult) (admitted : Prop) : Prop :=
  ∃ f, Leads duetStep d f ∧ (∀ i, duetStep f i = none) ∧
    (admitted → f = ⟨done .up, done (.ok (.tunnel (.socketAddress destAddr))), [], []⟩) ∧
    (¬ admitted → f.left = done .error)

variable {h : Socks5TcpHandler} {peerAddr destAddr : SocketAddr} {authInfo : List AuthInfo}
  {admitted : Prop}

/-- The client goes on for a while. -/
theorem ends_left {p p' : Exchange SocksEvent} {q : Exchange HandlerResult}
    {inbox inbox' out toRight : Bytes}
    (hruns : Runs (q.hasClosed Socks5TcpHandler.closes) p inbox p' inbox' out)
    (hends : Ends destAddr ⟨p', q, inbox', toRight ++ out⟩ admitted) :
    Ends destAddr ⟨p, q, inbox, toRight⟩ admitted := by
  obtain ⟨f, hf, hrest⟩ := hends
  exact ⟨f, (Duet.leads_left hruns toRight).trans hf, hrest⟩

/-- The server goes on for a while. -/
theorem ends_right {p : Exchange SocksEvent} {q q' : Exchange HandlerResult}
    {inbox inbox' out toLeft : Bytes}
    (hruns : Runs (p.hasClosed SocksEvent.closes) q inbox q' inbox' out)
    (hends : Ends destAddr ⟨p, q', toLeft ++ out, inbox'⟩ admitted) :
    Ends destAddr ⟨p, q, toLeft, inbox⟩ admitted := by
  obtain ⟨f, hf, hrest⟩ := hends
  exact ⟨f, (Duet.leads_right hruns toLeft).trans hf, hrest⟩

theorem ends_up (hadmitted : admitted) :
    Ends destAddr ⟨done .up, done (.ok (.tunnel (.socketAddress destAddr))), [], []⟩ admitted :=
  ⟨_, .refl _, Duet.step_done _ _ _ _, fun _ => rfl, fun hnot => absurd hadmitted hnot⟩

theorem ends_error (hnot : ¬ admitted) (result : HandlerResult) (toLeft toRight : Bytes) :
    Ends destAddr ⟨done .error, done result, toLeft, toRight⟩ admitted :=
  ⟨_, .refl _, Duet.step_done _ _ _ _, fun hadmitted => absurd hadmitted hnot, fun _ => rfl⟩

/-! ## The request -/

/-- The bytes of an address in a message, without its type. -/
def addrBytes (addr : SocketAddr) : Bytes := addr.ip.address ++ bigEndian 2 addr.port.toNat

def addrType (addr : SocketAddr) : UInt8 := if addr.ip.size = 4 then 0x01 else 0x04

theorem writeToBuf_socketAddress (addr : SocketAddr) :
    (Address.socketAddress addr).writeToBuf = some (addrType addr :: addrBytes addr) := rfl

theorem runs_respond {closed : Bool} (reply : Reply) (addr : SocketAddr) (result : HandlerResult) :
    Runs closed (Socks5TcpHandler.respond reply (.socketAddress addr) (done result)) [] (done result) []
      ([SOCKS5_VERSION, reply.asU8, 0x00, addrType addr] ++ addrBytes addr) :=
  runs_send _ _ _

theorem replyProgram_succeeded (addr : SocketAddr) :
    BSocksClient.replyProgram [SOCKS5_VERSION, Reply.succeeded.asU8, 0x00, addrType addr] =
      BSocksClient.receiveMessage (addrBytes addr).length fun _ => done .up := by
  have hlength : (addrBytes addr).length = addr.ip.size + 2 := by
    rw [addrBytes, List.length_append, length_bigEndian]
    rfl
  rw [hlength]
  rcases addr.ip.size_eq with hsize | hsize
  · have hfour : addr.ip.size = 4 := hsize
    rw [addrType, hfour]
    rfl
  · have hsixteen : addr.ip.size = 16 := hsize
    rw [addrType, hsixteen]
    rfl

theorem replyProgram_failed {reply : Reply} (hreply : reply.asU8 ≠ 0) (addr : SocketAddr) :
    BSocksClient.replyProgram [SOCKS5_VERSION, reply.asU8, 0x00, addrType addr] = done .error := by
  have hver : [SOCKS5_VERSION, reply.asU8, 0x00, addrType addr].getD 0 0 = SOCKS_VERSION := rfl
  rw [BSocksClient.replyProgram, if_neg (not_not.mpr hver)]
  exact if_pos hreply

/-- The server answers, and the client looks at the header of the answer. -/
theorem ends_respond {reply : Reply} {addr : SocketAddr} {result : HandlerResult}
    (hends : Ends destAddr ⟨BSocksClient.replyProgram [SOCKS5_VERSION, reply.asU8, 0x00, addrType addr],
      done result, addrBytes addr, []⟩ admitted) :
    Ends destAddr ⟨BSocksClient.receiveMessage 4 BSocksClient.replyProgram,
      Socks5TcpHandler.respond reply (.socketAddress addr) (done result), [], []⟩ admitted := by
  refine ends_right (runs_respond reply addr result) ?_
  exact ends_left (runs_receive [SOCKS5_VERSION, reply.asU8, 0x00, addrType addr] (addrBytes addr) _)
    hends

theorem ends_succeeded (hadmitted : admitted) (localAddr : SocketAddr) :
    Ends destAddr ⟨BSocksClient.receiveMessage 4 BSocksClient.replyProgram,
      Socks5TcpHandler.respond .succeeded (.socketAddress localAddr)
        (done (.ok (.tunnel (.socketAddress destAddr)))), [], []⟩ admitted := by
  refine ends_respond ?_
  rw [replyProgram_succeeded]
  have hrest : Runs false (BSocksClient.receiveMessage (addrBytes localAddr).length fun _ => done .up)
      (addrBytes localAddr ++ []) (done .up) [] [] := runs_receive (addrBytes localAddr) [] _
  rw [List.append_nil] at hrest
  exact ends_left hrest (ends_up hadmitted)

theorem ends_failed (hnot : ¬ admitted) {reply : Reply} (hreply : reply.asU8 ≠ 0) (addr : SocketAddr)
    (result : HandlerResult) :
    Ends destAddr ⟨BSocksClient.receiveMessage 4 BSocksClient.replyProgram,
      Socks5TcpHandler.respond reply (.socketAddress addr) (done result), [], []⟩ admitted := by
  refine ends_respond ?_
  rw [replyProgram_failed hreply]
  exact ends_error hnot _ _ _

theorem ends_handleTcpConnect :
    Ends destAddr ⟨BSocksClient.receiveMessage 4 BSocksClient.replyProgram,
      h.handleTcpConnect (.socketAddress destAddr), [], []⟩ (Granted h destAddr) := by
  rw [Socks5TcpHandler.handleTcpConnect]
  split
  next hdisabled =>
    refine ends_failed (fun hgranted => ?_) (by decide) _ _
    rw [hgranted.1] at hdisabled
    cases hdisabled
  next henabled =>
    split
    next localAddr hconnect =>
      exact ends_succeeded ⟨Bool.eq_true_of_not_eq_false henabled, localAddr, hconnect⟩ localAddr
    next e hconnect =>
      have hnot : ¬ Granted h destAddr := by
        rintro ⟨-, localAddr, hok⟩
        rw [hconnect] at hok
        cases hok
      -- the server gives up without an answer
      have heof : Runs true (BSocksClient.receiveMessage 4 BSocksClient.replyProgram) []
          (done .error) [] [] := runs_receive_eof (by decide) _
      exact ends_left heof (ends_error hnot _ _ _)
    next err hconnect =>
      have hnot : ¬ Granted h destAddr := by
        rintro ⟨-, localAddr, hok⟩
        rw [hconnect] at hok
        cases hok
      refine ends_failed hnot ?_ _ _
      cases err <;> decide

/-- The client sends its request. -/
theorem ends_request :
    Ends destAddr ⟨BSocksClient.requestProgram destAddr, h.fetchHeaders peerAddr, [], []⟩
      (Granted h destAddr) := by
  refine ends_left (runs_send _ _ _) ?_
  have hparses := parses_tcpRequestHeader .tcpConnect (writeToBuf_socketAddress destAddr)
  have hruns : Runs false (h.fetchHeaders peerAddr) (BSocksClient.request destAddr ++ [])
      (h.handleTcpConnect (.socketAddress destAddr)) [] [] := (hparses.runs []).bind _
  rw [List.append_nil] at hruns
  exact ends_right hruns ends_handleTcpConnect

/-! ## The authentication -/

/-- The server goes through the methods until it finds one that it accepts. -/
theorem checkAuth_map (h : Socks5TcpHandler) (authInfo : List AuthInfo) :
    h.checkAuth (authInfo.map AuthInfo.authType) =
      match authInfo.find? (acceptable h) with
      | none => Socks5TcpHandler.writeTo
          (HandshakeResponse.writeToBuf SOCKS5_AUTH_METHOD_NOT_ACCEPTABLE) (done (.error .authentication))
      | some .none => Socks5TcpHandler.writeTo (HandshakeResponse.writeToBuf SOCKS5_AUTH_METHOD_NONE)
          (done (.ok ()))
      | some (.password _ _) => Socks5TcpHandler.writeTo
          (HandshakeResponse.writeToBuf SOCKS5_AUTH_METHOD_PASSWORD) h.checkAuthPassword := by
  induction authInfo with
  | nil => rfl
  | cons info authInfo ih =>
    cases info with
    | none =>
      cases hrequired : h.authRequired with
      | true =>
        rw [List.find?_cons_of_neg (by simp [acceptable, hrequired]), ← ih]
        simp only [List.map_cons, AuthInfo.authType, Socks5TcpHandler.checkAuth, hrequired]
        rfl
      | false =>
        rw [List.find?_cons_of_pos (by simp [acceptable, hrequired])]
        simp only [List.map_cons, AuthInfo.authType, Socks5TcpHandler.checkAuth, hrequired]
        rfl
    | password username password =>
      rw [List.find?_cons_of_pos rfl]
      rfl

/-- The client finds the method that the server chose. -/
theorem find?_authType {info : AuthInfo} (hfind : authInfo.find? (acceptable h) = some info) :
    authInfo.find? (fun i => i.authType = info.authType) = some info := by
  induction authInfo with
  | nil => cases hfind
  | cons i authInfo ih =>
    cases hacceptable : acceptable h i with
    | true =>
      rw [List.find?_cons_of_pos hacceptable, Option.some.injEq] at hfind
      rw [hfind]
      exact List.find?_cons_of_pos (by simp)
    | false =>
      rw [List.find?_cons_of_neg (by simp [hacceptable])] at hfind
      rw [List.find?_cons_of_neg, ih hfind]
      -- a method of this type would not have been accepted
      intro htype
      have hinfo := List.find?_some hfind
      cases i with
      | none =>
        cases info with
        | none => rw [hacceptable] at hinfo; cases hinfo
        | password username password =>
          have hsame : SOCKS_METHOD_NO_AUTHENTICATION_REQUIRED = SOCKS_METHOD_USERNAME_PASSWORD :=
            of_decide_eq_true htype
          exact absurd hsame (by decide)
      | password username password => cases hacceptable

theorem find?_not_acceptable (authInfo : List AuthInfo) :
    authInfo.find? (fun i => i.authType = SOCKS5_AUTH_METHOD_NOT_ACCEPTABLE) = none := by
  have hnone : SOCKS_METHOD_NO_AUTHENTICATION_REQUIRED ≠ SOCKS5_AUTH_METHOD_NOT_ACCEPTABLE := by decide
  have hpassword : SOCKS_METHOD_USERNAME_PASSWORD ≠ SOCKS5_AUTH_METHOD_NOT_ACCEPTABLE := by decide
  refine List.find?_eq_none.mpr fun info _ htype => ?_
  cases info with
  | none => exact hnone (of_decide_eq_true htype)
  | password username password => exact hpassword (of_decide_eq_true htype)

/-- What the server does after the authentication. -/
def afterAuth (h : Socks5TcpHandler) (peerAddr : SocketAddr) :
    Except HandlerError Unit → Exchange HandlerResult
  | .error e => done (.error e)
  | .ok () => h.fetchHeaders peerAddr

/-- The server answers with a method. -/
theorem ends_method {method : UInt8} {next : Exchange (Except HandlerError Unit)}
    (hends : Ends destAddr ⟨BSocksClient.methodProgram authInfo destAddr
      (HandshakeResponse.writeToBuf method), next.bind (afterAuth h peerAddr), [], []⟩ admitted) :
    Ends destAddr ⟨BSocksClient.receiveMessage 2 (BSocksClient.methodProgram authInfo destAddr),
      (Socks5TcpHandler.writeTo (HandshakeResponse.writeToBuf method) next).bind (afterAuth h peerAddr),
      [], []⟩ admitted := by
  refine ends_right ((runs_send (HandshakeResponse.writeToBuf method) [] _).bind _) ?_
  exact ends_left (runs_receive (HandshakeResponse.writeToBuf method) [] _) hends

theorem methodProgram_eq {method : UInt8} :
    BSocksClient.methodProgram authInfo destAddr (HandshakeResponse.writeToBuf method) =
      match authInfo.find? fun info => info.authType = method with
      | none => done .error
      | some .none => BSocksClient.requestProgram destAddr
      | some (.password username password) =>
        if username.length = 0 ∨ username.length > 255 ∨ password.length = 0 ∨
            password.length > 255 then done .error
        else
          send (BSocksClient.passwordPacket username password) fun _ =>
            BSocksClient.receiveMessage 2 (BSocksClient.passwordReplyProgram destAddr) := rfl

/-- The server judges a password, and the client reads the verdict. -/
theorem ends_judged {status : UInt8} (next : Exchange (Except HandlerError Unit))
    (hends : Ends destAddr ⟨BSocksClient.passwordReplyProgram destAddr
      (PasswdAuthResponse.writeToBuf status), next.bind (afterAuth h peerAddr), [], []⟩ admitted)
    {last : Except IoError Unit → Exchange (Except HandlerError Unit)} (hlast : last (.ok ()) = next) :
    Ends destAddr ⟨BSocksClient.receiveMessage 2 (BSocksClient.passwordReplyProgram destAddr),
      (send (PasswdAuthResponse.writeToBuf status) last).bind (afterAuth h peerAddr), [], []⟩
      admitted := by
  subst hlast
  refine ends_right ((runs_send (PasswdAuthResponse.writeToBuf status) [] _).bind _) ?_
  exact ends_left (runs_receive (PasswdAuthResponse.writeToBuf status) [] _) hends

theorem passwordReplyProgram_failed {status : UInt8} (hstatus : status ≠ 0) :
    BSocksClient.passwordReplyProgram destAddr (PasswdAuthResponse.writeToBuf status) = done .error := by
  have hver : (PasswdAuthResponse.writeToBuf status).getD 0 0 = 1 := rfl
  rw [BSocksClient.passwordReplyProgram, if_neg (not_not.mpr hver)]
  exact if_pos hstatus

theorem ends_judgePassword {username password : Bytes}
    (hlengths : ¬ (username.length = 0 ∨ username.length > 255 ∨ password.length = 0 ∨
      password.length > 255)) :
    Ends destAddr ⟨BSocksClient.receiveMessage 2 (BSocksClient.passwordReplyProgram destAddr),
      (h.judgePassword ⟨username, password⟩).bind (afterAuth h peerAddr), [], []⟩
      (Authenticates h (.password username password) ∧ Granted h destAddr) := by
  rw [Socks5TcpHandler.judgePassword]
  split
  next user pwd huser hpwd =>
    split
    next hcheck =>
      refine ends_judged (done (.ok ())) ?_ rfl
      obtain ⟨f, hleads, hend, hup, herror⟩ : Ends destAddr ⟨BSocksClient.requestProgram destAddr,
        h.fetchHeaders peerAddr, [], []⟩ (Granted h destAddr) := ends_request
      refine ⟨f, hleads, hend, fun hadmitted => hup hadmitted.2, fun hnot => herror fun hgranted => ?_⟩
      exact hnot ⟨⟨hlengths, user, pwd, huser, hpwd, hcheck⟩, hgranted⟩
    next hcheck =>
      refine ends_judged (done (.error .authentication)) ?_ rfl
      rw [passwordReplyProgram_failed (by decide)]
      refine ends_error ?_ _ _ _
      rintro ⟨⟨-, user', pwd', huser', hpwd', hcheck'⟩, -⟩
      rw [huser, Option.some.injEq] at huser'
      rw [hpwd, Option.some.injEq] at hpwd'
      rw [huser', hpwd'] at hcheck
      exact hcheck hcheck'
  next hmalformed =>
    refine ends_judged (done (.error .authentication)) ?_ rfl
    rw [passwordReplyProgram_failed (by decide)]
    refine ends_error ?_ _ _ _
    rintro ⟨⟨-, user, pwd, huser, hpwd, -⟩, -⟩
    exact hmalformed user pwd huser hpwd

/-- The client sends a user name and a password. -/
theorem ends_password {username password : Bytes} :
    Ends destAddr ⟨if username.length = 0 ∨ username.length > 255 ∨ password.length = 0 ∨
          password.length > 255 then done .error
        else
          send (BSocksClient.passwordPacket username password) fun _ =>
            BSocksClient.receiveMessage 2 (BSocksClient.passwordReplyProgram destAddr),
      h.checkAuthPassword.bind (afterAuth h peerAddr), [], []⟩
      (Authenticates h (.password username password) ∧ Granted h destAddr) := by
  split
  next hlengths =>
    -- the client gives up, and the server with it
    have hnot : ¬ (Authenticates h (.password username password) ∧ Granted h destAddr) :=
      fun hadmitted => hadmitted.1.1 hlengths
    have heof : Runs true PasswdAuthRequest.readFrom.run []
        (done (.error (.ioError .unexpectedEof))) [] [] := (runs_receive_eof (by decide) _).bind _
    refine ends_right ((heof.bind _).bind _) ?_
    refine ends_right ((runs_send _ _ _).bind _) ?_
    exact ends_error hnot _ _ _
  next hlengths =>
    obtain ⟨hu, hu', hp, hp'⟩ : _ ∧ _ ∧ _ ∧ _ := by simpa only [not_or] using hlengths
    refine ends_left (runs_send _ _ _) ?_
    have hparses := parses_passwdAuthRequest (mt List.length_eq_zero_iff.mpr hu) (Nat.le_of_not_gt hu')
      (mt List.length_eq_zero_iff.mpr hp) (Nat.le_of_not_gt hp')
    have hruns : Runs false h.checkAuthPassword (BSocksClient.passwordPacket username password ++ [])
        (h.judgePassword ⟨username, password⟩) [] [] := (hparses.runs []).bind _
    rw [List.append_nil] at hruns
    exact ends_right (hruns.bind _) (ends_judgePassword hlengths)

/-- Client and server settle on a method. -/
theorem ends_checkAuth :
    Ends destAddr ⟨BSocksClient.receiveMessage 2 (BSocksClient.methodProgram authInfo destAddr),
      (h.checkAuth (authInfo.map AuthInfo.authType)).bind (afterAuth h peerAddr), [], []⟩
      ((∃ info, authInfo.find? (acceptable h) = some info ∧ Authenticates h info) ∧
        Granted h destAddr) := by
  rw [checkAuth_map]
  cases hfind : authInfo.find? (acceptable h) with
  | none =>
    refine ends_method ?_
    rw [methodProgram_eq, find?_not_acceptable]
    refine ends_error ?_ _ _ _
    rintro ⟨⟨info, hinfo, -⟩, -⟩
    cases hinfo
  | some info =>
    have hmethod := find?_authType hfind
    have hadmitted : ((∃ i, some info = some i ∧ Authenticates h i) ∧ Granted h destAddr) ↔
        (Authenticates h info ∧ Granted h destAddr) :=
      and_congr_left' ⟨fun ⟨i, hi, hauth⟩ => Option.some.inj hi ▸ hauth, fun hauth => ⟨info, rfl, hauth⟩⟩
    rw [hadmitted]
    cases info with
    | none =>
      refine ends_method ?_
      rw [methodProgram_eq, show SOCKS5_AUTH_METHOD_NONE = AuthInfo.none.authType from rfl, hmethod]
      rw [show Authenticates h .none ↔ True from Iff.rfl, true_and]
      exact ends_request
    | password username password =>
      refine ends_method ?_
      rw [methodProgram_eq, show SOCKS5_AUTH_METHOD_PASSWORD =
        (AuthInfo.password username password).authType from rfl, hmethod]
      exact ends_password

/-- **Where the handshake ends.** -/
theorem ends_helloProgram :
    Ends destAddr ⟨BSocksClient.helloProgram authInfo destAddr, h.handleSocks5Client peerAddr, [], []⟩
      (Admitted h authInfo destAddr) := by
  rw [BSocksClient.helloProgram]
  split
  next hoffered =>
    have hnot : ¬ Admitted h authInfo destAddr := fun hadmitted => hadmitted.offered hoffered
    have heof : Runs true HandshakeRequest.readFrom.run []
        (done (.error (.ioError .unexpectedEof))) [] [] := (runs_receive_eof (by decide) _).bind _
    exact ends_right (heof.bind _) (ends_error hnot _ _ _)
  next hoffered =>
    have hadmitted : Admitted h authInfo destAddr ↔
        (∃ info, authInfo.find? (acceptable h) = some info ∧ Authenticates h info) ∧
          Granted h destAddr :=
      ⟨fun hadmitted => ⟨hadmitted.authenticated, hadmitted.granted⟩,
        fun ⟨hauth, hgranted⟩ => ⟨hoffered, hauth, hgranted⟩⟩
    rw [hadmitted]
    refine ends_left (runs_send _ _ _) ?_
    have hlength : (authInfo.map AuthInfo.authType).length ≤ 255 := by
      rw [List.length_map]
      omega
    have hparses := parses_handshakeRequest hlength
    rw [List.length_map] at hparses
    have hruns : Runs false (h.handleSocks5Client peerAddr) (BSocksClient.hello authInfo ++ [])
        ((h.checkAuth (authInfo.map AuthInfo.authType)).bind (afterAuth h peerAddr)) [] [] :=
      (hparses.runs []).bind _
    rw [List.append_nil] at hruns
    exact ends_right hruns ends_checkAuth

/-! ## Every order of events -/

theorem waiting_init (authInfo : List AuthInfo) (destAddr : SocketAddr) :
    ((BSocksClient.init authInfo destAddr).connectorHandler false).Waiting := by
  rw [BSocksClient.connectorHandler, if_neg Bool.false_ne_true]
  split
  · exact BSocksClient.waiting_reportError _
  · exact BSocksClient.waiting_sendPacket _ (List.cons_ne_nil _ _) (.inl rfl)

theorem program_init (authInfo : List AuthInfo) (destAddr : SocketAddr) :
    ((BSocksClient.init authInfo destAddr).connectorHandler false).program =
      BSocksClient.helloProgram authInfo destAddr := by
  rw [BSocksClient.connectorHandler, if_neg Bool.false_ne_true, BSocksClient.helloProgram]
  by_cases hoffered : authInfo.length = 0 ∨ authInfo.length > 255
  · rw [if_pos hoffered]
    exact (congrArg BSocksClient.program (if_pos hoffered)).trans (BSocksClient.program_reportError _)
  · rw [if_neg hoffered]
    exact congrArg BSocksClient.program (if_neg hoffered)

/-- **The handshake agrees.** Whatever the order of events and however the messages are cut into pieces,
the handshake comes to an end after finitely many of them. A client that is up is one that is admitted,
and the server has its tunnel to the destination of the client, with nothing of the handshake left on
the way. A client that fails is not admitted, and no client is left waiting. -/
theorem handshake_agrees (h : Socks5TcpHandler) (peerAddr : SocketAddr) (authInfo : List AuthInfo)
    (destAddr : SocketAddr) :
    ∃ bound, ∀ actions s, steps step (init h peerAddr authInfo destAddr) actions = some s →
      actions.length ≤ bound ∧
      (s.client.failed = false → s.client.state = .up → Admitted h authInfo destAddr ∧
        s.server = done (.ok (.tunnel (.socketAddress destAddr))) ∧ s.toClient = [] ∧
        s.toServer = []) ∧
      (s.client.failed = true → ¬ Admitted h authInfo destAddr) ∧
      ((∀ a, s.step a = none) → s.client.failed = true ∨ s.client.state = .up) := by
  obtain ⟨f, ⟨is, his⟩, hend, hup, herror⟩ : Ends destAddr ⟨BSocksClient.helloProgram authInfo destAddr,
    h.handleSocks5Client peerAddr, [], []⟩ (Admitted h authInfo destAddr) := ends_helloProgram
  refine ⟨is.length, fun actions s hrun => ?_⟩
  obtain ⟨hw, js, hlength, hjs⟩ := exists_schedule (waiting_init authInfo destAddr) hrun
  rw [show (init h peerAddr authInfo destAddr).duet = ⟨BSocksClient.helloProgram authInfo destAddr,
    h.handleSocks5Client peerAddr, [], []⟩ by rw [← program_init]; rfl] at hjs
  obtain ⟨ks, hks, hsteps⟩ := Duet.commutes_step.joins hend his hjs
  refine ⟨by omega, fun hopen hstate => ?_, fun hfailed hadmitted => ?_, fun hstuck => ?_⟩
  · have hleft : s.duet.left = done .up := by
      simp only [duet, BSocksClient.program, hopen, hstate, Bool.false_eq_true, if_false]
    -- the client stays up, so this is how the handshake ends
    have hadmitted : Admitted h authInfo destAddr := by
      by_contra hnot
      have hf := Duet.left_done_steps hleft hks
      rw [herror hnot] at hf
      cases hf
    have hf := hup hadmitted
    subst hf
    have hspeaks : s.duet.right.SpeaksLast Socks5TcpHandler.IsTunnel := Duet.speaksLast_steps
      (Socks5TcpHandler.announces_handleSocks5Client h peerAddr).1 hjs
    have hright : s.server = _ := Duet.right_done hleft hspeaks hks rfl trivial rfl
    have hsame : s.duet = _ := eq_of_steps (fun i => by
      rw [duet, hright, show s.client.program = done .up from hleft]
      exact Duet.step_done _ _ _ _ i) hks
    exact ⟨hadmitted, hright, congrArg Duet.toLeft hsame, congrArg Duet.toRight hsame⟩
  · have hleft : s.duet.left = done .error := if_pos hfailed
    have hf := Duet.left_done_steps hleft hks
    rw [hup hadmitted] at hf
    cases hf
  · have hsame : s.duet = f := eq_of_steps (step_duet_eq_none hw hstuck) hks
    have hdone : ∃ event, s.client.program = done event := by
      rw [show s.client.program = f.left from congrArg Duet.left hsame]
      by_cases hadmitted : Admitted h authInfo destAddr
      · exact ⟨.up, by rw [hup hadmitted]⟩
      · exact ⟨.error, herror hadmitted⟩
    obtain ⟨event, hevent⟩ := hdone
    cases hsending : s.client.isSending with
    | true =>
      obtain ⟨next, hprogram, -⟩ := BSocksClient.program_of_isSending hsending
      rw [show s.client.program = send s.client.sending fun _ => next from hprogram _] at hevent
      cases hevent
    | false =>
      cases hreceiving : s.client.isReceiving with
      | true =>
        obtain ⟨next, hprogram, -⟩ := BSocksClient.program_of_isReceiving hreceiving
        rw [hprogram] at hevent
        cases hevent
      | false =>
        exact (BSocksClient.program_of_idle hw hsending hreceiving).imp And.left fun h => h.2.1

end SocksHandshake

end Badvpn
