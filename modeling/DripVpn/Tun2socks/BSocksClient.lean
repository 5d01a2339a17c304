import DripVpn.Engine.Socks5
import DripVpn.Foundations.Duet

/-!
# The SOCKS client of `tun2socks`

`BSocksClient` of `socksclient/BSocksClient.c`, which opens a connection to the SOCKS server for every
TCP connection of the device. It is driven by callbacks: `send_handler_done` when a packet was sent,
which `PacketStreamSender` does piece by piece, and `recv_handler_done` whenever some bytes arrive.

`program` is the same client written down as one program that waits for what it needs.
`runs_outputHandlerDone` and `runs_recvHandlerDone` say that the callbacks perform it.
-/

namespace Badvpn

open Engine Exchange

/-! ## The client -/

def SOCKS_VERSION : UInt8 := 0x05

def SOCKS_METHOD_NO_AUTHENTICATION_REQUIRED : UInt8 := 0x00
def SOCKS_METHOD_USERNAME_PASSWORD : UInt8 := 0x02

def SOCKS_CMD_CONNECT : UInt8 := 0x01

def SOCKS_ATYP_IPV4 : UInt8 := 0x01
def SOCKS_ATYP_IPV6 : UInt8 := 0x04

def SOCKS_REP_SUCCEEDED : UInt8 := 0x00

/-- `struct BSocksClient_auth_info` -/
inductive AuthInfo
  | none
  | password (username password : Bytes)
deriving DecidableEq

def AuthInfo.authType : AuthInfo → UInt8
  | none => SOCKS_METHOD_NO_AUTHENTICATION_REQUIRED
  | password _ _ => SOCKS_METHOD_USERNAME_PASSWORD

inductive SocksState
  | connecting
  | sendingHello
  | sentHello
  | sendingPassword
  | sentPassword
  | sendingRequest
  | sentRequest
  | receivedReplyHeader
  | up
deriving DecidableEq

structure BSocksClient where
  authInfo : List AuthInfo
  destAddr : SocketAddr
  state : SocksState
  /-- What `send_sender` still has to send of its packet. -/
  sending : Bytes
  /-- What was received into the buffer. -/
  buffer : Bytes
  recvLen : ℕ
  recvTotal : ℕ
  /-- An error was reported, upon which the owner frees the client. -/
  failed : Bool
deriving DecidableEq

namespace BSocksClient

/-- `BSocksClient_Init` -/
def init (authInfo : List AuthInfo) (destAddr : SocketAddr) : BSocksClient where
  authInfo := authInfo
  destAddr := destAddr
  state := .connecting
  sending := []
  buffer := []
  recvLen := 0
  recvTotal := 0
  failed := false

/-- `report_error` -/
def reportError (o : BSocksClient) : BSocksClient := { o with failed := true }

/-- `PacketPassInterface_Sender_Send` with the state to wait in. -/
def sendPacket (o : BSocksClient) (packet : Bytes) (state : SocksState) : BSocksClient :=
  { o with sending := packet, state }

/-- `start_receive` with the state to wait in; `buffer` is what the buffer holds before. -/
def startReceive (o : BSocksClient) (buffer : Bytes) (total : ℕ) (state : SocksState) : BSocksClient :=
  { o with buffer, recvLen := 0, recvTotal := total, state }

/-- `socks_client_hello_header` and the methods. -/
def hello (authInfo : List AuthInfo) : Bytes :=
  [SOCKS_VERSION, UInt8.ofNat authInfo.length] ++ authInfo.map AuthInfo.authType

/-- The password packet. -/
def passwordPacket (username password : Bytes) : Bytes :=
  [0x01, UInt8.ofNat username.length] ++ username ++ [UInt8.ofNat password.length] ++ password

/-- `socks_request_header` and the address. -/
def request (destAddr : SocketAddr) : Bytes :=
  [SOCKS_VERSION, SOCKS_CMD_CONNECT, 0,
    if destAddr.ip.size = 4 then SOCKS_ATYP_IPV4 else SOCKS_ATYP_IPV6] ++
    (destAddr.ip.address ++ bigEndian 2 destAddr.port.toNat)

/-- `connector_handler` -/
def connectorHandler (o : BSocksClient) (isError : Bool) : BSocksClient :=
  if isError then o.reportError
  else if o.authInfo.length = 0 ∨ o.authInfo.length > 255 then o.reportError
  else o.sendPacket (hello o.authInfo) .sendingHello

/-- `auth_finished` -/
def authFinished (o : BSocksClient) : BSocksClient := o.sendPacket (request o.destAddr) .sendingRequest

/-- `send_handler_done` -/
def sendHandlerDone (o : BSocksClient) : BSocksClient :=
  match o.state with
  | .sendingHello => o.startReceive [] 2 .sentHello
  | .sendingRequest => o.startReceive [] 4 .sentRequest
  | .sendingPassword => o.startReceive [] 2 .sentPassword
  | _ => o

/-- `output_handler_done` of the `PacketStreamSender`: `dataLen` more bytes were sent. -/
def outputHandlerDone (o : BSocksClient) (dataLen : ℕ) : BSocksClient :=
  let o := { o with sending := o.sending.drop dataLen }
  if o.sending = [] then o.sendHandlerDone else o

/-- The answer to the hello packet: the method that the server chose. -/
def receivedHello (o : BSocksClient) : BSocksClient :=
  if o.buffer.getD 0 0 ≠ SOCKS_VERSION then o.reportError
  else
    match o.authInfo.find? fun info => info.authType = o.buffer.getD 1 0 with
    | none => o.reportError
    | some .none => o.authFinished
    | some (.password username password) =>
      if username.length = 0 ∨ username.length > 255 ∨ password.length = 0 ∨ password.length > 255 then
        o.reportError
      else o.sendPacket (passwordPacket username password) .sendingPassword

/-- The answer to the request, up to the type of the address that comes with it. -/
def receivedReplyHeader (o : BSocksClient) : BSocksClient :=
  if o.buffer.getD 0 0 ≠ SOCKS_VERSION then o.reportError
  else if o.buffer.getD 1 0 ≠ SOCKS_REP_SUCCEEDED then o.reportError
  else if o.buffer.getD 3 0 = SOCKS_ATYP_IPV4 then o.startReceive o.buffer 6 .receivedReplyHeader
  else if o.buffer.getD 3 0 = SOCKS_ATYP_IPV6 then o.startReceive o.buffer 18 .receivedReplyHeader
  else o.reportError

/-- The answer to the password. -/
def receivedPasswordReply (o : BSocksClient) : BSocksClient :=
  if o.buffer.getD 0 0 ≠ 1 then o.reportError
  else if o.buffer.getD 1 0 ≠ 0 then o.reportError
  else o.authFinished

/-- `recv_handler_done`, with the bytes that were received. -/
def recvHandlerDone (o : BSocksClient) (data : Bytes) : BSocksClient :=
  let o := { o with buffer := o.buffer ++ data, recvLen := o.recvLen + data.length }
  if o.recvLen < o.recvTotal then o
  else
    match o.state with
    | .sentHello => o.receivedHello
    | .sentRequest => o.receivedReplyHeader
    | .sentPassword => o.receivedPasswordReply
    | .receivedReplyHeader => { o with state := .up }
    | _ => o

/-- `connection_handler` of a client that is not up yet. -/
def connectionHandler (o : BSocksClient) : BSocksClient := o.reportError

/-- A receive operation is in progress. -/
def isReceiving (o : BSocksClient) : Bool :=
  !o.failed && match o.state with
    | .sentHello => true
    | .sentPassword => true
    | .sentRequest => true
    | .receivedReplyHeader => true
    | _ => false

/-- A packet is being sent. -/
def isSending (o : BSocksClient) : Bool :=
  !o.failed && match o.state with
    | .sendingHello => true
    | .sendingPassword => true
    | .sendingRequest => true
    | _ => false

end BSocksClient

/-! ## The client as a program -/

/-- `BSOCKSCLIENT_EVENT_UP` or `BSOCKSCLIENT_EVENT_ERROR` -/
inductive SocksEvent
  | up
  | error
deriving DecidableEq

namespace SocksEvent

/-- A client that failed is freed, and its connection closed. -/
def closes : SocksEvent → Bool
  | up => false
  | error => true

end SocksEvent

namespace BSocksClient

/-- Wait for a message of `n` bytes. -/
def receiveMessage (n : ℕ) (next : Bytes → Exchange SocksEvent) : Exchange SocksEvent :=
  receive n fun
    | .ok bytes => next bytes
    | .error _ => done .error

/-- What follows the header of the reply. -/
def replyProgram (header : Bytes) : Exchange SocksEvent :=
  if header.getD 0 0 ≠ SOCKS_VERSION then done .error
  else if header.getD 1 0 ≠ SOCKS_REP_SUCCEEDED then done .error
  else if header.getD 3 0 = SOCKS_ATYP_IPV4 then receiveMessage 6 fun _ => done .up
  else if header.getD 3 0 = SOCKS_ATYP_IPV6 then receiveMessage 18 fun _ => done .up
  else done .error

/-- What follows the authentication. -/
def requestProgram (destAddr : SocketAddr) : Exchange SocksEvent :=
  send (request destAddr) fun _ => receiveMessage 4 replyProgram

/-- What follows the answer to the password. -/
def passwordReplyProgram (destAddr : SocketAddr) (reply : Bytes) : Exchange SocksEvent :=
  if reply.getD 0 0 ≠ 1 then done .error
  else if reply.getD 1 0 ≠ 0 then done .error
  else requestProgram destAddr

/-- What follows the answer to the hello packet. -/
def methodProgram (authInfo : List AuthInfo) (destAddr : SocketAddr) (answer : Bytes) :
    Exchange SocksEvent :=
  if answer.getD 0 0 ≠ SOCKS_VERSION then done .error
  else
    match authInfo.find? fun info => info.authType = answer.getD 1 0 with
    | none => done .error
    | some .none => requestProgram destAddr
    | some (.password username password) =>
      if username.length = 0 ∨ username.length > 255 ∨ password.length = 0 ∨ password.length > 255 then
        done .error
      else
        send (passwordPacket username password) fun _ =>
          receiveMessage 2 (passwordReplyProgram destAddr)

/-- The whole client, once it is connected. -/
def helloProgram (authInfo : List AuthInfo) (destAddr : SocketAddr) : Exchange SocksEvent :=
  if authInfo.length = 0 ∨ authInfo.length > 255 then done .error
  else send (hello authInfo) fun _ => receiveMessage 2 (methodProgram authInfo destAddr)

/-- What is left to be done by a client. -/
def program (o : BSocksClient) : Exchange SocksEvent :=
  if o.failed then done .error
  else
    match o.state with
    | .connecting => helloProgram o.authInfo o.destAddr
    | .sendingHello =>
      send o.sending fun _ => receiveMessage 2 (methodProgram o.authInfo o.destAddr)
    | .sentHello =>
      receiveMessage (o.recvTotal - o.recvLen) fun bytes =>
        methodProgram o.authInfo o.destAddr (o.buffer ++ bytes)
    | .sendingPassword => send o.sending fun _ => receiveMessage 2 (passwordReplyProgram o.destAddr)
    | .sentPassword =>
      receiveMessage (o.recvTotal - o.recvLen) fun bytes =>
        passwordReplyProgram o.destAddr (o.buffer ++ bytes)
    | .sendingRequest => send o.sending fun _ => receiveMessage 4 replyProgram
    | .sentRequest =>
      receiveMessage (o.recvTotal - o.recvLen) fun bytes => replyProgram (o.buffer ++ bytes)
    | .receivedReplyHeader => receiveMessage (o.recvTotal - o.recvLen) fun _ => done .up
    | .up => done .up

/-! ## The callbacks perform the program -/

/-- What the client waits for is not there already. -/
structure Waiting (o : BSocksClient) : Prop where
  connected : o.failed = true ∨ o.state ≠ .connecting
  sending : o.isSending = true → o.sending ≠ []
  receiving : o.isReceiving = true → o.recvLen < o.recvTotal

theorem request_ne_nil (destAddr : SocketAddr) : request destAddr ≠ [] := List.cons_ne_nil _ _

theorem waiting_reportError (o : BSocksClient) : o.reportError.Waiting :=
  ⟨.inl rfl, (fun h => by cases h), fun h => by cases h⟩

theorem waiting_sendPacket (o : BSocksClient) {packet : Bytes} {state : SocksState} (hne : packet ≠ [])
    (hstate : state = .sendingHello ∨ state = .sendingPassword ∨ state = .sendingRequest) :
    (o.sendPacket packet state).Waiting := by
  refine ⟨.inr ?_, fun _ => hne, fun h => ?_⟩
  · rcases hstate with rfl | rfl | rfl
    all_goals exact fun h => by cases h
  · rcases hstate with rfl | rfl | rfl
    all_goals simp [isReceiving, sendPacket] at h

theorem waiting_startReceive (o : BSocksClient) (buffer : Bytes) {total : ℕ} {state : SocksState}
    (htotal : 0 < total) (hstate : state = .sentHello ∨ state = .sentPassword ∨ state = .sentRequest ∨
      state = .receivedReplyHeader) : (o.startReceive buffer total state).Waiting := by
  refine ⟨.inr ?_, fun h => ?_, fun _ => htotal⟩
  · rcases hstate with rfl | rfl | rfl | rfl
    all_goals exact fun h => by cases h
  · rcases hstate with rfl | rfl | rfl | rfl
    all_goals simp [isSending, startReceive] at h

theorem program_reportError (o : BSocksClient) : o.reportError.program = done .error := if_pos rfl

section Open

variable {o : BSocksClient} (hopen : o.failed = false)
include hopen

theorem program_authFinished : o.authFinished.program = requestProgram o.destAddr := by
  simp only [program, authFinished, sendPacket, hopen, Bool.false_eq_true, if_false, requestProgram]

theorem program_receivedHello :
    o.receivedHello.program = methodProgram o.authInfo o.destAddr o.buffer := by
  rw [receivedHello, methodProgram]
  split
  · exact program_reportError o
  · split
    · exact program_reportError o
    · exact program_authFinished hopen
    · split
      · exact program_reportError o
      · simp only [program, sendPacket, hopen, Bool.false_eq_true, if_false]

theorem program_receivedReplyHeader : o.receivedReplyHeader.program = replyProgram o.buffer := by
  rw [receivedReplyHeader, replyProgram]
  split
  · exact program_reportError o
  · split
    · exact program_reportError o
    · split
      · simp only [program, startReceive, hopen, Bool.false_eq_true, if_false, Nat.sub_zero]
      · split
        · simp only [program, startReceive, hopen, Bool.false_eq_true, if_false, Nat.sub_zero]
        · exact program_reportError o

theorem program_receivedPasswordReply :
    o.receivedPasswordReply.program = passwordReplyProgram o.destAddr o.buffer := by
  rw [receivedPasswordReply, passwordReplyProgram]
  split
  · exact program_reportError o
  · split
    · exact program_reportError o
    · exact program_authFinished hopen

end Open

theorem waiting_authFinished (o : BSocksClient) : o.authFinished.Waiting :=
  waiting_sendPacket o (request_ne_nil _) (.inr (.inr rfl))

theorem waiting_receivedHello (o : BSocksClient) : o.receivedHello.Waiting := by
  rw [receivedHello]
  split
  · exact waiting_reportError o
  · split
    · exact waiting_reportError o
    · exact waiting_authFinished o
    · split
      · exact waiting_reportError o
      · exact waiting_sendPacket o (List.cons_ne_nil _ _) (.inr (.inl rfl))

theorem waiting_receivedReplyHeader (o : BSocksClient) : o.receivedReplyHeader.Waiting := by
  rw [receivedReplyHeader]
  split
  · exact waiting_reportError o
  · split
    · exact waiting_reportError o
    · split
      · exact waiting_startReceive o _ (by decide) (.inr (.inr (.inr rfl)))
      · split
        · exact waiting_startReceive o _ (by decide) (.inr (.inr (.inr rfl)))
        · exact waiting_reportError o

theorem waiting_receivedPasswordReply (o : BSocksClient) : o.receivedPasswordReply.Waiting := by
  rw [receivedPasswordReply]
  split
  · exact waiting_reportError o
  · split
    · exact waiting_reportError o
    · exact waiting_authFinished o

/-- A client that is sending waits for this, and then goes on by itself. -/
theorem program_of_isSending {o : BSocksClient} (h : o.isSending = true) :
    ∃ next, (∀ bytes, { o with sending := bytes }.program = send bytes fun _ => next) ∧
      (∀ bytes, { o with sending := bytes }.sendHandlerDone.program = next) ∧
      ∀ bytes, { o with sending := bytes }.sendHandlerDone.Waiting := by
  rw [isSending, Bool.and_eq_true, Bool.not_eq_true'] at h
  obtain ⟨hopen, hstate⟩ := h
  split at hstate
  next hs =>
    refine ⟨receiveMessage 2 (methodProgram o.authInfo o.destAddr), fun bytes => ?_, fun bytes => ?_,
      fun bytes => ?_⟩
    · simp only [program, hs, hopen, Bool.false_eq_true, if_false]
    · simp only [program, sendHandlerDone, startReceive, hs, hopen, Bool.false_eq_true, if_false,
        Nat.sub_zero, List.nil_append]
    · simp only [sendHandlerDone, hs]
      exact waiting_startReceive _ _ (by decide) (.inl rfl)
  next hs =>
    refine ⟨receiveMessage 2 (passwordReplyProgram o.destAddr), fun bytes => ?_, fun bytes => ?_,
      fun bytes => ?_⟩
    · simp only [program, hs, hopen, Bool.false_eq_true, if_false]
    · simp only [program, sendHandlerDone, startReceive, hs, hopen, Bool.false_eq_true, if_false,
        Nat.sub_zero, List.nil_append]
    · simp only [sendHandlerDone, hs]
      exact waiting_startReceive _ _ (by decide) (.inr (.inl rfl))
  next hs =>
    refine ⟨receiveMessage 4 replyProgram, fun bytes => ?_, fun bytes => ?_, fun bytes => ?_⟩
    · simp only [program, hs, hopen, Bool.false_eq_true, if_false]
    · simp only [program, sendHandlerDone, startReceive, hs, hopen, Bool.false_eq_true, if_false,
        Nat.sub_zero, List.nil_append]
    · simp only [sendHandlerDone, hs]
      exact waiting_startReceive _ _ (by decide) (.inr (.inr (.inl rfl)))
  · cases hstate

/-- `PacketStreamSender` sends a packet piece by piece. -/
theorem runs_outputHandlerDone {o : BSocksClient} (h : o.isSending = true) (hw : o.Waiting)
    (dataLen : ℕ) :
    (o.outputHandlerDone dataLen).Waiting ∧ ∀ closed inbox, Runs closed o.program inbox
      (o.outputHandlerDone dataLen).program inbox (o.sending.take dataLen) := by
  obtain ⟨next, hprogram, hdone, hwaiting⟩ := program_of_isSending h
  have hwhole : o.program = send o.sending fun _ => next := hprogram o.sending
  rw [outputHandlerDone, hwhole]
  dsimp only
  split
  next hnil =>
    refine ⟨hwaiting _, fun closed inbox => ?_⟩
    rw [hdone, List.take_of_length_le (List.drop_eq_nil_iff.mp hnil)]
    exact runs_send _ _ _
  next hrest =>
    refine ⟨⟨hw.connected, fun _ => hrest, hw.receiving⟩, fun closed inbox => ?_⟩
    have hpart : Runs closed _ inbox _ inbox _ :=
      runs_send_part (o.sending.take dataLen) hrest inbox fun _ => next
    rw [List.take_append_drop] at hpart
    rw [hprogram]
    exact hpart

/-- Bytes that arrived are put into the buffer. -/
def received (o : BSocksClient) (data : Bytes) : BSocksClient :=
  { o with buffer := o.buffer ++ data, recvLen := o.recvLen + data.length }

/-- What a client that is receiving waits for, and how it goes on. -/
theorem program_of_isReceiving {o : BSocksClient} (h : o.isReceiving = true) :
    ∃ next, o.program = receiveMessage (o.recvTotal - o.recvLen) next ∧
      (∀ data, (o.received data).program =
        receiveMessage (o.recvTotal - o.recvLen - data.length) fun bytes => next (data ++ bytes)) ∧
      ∀ data, ¬ o.recvLen + data.length < o.recvTotal →
        (o.recvHandlerDone data).program = next data ∧ (o.recvHandlerDone data).Waiting := by
  rw [isReceiving, Bool.and_eq_true, Bool.not_eq_true'] at h
  obtain ⟨hopen, hstate⟩ := h
  have hopen' : ∀ data, (o.received data).failed = false := fun _ => hopen
  split at hstate
  next hs =>
    refine ⟨fun bytes => methodProgram o.authInfo o.destAddr (o.buffer ++ bytes), ?_, fun data => ?_,
      fun data hfull => ?_⟩
    · simp only [program, hs, hopen, Bool.false_eq_true, if_false]
    · simp only [program, received, hs, hopen, Bool.false_eq_true, if_false, Nat.sub_sub,
        List.append_assoc]
    · simp only [recvHandlerDone, if_neg hfull, hs]
      exact ⟨program_receivedHello (hopen' data), waiting_receivedHello _⟩
  next hs =>
    refine ⟨fun bytes => passwordReplyProgram o.destAddr (o.buffer ++ bytes), ?_, fun data => ?_,
      fun data hfull => ?_⟩
    · simp only [program, hs, hopen, Bool.false_eq_true, if_false]
    · simp only [program, received, hs, hopen, Bool.false_eq_true, if_false, Nat.sub_sub,
        List.append_assoc]
    · simp only [recvHandlerDone, if_neg hfull, hs]
      exact ⟨program_receivedPasswordReply (hopen' data), waiting_receivedPasswordReply _⟩
  next hs =>
    refine ⟨fun bytes => replyProgram (o.buffer ++ bytes), ?_, fun data => ?_, fun data hfull => ?_⟩
    · simp only [program, hs, hopen, Bool.false_eq_true, if_false]
    · simp only [program, received, hs, hopen, Bool.false_eq_true, if_false, Nat.sub_sub,
        List.append_assoc]
    · simp only [recvHandlerDone, if_neg hfull, hs]
      exact ⟨program_receivedReplyHeader (hopen' data), waiting_receivedReplyHeader _⟩
  next hs =>
    refine ⟨fun _ => done .up, ?_, fun data => ?_, fun data hfull => ?_⟩
    · simp only [program, hs, hopen, Bool.false_eq_true, if_false]
    · simp only [program, received, hs, hopen, Bool.false_eq_true, if_false, Nat.sub_sub]
    · simp only [recvHandlerDone, if_neg hfull, hs]
      refine ⟨?_, .inr (fun h => by cases h), (fun h => ?_), fun h => ?_⟩
      · simp only [program, hopen, Bool.false_eq_true, if_false]
      · simp [isSending] at h
      · simp [isReceiving] at h
  · cases hstate

/-- A message is received piece by piece. -/
theorem runs_recvHandlerDone {o : BSocksClient} (h : o.isReceiving = true) (hw : o.Waiting)
    {data : Bytes} (hle : data.length ≤ o.recvTotal - o.recvLen) :
    (o.recvHandlerDone data).Waiting ∧ ∀ closed inbox, Runs closed o.program (data ++ inbox)
      (o.recvHandlerDone data).program inbox [] := by
  obtain ⟨next, hprogram, hpart, hfull⟩ := program_of_isReceiving h
  have hlt := hw.receiving h
  rw [hprogram]
  by_cases hmore : o.recvLen + data.length < o.recvTotal
  · have hreceived : o.recvHandlerDone data = o.received data := by
      simp only [recvHandlerDone, if_pos hmore, received]
    rw [hreceived, hpart]
    refine ⟨⟨hw.connected, hw.sending, fun _ => hmore⟩, fun closed inbox => ?_⟩
    have hruns : Runs closed _ (data ++ inbox) _ inbox [] :=
      runs_receive_part data inbox (o.recvTotal - o.recvLen - data.length) fun
        | .ok bytes => next bytes
        | .error _ => done SocksEvent.error
    rw [Nat.add_sub_cancel' hle] at hruns
    have hnext : (receive (o.recvTotal - o.recvLen - data.length) fun r => match r.map (data ++ ·) with
        | .ok bytes => next bytes
        | .error _ => done SocksEvent.error) =
        receiveMessage (o.recvTotal - o.recvLen - data.length) fun bytes => next (data ++ bytes) := by
      rw [receiveMessage]
      congr 1
      funext r
      cases r with
      | ok bytes => rfl
      | error e => rfl
    rw [← hnext]
    exact hruns
  · obtain ⟨hdone, hwaiting⟩ := hfull data hmore
    refine ⟨hwaiting, fun closed inbox => ?_⟩
    rw [hdone, show o.recvTotal - o.recvLen = data.length by omega]
    exact runs_receive data inbox _

/-- A client that is neither sending nor receiving has reported what became of it. -/
theorem program_of_idle {o : BSocksClient} (hw : o.Waiting) (hsending : o.isSending = false)
    (hreceiving : o.isReceiving = false) :
    (o.failed = true ∧ o.program = done .error) ∨
      (o.failed = false ∧ o.state = .up ∧ o.program = done .up) := by
  cases hopen : o.failed with
  | true => exact .inl ⟨rfl, if_pos hopen⟩
  | false =>
    have hconnected := hw.connected.resolve_left (by rw [hopen]; exact Bool.false_ne_true)
    rw [isSending, hopen, Bool.not_false, Bool.true_and] at hsending
    rw [isReceiving, hopen, Bool.not_false, Bool.true_and] at hreceiving
    refine .inr ⟨rfl, ?_⟩
    cases hs : o.state with
    | up => exact ⟨rfl, by simp only [program, hopen, hs, Bool.false_eq_true, if_false]⟩
    | connecting => exact absurd hs hconnected
    | _ => simp [hs] at hsending hreceiving

end BSocksClient

end Badvpn
