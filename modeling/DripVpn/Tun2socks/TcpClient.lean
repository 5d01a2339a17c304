import DripVpn.Foundations.Bytes
import DripVpn.Foundations.Confluence

/-!
# The TCP clients of `tun2socks`

`struct tcp_client` of `tun2socks.c` and its callbacks. A client stands between a connection of the
device, which lwIP terminates, and a connection to the SOCKS server. Either end can go away while data
for the other is still buffered, so the client goes through several stages of being torn down, often
from within a callback of the very connection that it closes.

The assertions are compiled out (`NDEBUG`), so a failed assertion does not stop the program. A failed
assertion, an access to freed memory and a breach of lwIP's rules are recorded as a `Fault`.
-/

namespace Badvpn

/-! ## The client and its connections -/

/-- The window of a connection of lwIP, and the size of `buf`. -/
def TCP_WND : ℕ := 4 * 1460

def CLIENT_SOCKS_RECV_BUF_SIZE : ℕ := 8192

/-- `err_t` of lwIP, as far as it matters here. -/
inductive Err
  | ok
  | mem
  | abrt
  | conn
deriving DecidableEq

/-- A `dead_t`: a pointer to a variable of the callback that is running, if there is one. -/
inductive DeadVar
  | null
  | entered
  | dangling
deriving DecidableEq

/-- `struct tcp_client`. A buffer is modelled by the part of it that is in use. -/
structure TcpClient where
  aborted : Bool
  deadAborted : DeadVar
  clientClosed : Bool
  buf : Bytes
  socksUp : Bool
  socksClosed : Bool
  /-- `none` is a `socks_recv_buf_used` of `-1`. -/
  socksRecvBuf : Option Bytes
  socksRecvBufSent : ℕ
  socksRecvWaiting : Bool
  socksRecvTcpPending : ℕ
deriving DecidableEq

/-- What has become of a connection of lwIP that the client must not use any more. -/
inductive PcbEnd
  /-- `tcp_close` succeeded: lwIP still sends what was written, and calls the callbacks that are set. -/
  | closed
  | aborted
  /-- lwIP reported an error. -/
  | failed
deriving DecidableEq

/-- `struct tcp_pcb`: which callbacks are set, and what has passed through. -/
structure TcpPcb where
  errFunc : Bool
  recvFunc : Bool
  sentFunc : Bool
  /-- What was handed to the client. -/
  received : Bytes
  /-- How much of it the client confirmed. -/
  recved : ℕ
  /-- The device has closed its side. -/
  finished : Bool
  written : Bytes
  acked : ℕ
  ended : Option PcbEnd
deriving DecidableEq

/-- The events of a `BSocksClient`. -/
inductive SocksReport
  | up
  | error
  | errorClosed
deriving DecidableEq

/-- A `BSocksClient` with its interfaces, and what has passed through. -/
structure SocksConnection where
  up : Bool
  /-- The size of the send operation in progress. -/
  sending : Option ℕ
  /-- A receive operation is in progress. -/
  receiving : Bool
  sent : Bytes
  received : Bytes
  /-- An error or the end of the connection was reported. -/
  reported : Bool
  freed : Bool
deriving DecidableEq

inductive Fault
  | assertion
  | useAfterFree
  /-- A `dead_t` is written after its callback has returned. -/
  | danglingWrite
  /-- `tcp_abort` calls the error callback of the client that is aborting. -/
  | reentered
  /-- Data of the device does not fit into the buffer. -/
  | noBuffer
  /-- A callback has not told lwIP the truth about `tcp_abort`. -/
  | wrongReturn
  /-- An operation is started while one is in progress. -/
  | busy
deriving DecidableEq

structure TcpSession where
  client : TcpClient
  pcb : TcpPcb
  socks : SocksConnection
  /-- The client was deallocated. -/
  freed : Bool
  /-- `tun2socks` is shutting down. -/
  murdered : Bool
  /-- `badvpn__dead` of the callback that is running. -/
  dead : ℤ
  faults : List Fault
deriving DecidableEq

/-- How lwIP answers during one event. -/
structure LwipAnswers where
  /-- The space in the send buffer and the answer of `tcp_write`, round by round. -/
  writes : List (ℕ × Err)
  output : Err
  close : Err
deriving DecidableEq

namespace TcpSession

def fault (s : TcpSession) (f : Fault) : TcpSession := { s with faults := s.faults ++ [f] }

/-- The memory of the client is read or written. -/
def access (s : TcpSession) : TcpSession := if s.freed then s.fault .useAfterFree else s

/-- `ASSERT` of something about the client. -/
def assert (s : TcpSession) (e : Bool) : TcpSession :=
  if e then s.access else s.access.fault .assertion

/-! ## Dead variables -/

/-- `DEAD_ENTER` -/
def deadEnter (s : TcpSession) : TcpSession :=
  -- the previous pointer is written to upon leaving
  let s := if s.client.deadAborted = .null then s else s.fault .danglingWrite
  { s with client.deadAborted := .entered, dead := 0 }

/-- `DEAD_KILL_WITH` -/
def deadKillWith (s : TcpSession) (value : ℤ) : TcpSession :=
  match s.client.deadAborted with
  | .null => s
  | .entered => { s with dead := value }
  | .dangling => s.fault .danglingWrite

/-- `DEAD_LEAVE2` -/
def deadLeave (s : TcpSession) : TcpSession :=
  if s.dead = 0 then { s.access with client.deadAborted := .null }
  else { s with client.deadAborted := .dangling }

/-! ## The functions of lwIP and of the SOCKS client -/

/-- The connection of lwIP is used. -/
def usePcb (s : TcpSession) : TcpSession :=
  if s.pcb.ended = none then s else s.fault .useAfterFree

/-- `tcp_err`, `tcp_recv` and `tcp_sent` without a callback -/
def removeCallbacks (s : TcpSession) : TcpSession :=
  { s.usePcb with pcb.errFunc := false, pcb.recvFunc := false, pcb.sentFunc := false }

/-- `tcp_recv` without a callback -/
def removeRecvFunc (s : TcpSession) : TcpSession := { s.usePcb with pcb.recvFunc := false }

/-- `tcp_sent` with `client_sent_func` -/
def setSentFunc (s : TcpSession) : TcpSession := { s.usePcb with pcb.sentFunc := true }

/-- `tcp_recved` -/
def tcpRecved (s : TcpSession) (len : ℕ) : TcpSession :=
  { s.usePcb with pcb.recved := s.pcb.recved + len }

/-- `tcp_abort` -/
def tcpAbort (s : TcpSession) : TcpSession :=
  let s := if s.pcb.errFunc then s.usePcb.fault .reentered else s.usePcb
  { s with pcb.ended := some .aborted }

/-- `tcp_close` when it succeeds -/
def tcpClose (s : TcpSession) : TcpSession := { s.usePcb with pcb.ended := some .closed }

/-- `BSocksClient_Free` -/
def socksClientFree (s : TcpSession) : TcpSession :=
  let s := if s.socks.freed then s.fault .useAfterFree else s
  { s with socks.freed := true, socks.sending := none, socks.receiving := false }

/-- `StreamPassInterface_Sender_Send` of the buffer -/
def senderSend (s : TcpSession) : TcpSession :=
  let s := if s.socks.freed then s.fault .useAfterFree else s
  let s := if s.socks.sending = none then s else s.fault .busy
  { s with socks.sending := some s.client.buf.length }

/-- `StreamRecvInterface_Receiver_Recv` -/
def receiverRecv (s : TcpSession) : TcpSession :=
  let s := if s.socks.freed then s.fault .useAfterFree else s
  let s := if s.socks.receiving then s.fault .busy else s
  { s with socks.receiving := true }

/-! ## Tearing down -/

/-- `client_dealloc` -/
def clientDealloc (s : TcpSession) : TcpSession :=
  let s := s.assert s.client.clientClosed
  let s := s.assert s.client.socksClosed
  -- kill with -1 unless already aborted
  let s := if s.client.aborted then s else s.deadKillWith (-1)
  { s with freed := true }

/-- `client_abort_pcb` -/
def clientAbortPcb (s : TcpSession) : TcpSession :=
  let s := s.assert !s.client.aborted
  let s := s.tcpAbort
  { s with client.aborted := true }.deadKillWith 1

/-- `client_handle_freed_client`, with `client_free_socks` as a parameter -/
def handleFreedClientWith (freeSocks : TcpSession → TcpSession) (s : TcpSession) : TcpSession :=
  let s := s.assert !s.client.clientClosed
  let s := { s with client.clientClosed := true }
  -- data that can still be sent to SOCKS is waited for
  if s.client.buf ≠ [] ∧ s.client.socksClosed = false then s
  else if s.client.socksClosed = false then freeSocks s
  else s.clientDealloc

/-- `client_free_socks`, with `client_free_client` as a parameter -/
def freeSocksWith (freeClient : TcpSession → TcpSession) (s : TcpSession) : TcpSession :=
  let s := s.assert !s.client.socksClosed
  -- nothing more is wanted from the device
  let s := if s.client.socksUp ∧ s.client.clientClosed = false then s.removeRecvFunc else s
  let s := s.socksClientFree
  let s := { s with client.socksClosed := true }
  -- data that can still be sent to the device is waited for
  if s.client.socksUp ∧ (s.client.socksRecvBuf.isSome ∨ 0 < s.client.socksRecvTcpPending) ∧
      s.client.clientClosed = false then s
  else if s.client.clientClosed = false then freeClient s
  else s.clientDealloc

/-- `client_handle_freed_client`. The client is closed when SOCKS is freed, so that `client_free_socks`
does not come back to it; `clientHandleFreedClient_eq` is the recursion of the source. -/
def clientHandleFreedClient : TcpSession → TcpSession := handleFreedClientWith (freeSocksWith id)

/-- `client_free_client` -/
def clientFreeClient (close : Err) (s : TcpSession) : TcpSession :=
  let s := s.assert !s.client.clientClosed
  let s := s.removeCallbacks
  let s := if close = .ok then s.tcpClose else s.usePcb.clientAbortPcb
  s.clientHandleFreedClient

/-- `client_abort_client` -/
def clientAbortClient (s : TcpSession) : TcpSession :=
  let s := s.assert !s.client.clientClosed
  s.removeCallbacks.clientAbortPcb.clientHandleFreedClient

/-- `client_free_socks` -/
def clientFreeSocks (close : Err) : TcpSession → TcpSession := freeSocksWith (clientFreeClient close)

/-- `client_murder` -/
def clientMurder (s : TcpSession) : TcpSession :=
  let s := s.access
  let s :=
    if s.client.clientClosed then s
    else { s.removeCallbacks.clientAbortPcb with client.clientClosed := true }
  let s := if s.client.socksClosed then s else { s.socksClientFree with client.socksClosed := true }
  s.clientDealloc

/-! ## To SOCKS -/

/-- `client_send_to_socks` -/
def clientSendToSocks (s : TcpSession) : TcpSession :=
  let s := s.assert !s.client.socksClosed
  let s := s.assert s.client.socksUp
  let s := s.assert !s.client.buf.isEmpty
  s.senderSend

/-- `client_socks_send_handler_done` -/
def clientSocksSendHandlerDone (s : TcpSession) (dataLen : ℕ) (answers : LwipAnswers) : TcpSession :=
  let s := s.assert !s.client.socksClosed
  let s := s.assert s.client.socksUp
  let s := s.assert !s.client.buf.isEmpty
  let s := s.assert (0 < dataLen)
  let s := s.assert (dataLen ≤ s.client.buf.length)
  -- remove sent data from the buffer
  let s := { s with client.buf := s.client.buf.drop dataLen }
  let s := if s.client.clientClosed then s else s.tcpRecved dataLen
  if s.client.buf ≠ [] then s.senderSend
  -- everything was sent after the client went down
  else if s.client.clientClosed then s.clientFreeSocks answers.close
  else s

/-! ## From SOCKS -/

/-- `client_socks_recv_initiate` -/
def clientSocksRecvInitiate (s : TcpSession) : TcpSession :=
  let s := s.assert !s.client.clientClosed
  let s := s.assert !s.client.socksClosed
  let s := s.assert s.client.socksUp
  let s := s.assert s.client.socksRecvBuf.isNone
  s.receiverRecv

/-- What is in the receive buffer and was not yet written to the device. -/
def unsent (c : TcpClient) : Bytes := (c.socksRecvBuf.getD []).drop c.socksRecvBufSent

/-- The loop of `client_socks_recv_send_out`, and whether `tcp_write` failed for good. When there are no
more `writes`, the send buffer of lwIP is full. -/
def sendOutLoop (s : TcpSession) : List (ℕ × Err) → TcpSession × Bool
  | [] => (s, false)
  | (sndbuf, err) :: writes =>
    let toWrite := min (unsent s.client).length sndbuf
    if toWrite = 0 then (s, false)
    else
      let s := s.usePcb
      match err with
      | .mem => (s, false)
      | .abrt => (s, true)
      | .conn => (s, true)
      | .ok =>
        let s := { s with
          pcb.written := s.pcb.written ++ (unsent s.client).take toWrite
          client.socksRecvBufSent := s.client.socksRecvBufSent + toWrite
          client.socksRecvTcpPending := s.client.socksRecvTcpPending + toWrite }
        if unsent s.client ≠ [] then s.sendOutLoop writes else (s, false)

/-- `client_socks_recv_send_out`, and whether it returns 0. -/
def clientSocksRecvSendOut (s : TcpSession) (answers : LwipAnswers) : TcpSession × Bool :=
  let s := s.assert !s.client.clientClosed
  let s := s.assert s.client.socksUp
  let s := s.assert !(s.client.socksRecvBuf.getD []).isEmpty
  let s := s.assert !(unsent s.client).isEmpty
  let s := s.assert !s.client.socksRecvWaiting
  let (s, failed) := s.sendOutLoop answers.writes
  if failed then (s.clientAbortClient, false)
  else
    -- start sending now
    let s := s.usePcb
    if answers.output ≠ .ok then (s.clientAbortClient, false)
    else if unsent s.client ≠ [] then
      -- can't queue data, but all data was confirmed
      if s.client.socksRecvTcpPending = 0 then (s.clientAbortClient, false)
      -- continue in `client_sent_func`
      else ({ s with client.socksRecvWaiting := true }, true)
    -- everything was queued
    else ({ s with client.socksRecvBuf := none }, true)

/-- `client_socks_recv_handler_done` -/
def clientSocksRecvHandlerDone (s : TcpSession) (data : Bytes) (answers : LwipAnswers) : TcpSession :=
  let s := s.assert (0 < data.length)
  let s := s.assert (data.length ≤ CLIENT_SOCKS_RECV_BUF_SIZE)
  let s := s.assert !s.client.socksClosed
  let s := s.assert s.client.socksUp
  let s := s.assert s.client.socksRecvBuf.isNone
  -- if the client was closed, stop receiving
  if s.client.clientClosed then s
  else
    let s := { s with
      client.socksRecvBuf := some data
      client.socksRecvBufSent := 0
      client.socksRecvWaiting := false }
    let (s, sentOut) := s.clientSocksRecvSendOut answers
    if sentOut = false then s
    else
      let s := s.access
      if s.client.socksRecvBuf = none then s.clientSocksRecvInitiate else s

/-! ## The SOCKS client -/

/-- `client_socks_handler` -/
def clientSocksHandler (s : TcpSession) (event : SocksReport) (answers : LwipAnswers) : TcpSession :=
  let s := s.assert !s.client.socksClosed
  match event with
  | .error => s.clientFreeSocks answers.close
  | .errorClosed => (s.assert s.client.socksUp).clientFreeSocks answers.close
  | .up =>
    let s := s.assert !s.client.socksUp
    let s := { s with client.socksRecvBuf := none, client.socksRecvTcpPending := 0 }
    let s := if s.client.clientClosed then s else s.setSentFunc
    let s := { s with client.socksUp := true }
    -- start sending data if there is any
    let s := if s.client.buf ≠ [] then s.clientSendToSocks else s
    -- start receiving data if the client is still up
    if s.client.clientClosed then s else s.clientSocksRecvInitiate

/-- What the SOCKS client does. -/
inductive SocksAction
  | report (event : SocksReport) (answers : LwipAnswers)
  /-- `dataLen` bytes of the send operation were sent. -/
  | sendDone (dataLen : ℕ) (answers : LwipAnswers)
  | recvDone (data : Bytes) (answers : LwipAnswers)
deriving DecidableEq

def reports (s : TcpSession) (event : SocksReport) : Bool :=
  match event with
  | .up => !s.socks.up
  | .error => true
  | .errorClosed => s.socks.up

/-- The SOCKS client is up, or it has come to its end. -/
def reported (s : TcpSession) : SocksReport → TcpSession
  | .up => { s with socks.up := true }
  | .error => { s with socks.reported := true }
  | .errorClosed => { s with socks.reported := true }

def socksStep (s : TcpSession) : SocksAction → Option TcpSession
  | .report event answers =>
    if s.socks.freed = false ∧ s.reports event then some ((s.reported event).clientSocksHandler event answers)
    else none
  | .sendDone dataLen answers =>
    if s.socks.freed = false ∧ 0 < dataLen ∧ ∃ n ∈ s.socks.sending, dataLen ≤ n then
      some ({ s with
        socks.sending := none
        socks.sent := s.socks.sent ++ s.client.buf.take dataLen }.clientSocksSendHandlerDone dataLen answers)
    else none
  | .recvDone data answers =>
    if s.socks.freed = false ∧ s.socks.receiving ∧ 0 < data.length ∧
        data.length ≤ CLIENT_SOCKS_RECV_BUF_SIZE then
      some ({ s with
        socks.receiving := false
        socks.received := s.socks.received ++ data }.clientSocksRecvHandlerDone data answers)
    else none

/-! ## The callbacks of lwIP -/

/-- What a callback returns: `ERR_ABRT` iff `DEAD_KILLED` is positive. -/
def returnValue (s : TcpSession) : Err := if 0 < s.dead then .abrt else .ok

/-- `SYNC_COMMIT` lets the pending jobs run, which here are what the SOCKS client does next. -/
def syncCommit (s : TcpSession) (jobs : List SocksAction) : Option TcpSession :=
  Reactive.steps socksStep s jobs

/-- `client_err_func` -/
def clientErrFunc (s : TcpSession) : TcpSession :=
  (s.assert !s.client.clientClosed).clientHandleFreedClient

/-- `client_recv_func` -/
def clientRecvFunc (s : TcpSession) (p : Option Bytes) (answers : LwipAnswers)
    (jobs : List SocksAction) : Option (TcpSession × Err) :=
  let s := s.assert !s.client.clientClosed
  let s := s.deadEnter
  match p with
  | none =>
    let s := s.clientFreeClient answers.close
    some (s.deadLeave, s.returnValue)
  | some p =>
    let s := s.assert !p.isEmpty
    -- check if there is enough buffer
    if p.length > TCP_WND - s.client.buf.length then some (s.deadLeave, .mem)
    else
      let s := { s with client.buf := s.client.buf ++ p }
      -- if there was nothing in the buffer before, start to send
      if s.client.buf.length = p.length ∧ s.client.socksUp then
        let s := s.assert !s.client.socksClosed
        (s.clientSendToSocks.syncCommit jobs).map fun s => (s.deadLeave, s.returnValue)
      else some (s.deadLeave, s.returnValue)

/-- `client_sent_func` -/
def clientSentFunc (s : TcpSession) (len : ℕ) (answers : LwipAnswers) (jobs : List SocksAction) :
    Option (TcpSession × Err) :=
  let s := s.assert !s.client.clientClosed
  let s := s.assert s.client.socksUp
  let s := s.assert (0 < len)
  let s := s.assert (len ≤ s.client.socksRecvTcpPending)
  let s := s.deadEnter
  let s := { s with client.socksRecvTcpPending := s.client.socksRecvTcpPending - len }
  -- continue queuing
  if !(s.client.socksRecvBuf.getD []).isEmpty then
    let s := s.assert s.client.socksRecvWaiting
    let s := s.assert !(unsent s.client).isEmpty
    let s := { s with client.socksRecvWaiting := false }
    let (s, sentOut) := s.clientSocksRecvSendOut answers
    if sentOut = false then some (s.deadLeave, s.returnValue)
    else
      -- some data was queued just now, so it can't have been confirmed yet
      let s := s.assert (0 < s.client.socksRecvTcpPending)
      if s.client.socksRecvBuf = none ∧ s.client.socksClosed = false then
        (s.clientSocksRecvInitiate.syncCommit jobs).map fun s => (s.deadLeave, s.returnValue)
      else some (s.deadLeave, s.returnValue)
  -- everything was sent after SOCKS was closed
  else if s.client.socksClosed ∧ s.client.socksRecvTcpPending = 0 then
    let s := s.clientFreeClient answers.close
    some (s.deadLeave, s.returnValue)
  else some (s.deadLeave, s.returnValue)

/-- lwIP looks at what a callback returned: `ERR_ABRT` has to mean that `tcp_abort` was called. -/
def returned (r : TcpSession × Err) : TcpSession :=
  match r.2 with
  | .ok => if r.1.pcb.ended = some .aborted then r.1.fault .wrongReturn else r.1
  | .abrt => if r.1.pcb.ended = some .aborted then r.1 else r.1.fault .wrongReturn
  | .mem => r.1.fault .noBuffer
  | .conn => r.1.fault .wrongReturn

/-! ## Runs -/

inductive TcpAction
  /-- Data from the device, or the end of it. -/
  | recv (p : Option Bytes) (answers : LwipAnswers) (jobs : List SocksAction)
  /-- `len` more bytes were confirmed by the device. -/
  | sent (len : ℕ) (answers : LwipAnswers) (jobs : List SocksAction)
  | err
  | socks (a : SocksAction)
  | murder
deriving DecidableEq

/-- lwIP calls a callback as long as the connection is there and the callback is set. -/
def calls (s : TcpSession) (callback : Bool) : Bool :=
  callback && (s.pcb.ended = none || s.pcb.ended = some .closed)

/-- The device keeps to the window, and sends nothing after the end. -/
def mayReceive (s : TcpSession) : Option Bytes → Bool
  | none => true
  | some p => 0 < p.length && s.pcb.received.length + p.length ≤ s.pcb.recved + TCP_WND

def step (s : TcpSession) : TcpAction → Option TcpSession
  | .recv p answers jobs =>
    if s.calls s.pcb.recvFunc ∧ s.mayReceive p then
      let s :=
        match p with
        | none => { s with pcb.finished := true }
        | some p => { s with pcb.received := s.pcb.received ++ p }
      (s.clientRecvFunc p answers jobs).map returned
    else none
  | .sent len answers jobs =>
    if s.calls s.pcb.sentFunc ∧ 0 < len ∧ s.pcb.acked + len ≤ s.pcb.written.length then
      ({ s with pcb.acked := s.pcb.acked + len }.clientSentFunc len answers jobs).map returned
    else none
  | .err =>
    if s.calls s.pcb.errFunc then some { s with pcb.ended := some .failed }.clientErrFunc else none
  | .socks a => s.socksStep a
  | .murder => if s.freed then none else some { s with murdered := true }.clientMurder

/-- The client that `listener_accept_func` sets up. -/
def init : TcpSession where
  client :=
    { aborted := false, deadAborted := .null, clientClosed := false, buf := [], socksUp := false,
      socksClosed := false, socksRecvBuf := none, socksRecvBufSent := 0, socksRecvWaiting := false,
      socksRecvTcpPending := 0 }
  pcb :=
    { errFunc := true, recvFunc := true, sentFunc := false, received := [], recved := 0,
      finished := false, written := [], acked := 0, ended := none }
  socks :=
    { up := false, sending := none, receiving := false, sent := [], received := [], reported := false,
      freed := false }
  freed := false
  murdered := false
  dead := 0
  faults := []

/-- `listener_accept_func`, with what the SOCKS client does until it returns. -/
def listenerAcceptFunc (jobs : List SocksAction) : Option (TcpSession × Err) :=
  (init.deadEnter.syncCommit jobs).map fun s => (s.deadLeave, s.returnValue)

/-- A run of a client: it is accepted, and then things happen. -/
def run (jobs : List SocksAction) (actions : List TcpAction) : Option TcpSession :=
  ((listenerAcceptFunc jobs).map returned).bind fun s => Reactive.steps step s actions

end TcpSession

end Badvpn
