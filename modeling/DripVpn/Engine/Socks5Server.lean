import DripVpn.Engine.Socks5
import DripVpn.Foundations.Duet
import DripVpn.Foundations.LinkedMap

/-!
# The SOCKS5 server

`Socks5TcpHandler` of `local/socks/server/socks5/tcprelay.rs`, which takes the connections of
applications and of `tun2socks`: the choice of an authentication method, the check of a user name and
a password, and the request. How the connection to the target is made is a parameter; what is relayed
over it afterwards is in `TcpTunnel`.

The requests are read with the readers of `relay/socks5.rs`. `announces_handleSocks5Client` says that a
tunnel is never established before the client was told so.
-/

namespace Engine

open Exchange Reactive

/-! ## Messages -/

def SOCKS5_VERSION : UInt8 := 0x05

def SOCKS5_AUTH_METHOD_NONE : UInt8 := 0x00
def SOCKS5_AUTH_METHOD_PASSWORD : UInt8 := 0x02
def SOCKS5_AUTH_METHOD_NOT_ACCEPTABLE : UInt8 := 0xff

/-- SOCKS5 handshake request packet -/
structure HandshakeRequest where
  methods : Bytes
deriving DecidableEq

/-- `HandshakeRequest::read_from` -/
def HandshakeRequest.readFrom : Socks5Reader HandshakeRequest := do
  let buf ← readBuf 2
  let ver := buf.getD 0 0
  let nmet := buf.getD 1 0
  if ver ≠ SOCKS5_VERSION then throw (.unsupportedSocksVersion ver)
  else
    let methods ← readBuf nmet.toNat
    return ⟨methods⟩

/-- `HandshakeResponse::write_to_buf` -/
def HandshakeResponse.writeToBuf (chosenMethod : UInt8) : Bytes := [SOCKS5_VERSION, chosenMethod]

/-- Username/Password Authentication Initial Negociation -/
structure PasswdAuthRequest where
  uname : Bytes
  passwd : Bytes
deriving DecidableEq

/-- `PasswdAuthRequest::read_from` -/
def PasswdAuthRequest.readFrom : Socks5Reader PasswdAuthRequest := do
  let verBuf ← readBuf 1
  -- The only valid subnegociation version
  if verBuf.getD 0 0 ≠ 0x01 then throw (.unsupportedPasswdAuthVersion (verBuf.getD 0 0))
  else
    let ulenBuf ← readBuf 1
    let ulen := (ulenBuf.getD 0 0).toNat
    if ulen = 0 then throw .passwdAuthInvalidRequest
    else
      let uname ← readBuf ulen
      let plenBuf ← readBuf 1
      let plen := (plenBuf.getD 0 0).toNat
      if plen = 0 then throw .passwdAuthInvalidRequest
      else
        let passwd ← readBuf plen
        return ⟨uname, passwd⟩

/-- `PasswdAuthResponse::write_to_buf` -/
def PasswdAuthResponse.writeToBuf (status : UInt8) : Bytes := [0x01, status]

/-- TCP request header after handshake -/
structure TcpRequestHeader where
  command : Command
  address : Address
deriving DecidableEq

/-- `TcpRequestHeader::read_from` -/
def TcpRequestHeader.readFrom : Socks5Reader TcpRequestHeader := do
  let buf ← readBuf 3
  let ver := buf.getD 0 0
  if ver ≠ SOCKS5_VERSION then throw (.unsupportedSocksVersion ver)
  else
    let cmd := buf.getD 1 0
    match Command.fromU8 cmd with
    | none => throw (.unsupportedCommand cmd)
    | some command =>
      let address ← Address.readFrom
      return ⟨command, address⟩

/-- `TcpResponseHeader::write_to_buf`; like that of an address, it panics on a long domain name. -/
def TcpResponseHeader.writeToBuf (reply : Reply) (address : Address) : Option Bytes :=
  address.writeToBuf.map fun bytes => [SOCKS5_VERSION, reply.asU8, 0x00] ++ bytes

theorem parses_handshakeRequest {methods : Bytes} (h : methods.length ≤ 255) :
    Parses HandshakeRequest.readFrom ([SOCKS5_VERSION, UInt8.ofNat methods.length] ++ methods)
      ⟨methods⟩ := by
  have hlength : methods.length = (UInt8.ofNat methods.length).toNat := by
    rw [UInt8.toNat_ofNat']
    omega
  refine (Address.parses_readBuf (b := [SOCKS5_VERSION, UInt8.ofNat methods.length]) rfl).bind ?_
  have hver : [SOCKS5_VERSION, UInt8.ofNat methods.length].getD 0 0 = SOCKS5_VERSION := rfl
  dsimp only
  rw [if_neg (not_not.mpr hver)]
  exact (Address.parses_readBuf hlength).bind_last (parses_pure _)

theorem parses_passwdAuthRequest {uname passwd : Bytes} (hu : uname ≠ []) (hu' : uname.length ≤ 255)
    (hp : passwd ≠ []) (hp' : passwd.length ≤ 255) :
    Parses PasswdAuthRequest.readFrom ([0x01, UInt8.ofNat uname.length] ++ uname ++
      [UInt8.ofNat passwd.length] ++ passwd) ⟨uname, passwd⟩ := by
  have hulen : uname.length = (UInt8.ofNat uname.length).toNat := by
    rw [UInt8.toNat_ofNat']
    omega
  have hplen : passwd.length = (UInt8.ofNat passwd.length).toNat := by
    rw [UInt8.toNat_ofNat']
    omega
  have hbytes : [0x01, UInt8.ofNat uname.length] ++ uname ++ [UInt8.ofNat passwd.length] ++ passwd =
      [0x01] ++ ([UInt8.ofNat uname.length] ++ (uname ++ ([UInt8.ofNat passwd.length] ++ passwd))) := by
    simp only [List.append_assoc, List.cons_append, List.nil_append]
  rw [hbytes]
  refine (Address.parses_readBuf (b := [0x01]) rfl).bind ?_
  have hver : ([0x01] : Bytes).getD 0 0 = 0x01 := rfl
  rw [if_neg (not_not.mpr hver)]
  refine (Address.parses_readBuf (b := [UInt8.ofNat uname.length]) rfl).bind ?_
  have hulen' : ([UInt8.ofNat uname.length].getD 0 0).toNat ≠ 0 :=
    hulen ▸ mt List.length_eq_zero_iff.mp hu
  dsimp only
  rw [if_neg hulen']
  refine (Address.parses_readBuf hulen).bind ?_
  refine (Address.parses_readBuf (b := [UInt8.ofNat passwd.length]) rfl).bind ?_
  have hplen' : ([UInt8.ofNat passwd.length].getD 0 0).toNat ≠ 0 :=
    hplen ▸ mt List.length_eq_zero_iff.mp hp
  rw [if_neg hplen']
  exact (Address.parses_readBuf hplen).bind_last (parses_pure _)

theorem parses_tcpRequestHeader (command : Command) {address : Address} {bytes : Bytes}
    (h : address.writeToBuf = some bytes) :
    Parses TcpRequestHeader.readFrom ([SOCKS5_VERSION, command.asU8, 0x00] ++ bytes)
      ⟨command, address⟩ := by
  refine (Address.parses_readBuf (b := [SOCKS5_VERSION, command.asU8, 0x00]) rfl).bind ?_
  have hver : [SOCKS5_VERSION, command.asU8, 0x00].getD 0 0 = SOCKS5_VERSION := rfl
  dsimp only
  rw [if_neg (not_not.mpr hver)]
  have hcommand : Command.fromU8 ([SOCKS5_VERSION, command.asU8, 0x00].getD 1 0) = some command := by
    cases command <;> rfl
  rw [hcommand]
  exact (Address.parses_readFrom h).bind_last (parses_pure _)

/-! ## The handler -/

/-- Why a connection of a client is given up. -/
inductive HandlerError
  | io (e : IoError)
  | socks5 (e : Socks5Error)
  | authentication
  | panic
deriving DecidableEq

/-- What becomes of a connection after the handshake. -/
inductive Served
  | tunnel (target : Address)
  /-- The connection is held until its end. -/
  | udpAssociate
  | closed
deriving DecidableEq

/-- `Socks5TcpHandler`, with what its context provides: how to connect to a target, through the proxy or
not, and the address that the connection then has on this side. -/
structure Socks5TcpHandler where
  udpBindAddr : Option Address
  enableTcp : Bool
  -- `auth.passwd`
  passwd : LinkedMap Text Text
  connect : Address → Except IoError (Except IoError SocketAddr)

/-- The rest of a handler: `io::Result`, and the tunnel to be established. -/
abbrev HandlerResult := Except HandlerError Served

namespace Socks5TcpHandler

/-- `Socks5AuthConfig::auth_required` -/
def authRequired (h : Socks5TcpHandler) : Bool := decide (h.passwd.entries.length > 0)

/-- `Socks5AuthPasswdConfig::check_user` -/
def checkUser (h : Socks5TcpHandler) (userName password : Text) : Bool :=
  match h.passwd.get? userName with
  | some pwd => decide (pwd = password)
  | none => false

/-- `write_to(stream).await?` -/
def writeTo {α : Type} (bytes : Bytes) (next : Exchange (Except HandlerError α)) :
    Exchange (Except HandlerError α) :=
  send bytes fun
    | .ok () => next
    | .error e => done (.error (.io e))

/-- `rh.write_to(&mut stream).await?` for a response header. -/
def respond (reply : Reply) (address : Address) (next : Exchange HandlerResult) :
    Exchange HandlerResult :=
  match TcpResponseHeader.writeToBuf reply address with
  | some bytes => writeTo bytes next
  | none => done (.error .panic)

def PASSWORD_AUTH_STATUS_FAILURE : UInt8 := 255

/-- The second part of `check_auth_password`. -/
def judgePassword (h : Socks5TcpHandler) (req : PasswdAuthRequest) :
    Exchange (Except HandlerError Unit) :=
  match fromUtf8 req.uname, fromUtf8 req.passwd with
  | some userName, some password =>
    if h.checkUser userName password then
      writeTo (PasswdAuthResponse.writeToBuf 0) (done (.ok ()))
    else
      writeTo (PasswdAuthResponse.writeToBuf PASSWORD_AUTH_STATUS_FAILURE)
        (done (.error .authentication))
  | _, _ =>
    -- whether this can be written does not matter
    send (PasswdAuthResponse.writeToBuf PASSWORD_AUTH_STATUS_FAILURE) fun _ =>
      done (.error .authentication)

/-- `check_auth_password` -/
def checkAuthPassword (h : Socks5TcpHandler) : Exchange (Except HandlerError Unit) :=
  PasswdAuthRequest.readFrom.run.bind fun
    | .error err =>
      send (PasswdAuthResponse.writeToBuf err.asReply.asU8) fun _ => done (.error .authentication)
    | .ok req => h.judgePassword req

/-- `check_auth`, with the loop over the methods of the request. -/
def checkAuth (h : Socks5TcpHandler) : Bytes → Exchange (Except HandlerError Unit)
  | [] =>
    writeTo (HandshakeResponse.writeToBuf SOCKS5_AUTH_METHOD_NOT_ACCEPTABLE)
      (done (.error .authentication))
  | method :: methods =>
    if method = SOCKS5_AUTH_METHOD_PASSWORD then
      writeTo (HandshakeResponse.writeToBuf SOCKS5_AUTH_METHOD_PASSWORD) h.checkAuthPassword
    else if method = SOCKS5_AUTH_METHOD_NONE then
      if h.authRequired then h.checkAuth methods
      else writeTo (HandshakeResponse.writeToBuf SOCKS5_AUTH_METHOD_NONE) (done (.ok ()))
    else h.checkAuth methods

/-- `handle_tcp_connect`, up to the tunnel. -/
def handleTcpConnect (h : Socks5TcpHandler) (targetAddr : Address) : Exchange HandlerResult :=
  if h.enableTcp = false then respond .commandNotSupported targetAddr (done (.ok .closed))
  else
    match h.connect targetAddr with
    | .ok (.ok localAddr) =>
      -- Tell the client that we are ready
      respond .succeeded (.socketAddress localAddr) (done (.ok (.tunnel targetAddr)))
    | .ok (.error e) => done (.error (.io e))
    | .error err =>
      let reply := match err with
        | .connectionRefused => Reply.connectionRefused
        | .connectionAborted => Reply.hostUnreachable
        | _ => Reply.networkUnreachable
      respond reply (.socketAddress ⟨⟨[0, 0, 0, 0], .inl rfl⟩, 0⟩) (done (.error (.io err)))

/-- `handle_udp_associate` -/
def handleUdpAssociate (h : Socks5TcpHandler) (clientAddr : Address) : Exchange HandlerResult :=
  match h.udpBindAddr with
  | none => respond .commandNotSupported clientAddr (done (.ok .closed))
  | some bindAddr => respond .succeeded bindAddr (done (.ok .udpAssociate))

/-- The third part of `handle_socks5_client`. -/
def handleCommand (h : Socks5TcpHandler) (header : TcpRequestHeader) : Exchange HandlerResult :=
  match header.command with
  | .tcpConnect => h.handleTcpConnect header.address
  | .udpAssociate => h.handleUdpAssociate header.address
  | .tcpBind => respond .commandNotSupported header.address (done (.ok .closed))

/-- The second part of `handle_socks5_client`: fetch headers. -/
def fetchHeaders (h : Socks5TcpHandler) (peerAddr : SocketAddr) : Exchange HandlerResult :=
  TcpRequestHeader.readFrom.run.bind fun
    | .ok header => h.handleCommand header
    | .error err => respond err.asReply (.socketAddress peerAddr) (done (.error (.socks5 err)))

/-- `handle_socks5_client` -/
def handleSocks5Client (h : Socks5TcpHandler) (peerAddr : SocketAddr) : Exchange HandlerResult :=
  HandshakeRequest.readFrom.run.bind fun
    -- early eof
    | .error (.ioError .unexpectedEof) => done (.ok .closed)
    | .error err => done (.error (.socks5 err))
    | .ok handshakeReq =>
      (h.checkAuth handshakeReq.methods).bind fun
        | .error e => done (.error e)
        | .ok () => h.fetchHeaders peerAddr

/-- The handler drops the connection, unless it goes on as a tunnel or an association. -/
def closes : HandlerResult → Bool
  | .ok (.tunnel _) => false
  | .ok .udpAssociate => false
  | _ => true

/-- The handler goes on with a tunnel. -/
def IsTunnel : HandlerResult → Prop
  | .ok (.tunnel _) => True
  | _ => False

/-! ## What is told to the client -/

theorem announces_writeTo {α : Type} {P : Except HandlerError α → Prop} {bytes : Bytes}
    {next : Exchange (Except HandlerError α)} (hne : bytes ≠ []) (hnext : next.SpeaksLast P) :
    (writeTo bytes next).Announces P := by
  refine announces_send hne fun r => ?_
  cases r with
  | ok u => exact hnext
  | error e => exact trivial

theorem announces_respond (reply : Reply) (address : Address) (result : HandlerResult) :
    (respond reply address (done result)).Announces IsTunnel := by
  rw [respond]
  split
  next bytes hbytes =>
    refine announces_writeTo ?_ trivial
    rw [TcpResponseHeader.writeToBuf, Option.map_eq_some_iff] at hbytes
    obtain ⟨_, -, rfl⟩ := hbytes
    exact List.cons_ne_nil _ _
  · exact announces_done not_false

theorem announces_handleTcpConnect (h : Socks5TcpHandler) (targetAddr : Address) :
    (h.handleTcpConnect targetAddr).Announces IsTunnel := by
  rw [handleTcpConnect]
  split
  · exact announces_respond _ _ _
  · split
    · exact announces_respond _ _ _
    · exact announces_done not_false
    · exact announces_respond _ _ _

theorem announces_handleCommand (h : Socks5TcpHandler) (header : TcpRequestHeader) :
    (h.handleCommand header).Announces IsTunnel := by
  rw [handleCommand]
  split
  · exact announces_handleTcpConnect h _
  · rw [handleUdpAssociate]
    split
    · exact announces_respond _ _ _
    · exact announces_respond _ _ _
  · exact announces_respond _ _ _

theorem spoken_readBuf (n : ℕ) : (readBuf n).run.Spoken := spoken_readExact _ n

theorem spoken_readAddress : Address.readFrom.run.Spoken := by
  refine spoken_bind (spoken_readBuf 1) fun addrTypeBuf => ?_
  dsimp only
  split
  · exact spoken_bind (spoken_readBuf 6) fun buf => spoken_pure _
  · split
    · exact spoken_bind (spoken_readBuf 18) fun buf => spoken_pure _
    · split
      · refine spoken_bind (spoken_readBuf 1) fun lengthBuf =>
          spoken_bind (spoken_readBuf _) fun rawAddr => ?_
        rw [Address.domainName]
        split
        · exact spoken_pure _
        · exact spoken_throw _
      · exact spoken_throw _

theorem spoken_readTcpRequestHeader : TcpRequestHeader.readFrom.run.Spoken := by
  refine spoken_bind (spoken_readBuf 3) fun buf => ?_
  dsimp only
  split
  · exact spoken_throw _
  · split
    · exact spoken_throw _
    · exact spoken_bind spoken_readAddress fun address => spoken_pure _

theorem spoken_readHandshakeRequest : HandshakeRequest.readFrom.run.Spoken := by
  refine spoken_bind (spoken_readBuf 2) fun buf => ?_
  dsimp only
  split
  · exact spoken_throw _
  · exact spoken_bind (spoken_readBuf _) fun methods => spoken_pure _

theorem spoken_readPasswdAuthRequest : PasswdAuthRequest.readFrom.run.Spoken := by
  refine spoken_bind (spoken_readBuf 1) fun verBuf => ?_
  split
  · exact spoken_throw _
  · refine spoken_bind (spoken_readBuf 1) fun ulenBuf => ?_
    dsimp only
    split
    · exact spoken_throw _
    · refine spoken_bind (spoken_readBuf _) fun uname =>
        spoken_bind (spoken_readBuf 1) fun plenBuf => ?_
      split
      · exact spoken_throw _
      · exact spoken_bind (spoken_readBuf _) fun passwd => spoken_pure _

theorem announces_fetchHeaders (h : Socks5TcpHandler) (peerAddr : SocketAddr) :
    (h.fetchHeaders peerAddr).Announces IsTunnel := by
  refine spoken_readTcpRequestHeader.bind fun r => ?_
  cases r with
  | ok header => exact announces_handleCommand h header
  | error err => exact announces_respond _ _ _

theorem spoken_checkAuthPassword (h : Socks5TcpHandler) : h.checkAuthPassword.Spoken := by
  refine (Spoken.bind (Q := fun _ => False) spoken_readPasswdAuthRequest fun r => ?_).1
  cases r with
  | error err => exact announces_send (List.cons_ne_nil _ _) fun _ => speaksLast_done _
  | ok req =>
    dsimp only [judgePassword]
    split
    · split
      · exact announces_writeTo (List.cons_ne_nil _ _) (speaksLast_done _)
      · exact announces_writeTo (List.cons_ne_nil _ _) (speaksLast_done _)
    · exact announces_send (List.cons_ne_nil _ _) fun _ => speaksLast_done _

theorem spoken_checkAuth (h : Socks5TcpHandler) (methods : Bytes) : (h.checkAuth methods).Spoken := by
  induction methods with
  | nil => exact (announces_writeTo (List.cons_ne_nil _ _) (speaksLast_done _)).1
  | cons method methods ih =>
    rw [checkAuth]
    split
    · exact (announces_writeTo (List.cons_ne_nil _ _) (spoken_checkAuthPassword h)).1
    · split
      · split
        · exact ih
        · exact (announces_writeTo (List.cons_ne_nil _ _) (speaksLast_done _)).1
      · exact ih

/-- The client is told before a tunnel is established. -/
theorem announces_handleSocks5Client (h : Socks5TcpHandler) (peerAddr : SocketAddr) :
    (h.handleSocks5Client peerAddr).Announces IsTunnel := by
  refine spoken_readHandshakeRequest.bind fun r => ?_
  split
  · exact announces_done not_false
  · exact announces_done not_false
  · refine (spoken_checkAuth h _).bind fun r => ?_
    split
    · exact announces_done not_false
    · exact announces_fetchHeaders h peerAddr

end Socks5TcpHandler

end Engine
