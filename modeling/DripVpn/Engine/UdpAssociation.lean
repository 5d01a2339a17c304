import DripVpn.Acl.AccessControl
import DripVpn.Engine.PacketWindow
import DripVpn.Engine.Socks5
import DripVpn.Foundations.LinkedMap

/-!
# A UDP association

`UdpAssociationContext` of `local/net/udp/association.rs`: the packets of one client, which are sent to
their targets directly or through the proxy server, and the responses to them. A machine takes one
branch of the `select!` loop at a time; what the sockets, the resolver and the caches do is up to the
actions.

* `proxied_nodup`: no two packets go to the server under the same session and packet id, even when the
  ids overflow, as long as the random session ids differ.
* `respond_iff`: a response of the server is passed on exactly if its packet id is not a replay and not
  too old, judged by the responses of its session that were passed on since the session was last
  forgotten.
-/

namespace Engine

open Reactive

/-! ## State and actions -/

/-- `UdpSocketControlData`, as far as a response has it. -/
structure UdpSocketControlData where
  serverSessionId : UInt64
  packetId : UInt64
deriving DecidableEq

structure UdpAssociationContext where
  -- `bypassed_ipv6_socket`; the sockets are dual-stack, so that there is no other
  bypassedSocket : Bool
  proxiedSocket : Bool
  keepaliveFlag : Bool
  clientSessionId : UInt64
  clientPacketId : UInt64
  serverSession : Option (LinkedMap UInt64 PacketWindowFilter)

/-- What becomes of a packet that is sent directly to an address. -/
structure Attempt where
  addr : SocketAddr
  /-- A socket can be made, if there is none. -/
  connects : Bool
  /-- The packet can be sent. -/
  sends : Bool
deriving DecidableEq

/-- Where a packet of the client goes. -/
inductive Route
  /-- Directly, to the addresses that the target has, in the order in which they are tried. -/
  | bypassed (attempts : List Attempt)
  /-- To the proxy server. `newSessionId` is the next random number. -/
  | proxied (newSessionId : UInt64) (connects sends : Bool)
deriving DecidableEq

inductive AssociationAction
  | received (target : Address) (data : Bytes) (route : Route)
  | bypassedReceived (result : Except Unit (SocketAddr × Bytes))
  | proxiedReceived (result : Except Unit (Address × Bytes × Option UdpSocketControlData))
  | keepaliveTick (accepted : Bool)
  /-- A session was not used for some time and is dropped from the cache. -/
  | sessionExpired (serverSessionId : UInt64)

inductive AssociationObservation
  | sessionRenewed (clientSessionId : UInt64)
  | proxied (clientSessionId packetId : UInt64) (target : Address) (data : Bytes)
  | bypassed (addr : SocketAddr) (data : Bytes)
  | respond (addr : Address) (data : Bytes) (control : Option UdpSocketControlData)
  | keepAlive
  | sessionForgotten (serverSessionId : UInt64)
deriving DecidableEq

/-! ## Packets of the client -/

/-- A target as a dual-stack socket takes it. -/
def SocketAddr.dualStack (addr : SocketAddr) : SocketAddr :=
  if h : addr.ip.address.length = 4 then
    { addr with ip := ⟨toIpv6Mapped addr.ip.address, .inr (by simp [toIpv6Mapped, h])⟩ }
  else addr

namespace UdpAssociationContext

/-- `create` -/
def create (clientSessionId : UInt64) : UdpAssociationContext where
  bypassedSocket := false
  proxiedSocket := false
  keepaliveFlag := false
  clientSessionId := clientSessionId
  clientPacketId := 0
  serverSession := none

/-- `send_received_bypassed_packet`, and whether it succeeded. -/
def sendReceivedBypassedPacket (s : UdpAssociationContext) (attempt : Attempt) (data : Bytes) :
    Bool × UdpAssociationContext × List AssociationObservation :=
  if s.bypassedSocket = false ∧ attempt.connects = false then (false, s, [])
  else
    let s := { s with bypassedSocket := true }
    if attempt.sends then (true, s, [.bypassed attempt.addr.dualStack data]) else (false, s, [])

/-- The loop of `lookup_then!` over the addresses of a target, until a packet is sent. -/
def lookupThen (s : UdpAssociationContext) (data : Bytes) :
    List Attempt → UdpAssociationContext × List AssociationObservation
  | [] => (s, [])
  | attempt :: attempts =>
    match s.sendReceivedBypassedPacket attempt data with
    | (true, s, o) => (s, o)
    | (false, s, o) =>
      let (s, os) := s.lookupThen data attempts
      (s, o ++ os)

/-- `dispatch_received_bypassed_packet` -/
def dispatchReceivedBypassedPacket (s : UdpAssociationContext) (target : Address) (data : Bytes)
    (attempts : List Attempt) : Option (UdpAssociationContext × List AssociationObservation) :=
  match target, attempts with
  | .socketAddress sa, [attempt] =>
    if attempt.addr = sa then
      let (_, s, o) := s.sendReceivedBypassedPacket attempt data
      some (s, o)
    else none
  | .socketAddress _, _ => none
  | .domainNameAddress _ _, attempts => some (s.lookupThen data attempts)

/-- Increase Packet ID before send. An overflow renews the session. -/
def nextPacketId (s : UdpAssociationContext) (newSessionId : UInt64) :
    UdpAssociationContext × List AssociationObservation :=
  if s.clientPacketId.toNat + 1 < UInt64.size then
    ({ s with clientPacketId := s.clientPacketId + 1 }, [])
  else
    ({ s with proxiedSocket := false, clientPacketId := 1, clientSessionId := newSessionId },
      [.sessionRenewed newSessionId])

/-- `dispatch_received_proxied_packet` -/
def dispatchReceivedProxiedPacket (s : UdpAssociationContext) (target : Address) (data : Bytes)
    (newSessionId : UInt64) (connects sends : Bool) :
    UdpAssociationContext × List AssociationObservation :=
  let (s, o) := s.nextPacketId newSessionId
  if s.proxiedSocket = false ∧ connects = false then (s, o)
  else
    -- Drop the socket and reconnect to another server if sending fails.
    ({ s with proxiedSocket := sends },
      o ++ [.proxied s.clientSessionId s.clientPacketId target data])

/-! ## Responses -/

/-- `send_received_respond_packet` -/
def sendReceivedRespondPacket (s : UdpAssociationContext) (addr : Address) (data : Bytes)
    (control : Option UdpSocketControlData) :
    UdpAssociationContext × List AssociationObservation :=
  ({ s with keepaliveFlag := true }, [.respond addr data control])

/-- The filter of a server session, a new one if there is none. -/
def packetWindowFilter (s : UdpAssociationContext) (serverSessionId : UInt64) : PacketWindowFilter :=
  ((s.serverSession.getD .empty).get? serverSessionId).getD .new

/-- A packet that was received from the proxy server: check if Packet ID is in the window. -/
def receivedProxied (s : UdpAssociationContext) (addr : Address) (data : Bytes) :
    Option UdpSocketControlData → UdpAssociationContext × List AssociationObservation
  | none => s.sendReceivedRespondPacket addr data none
  | some control =>
    let (accepted, filter) := (s.packetWindowFilter control.serverSessionId).validatePacketId
      control.packetId (UInt64.ofNat (2 ^ 64 - 1))
    let s := { s with
      serverSession := some ((s.serverSession.getD .empty).put control.serverSessionId filter) }
    if accepted then s.sendReceivedRespondPacket addr data (some control) else (s, [])

/-! ## The loop -/

/-- One turn of `dispatch_packet`. -/
def step (s : UdpAssociationContext) :
    AssociationAction → Option (UdpAssociationContext × List AssociationObservation)
  | .received target data (.bypassed attempts) => s.dispatchReceivedBypassedPacket target data attempts
  | .received target data (.proxied newSessionId connects sends) =>
    some (s.dispatchReceivedProxiedPacket target data newSessionId connects sends)
  | .bypassedReceived result =>
    if s.bypassedSocket then
      match result with
      -- Socket failure. Reset for recreation.
      | .error () => some ({ s with bypassedSocket := false }, [])
      | .ok (addr, data) => some (s.sendReceivedRespondPacket (.socketAddress addr) data none)
    else none
  | .proxiedReceived result =>
    if s.proxiedSocket then
      match result with
      | .error () => some ({ s with proxiedSocket := false }, [])
      | .ok (addr, data, control) => some (s.receivedProxied addr data control)
    else none
  | .keepaliveTick accepted =>
    if s.keepaliveFlag then
      if accepted then some ({ s with keepaliveFlag := false }, [.keepAlive]) else some (s, [])
    else some (s, [])
  | .sessionExpired serverSessionId =>
    some ({ s with serverSession := s.serverSession.map (·.remove serverSessionId) },
      [.sessionForgotten serverSessionId])

end UdpAssociationContext

/-- The task of one association. -/
def udpAssociation (clientSessionId : UInt64) :
    Machine UdpAssociationContext AssociationAction AssociationObservation where
  init := .create clientSessionId
  step := UdpAssociationContext.step

namespace UdpAssociationContext

/-! ## What a turn can do -/

/-- Neither a packet to the server nor anything about a server session. -/
def isLocal : AssociationObservation → Bool
  | .bypassed _ _ => true
  | .keepAlive => true
  | .respond _ _ none => true
  | _ => false

/-- A turn that has nothing to do with the sessions of either side. -/
structure Local (s s' : UdpAssociationContext) (o : List AssociationObservation) : Prop where
  clientSessionId : s'.clientSessionId = s.clientSessionId
  clientPacketId : s'.clientPacketId = s.clientPacketId
  serverSession : s'.serverSession = s.serverSession
  isLocal : ∀ ob ∈ o, isLocal ob = true

theorem local_nil {s s' : UdpAssociationContext} (hsession : s'.clientSessionId = s.clientSessionId)
    (hpacket : s'.clientPacketId = s.clientPacketId) (hserver : s'.serverSession = s.serverSession) :
    Local s s' [] :=
  ⟨hsession, hpacket, hserver, fun _ hob => by cases hob⟩

theorem Local.trans {s s₁ s' : UdpAssociationContext} {o o' : List AssociationObservation}
    (h : Local s s₁ o) (h' : Local s₁ s' o') : Local s s' (o ++ o') := by
  refine ⟨h'.clientSessionId.trans h.clientSessionId, h'.clientPacketId.trans h.clientPacketId,
    h'.serverSession.trans h.serverSession, fun ob hob => ?_⟩
  rcases List.mem_append.mp hob with hob | hob
  · exact h.isLocal ob hob
  · exact h'.isLocal ob hob

theorem local_sendReceivedBypassedPacket {s s' : UdpAssociationContext} {attempt : Attempt}
    {data : Bytes} {ok : Bool} {o : List AssociationObservation}
    (h : s.sendReceivedBypassedPacket attempt data = (ok, s', o)) : Local s s' o := by
  rw [sendReceivedBypassedPacket] at h
  split at h
  · cases h
    exact local_nil rfl rfl rfl
  · dsimp only at h
    split at h
    · cases h
      exact ⟨rfl, rfl, rfl, by simp [isLocal]⟩
    · cases h
      exact local_nil rfl rfl rfl

/-- The induction is on the addresses that are tried. -/
theorem local_lookupThen {s s' : UdpAssociationContext} {data : Bytes} {attempts : List Attempt}
    {o : List AssociationObservation} (h : s.lookupThen data attempts = (s', o)) : Local s s' o := by
  induction attempts generalizing s o with
  | nil =>
    cases h
    exact local_nil rfl rfl rfl
  | cons attempt attempts ih =>
    rw [lookupThen] at h
    split at h
    next hsend =>
      cases h
      exact local_sendReceivedBypassedPacket hsend
    next s₁ o₁ hsend =>
      cases h
      exact (local_sendReceivedBypassedPacket hsend).trans (ih rfl)

theorem local_dispatchReceivedBypassedPacket {s s' : UdpAssociationContext} {target : Address}
    {data : Bytes} {attempts : List Attempt} {o : List AssociationObservation}
    (h : s.dispatchReceivedBypassedPacket target data attempts = some (s', o)) : Local s s' o := by
  rw [dispatchReceivedBypassedPacket.eq_def] at h
  split at h
  · split at h
    · cases h
      exact local_sendReceivedBypassedPacket rfl
    · cases h
  · cases h
  · rw [Option.some.injEq] at h
    exact local_lookupThen h

/-- Every turn is local, sends a packet to the server, takes one from it, or forgets a session. -/
theorem step_cases {s s' : UdpAssociationContext} {a : AssociationAction}
    {o : List AssociationObservation} (h : s.step a = some (s', o)) :
    Local s s' o ∨
      (∃ target data newSessionId connects sends,
        s.dispatchReceivedProxiedPacket target data newSessionId connects sends = (s', o)) ∨
      (∃ addr data control, s.receivedProxied addr data (some control) = (s', o)) ∨
      ∃ serverSessionId,
        s' = { s with serverSession := s.serverSession.map (·.remove serverSessionId) } ∧
          o = [.sessionForgotten serverSessionId] := by
  cases a with
  | received target data route =>
    cases route with
    | bypassed attempts => exact .inl (local_dispatchReceivedBypassedPacket h)
    | proxied newSessionId connects sends =>
      exact .inr (.inl ⟨target, data, newSessionId, connects, sends, Option.some.inj h⟩)
  | bypassedReceived result =>
    refine .inl ?_
    simp only [step] at h
    split at h
    · split at h
      · cases h
        exact local_nil rfl rfl rfl
      · cases h
        exact ⟨rfl, rfl, rfl, by simp [isLocal]⟩
    · cases h
  | proxiedReceived result =>
    simp only [step] at h
    split at h
    · split at h
      · cases h
        exact .inl (local_nil rfl rfl rfl)
      next addr data control =>
        cases control with
        | none =>
          cases h
          exact .inl ⟨rfl, rfl, rfl, by simp [isLocal]⟩
        | some control => exact .inr (.inr (.inl ⟨addr, data, control, Option.some.inj h⟩))
    · cases h
  | keepaliveTick accepted =>
    refine .inl ?_
    simp only [step] at h
    split at h
    · split at h
      · cases h
        exact ⟨rfl, rfl, rfl, by simp [isLocal]⟩
      · cases h
        exact local_nil rfl rfl rfl
    · cases h
      exact local_nil rfl rfl rfl
  | sessionExpired serverSessionId =>
    cases h
    exact .inr (.inr (.inr ⟨serverSessionId, rfl, rfl⟩))

/-! ## Packet ids of the client -/

/-- The session that is begun. -/
def renewedSession : AssociationObservation → Option UInt64
  | .sessionRenewed clientSessionId => some clientSessionId
  | _ => none

/-- The session and the packet id under which a packet is sent to the server. -/
def proxiedPacket : AssociationObservation → Option (UInt64 × UInt64)
  | .proxied clientSessionId packetId _ _ => some (clientSessionId, packetId)
  | _ => none

/-- A turn that does not send anything to the server. -/
structure Unnumbered (s s' : UdpAssociationContext) (o : List AssociationObservation) : Prop where
  clientSessionId : s'.clientSessionId = s.clientSessionId
  clientPacketId : s'.clientPacketId = s.clientPacketId
  renewed : o.filterMap renewedSession = []
  proxied : o.filterMap proxiedPacket = []

theorem Local.unnumbered {s s' : UdpAssociationContext} {o : List AssociationObservation}
    (h : Local s s' o) : Unnumbered s s' o := by
  refine ⟨h.clientSessionId, h.clientPacketId, List.filterMap_eq_nil_iff.mpr fun ob hob => ?_,
    List.filterMap_eq_nil_iff.mpr fun ob hob => ?_⟩
  all_goals
    have hlocal := h.isLocal ob hob
    cases ob with
    | sessionRenewed clientSessionId => cases hlocal
    | proxied clientSessionId packetId target data => cases hlocal
    | _ => rfl

/-- What a turn does to the numbering: nothing, or the next id is taken, or a session is renewed. -/
theorem step_numbering {s s' : UdpAssociationContext} {a : AssociationAction}
    {o : List AssociationObservation} (h : s.step a = some (s', o)) :
    Unnumbered s s' o ∨
      (s'.clientSessionId = s.clientSessionId ∧
        s'.clientPacketId.toNat = s.clientPacketId.toNat + 1 ∧ o.filterMap renewedSession = [] ∧
        o.filterMap proxiedPacket <+: [(s'.clientSessionId, s'.clientPacketId)]) ∨
      (o.filterMap renewedSession = [s'.clientSessionId] ∧
        o.filterMap proxiedPacket <+: [(s'.clientSessionId, s'.clientPacketId)]) := by
  obtain hlocal | ⟨target, data, newSessionId, connects, sends, hsend⟩ | ⟨addr, data, control, hreceive⟩ |
    ⟨serverSessionId, rfl, rfl⟩ := step_cases h
  · exact .inl hlocal.unnumbered
  · refine .inr ?_
    simp only [dispatchReceivedProxiedPacket, nextPacketId] at hsend
    by_cases hlt : s.clientPacketId.toNat + 1 < UInt64.size
    · simp only [if_pos hlt] at hsend
      have hnext : (s.clientPacketId + 1).toNat = s.clientPacketId.toNat + 1 := by
        rw [UInt64.toNat_add]
        exact Nat.mod_eq_of_lt hlt
      refine .inl ?_
      split at hsend
      · cases hsend
        exact ⟨rfl, hnext, rfl, List.nil_prefix⟩
      · cases hsend
        exact ⟨rfl, hnext, rfl, List.prefix_rfl⟩
    · simp only [if_neg hlt] at hsend
      refine .inr ?_
      split at hsend
      · cases hsend
        exact ⟨rfl, List.nil_prefix⟩
      · cases hsend
        exact ⟨rfl, List.prefix_rfl⟩
  · refine .inl ?_
    simp only [receivedProxied] at hreceive
    split at hreceive
    all_goals
      cases hreceive
      exact ⟨rfl, rfl, rfl, rfl⟩
  · exact .inl ⟨rfl, rfl, rfl, rfl⟩

/-- The sessions begun so far, of which the last goes on, and the packets sent so far. -/
structure Numbered (sessions : List UInt64) (packets : List (UInt64 × UInt64))
    (s : UdpAssociationContext) : Prop where
  current : s.clientSessionId ∈ sessions
  session : ∀ p ∈ packets, p.1 ∈ sessions
  packetId : ∀ p ∈ packets, p.1 = s.clientSessionId → p.2.toNat ≤ s.clientPacketId.toNat
  nodup : packets.Nodup

/-- One more packet, with an id that is higher than those before it. -/
theorem Numbered.packet {sessions : List UInt64} {packets sent : List (UInt64 × UInt64)}
    {s' : UdpAssociationContext} (hcurrent : s'.clientSessionId ∈ sessions)
    (hsession : ∀ p ∈ packets, p.1 ∈ sessions)
    (hpacketId : ∀ p ∈ packets, p.1 = s'.clientSessionId → p.2.toNat < s'.clientPacketId.toNat)
    (hnodup : packets.Nodup) (hsent : sent <+: [(s'.clientSessionId, s'.clientPacketId)]) :
    Numbered sessions (packets ++ sent) s' := by
  have hmem : ∀ p ∈ sent, p = (s'.clientSessionId, s'.clientPacketId) := fun p hp =>
    List.mem_singleton.mp (hsent.mem hp)
  refine ⟨hcurrent, fun p hp => ?_, fun p hp heq => ?_, ?_⟩
  · rcases List.mem_append.mp hp with hp | hp
    · exact hsession p hp
    · rw [hmem p hp]
      exact hcurrent
  · rcases List.mem_append.mp hp with hp | hp
    · exact (hpacketId p hp heq).le
    · rw [hmem p hp]
  · refine List.nodup_append.mpr ⟨hnodup, hsent.sublist.nodup (List.nodup_singleton _), ?_⟩
    rintro p hp q hq rfl
    have heq := hmem p hq
    have hlt := hpacketId p hp (by rw [heq])
    rw [heq] at hlt
    exact Nat.lt_irrefl _ hlt

theorem Numbered.step {sessions : List UInt64} {packets : List (UInt64 × UInt64)}
    {s s' : UdpAssociationContext} {a : AssociationAction} {o : List AssociationObservation}
    (h : Numbered sessions packets s) (hstep : s.step a = some (s', o))
    (hfresh : (sessions ++ o.filterMap renewedSession).Nodup) :
    Numbered (sessions ++ o.filterMap renewedSession) (packets ++ o.filterMap proxiedPacket) s' := by
  obtain hsame | ⟨hsession, hnext, hrenewed, hsent⟩ | ⟨hrenewed, hsent⟩ := step_numbering hstep
  · rw [hsame.renewed, hsame.proxied, List.append_nil, List.append_nil]
    refine ⟨hsame.clientSessionId ▸ h.current, h.session, fun p hp heq => ?_, h.nodup⟩
    rw [hsame.clientPacketId]
    exact h.packetId p hp (heq.trans hsame.clientSessionId)
  · rw [hrenewed, List.append_nil]
    refine .packet (hsession ▸ h.current) h.session (fun p hp heq => ?_) h.nodup hsent
    have := h.packetId p hp (heq.trans hsession)
    omega
  · rw [hrenewed] at hfresh ⊢
    -- nothing was sent in the new session yet
    have hnew : s'.clientSessionId ∉ sessions := fun hmem =>
      (List.nodup_append.mp hfresh).2.2 _ hmem _ (List.mem_singleton_self _) rfl
    refine .packet (List.mem_append_right _ (List.mem_singleton_self _))
      (fun p hp => List.mem_append_left _ (h.session p hp)) (fun p hp heq => ?_) h.nodup hsent
    exact absurd (heq ▸ h.session p hp) hnew

/-- **No packet id is used twice.** In every run in which the random session ids differ, no two packets
are sent to the server under the same session and packet id. -/
theorem proxied_nodup {clientSessionId : UInt64} {actions : List AssociationAction}
    {s : UdpAssociationContext} {os : List AssociationObservation}
    (hrun : (udpAssociation clientSessionId).run (udpAssociation clientSessionId).init actions =
      some (s, os))
    (hsessions : (clientSessionId :: os.filterMap renewedSession).Nodup) :
    (os.filterMap proxiedPacket).Nodup := by
  suffices h : (clientSessionId :: os.filterMap renewedSession).Nodup →
      Numbered (clientSessionId :: os.filterMap renewedSession) (os.filterMap proxiedPacket) s from
    (h hsessions).nodup
  refine Machine.run_induction (P := fun _ os s =>
    (clientSessionId :: os.filterMap renewedSession).Nodup →
      Numbered (clientSessionId :: os.filterMap renewedSession) (os.filterMap proxiedPacket) s)
    ?_ ?_ hrun
  · intro _
    exact ⟨List.mem_singleton_self _, (fun p hp => by cases hp), (fun p hp => by cases hp), List.nodup_nil⟩
  · intro _ os s a s' o _ ih hstep hnodup
    rw [List.filterMap_append, ← List.cons_append] at hnodup ⊢
    rw [List.filterMap_append]
    exact (ih (List.nodup_append.mp hnodup).1).step hstep hnodup

/-- Two packets to the server, of which the first cannot be sent. -/
theorem proxied_nodup_resent :
    ∃ s os, (udpAssociation 7).run (udpAssociation 7).init
        [.received (.domainNameAddress ['a'] 53) [1] (.proxied 8 true false),
          .received (.domainNameAddress ['a'] 53) [1] (.proxied 9 true true)] = some (s, os) ∧
      os.filterMap proxiedPacket = [(7, 1), (7, 2)] ∧ (os.filterMap proxiedPacket).Nodup := by
  have hrun : (udpAssociation 7).run (udpAssociation 7).init
      [.received (.domainNameAddress ['a'] 53) [1] (.proxied 8 true false),
        .received (.domainNameAddress ['a'] 53) [1] (.proxied 9 true true)] = some (_, _) := rfl
  exact ⟨_, _, hrun, rfl, proxied_nodup hrun (by decide)⟩

/-! ## Packet ids of the server -/

/-- The ids passed on for a server session, after one more observation. -/
def passOn (serverSessionId : UInt64) (seen : List ℕ) : AssociationObservation → List ℕ
  | .respond _ _ (some control) =>
    if control.serverSessionId = serverSessionId then control.packetId.toNat :: seen else seen
  | .sessionForgotten forgotten => if forgotten = serverSessionId then [] else seen
  | _ => seen

/-- The ids of the responses of a server session that were passed on to the client since the session
was last forgotten. -/
def passedOn (serverSessionId : UInt64) (os : List AssociationObservation) : List ℕ :=
  os.foldl (passOn serverSessionId) []

/-- All ids that were passed on, and the highest of them. -/
def window (seen : List ℕ) : Window := ⟨seen.foldr max 0, seen⟩

/-- An id that is neither the last one, nor too old, nor a replay. -/
def Fresh (seen : List ℕ) (packetId : UInt64) : Prop :=
  packetId.toNat < 2 ^ 64 - 1 ∧ (∀ n ∈ seen, n ≤ packetId.toNat + 8128) ∧ packetId.toNat ∉ seen

instance (seen : List ℕ) (packetId : UInt64) : Decidable (Fresh seen packetId) :=
  inferInstanceAs (Decidable (_ ∧ _ ∧ _))

theorem foldr_max_le {seen : List ℕ} {n : ℕ} : seen.foldr max 0 ≤ n ↔ ∀ m ∈ seen, m ≤ n := by
  induction seen with
  | nil => simp
  | cons m seen ih => rw [List.foldr_cons, max_le_iff, ih, List.forall_mem_cons]

theorem accepts_window (seen : List ℕ) (packetId : UInt64) :
    (window seen).accepts packetId.toNat (UInt64.ofNat (2 ^ 64 - 1)).toNat =
      decide (Fresh seen packetId) := by
  have hlimit : (UInt64.ofNat (2 ^ 64 - 1)).toNat = 2 ^ 64 - 1 := by decide
  rw [hlimit, Window.accepts, decide_eq_decide, Fresh, ← foldr_max_le]
  rfl

theorem accept_window (seen : List ℕ) (n : ℕ) : (window seen).accept n = window (n :: seen) := by
  rw [window, window, Window.accept, List.foldr_cons, max_comm]

theorem represents_window_nil : PacketWindowFilter.new.Represents (window []) :=
  PacketWindowFilter.represents_new

/-- Every session of the server has a filter that holds what was passed on of it. -/
structure Filtered (os : List AssociationObservation) (s : UdpAssociationContext) : Prop where
  represents : ∀ id, (s.packetWindowFilter id).Represents (window (passedOn id os))
  nodup : ∀ id, (passedOn id os).Nodup

theorem Local.passedOn {s s' : UdpAssociationContext} {os o : List AssociationObservation}
    (h : Local s s' o) (id : UInt64) : passedOn id (os ++ o) = passedOn id os := by
  rw [UdpAssociationContext.passedOn, UdpAssociationContext.passedOn, List.foldl_append]
  generalize os.foldl (passOn id) [] = seen
  have hlocal := h.isLocal
  clear h
  induction o with
  | nil => rfl
  | cons ob o ih =>
    obtain ⟨hob, hrest⟩ := List.forall_mem_cons.mp hlocal
    have hsame : passOn id seen ob = seen := by
      cases ob with
      | respond addr data control =>
        cases control with
        | none => rfl
        | some control => cases hob
      | sessionForgotten forgotten => cases hob
      | _ => rfl
    rw [List.foldl_cons, hsame]
    exact ih hrest

/-- The filter of a session, after the filter of one session is replaced. -/
theorem packetWindowFilter_put (s : UdpAssociationContext) (id id' : UInt64)
    (filter : PacketWindowFilter) :
    { s with serverSession := some ((s.serverSession.getD .empty).put id' filter) }.packetWindowFilter
      id = if id = id' then filter else s.packetWindowFilter id := by
  simp only [packetWindowFilter, Option.getD_some, LinkedMap.get?_put]
  split
  · rfl
  · rfl

theorem packetWindowFilter_remove (s : UdpAssociationContext) (id id' : UInt64) :
    { s with serverSession := s.serverSession.map fun m => LinkedMap.remove m id' }.packetWindowFilter
      id = if id = id' then .new else s.packetWindowFilter id := by
  cases hserver : s.serverSession with
  | none => simp [packetWindowFilter, hserver]
  | some sessions =>
    simp only [packetWindowFilter, hserver, Option.map_some, Option.getD_some, LinkedMap.get?_remove]
    split
    · rfl
    · rfl

/-- A response of the server is judged by what was passed on before. -/
theorem Filtered.receivedProxied {os : List AssociationObservation} {s : UdpAssociationContext}
    (h : Filtered os s) (addr : Address) (data : Bytes) (control : UdpSocketControlData) :
    (s.receivedProxied addr data (some control)).2 =
        (if Fresh (passedOn control.serverSessionId os) control.packetId then
          [.respond addr data (some control)] else []) ∧
      Filtered (os ++ (s.receivedProxied addr data (some control)).2)
        (s.receivedProxied addr data (some control)).1 := by
  obtain ⟨haccepted, hfilter⟩ := PacketWindowFilter.represents_validatePacketId control.packetId
    (UInt64.ofNat (2 ^ 64 - 1)) (h.represents control.serverSessionId)
  rw [accepts_window] at haccepted hfilter
  rw [accept_window] at hfilter
  simp only [UdpAssociationContext.receivedProxied]
  rw [haccepted]
  by_cases hfresh : Fresh (passedOn control.serverSessionId os) control.packetId
  · rw [if_pos (decide_eq_true hfresh)] at hfilter ⊢
    rw [if_pos hfresh]
    have hpassed : ∀ id, passedOn id (os ++ [.respond addr data (some control)]) =
        if control.serverSessionId = id then control.packetId.toNat :: passedOn id os
        else passedOn id os := fun id => by
      rw [passedOn, List.foldl_append]
      rfl
    refine ⟨rfl, fun id => ?_, fun id => ?_⟩
    · show (packetWindowFilter _ id).Represents (window (passedOn id (os ++ [_])))
      rw [hpassed]
      by_cases hid : control.serverSessionId = id
      · rw [if_pos hid, ← hid]
        exact (packetWindowFilter_put s _ _ _).trans (if_pos rfl) ▸ hfilter
      · rw [if_neg hid]
        exact (packetWindowFilter_put s _ _ _).trans (if_neg (Ne.symm hid)) ▸ h.represents id
    · show (passedOn id (os ++ [_])).Nodup
      rw [hpassed]
      split
      next hid =>
        rw [← hid]
        exact List.nodup_cons.mpr ⟨hfresh.2.2, h.nodup _⟩
      · exact h.nodup id
  · have hrejected : ¬ decide (Fresh (passedOn control.serverSessionId os) control.packetId) = true := by
      simpa using hfresh
    rw [if_neg hrejected] at hfilter ⊢
    rw [if_neg hfresh]
    refine ⟨rfl, fun id => ?_, fun id => ?_⟩
    · show (packetWindowFilter _ id).Represents (window (passedOn id (os ++ [])))
      rw [List.append_nil]
      by_cases hid : id = control.serverSessionId
      · rw [hid]
        exact (packetWindowFilter_put s _ _ _).trans (if_pos rfl) ▸ hfilter
      · exact (packetWindowFilter_put s _ _ _).trans (if_neg hid) ▸ h.represents id
    · show (passedOn id (os ++ [])).Nodup
      rw [List.append_nil]
      exact h.nodup id

theorem Filtered.step {os o : List AssociationObservation} {s s' : UdpAssociationContext}
    {a : AssociationAction} (h : Filtered os s) (hstep : s.step a = some (s', o)) :
    Filtered (os ++ o) s' := by
  obtain hlocal | ⟨target, data, newSessionId, connects, sends, hsend⟩ | ⟨addr, data, control, hreceive⟩ |
    ⟨serverSessionId, rfl, rfl⟩ := step_cases hstep
  · refine ⟨fun id => ?_, fun id => ?_⟩
    · rw [hlocal.passedOn id, packetWindowFilter, hlocal.serverSession]
      exact h.represents id
    · rw [hlocal.passedOn id]
      exact h.nodup id
  · -- packets to the server leave the filters alone
    have hserver : s'.serverSession = s.serverSession ∧
        ∀ id seen, o.foldl (passOn id) seen = seen := by
      simp only [dispatchReceivedProxiedPacket, nextPacketId] at hsend
      split at hsend
      all_goals
        dsimp only at hsend
        split at hsend
        all_goals
          cases hsend
          exact ⟨rfl, fun id seen => rfl⟩
    have hpassed : ∀ id, passedOn id (os ++ o) = passedOn id os := fun id => by
      rw [passedOn, List.foldl_append]
      exact hserver.2 id _
    refine ⟨fun id => ?_, fun id => ?_⟩
    · rw [hpassed, packetWindowFilter, hserver.1]
      exact h.represents id
    · rw [hpassed]
      exact h.nodup id
  · have hreceived := (h.receivedProxied addr data control).2
    rw [hreceive] at hreceived
    exact hreceived
  · have hpassed : ∀ id, passedOn id (os ++ [.sessionForgotten serverSessionId]) =
        if serverSessionId = id then [] else passedOn id os := fun id => by
      rw [passedOn, List.foldl_append]
      rfl
    refine ⟨fun id => ?_, fun id => ?_⟩
    · rw [hpassed, packetWindowFilter_remove]
      by_cases hid : serverSessionId = id
      · rw [if_pos hid, if_pos hid.symm]
        exact represents_window_nil
      · rw [if_neg hid, if_neg (Ne.symm hid)]
        exact h.represents id
    · rw [hpassed]
      split
      · exact List.nodup_nil
      · exact h.nodup id

theorem filtered_run {clientSessionId : UInt64} {actions : List AssociationAction}
    {s : UdpAssociationContext} {os : List AssociationObservation}
    (hrun : (udpAssociation clientSessionId).run (udpAssociation clientSessionId).init actions =
      some (s, os)) : Filtered os s := by
  refine Machine.run_induction (P := fun _ os s => Filtered os s) ?_ ?_ hrun
  · exact ⟨fun id => represents_window_nil, fun id => List.nodup_nil⟩
  · intro _ os s a s' o _ ih hstep
    exact ih.step hstep

/-- **Replayed responses are dropped.** After every run, no id of a session of the server was passed on
twice since the session was last forgotten, and the next response is passed on exactly if its id is
fresh. -/
theorem respond_iff {clientSessionId : UInt64} {actions : List AssociationAction}
    {s : UdpAssociationContext} {os : List AssociationObservation}
    (hrun : (udpAssociation clientSessionId).run (udpAssociation clientSessionId).init actions =
      some (s, os)) :
    (∀ id, (passedOn id os).Nodup) ∧
      ∀ addr data control, s.proxiedSocket = true →
        ∃ s', s.step (.proxiedReceived (.ok (addr, data, some control))) = some (s',
          if Fresh (passedOn control.serverSessionId os) control.packetId then
            [.respond addr data (some control)] else []) := by
  have hfiltered := filtered_run hrun
  refine ⟨hfiltered.nodup, fun addr data control hsocket => ?_⟩
  refine ⟨(s.receivedProxied addr data (some control)).1, ?_⟩
  rw [← (hfiltered.receivedProxied addr data control).1]
  simp only [step, hsocket, if_true]

/-- The response with id 3 of session 5 comes twice and is passed on once. -/
theorem respond_iff_replayed :
    ∃ s os, (udpAssociation 7).run (udpAssociation 7).init
        [.received (.domainNameAddress ['a'] 53) [1] (.proxied 8 true true),
          .proxiedReceived (.ok (.domainNameAddress ['a'] 53, [2], some ⟨5, 3⟩))] = some (s, os) ∧
      passedOn 5 os = [3] ∧
      ∃ s', s.step (.proxiedReceived (.ok (.domainNameAddress ['a'] 53, [2], some ⟨5, 3⟩))) =
        some (s', []) := by
  have hrun : (udpAssociation 7).run (udpAssociation 7).init
      [.received (.domainNameAddress ['a'] 53) [1] (.proxied 8 true true),
        .proxiedReceived (.ok (.domainNameAddress ['a'] 53, [2], some ⟨5, 3⟩))] = some (_, _) := rfl
  obtain ⟨s', hstep⟩ := (respond_iff hrun).2 (.domainNameAddress ['a'] 53) [2] ⟨5, 3⟩ rfl
  rw [if_neg (by decide)] at hstep
  exact ⟨_, _, hrun, by decide, s', hstep⟩

end UdpAssociationContext

end Engine
