import DripVpn.Tun2socks.TcpClient

/-!
# Tearing down a TCP client

The invariant of a client. `Base` holds all the time; a client is `Open` while it has its connection of
lwIP, and `Shut` afterwards. Every function that tears something down leaves the invariant behind,
wherever it is called from: the connections go away in either order, from within a callback of lwIP or
not, and the one that is left drains what is still buffered.
-/

namespace Badvpn

namespace TcpSession

/-! ## Operations that are allowed -/

theorem access_of_not_freed {s : TcpSession} (h : s.freed = false) : s.access = s := by
  rw [access, h]
  rfl

theorem assert_of_not_freed {s : TcpSession} {e : Bool} (he : e = true) (h : s.freed = false) :
    s.assert e = s := by
  rw [assert, he, access_of_not_freed h]
  rfl

theorem usePcb_of_open {s : TcpSession} (h : s.pcb.ended = none) : s.usePcb = s := if_pos h

theorem socksClientFree_of_open {s : TcpSession} (h : s.socks.freed = false) : s.socksClientFree =
    { s with socks.freed := true, socks.sending := none, socks.receiving := false } := by
  rw [socksClientFree, h]
  rfl

theorem senderSend_of_idle {s : TcpSession} (hfreed : s.socks.freed = false)
    (hidle : s.socks.sending = none) :
    s.senderSend = { s with socks.sending := some s.client.buf.length } := by
  rw [senderSend, hfreed]
  exact congrArg (fun t : TcpSession => { t with socks.sending := some t.client.buf.length })
    (if_pos hidle)

theorem receiverRecv_of_idle {s : TcpSession} (hfreed : s.socks.freed = false)
    (hidle : s.socks.receiving = false) : s.receiverRecv = { s with socks.receiving := true } := by
  rw [receiverRecv, hfreed]
  simp only [Bool.false_eq_true, if_false, hidle]

/-! ## The invariant -/

/-- The dead variable says what has happened since the callback was entered, and outside of callbacks it
is either empty or not written to any more. -/
def DeadOk (inCallback : Bool) (s : TcpSession) : Prop :=
  if inCallback then
    s.client.deadAborted = .entered ∧
      s.dead = if s.client.aborted then 1 else if s.freed then -1 else 0
  else s.client.deadAborted = .null ∨
    (s.client.deadAborted = .dangling ∧ (s.client.aborted = true ∨ s.freed = true))

/-- What holds whether or not the client is closed. -/
structure Base (inCallback : Bool) (s : TcpSession) : Prop where
  faults : s.faults = []
  dead : s.DeadOk inCallback
  aborted : s.client.aborted = true ↔ s.pcb.ended = some .aborted
  callbacks : s.pcb.ended = some .closed →
    s.pcb.errFunc = false ∧ s.pcb.recvFunc = false ∧ s.pcb.sentFunc = false
  socksFreed : s.socks.freed = s.client.socksClosed
  socksUp : s.socks.up = s.client.socksUp
  toSocks : s.socks.sent ++ s.client.buf = s.pcb.received
  window : s.client.buf.length ≤ TCP_WND
  /-- What is being sent is in the buffer. -/
  sending : ∀ n, s.socks.sending = some n →
    0 < n ∧ n ≤ s.client.buf.length ∧ s.client.socksUp = true ∧ s.client.socksClosed = false
  /-- What is in the buffer is being sent. -/
  sends : s.client.socksUp = true → s.client.socksClosed = false → s.client.buf ≠ [] →
    s.socks.sending ≠ none
  early : s.client.socksUp = false → s.socks.receiving = false ∧ s.socks.received = [] ∧
    s.pcb.written = [] ∧ s.pcb.acked = 0 ∧ s.client.socksRecvBuf = none ∧
    s.client.socksRecvTcpPending = 0
  receives : s.socks.receiving = true → s.client.socksRecvBuf = none
  fromSocks : s.pcb.written <+: s.socks.received
  /-- SOCKS is freed when everything was sent, or when there was an error. -/
  complete : s.client.socksClosed = true → s.socks.reported = false → s.murdered = false →
    s.client.buf = []
  /-- The connection of the device is closed when the device has finished, or when SOCKS is gone and
  everything from there has arrived. -/
  delivered : s.pcb.ended = some .closed → s.pcb.finished = false → s.client.socksClosed = true ∧
    s.pcb.written = s.socks.received ∧ s.pcb.acked = s.pcb.written.length

/-- The client has its connection of lwIP. -/
structure Live (s : TcpSession) : Prop where
  clientClosed : s.client.clientClosed = false
  freed : s.freed = false
  ended : s.pcb.ended = none

/-- What holds of a client that is not closed, at any place in its callbacks. -/
structure Opened (s : TcpSession) : Prop extends Live s where
  errFunc : s.pcb.errFunc = true
  recvFunc : s.pcb.recvFunc = !s.client.socksClosed
  sentFunc : s.pcb.sentFunc = s.client.socksUp
  recved : s.pcb.recved = s.socks.sent.length
  /-- What SOCKS sent was written or is in the buffer. -/
  rest : s.pcb.written ++ unsent s.client = s.socks.received
  pending : s.pcb.written.length = s.pcb.acked + s.client.socksRecvTcpPending

/-- What holds of a client that is not closed, between its callbacks. -/
structure Open (s : TcpSession) : Prop extends Opened s where
  /-- There is a confirmation to come that lets the client go on. -/
  waiting : s.client.socksRecvBuf ≠ none → unsent s.client ≠ [] ∧
    s.client.socksRecvWaiting = true ∧ 0 < s.client.socksRecvTcpPending
  /-- A client outlives SOCKS only to deliver what is left. -/
  draining : s.client.socksClosed = true → s.client.socksUp = true ∧ 0 < s.client.socksRecvTcpPending
  receiving : s.client.socksUp = true → s.client.socksClosed = false →
    s.socks.receiving = s.client.socksRecvBuf.isNone

/-- What holds of a client that is closed. -/
structure Shut (s : TcpSession) : Prop where
  clientClosed : s.client.clientClosed = true
  ended : s.pcb.ended ≠ none
  /-- A client outlives its connection only to send what is left. -/
  draining : s.client.socksClosed = false → s.client.buf ≠ []
  /-- The client is deallocated once both of its connections are gone. -/
  freed : s.freed = s.client.socksClosed

structure Kept (inCallback : Bool) (s : TcpSession) : Prop extends Base inCallback s where
  phase : s.Open ∨ s.Shut

theorem Kept.not_freed {inCallback : Bool} {s : TcpSession} (hk : Kept inCallback s)
    (hsocks : s.client.socksClosed = false) : s.freed = false := by
  rcases hk.phase with ho | hs
  · exact ho.freed
  · exact hs.freed.trans hsocks

variable {inCallback : Bool} {s s' : TcpSession} {close : Err} {answers : LwipAnswers}

/-! ## Tearing down -/

section Client

variable (s)

@[simp]
theorem access_client : s.access.client = s.client := by
  rw [access]
  split
  · rfl
  · rfl

@[simp]
theorem assert_client (e : Bool) : (s.assert e).client = s.client := by
  cases e with
  | true => exact access_client s
  | false => exact access_client s

@[simp]
theorem usePcb_client : s.usePcb.client = s.client := by
  rw [usePcb]
  split
  · rfl
  · rfl

@[simp]
theorem removeCallbacks_client : s.removeCallbacks.client = s.client := usePcb_client s

@[simp]
theorem tcpClose_client : s.tcpClose.client = s.client := usePcb_client s

@[simp]
theorem tcpAbort_client : s.tcpAbort.client = s.client := by
  rw [tcpAbort]
  split
  · exact usePcb_client s
  · exact usePcb_client s

@[simp]
theorem deadKillWith_client (value : ℤ) : (s.deadKillWith value).client = s.client := by
  rw [deadKillWith]
  split
  · rfl
  · rfl
  · rfl

@[simp]
theorem clientAbortPcb_client :
    s.clientAbortPcb.client = { s.client with aborted := true } := by
  simp [clientAbortPcb]

@[simp]
theorem clientDealloc_client : s.clientDealloc.client = s.client := by
  simp only [clientDealloc]
  split
  · simp
  · simp

end Client

/-- Both connections are gone. -/
def Over (s : TcpSession) : Prop := s.client.clientClosed = true ∧ s.client.socksClosed = true

theorem over_clientHandleFreedClient (h : s.client.socksClosed = true) :
    s.clientHandleFreedClient.Over := by
  simp [clientHandleFreedClient, handleFreedClientWith, Over, h]

theorem over_clientFreeClient (h : s.client.socksClosed = true) : (s.clientFreeClient close).Over := by
  rw [clientFreeClient]
  apply over_clientHandleFreedClient
  split
  · simp [h]
  · simp [h]

theorem over_clientAbortClient (h : s.client.socksClosed = true) : s.clientAbortClient.Over := by
  rw [clientAbortClient]
  apply over_clientHandleFreedClient
  simp [h]

theorem Base.deadAborted (hb : Base inCallback s) (haborted : s.client.aborted = false)
    (hfreed : s.freed = false) :
    s.client.deadAborted = if inCallback then .entered else .null := by
  have hdead := hb.dead
  rw [DeadOk] at hdead
  cases inCallback with
  | true => exact hdead.1
  | false =>
    rcases hdead with h | ⟨-, h⟩
    · exact h
    · rw [haborted, hfreed] at h
      rcases h with h | h
      · cases h
      · cases h

theorem Base.not_aborted (hb : Base inCallback s) (hended : s.pcb.ended = none) :
    s.client.aborted = false := by
  by_contra h
  have haborted := hb.aborted.mp (Bool.eq_true_of_not_eq_false h)
  rw [hended] at haborted
  cases haborted

theorem deadKillWith_eq (h : s.client.deadAborted = if inCallback then .entered else .null)
    (value : ℤ) :
    s.deadKillWith value = { s with dead := if inCallback then value else s.dead } := by
  cases inCallback with
  | true => simp [deadKillWith, h]
  | false => simp [deadKillWith, h]

theorem kept_clientDealloc (hb : Base inCallback s) (hfreed : s.freed = false)
    (hclient : s.client.clientClosed = true) (hsocks : s.client.socksClosed = true)
    (hended : s.pcb.ended ≠ none) : Kept inCallback s.clientDealloc := by
  have hshut : ∀ d, ({ s with dead := d, freed := true } : TcpSession).Shut := fun d =>
    ⟨hclient, hended, (fun h => by rw [hsocks] at h; cases h), hsocks.symm⟩
  rw [clientDealloc, assert_of_not_freed hclient hfreed, assert_of_not_freed hsocks hfreed]
  cases haborted : s.client.aborted with
  | true =>
    have hdead := hb.dead
    rw [DeadOk] at hdead
    refine { hb with dead := ?_, phase := .inr (hshut s.dead) }
    cases inCallback with
    | true => exact ⟨hdead.1, by simpa [haborted] using hdead.2⟩
    | false => exact hdead.imp_right fun h => ⟨h.1, .inl haborted⟩
  | false =>
    have hnot := hb.deadAborted haborted hfreed
    simp only [Bool.false_eq_true, if_false, deadKillWith_eq hnot]
    refine { hb with dead := ?_, phase := .inr (hshut _) }
    cases inCallback with
    | true => exact ⟨hnot, by simp [haborted]⟩
    | false => exact .inl hnot

/-- SOCKS is gone. -/
def socksGone (s : TcpSession) : TcpSession :=
  { s with
    socks.freed := true, socks.sending := none, socks.receiving := false, client.socksClosed := true }

theorem base_socksGone (hb : Base inCallback s)
    (hcomplete : s.socks.reported = false → s.murdered = false → s.client.buf = []) :
    Base inCallback s.socksGone := by
  refine { hb with
    socksFreed := rfl, sending := ?_, sends := ?_, early := ?_, receives := fun h => (by cases h),
    complete := fun _ => hcomplete, delivered := fun h h' => ⟨rfl, (hb.delivered h h').2⟩ }
  · intro n hn
    cases hn
  · intro _ hopen
    cases hopen
  · intro hup
    exact ⟨rfl, (hb.early hup).2⟩

/-- SOCKS is freed after the client was closed. -/
theorem freeSocksWith_of_clientClosed (hfreed : s.freed = false)
    (hclient : s.client.clientClosed = true) (hsocks : s.client.socksClosed = false)
    (hopen : s.socks.freed = false) (f : TcpSession → TcpSession) :
    freeSocksWith f s = s.socksGone.clientDealloc := by
  simp [freeSocksWith, assert, access, socksClientFree, socksGone, hfreed, hclient, hsocks, hopen]

theorem kept_freeSocksWith_of_shut (hb : Base inCallback s) (hfreed : s.freed = false)
    (hclient : s.client.clientClosed = true) (hsocks : s.client.socksClosed = false)
    (hended : s.pcb.ended ≠ none)
    (hcomplete : s.socks.reported = false → s.murdered = false → s.client.buf = [])
    (f : TcpSession → TcpSession) : Kept inCallback (freeSocksWith f s) := by
  rw [freeSocksWith_of_clientClosed hfreed hclient hsocks (hb.socksFreed.trans hsocks)]
  exact kept_clientDealloc (base_socksGone hb hcomplete) hfreed hclient rfl hended

/-- The connection of the device is gone already, and the client is closed. -/
theorem kept_clientHandleFreedClient (hb : Base inCallback s) (hfreed : s.freed = false)
    (hclient : s.client.clientClosed = false) (hended : s.pcb.ended ≠ none) :
    Kept inCallback s.clientHandleFreedClient := by
  have hclosed : Base inCallback { s with client.clientClosed := true } := { hb with }
  rw [clientHandleFreedClient, handleFreedClientWith, assert_of_not_freed (by rw [hclient]; rfl) hfreed]
  dsimp only
  split
  next hwait =>
    exact { hclosed with
      phase := .inr ⟨rfl, hended, fun _ => hwait.1, hfreed.trans hwait.2.symm⟩ }
  next hwait =>
    split
    next hsocks =>
      have hnil : s.client.buf = [] := by
        by_contra hne
        exact hwait ⟨hne, hsocks⟩
      exact kept_freeSocksWith_of_shut hclosed hfreed rfl hsocks hended (fun _ _ => hnil) _
    next hsocks =>
      exact kept_clientDealloc hclosed hfreed rfl (Bool.eq_true_of_not_eq_false hsocks) hended

/-- The connection of the device is gone, and so are its callbacks. -/
def pcbGone (s : TcpSession) (ended : PcbEnd) : TcpSession :=
  { s with
    pcb.errFunc := false, pcb.recvFunc := false, pcb.sentFunc := false, pcb.ended := some ended }

theorem clientAbortPcb_eq (ho : s.Live) (haborted : s.client.aborted = false) :
    s.removeCallbacks.clientAbortPcb =
      { s.pcbGone .aborted with client.aborted := true }.deadKillWith 1 := by
  simp [clientAbortPcb, removeCallbacks, assert, access, tcpAbort, usePcb, pcbGone, ho.freed, ho.ended,
    haborted]

theorem base_clientAbortPcb (hb : Base inCallback s) (ho : s.Live) :
    Base inCallback { s.pcbGone .aborted with
      client.aborted := true, dead := if inCallback then 1 else s.dead } := by
  have hnot := hb.deadAborted (hb.not_aborted ho.ended) ho.freed
  refine { hb with
    dead := ?_, aborted := ⟨fun _ => rfl, fun _ => rfl⟩, callbacks := ?_, delivered := ?_ }
  · cases inCallback with
    | true => exact ⟨hnot, rfl⟩
    | false => exact .inl hnot
  · intro hclosed
    cases hclosed
  · intro hclosed
    cases hclosed

theorem kept_clientAbortPcb (hb : Base inCallback s) (ho : s.Live) :
    Kept inCallback s.removeCallbacks.clientAbortPcb.clientHandleFreedClient := by
  have haborted := hb.not_aborted ho.ended
  have hkill := deadKillWith_eq (s := { s.pcbGone .aborted with client.aborted := true })
    (hb.deadAborted haborted ho.freed) 1
  rw [clientAbortPcb_eq ho haborted, hkill]
  exact kept_clientHandleFreedClient (base_clientAbortPcb hb ho) ho.freed ho.clientClosed
    (Option.some_ne_none _)

theorem kept_clientAbortClient (hb : Base inCallback s) (ho : s.Live) :
    Kept inCallback s.clientAbortClient := by
  rw [clientAbortClient, assert_of_not_freed (by rw [ho.clientClosed]; rfl) ho.freed]
  exact kept_clientAbortPcb hb ho

/-- The client closes the connection of the device. -/
theorem kept_clientFreeClient (hb : Base inCallback s) (ho : s.Live)
    (hdelivered : s.pcb.finished = false → s.client.socksClosed = true ∧
      s.pcb.written = s.socks.received ∧ s.pcb.acked = s.pcb.written.length) :
    Kept inCallback (s.clientFreeClient close) := by
  rw [clientFreeClient, assert_of_not_freed (by rw [ho.clientClosed]; rfl) ho.freed]
  split
  next hok =>
    have hclosed : Base inCallback (s.pcbGone .closed) := by
      refine { hb with aborted := ?_, callbacks := fun _ => ⟨rfl, rfl, rfl⟩, delivered := ?_ }
      · have haborted := hb.not_aborted ho.ended
        constructor
        · intro h
          exact absurd (haborted.symm.trans h) Bool.false_ne_true
        · intro h
          cases h
      · exact fun _ => hdelivered
    have heq : s.removeCallbacks.tcpClose = s.pcbGone .closed := by
      simp [removeCallbacks, tcpClose, usePcb, pcbGone, ho.ended]
    rw [heq]
    exact kept_clientHandleFreedClient hclosed ho.freed ho.clientClosed (Option.some_ne_none _)
  next hfailed =>
    have heq : s.removeCallbacks.usePcb = s.removeCallbacks := by
      simp [removeCallbacks, usePcb, ho.ended]
    rw [heq]
    exact kept_clientAbortPcb hb ho

/-- Once SOCKS is gone, the client delivers what is left, or it is closed. -/
theorem freeSocksWith_of_live (ho : s.Live) (hsocks : s.client.socksClosed = false)
    (hopen : s.socks.freed = false) (f : TcpSession → TcpSession) :
    freeSocksWith f s =
      if s.client.socksUp then
        if s.client.socksRecvBuf.isSome = true ∨ 0 < s.client.socksRecvTcpPending then
          { s.socksGone with pcb.recvFunc := false }
        else f { s.socksGone with pcb.recvFunc := false }
      else f s.socksGone := by
  cases hup : s.client.socksUp with
  | true =>
    simp [freeSocksWith, assert, access, removeRecvFunc, usePcb, socksClientFree, socksGone, ho.freed,
      ho.clientClosed, ho.ended, hsocks, hopen, hup]
  | false =>
    simp [freeSocksWith, assert, access, socksClientFree, socksGone, ho.freed, ho.clientClosed, hsocks,
      hopen, hup]

theorem delivered_of_empty (ho : s.Opened) (hbuf : s.client.socksRecvBuf = none)
    (hpending : s.client.socksRecvTcpPending = 0) :
    s.pcb.written = s.socks.received ∧ s.pcb.acked = s.pcb.written.length := by
  have hrest := ho.rest
  have hcount := ho.pending
  rw [unsent, hbuf, Option.getD_none, List.drop_nil, List.append_nil] at hrest
  rw [hpending, Nat.add_zero] at hcount
  exact ⟨hrest, hcount.symm⟩

/-- SOCKS is freed because of an error, or because everything was sent. -/
theorem kept_clientFreeSocks (hk : Kept inCallback s) (hsocks : s.client.socksClosed = false)
    (hcomplete : s.socks.reported = false → s.murdered = false → s.client.buf = []) :
    Kept inCallback (s.clientFreeSocks close) := by
  have hfreed := hk.not_freed hsocks
  have hgone := base_socksGone hk.toBase hcomplete
  rcases hk.phase with ho | hs
  · rw [clientFreeSocks, freeSocksWith_of_live ho.toLive hsocks (hk.socksFreed.trans hsocks)]
    have hlive : ∀ r, ({ s.socksGone with pcb.recvFunc := r } : TcpSession).Live := fun _ =>
      ⟨ho.clientClosed, hfreed, ho.ended⟩
    have hbase : Base inCallback { s.socksGone with pcb.recvFunc := false } :=
      { hgone with callbacks := fun h => absurd (ho.ended.symm.trans h) (Option.some_ne_none _).symm }
    cases hup : s.client.socksUp with
    | true =>
      simp only [if_true]
      split
      next hleft =>
        -- the rest can still be delivered
        have hpending : 0 < s.client.socksRecvTcpPending := by
          rcases hleft with hsome | hpending
          · exact (ho.waiting (Option.isSome_iff_ne_none.mp hsome)).2.2
          · exact hpending
        exact { hbase with
          phase := .inl { ho with
            recvFunc := rfl
            draining := fun _ => ⟨hup, hpending⟩
            receiving := fun _ h => by cases h } }
      next hnone =>
        rw [not_or, Option.not_isSome_iff_eq_none, Nat.pos_iff_ne_zero, not_not] at hnone
        have hdelivered := delivered_of_empty ho.toOpened hnone.1 hnone.2
        exact kept_clientFreeClient hbase (hlive false) fun _ => ⟨rfl, hdelivered⟩
    | false =>
      obtain ⟨-, -, -, -, hbuf, hpending⟩ := hk.early hup
      have hdelivered := delivered_of_empty ho.toOpened hbuf hpending
      exact kept_clientFreeClient hgone (hlive s.pcb.recvFunc) fun _ => ⟨rfl, hdelivered⟩
  · exact kept_freeSocksWith_of_shut hk.toBase hfreed hs.clientClosed hsocks hs.ended hcomplete _

/-- Both connections are torn down at once. -/
theorem kept_clientMurder (hk : Kept inCallback s) (hmurdered : s.murdered = true)
    (hfreed : s.freed = false) : Kept inCallback s.clientMurder := by
  have hrest : ∀ {t : TcpSession}, Base inCallback t → t.murdered = true → t.freed = false →
      t.client.clientClosed = true → t.pcb.ended ≠ none → Kept inCallback
        (if t.client.socksClosed then t
          else { t.socksClientFree with client.socksClosed := true }).clientDealloc := by
    intro t hb hmurdered hfreed hclient hended
    cases hsocks : t.client.socksClosed with
    | true => exact kept_clientDealloc hb hfreed hclient hsocks hended
    | false =>
      have heq : { t.socksClientFree with client.socksClosed := true } = t.socksGone := by
        rw [socksClientFree_of_open (hb.socksFreed.trans hsocks)]
        rfl
      have hcomplete : t.socks.reported = false → t.murdered = false → t.client.buf = [] := by
        intro _ hnot
        rw [hmurdered] at hnot
        cases hnot
      rw [if_neg Bool.false_ne_true, heq]
      exact kept_clientDealloc (base_socksGone hb hcomplete) hfreed hclient rfl hended
  rw [clientMurder, access_of_not_freed hfreed]
  rcases hk.phase with ho | hs
  · have haborted := hk.not_aborted ho.ended
    have hkill := deadKillWith_eq (s := { s.pcbGone .aborted with client.aborted := true })
      (hk.deadAborted haborted ho.freed) 1
    have hgone := base_clientAbortPcb hk.toBase ho.toLive
    rw [if_neg (ne_true_of_eq_false ho.clientClosed), clientAbortPcb_eq ho.toLive haborted, hkill]
    exact hrest { hgone with } hmurdered hfreed rfl (Option.some_ne_none _)
  · rw [if_pos hs.clientClosed]
    exact hrest hk.toBase hmurdered hfreed hs.clientClosed hs.ended

/-! ## The recursion of the source -/

/-- A closed client is not closed again. -/
theorem freeSocksWith_congr (h : s.client.clientClosed = true) (f g : TcpSession → TcpSession) :
    freeSocksWith f s = freeSocksWith g s := by
  have hassert : (s.assert !s.client.socksClosed).client.clientClosed = true := by
    rw [assert_client]
    exact h
  have hfree : ∀ t : TcpSession, t.socksClientFree.client = t.client := by
    intro t
    rw [socksClientFree]
    split
    · rfl
    · rfl
  simp [freeSocksWith, hfree, h]

/-- `client_handle_freed_client` calls `client_free_socks`, as the source has it. -/
theorem clientHandleFreedClient_eq (close : Err) (s : TcpSession) :
    s.clientHandleFreedClient = handleFreedClientWith (clientFreeSocks close) s := by
  rw [clientHandleFreedClient, handleFreedClientWith, handleFreedClientWith]
  dsimp only
  rw [freeSocksWith_congr rfl id (clientFreeClient close)]
  rfl

end TcpSession

end Badvpn
