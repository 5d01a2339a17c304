import DripVpn.Tun2socks.TcpCallbacks

/-!
# The runs of a TCP client

* `faults_of_run`: nothing goes wrong with memory, with lwIP's rules or with the assertions.
* `relays_of_run`: what the device and SOCKS get from each other.
* `ends_of_run`: a client never waits in vain, and is deallocated after its connections are gone.
-/

namespace Badvpn

namespace TcpSession

variable {inCallback : Bool} {s s' : TcpSession} {close : Err} {answers : LwipAnswers}

/-! ## Coming to an end -/

/-- How many events a client can still see once one of its connections is gone. -/
def patience (s : TcpSession) : ℕ :=
  if s.freed then 0
  else if s.client.clientClosed then
    s.client.buf.length + (if s.socks.receiving then 1 else 0) + (if s.client.socksUp then 0 else 1) + 1
  else s.socks.received.length - s.pcb.acked + 1

theorem patience_of_freed (h : s.freed = true) : s.patience = 0 := by
  rw [patience, if_pos h]

theorem patience_of_closed (hfreed : s.freed = false) (hclient : s.client.clientClosed = true) :
    s.patience = s.client.buf.length + (if s.socks.receiving then 1 else 0) +
      (if s.client.socksUp then 0 else 1) + 1 := by
  rw [patience, if_neg (ne_true_of_eq_false hfreed), if_pos hclient]

theorem patience_of_live (h : s.Live) :
    s.patience = s.socks.received.length - s.pcb.acked + 1 := by
  rw [patience, if_neg (ne_true_of_eq_false h.freed), if_neg (ne_true_of_eq_false h.clientClosed)]

theorem Kept.freed_of_over (hk : Kept inCallback s) (h : s.Over) : s.freed = true := by
  rcases hk.phase with ho | hs
  · exact absurd (ho.clientClosed.symm.trans h.1) Bool.false_ne_true
  · exact hs.freed.trans h.2

theorem freed_clientDealloc (s : TcpSession) : s.clientDealloc.freed = true := rfl

/-- A closed client that loses SOCKS is deallocated. -/
theorem patience_freeSocks (hclient : s.client.clientClosed = true) (hfreed : s.freed = false)
    (hsocks : s.client.socksClosed = false) (hopen : s.socks.freed = false)
    (hs : s' = s.clientFreeSocks close) : s'.client.clientClosed = true ∧ s'.patience = 0 := by
  rw [clientFreeSocks, freeSocksWith_of_clientClosed hfreed hclient hsocks hopen] at hs
  rw [hs]
  refine ⟨?_, patience_of_freed (freed_clientDealloc _)⟩
  rw [clientDealloc_client]
  exact hclient

/-- Without its device, a client only sends what is left. -/
theorem Shut.patience_socksStep (hk : Kept inCallback s) (hs : s.Shut) {a : SocksAction}
    (hstep : s.socksStep a = some s') :
    s'.client.clientClosed = true ∧ s'.patience < s.patience := by
  have hpatience : ∀ (hfreed : s.freed = false), 0 < s.patience := fun hfreed => by
    rw [patience_of_closed hfreed hs.clientClosed]
    exact Nat.succ_pos _
  cases a with
  | report event answers =>
    rw [TcpSession.socksStep] at hstep
    split at hstep
    next henabled =>
      obtain ⟨hopen, hreports⟩ := henabled
      have hsocks : s.client.socksClosed = false := hk.socksFreed.symm.trans hopen
      have hfreed := hk.not_freed hsocks
      cases hstep
      have hreported : ∀ t, t = clientFreeSocks answers.close { s with socks.reported := true } →
          t.client.clientClosed = true ∧ t.patience < s.patience := by
        intro t ht
        have hend := patience_freeSocks (by exact hs.clientClosed) (by exact hfreed) (by exact hsocks)
          (by exact hopen) ht
        exact ⟨hend.1, hend.2.trans_lt (hpatience hfreed)⟩
      cases event with
      | up =>
        rw [reports, Bool.not_eq_true', hk.socksUp] at hreports
        rw [clientSocksHandler_up hk hopen hreports]
        refine ⟨hs.clientClosed, ?_⟩
        have hidle := (hk.early hreports).1
        rw [patience_of_closed hfreed hs.clientClosed,
          patience_of_closed (s := s.broughtUp) hfreed hs.clientClosed]
        simp [broughtUp, hs.clientClosed, hidle, hreports]
      | error =>
        refine hreported _ ?_
        simp [clientSocksHandler, reported, assert, access, hsocks, hfreed]
      | errorClosed =>
        rw [reports, hk.socksUp] at hreports
        refine hreported _ ?_
        simp [clientSocksHandler, reported, assert, access, hsocks, hfreed, hreports]
    · cases hstep
  | sendDone dataLen answers =>
    rw [TcpSession.socksStep] at hstep
    split at hstep
    next henabled =>
      obtain ⟨hopen, hpos, n, hsending, hle⟩ := henabled
      obtain ⟨-, hn, -, hsocks⟩ := hk.sending n hsending
      have hfreed := hk.not_freed hsocks
      cases hstep
      rw [clientSocksSendHandlerDone_eq hk hsending hpos hle]
      split
      · rw [senderSend_of_idle (by exact hopen) rfl]
        refine ⟨hs.clientClosed, ?_⟩
        rw [patience_of_closed hfreed hs.clientClosed, patience_of_closed (by exact hfreed)
          (by exact hs.clientClosed)]
        have hlt : (s.client.buf.drop dataLen).length < s.client.buf.length := by
          rw [List.length_drop]
          omega
        exact Nat.add_lt_add_right (Nat.add_lt_add_right (Nat.add_lt_add_right hlt _) _) _
      · rw [if_pos hs.clientClosed]
        have hend := patience_freeSocks (s := s.sentOff dataLen) hs.clientClosed hfreed hsocks hopen
          (Eq.refl ((s.sentOff dataLen).clientFreeSocks answers.close))
        exact ⟨hend.1, hend.2.trans_lt (hpatience hfreed)⟩
    · cases hstep
  | recvDone data answers =>
    rw [TcpSession.socksStep] at hstep
    split at hstep
    next henabled =>
      obtain ⟨hopen, hreceiving, hpos, hle⟩ := henabled
      have hsocks : s.client.socksClosed = false := hk.socksFreed.symm.trans hopen
      have hfreed := hk.not_freed hsocks
      have hup : s.client.socksUp = true := by
        by_contra h
        have hidle := (hk.early (Bool.eq_false_of_not_eq_true h)).1
        rw [hreceiving] at hidle
        cases hidle
      cases hstep
      rw [clientSocksRecvHandlerDone_eq (by exact hfreed) (by exact hsocks) (by exact hup)
        (by exact hk.receives hreceiving) hpos hle, if_pos (by exact hs.clientClosed)]
      refine ⟨hs.clientClosed, ?_⟩
      rw [patience_of_closed hfreed hs.clientClosed, patience_of_closed (by exact hfreed)
        (by exact hs.clientClosed)]
      simp [hreceiving, hup]
    · cases hstep

/-- What a callback of lwIP leaves alone when it returns. -/
structure Returned (s s' : TcpSession) : Prop where
  clientClosed : s'.client.clientClosed = s.client.clientClosed
  socksClosed : s'.client.socksClosed = s.client.socksClosed
  pcb : s'.pcb = s.pcb
  socks : s'.socks = s.socks

theorem returned_returned (s : TcpSession) (v : Err) : Returned s (returned (s.deadLeave, v)) := by
  have hleave : Returned s s.deadLeave := by
    rw [deadLeave]
    split
    · rw [access]
      split
      · exact ⟨rfl, rfl, rfl, rfl⟩
      · exact ⟨rfl, rfl, rfl, rfl⟩
    · exact ⟨rfl, rfl, rfl, rfl⟩
  have hfault : ∀ f, Returned s (s.deadLeave.fault f) := fun _ =>
    ⟨hleave.clientClosed, hleave.socksClosed, hleave.pcb, hleave.socks⟩
  cases v with
  | ok =>
    simp only [returned]
    split
    · exact hfault _
    · exact hleave
  | abrt =>
    simp only [returned]
    split
    · exact hleave
    · exact hfault _
  | mem => exact hfault _
  | conn => exact hfault _

/-- Without SOCKS, a client only waits for confirmations. -/
theorem Open.patience_sent (hk : Kept false s) (ho : s.Open) (hsocks : s.client.socksClosed = true)
    {len : ℕ} {jobs : List SocksAction} (hstep : s.step (.sent len answers jobs) = some s') :
    s'.client.socksClosed = true ∧ s'.patience < s.patience := by
  have hk' := hk.step hstep
  rw [TcpSession.step] at hstep
  split at hstep
  next henabled =>
    obtain ⟨hcalls, hpos, hle⟩ := henabled
    have hup : s.client.socksUp = true := ho.sentFunc.symm.trans (Bool.and_eq_true_iff.mp hcalls).1
    have hcount := ho.pending
    have hreceived := hk.fromSocks.length_le
    -- the callback ends in a session that is over, or that waits for the next confirmation
    have hend : ∀ {t : TcpSession} {v : Err}, s' = returned (t.deadLeave, v) →
        t.Over ∨ (t.client.clientClosed = false ∧ t.client.socksClosed = true ∧
          t.pcb.acked = s.pcb.acked + len ∧ t.socks = s.socks) →
        s'.client.socksClosed = true ∧ s'.patience < s.patience := by
      intro t v hs' ht
      have hsame := returned_returned t v
      rw [← hs'] at hsame
      rw [patience_of_live ho.toLive]
      rcases ht with hover | ⟨hclient, hclosed, hacked, hsame'⟩
      · have hgone : s'.Over := ⟨hsame.clientClosed.trans hover.1, hsame.socksClosed.trans hover.2⟩
        rw [patience_of_freed (hk'.freed_of_over hgone)]
        exact ⟨hgone.2, Nat.succ_pos _⟩
      · refine ⟨hsame.socksClosed.trans hclosed, ?_⟩
        rcases hk'.phase with ho' | hs
        · rw [patience_of_live ho'.toLive, hsame.pcb, hsame.socks, hacked, hsame']
          omega
        · exact absurd ((hsame.clientClosed.trans hclient).symm.trans hs.clientClosed)
            Bool.false_ne_true
    rw [clientSentFunc_eq hk.toBase ho hup hpos (by omega)] at hstep
    split at hstep
    · split at hstep
      · exact hend (Option.some.inj hstep).symm (.inl (over_clientFreeClient hsocks))
      · exact hend (Option.some.inj hstep).symm (.inr ⟨ho.clientClosed, hsocks, rfl, rfl⟩)
    next hbuf =>
      obtain ⟨hne, -, -⟩ := ho.waiting hbuf
      have hwriting : Writing true { s.confirmed len with client.socksRecvWaiting := false } :=
        { base_confirmed len hk.toBase ho hup,
          opened_confirmed ho (show len ≤ s.client.socksRecvTcpPending by omega) with up := hup }
      obtain ⟨hfailed, hsent⟩ := clientSocksRecvSendOut_spec answers hwriting hne rfl
      rcases hresult : clientSocksRecvSendOut { s.confirmed len with client.socksRecvWaiting := false }
        answers with ⟨t, sentOut⟩
      rw [hresult] at hstep hfailed hsent
      dsimp only at hstep hfailed hsent
      cases sentOut with
      | false => exact hend (Option.some.inj hstep).symm (.inl ((hfailed rfl).2 hsocks))
      | true =>
        have hout := hsent rfl
        have hclosed : t.client.socksClosed = true := hout.socksClosed.trans hsocks
        rw [if_neg (by decide), assert_of_not_freed (decide_eq_true hout.unconfirmed) hout.freed,
          if_neg fun h => absurd (h.2.symm.trans hclosed) Bool.false_ne_true] at hstep
        exact hend (Option.some.inj hstep).symm
          (.inr ⟨hout.clientClosed, hclosed, hout.acked, hout.socks⟩)
  · cases hstep

/-- Once one of its connections is gone, a client comes to an end. -/
theorem Kept.patience_step (hk : Kept false s)
    (hgone : s.client.clientClosed = true ∨ s.client.socksClosed = true) {a : TcpAction}
    (hstep : s.step a = some s') :
    (s'.client.clientClosed = true ∨ s'.client.socksClosed = true) ∧ s'.patience < s.patience := by
  have hk' := hk.step hstep
  have hopen : ∀ {callback : Bool}, s.calls callback = true → (callback = true →
      s.pcb.errFunc = true ∨ s.pcb.recvFunc = true ∨ s.pcb.sentFunc = true) →
      s.Open ∧ s.client.socksClosed = true := by
    intro callback hcalls hcallback
    have ho := hk.open_of_calls hcalls hcallback
    refine ⟨ho, hgone.resolve_left fun h => ?_⟩
    exact absurd (ho.clientClosed.symm.trans h) Bool.false_ne_true
  have hfreed : s.freed = false → s'.freed = true →
      (s'.client.clientClosed = true ∨ s'.client.socksClosed = true) ∧ s'.patience < s.patience := by
    intro hnot hfreed
    rw [patience_of_freed hfreed]
    rcases hk'.phase with ho | hs
    · exact absurd (ho.freed.symm.trans hfreed) Bool.false_ne_true
    · refine ⟨.inl hs.clientClosed, ?_⟩
      rw [patience, if_neg (ne_true_of_eq_false hnot)]
      split
      · exact Nat.succ_pos _
      · exact Nat.succ_pos _
  cases a with
  | recv p answers jobs =>
    simp only [TcpSession.step] at hstep
    split at hstep
    next henabled =>
      obtain ⟨ho, hsocks⟩ := hopen henabled.1 fun h => .inr (.inl h)
      have hset : s.pcb.recvFunc = true := (Bool.and_eq_true_iff.mp henabled.1).1
      rw [ho.recvFunc, hsocks] at hset
      cases hset
    · cases hstep
  | sent len answers jobs =>
    have henabled := hstep
    rw [TcpSession.step] at henabled
    split at henabled
    next hcalls =>
      obtain ⟨ho, hsocks⟩ := hopen hcalls.1 fun h => .inr (.inr h)
      obtain ⟨hclosed, hlt⟩ := ho.patience_sent hk hsocks hstep
      exact ⟨.inr hclosed, hlt⟩
    · cases henabled
  | err =>
    rw [TcpSession.step] at hstep
    split at hstep
    next hcalls =>
      obtain ⟨ho, hsocks⟩ := hopen hcalls .inl
      cases hstep
      refine hfreed ho.freed (hk'.freed_of_over ?_)
      rw [clientErrFunc]
      apply over_clientHandleFreedClient
      rw [assert_client]
      exact hsocks
    · cases hstep
  | socks a =>
    rcases hk.phase with ho | hs
    · -- without SOCKS there is no such event
      have hsocks := hgone.resolve_left fun h => absurd (ho.clientClosed.symm.trans h) Bool.false_ne_true
      have hgone' : ¬ s.socks.freed = false := ne_false_of_eq_true (hk.socksFreed.trans hsocks)
      cases a with
      | report event answers =>
        rw [TcpSession.step, TcpSession.socksStep, if_neg fun h => hgone' h.1] at hstep
        cases hstep
      | sendDone dataLen answers =>
        rw [TcpSession.step, TcpSession.socksStep, if_neg fun h => hgone' h.1] at hstep
        cases hstep
      | recvDone data answers =>
        rw [TcpSession.step, TcpSession.socksStep, if_neg fun h => hgone' h.1] at hstep
        cases hstep
    · obtain ⟨hclient, hlt⟩ := hs.patience_socksStep hk hstep
      exact ⟨.inl hclient, hlt⟩
  | murder =>
    rw [TcpSession.step] at hstep
    split at hstep
    · cases hstep
    next hnot =>
      cases hstep
      exact hfreed (Bool.eq_false_of_not_eq_true hnot) rfl

theorem Kept.length_le_patience (hk : Kept false s)
    (hgone : s.client.clientClosed = true ∨ s.client.socksClosed = true) {actions : List TcpAction}
    (hsteps : Reactive.steps TcpSession.step s actions = some s') : actions.length ≤ s.patience := by
  induction actions generalizing s with
  | nil => exact Nat.zero_le _
  | cons a actions ih =>
    obtain ⟨t, hstep, hrest⟩ := Reactive.steps_cons_iff.mp hsteps
    obtain ⟨hgone', hlt⟩ := hk.patience_step hgone hstep
    have hle := ih (hk.step hstep) hgone' hrest
    rw [List.length_cons]
    omega

theorem patience_le (s : TcpSession) :
    s.patience ≤ s.client.buf.length + (s.socks.received.length - s.pcb.acked) + 3 := by
  rw [patience]
  split
  · exact Nat.zero_le _
  · split
    · split
      · split
        · omega
        · omega
      · split
        · omega
        · omega
    · omega

/-! ## Results -/

/-- The device finishes while a byte for SOCKS is left. -/
def sampleActions : List TcpAction :=
  let answers : LwipAnswers := ⟨[(1, .ok)], .ok, .ok⟩
  [.recv (some [1, 2]) answers [], .socks (.report .up answers), .socks (.sendDone 1 answers),
    .socks (.recvDone [3, 4] answers), .sent 1 answers [], .recv none answers []]

def sampleSession : TcpSession where
  client :=
    { aborted := false, deadAborted := .null, clientClosed := true, buf := [2], socksUp := true,
      socksClosed := false, socksRecvBuf := none, socksRecvBufSent := 2, socksRecvWaiting := false,
      socksRecvTcpPending := 1 }
  pcb :=
    { errFunc := false, recvFunc := false, sentFunc := false, received := [1, 2], recved := 1,
      finished := true, written := [3, 4], acked := 1, ended := some .closed }
  socks :=
    { up := true, sending := some 1, receiving := true, sent := [1], received := [3, 4],
      reported := false, freed := false }
  freed := false
  murdered := false
  dead := 0
  faults := []

theorem run_sampleActions : run [] sampleActions = some sampleSession := by decide

/-- In no run of a client does an assertion fail, is freed memory used or a dead variable written after
its callback, is `tcp_abort` concealed from lwIP or made up, or is there no room for data. -/
theorem faults_of_run {jobs : List SocksAction} {actions : List TcpAction}
    (hrun : run jobs actions = some s) : s.faults = [] := (kept_of_run hrun).faults

theorem faults_of_run_sample : sampleSession.faults = [] := faults_of_run run_sampleActions

/-- Both directions are first parts of what was sent, and nothing is missing at their ends: SOCKS is freed
without an error when it has got everything, and the connection of a device that has not finished is closed
when the device has got everything. -/
theorem relays_of_run {jobs : List SocksAction} {actions : List TcpAction}
    (hrun : run jobs actions = some s) :
    (s.socks.sent ++ s.client.buf = s.pcb.received ∧ s.client.buf.length ≤ TCP_WND) ∧
    (s.pcb.ended = none → s.pcb.written ++ unsent s.client = s.socks.received) ∧
    s.pcb.written <+: s.socks.received ∧
    (s.socks.freed = true → s.socks.reported = false → s.murdered = false →
      s.socks.sent = s.pcb.received) ∧
    (s.pcb.ended = some .closed → s.pcb.finished = false →
      s.pcb.written = s.socks.received ∧ s.pcb.acked = s.pcb.written.length) := by
  have hk := kept_of_run hrun
  refine ⟨⟨hk.toSocks, hk.window⟩, fun hended => ?_, hk.fromSocks, fun hfreed hreported hmurdered => ?_,
    fun hclosed hfinished => (hk.delivered hclosed hfinished).2⟩
  · rcases hk.phase with ho | hs
    · exact ho.rest
    · exact absurd hended hs.ended
  · have hto := hk.toSocks
    rw [hk.complete (hk.socksFreed.symm.trans hfreed) hreported hmurdered, List.append_nil] at hto
    exact hto

theorem relays_of_run_sample : sampleSession.socks.sent ++ [2] = sampleSession.pcb.received :=
  (relays_of_run run_sampleActions).1.1

/-- Whatever is left to be done, an event that lets the client go on is still to come. -/
structure Awaits (s : TcpSession) : Prop where
  toSocks : s.socks.up = true → s.socks.freed = false → s.client.buf ≠ [] → s.socks.sending ≠ none
  fromSocks : s.socks.up = true → s.pcb.ended = none →
    s.socks.receiving = true ∨ (s.pcb.sentFunc = true ∧ s.pcb.acked < s.pcb.written.length)
  /-- Without SOCKS, there is something for the device to confirm. -/
  draining : s.socks.freed = true → s.pcb.ended = none →
    s.pcb.sentFunc = true ∧ s.pcb.acked < s.pcb.written.length
  /-- Without the device, there is something for SOCKS to take. -/
  closing : s.pcb.ended ≠ none → s.socks.freed = false → s.client.buf ≠ []

theorem Kept.awaits (hk : Kept inCallback s) : s.Awaits := by
  rcases hk.phase with ho | hs
  · have hcount := ho.pending
    have hconfirm : s.client.socksUp = true → 0 < s.client.socksRecvTcpPending →
        s.pcb.sentFunc = true ∧ s.pcb.acked < s.pcb.written.length := fun hup hpending =>
      ⟨ho.sentFunc.trans hup, by omega⟩
    refine ⟨fun hup hfreed => ?_, fun hup _ => ?_, fun hfreed _ => ?_, fun h => absurd ho.ended h⟩
    · exact hk.sends (hk.socksUp.symm.trans hup) (hk.socksFreed.symm.trans hfreed)
    · have hup' : s.client.socksUp = true := hk.socksUp.symm.trans hup
      cases hsocks : s.client.socksClosed with
      | true => exact .inr (hconfirm hup' (ho.draining hsocks).2)
      | false =>
        have hreceiving := ho.receiving hup' hsocks
        cases hbuf : s.client.socksRecvBuf with
        | none =>
          rw [hbuf] at hreceiving
          exact .inl hreceiving
        | some b =>
          obtain ⟨-, -, hpending⟩ := ho.waiting (by rw [hbuf]; exact Option.some_ne_none _)
          exact .inr (hconfirm hup' hpending)
    · obtain ⟨hup, hpending⟩ := ho.draining (hk.socksFreed.symm.trans hfreed)
      exact hconfirm hup hpending
  · refine ⟨fun hup hfreed => ?_, fun _ h => absurd h hs.ended, fun _ h => absurd h hs.ended,
      fun _ hfreed => hs.draining (hk.socksFreed.symm.trans hfreed)⟩
    exact hk.sends (hk.socksUp.symm.trans hup) (hk.socksFreed.symm.trans hfreed)

/-- A client is deallocated exactly when both of its connections are gone. As long as it is there it waits
for something, and once one of the connections is gone it comes to its end. -/
theorem ends_of_run {jobs : List SocksAction} {actions : List TcpAction}
    (hrun : run jobs actions = some s) :
    (s.freed = true ↔ s.pcb.ended ≠ none ∧ s.socks.freed = true) ∧ s.Awaits ∧
    (s.pcb.ended ≠ none ∨ s.socks.freed = true → ∀ more s', Reactive.steps step s more = some s' →
      more.length ≤ s.client.buf.length + (s.socks.received.length - s.pcb.acked) + 3) := by
  have hk := kept_of_run hrun
  refine ⟨?_, hk.awaits, fun hgone more s' hsteps => ?_⟩
  · rcases hk.phase with ho | hs
    · constructor
      · exact fun h => absurd (ho.freed.symm.trans h) Bool.false_ne_true
      · exact fun h => absurd ho.ended h.1
    · rw [hs.freed, hk.socksFreed]
      exact ⟨fun h => ⟨hs.ended, h⟩, fun h => h.2⟩
  · have hclosed : s.client.clientClosed = true ∨ s.client.socksClosed = true := by
      rcases hk.phase with ho | hs
      · exact .inr (hk.socksFreed.symm.trans (hgone.resolve_left fun h => h ho.ended))
      · exact .inl hs.clientClosed
    exact (hk.length_le_patience hclosed hsteps).trans s.patience_le

theorem ends_of_run_sample : sampleSession.Awaits ∧
    (sampleSession.freed = true ↔ sampleSession.pcb.ended ≠ none ∧ sampleSession.socks.freed = true) :=
  ⟨(ends_of_run run_sampleActions).2.1, (ends_of_run run_sampleActions).1⟩

end TcpSession

end Badvpn
