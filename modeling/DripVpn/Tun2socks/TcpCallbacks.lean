import DripVpn.Tun2socks.TcpRelay

/-!
# A TCP client and lwIP

The callbacks of lwIP keep the invariant and return `ERR_ABRT` exactly if `tcp_abort` was called, so that
the invariant holds in every run (`kept_of_run`).
-/

namespace Badvpn

namespace TcpSession

variable {inCallback : Bool} {s s' : TcpSession} {close : Err} {answers : LwipAnswers}

/-! ## The callbacks of lwIP -/

/-- What the client looks like after a callback has returned. -/
theorem Kept.withDead (hk : Kept inCallback s) {d : DeadVar}
    (hdead : DeadOk false { s with client.deadAborted := d }) :
    Kept false { s with client.deadAborted := d } := by
  refine { hk.toBase with dead := hdead, phase := ?_ }
  rcases hk.phase with ho | hs
  · exact .inl { ho with }
  · exact .inr { hs with }

/-- A callback returns, and tells lwIP what has become of the connection. -/
theorem kept_returned (hk : Kept true s) : Kept false (returned (s.deadLeave, s.returnValue)) := by
  obtain ⟨-, hdead⟩ := hk.dead
  cases haborted : s.client.aborted with
  | true =>
    have hended := hk.aborted.mp haborted
    rw [haborted, if_pos rfl] at hdead
    have heq : returned (s.deadLeave, s.returnValue) = { s with client.deadAborted := .dangling } := by
      simp [returned, deadLeave, returnValue, hdead, hended]
    rw [heq]
    exact hk.withDead (.inr ⟨rfl, .inl haborted⟩)
  | false =>
    have hended : s.pcb.ended ≠ some .aborted := fun h => by
      have hyes := hk.aborted.mpr h
      rw [haborted] at hyes
      cases hyes
    rw [haborted, if_neg Bool.false_ne_true] at hdead
    cases hfreed : s.freed with
    | true =>
      rw [hfreed, if_pos rfl] at hdead
      have heq : returned (s.deadLeave, s.returnValue) = { s with client.deadAborted := .dangling } := by
        simp [returned, deadLeave, returnValue, hdead, hended]
      rw [heq]
      exact hk.withDead (.inr ⟨rfl, .inr hfreed⟩)
    | false =>
      rw [hfreed, if_neg Bool.false_ne_true] at hdead
      have heq : returned (s.deadLeave, s.returnValue) = { s with client.deadAborted := .null } := by
        simp [returned, deadLeave, returnValue, access, hdead, hended, hfreed]
      rw [heq]
      exact hk.withDead (.inl rfl)

/-- A callback is entered by a client that has its connection. -/
theorem Base.enter (hb : Base false s) (ho : s.Live) : Base true s.deadEnter ∧
    s.deadEnter = { s with client.deadAborted := .entered, dead := 0 } := by
  have haborted := hb.not_aborted ho.ended
  have hnull : s.client.deadAborted = .null := hb.deadAborted haborted ho.freed
  have heq : s.deadEnter = { s with client.deadAborted := .entered, dead := 0 } := by
    rw [deadEnter, if_pos hnull]
  refine ⟨?_, heq⟩
  rw [heq]
  refine { hb with dead := ⟨rfl, ?_⟩ }
  rw [if_neg (by exact ne_true_of_eq_false haborted), if_neg (by exact ne_true_of_eq_false ho.freed)]

/-- lwIP calls only clients that have their connection. -/
theorem Kept.open_of_calls (hk : Kept inCallback s) {callback : Bool} (hcalls : s.calls callback = true)
    (hcallback : callback = true →
      s.pcb.errFunc = true ∨ s.pcb.recvFunc = true ∨ s.pcb.sentFunc = true) : s.Open := by
  rw [calls, Bool.and_eq_true, Bool.or_eq_true, decide_eq_true_eq, decide_eq_true_eq] at hcalls
  obtain ⟨hset, hended | hclosed⟩ := hcalls
  · rcases hk.phase with ho | hs
    · exact ho
    · exact absurd hended hs.ended
  · obtain ⟨herr, hrecv, hsent⟩ := hk.callbacks hclosed
    rw [herr, hrecv, hsent] at hcallback
    rcases hcallback hset with h | h | h
    all_goals cases h

/-- The connection failed. -/
theorem kept_clientErrFunc (hb : Base inCallback s) (ho : s.Live) :
    Kept inCallback { s with pcb.ended := some .failed }.clientErrFunc := by
  have hfailed : Base inCallback { s with pcb.ended := some .failed } := by
    have haborted := hb.not_aborted ho.ended
    refine { hb with aborted := ⟨?_, ?_⟩, callbacks := ?_, delivered := ?_ }
    · exact fun h => absurd (haborted.symm.trans h) Bool.false_ne_true
    · exact fun h => by cases h
    · exact fun h => by cases h
    · exact fun h => by cases h
  have heq : { s with pcb.ended := some .failed }.clientErrFunc =
      { s with pcb.ended := some .failed }.clientHandleFreedClient := by
    simp [clientErrFunc, assert, access, ho.freed, ho.clientClosed]
  rw [heq]
  exact kept_clientHandleFreedClient hfailed ho.freed ho.clientClosed (Option.some_ne_none _)

/-- The device has finished. -/
theorem kept_recvFinished (hb : Base false s) (ho : s.Live) :
    Kept true (clientFreeClient close { s with
      pcb.finished := true, client.deadAborted := .entered, dead := 0 }) := by
  obtain ⟨hentered, heq⟩ := hb.enter ho
  rw [heq] at hentered
  have hbase : Base true { s with
      pcb.finished := true, client.deadAborted := .entered, dead := 0 } :=
    { hentered with delivered := fun h => absurd (ho.ended.symm.trans h) (Option.some_ne_none _).symm }
  exact kept_clientFreeClient hbase ⟨ho.clientClosed, ho.freed, ho.ended⟩ fun h => by cases h

/-- Data of the device is in the buffer. -/
def took (s : TcpSession) (p : Bytes) : TcpSession :=
  { s with
    pcb.received := s.pcb.received ++ p
    client.buf := s.client.buf ++ p
    client.deadAborted := .entered
    dead := 0 }

theorem clientRecvFunc_eq (hb : Base false s) (ho : s.Open) {p : Bytes} (hpos : 0 < p.length)
    (hsocks : s.client.socksClosed = false) (hfits : s.client.buf.length + p.length ≤ TCP_WND)
    (jobs : List SocksAction) :
    { s with pcb.received := s.pcb.received ++ p }.clientRecvFunc (some p) answers jobs =
      if s.client.buf = [] ∧ s.client.socksUp = true then
        ({ s.took p with socks.sending := some p.length }.syncCommit jobs).map fun t : TcpSession =>
          (t.deadLeave, t.returnValue)
      else some ((s.took p).deadLeave, (s.took p).returnValue) := by
  have hnull : s.client.deadAborted = .null := hb.deadAborted (hb.not_aborted ho.ended) ho.freed
  have hne : p ≠ [] := List.length_pos_iff.mp hpos
  have hroom : ¬ TCP_WND - s.client.buf.length < p.length := by omega
  have hopen : s.socks.freed = false := hb.socksFreed.trans hsocks
  by_cases hstart : s.client.buf = [] ∧ s.client.socksUp = true
  · obtain ⟨hnil, hup⟩ := hstart
    have hidle : s.socks.sending = none := by
      by_contra h
      obtain ⟨n, hn⟩ := Option.ne_none_iff_exists'.mp h
      have hsending := hb.sending n hn
      rw [hnil, List.length_nil] at hsending
      omega
    rw [hnil, List.length_nil, Nat.sub_zero] at hroom
    simp [clientRecvFunc, assert, access, deadEnter, clientSendToSocks, senderSend, took, ho.freed,
      ho.clientClosed, hnull, hne, hroom, hnil, hup, hsocks, hopen, hidle]
  · simp [clientRecvFunc, assert, access, deadEnter, took, ho.freed, ho.clientClosed, hnull, hne, hroom,
      hstart, List.length_append]

theorem kept_took (hk : Kept false s) (ho : s.Open) {p : Bytes} (hpos : 0 < p.length)
    (hsocks : s.client.socksClosed = false) (hfits : s.client.buf.length + p.length ≤ TCP_WND)
    {next : Option ℕ} (hnext : next = if s.client.buf = [] ∧ s.client.socksUp = true then some p.length
      else s.socks.sending) : Kept true { s.took p with socks.sending := next } := by
  obtain ⟨hentered, heq⟩ := hk.enter ho.toLive
  rw [heq] at hentered
  have hto : s.socks.sent ++ (s.client.buf ++ p) = s.pcb.received ++ p := by
    rw [← List.append_assoc, hk.toSocks]
  have hlength : (s.client.buf ++ p).length = s.client.buf.length + p.length := List.length_append
  have hbase : Base true { s.took p with socks.sending := next } := by
    refine { hentered with
      toSocks := hto, window := hlength.trans_le hfits, sending := ?_, sends := ?_,
      complete := fun h => absurd (hsocks.symm.trans h) Bool.false_ne_true }
    · intro n hn
      change 0 < n ∧ n ≤ (s.client.buf ++ p).length ∧ _
      rw [hlength]
      by_cases hstart : s.client.buf = [] ∧ s.client.socksUp = true
      · have hsome : some p.length = some n := by
          rw [← hn]
          exact (hnext.trans (if_pos hstart)).symm
        cases hsome
        exact ⟨hpos, by omega, hstart.2, hsocks⟩
      · have hsending := hk.sending n ((hnext.trans (if_neg hstart)).symm.trans hn)
        exact ⟨hsending.1, by omega, hsending.2.2⟩
    · intro hup _ _ hnone
      by_cases hnil : s.client.buf = []
      · exact Option.some_ne_none _ ((hnext.trans (if_pos ⟨hnil, hup⟩)).symm.trans hnone)
      · have hidle := (hnext.trans (if_neg fun h => hnil h.1)).symm.trans hnone
        exact hk.sends hup hsocks hnil hidle
  exact { hbase with phase := .inl { ho with } }

/-- The device confirmed data. -/
def confirmed (s : TcpSession) (len : ℕ) : TcpSession :=
  { s with
    pcb.acked := s.pcb.acked + len
    client.socksRecvTcpPending := s.client.socksRecvTcpPending - len
    client.deadAborted := .entered
    dead := 0 }

theorem clientSentFunc_eq (hb : Base false s) (ho : s.Open) (hup : s.client.socksUp = true) {len : ℕ}
    (hpos : 0 < len) (hle : len ≤ s.client.socksRecvTcpPending) (jobs : List SocksAction) :
    { s with pcb.acked := s.pcb.acked + len }.clientSentFunc len answers jobs =
      if s.client.socksRecvBuf = none then
        if s.client.socksClosed = true ∧ s.client.socksRecvTcpPending - len = 0 then
          some (((s.confirmed len).clientFreeClient answers.close).deadLeave,
            ((s.confirmed len).clientFreeClient answers.close).returnValue)
        else some ((s.confirmed len).deadLeave, (s.confirmed len).returnValue)
      else
        let (t, sentOut) :=
          { s.confirmed len with client.socksRecvWaiting := false }.clientSocksRecvSendOut answers
        if sentOut = false then some (t.deadLeave, t.returnValue)
        else
          let t := t.assert (0 < t.client.socksRecvTcpPending)
          if t.client.socksRecvBuf = none ∧ t.client.socksClosed = false then
            (t.clientSocksRecvInitiate.syncCommit jobs).map fun t : TcpSession =>
              (t.deadLeave, t.returnValue)
          else some (t.deadLeave, t.returnValue) := by
  have hnull : s.client.deadAborted = .null := hb.deadAborted (hb.not_aborted ho.ended) ho.freed
  cases hbuf : s.client.socksRecvBuf with
  | none =>
    simp [clientSentFunc, assert, access, deadEnter, confirmed, ho.freed, ho.clientClosed, hnull, hup,
      hpos, hle, hbuf]
  | some b =>
    obtain ⟨hmore, hwaiting, -⟩ := ho.waiting (by rw [hbuf]; exact Option.some_ne_none _)
    have hne : b ≠ [] := by
      rintro rfl
      rw [unsent, hbuf, Option.getD_some, List.drop_nil] at hmore
      exact hmore rfl
    have hdrop : ¬ b.length ≤ s.client.socksRecvBufSent := by
      rw [← List.drop_eq_nil_iff]
      rw [unsent, hbuf, Option.getD_some] at hmore
      exact hmore
    simp [clientSentFunc, assert, access, deadEnter, confirmed, unsent, ho.freed, ho.clientClosed, hnull,
      hup, hpos, hle, hbuf, hne, hdrop, hwaiting]

theorem base_confirmed (len : ℕ) (hb : Base false s) (ho : s.Open) (hup : s.client.socksUp = true) :
    Base true (s.confirmed len) := by
  obtain ⟨hentered, heq⟩ := hb.enter ho.toLive
  rw [heq] at hentered
  refine { hentered with early := ?_, delivered := ?_ }
  · exact fun h => absurd (hup.symm.trans h).symm Bool.false_ne_true
  · exact fun h => absurd (ho.ended.symm.trans h) (Option.some_ne_none _).symm

theorem opened_confirmed (ho : s.Open) {len : ℕ} (hle : len ≤ s.client.socksRecvTcpPending) :
    (s.confirmed len).Opened := by
  refine { ho with pending := ?_ }
  have hcount := ho.pending
  change s.pcb.written.length = s.pcb.acked + len + (s.client.socksRecvTcpPending - len)
  omega

/-- A callback that comes to its end. -/
theorem kept_left {r : Option (TcpSession × Err)} {t : TcpSession} (hk : Kept true t)
    (hr : r = some (t.deadLeave, t.returnValue)) (hs : r.map returned = some s') : Kept false s' := by
  rw [hr] at hs
  cases hs
  exact kept_returned hk

/-- A callback that lets the SOCKS client go on before it comes to its end. -/
theorem kept_committed {t : TcpSession} {jobs : List SocksAction} (hk : Kept true t)
    (hs : ((t.syncCommit jobs).map fun t : TcpSession => (t.deadLeave, t.returnValue)).map returned =
      some s') : Kept false s' := by
  rw [Option.map_map, Option.map_eq_some_iff] at hs
  obtain ⟨t', hjobs, rfl⟩ := hs
  exact kept_returned (hk.syncCommit hjobs)

theorem kept_clientSentFunc (hk : Kept false s) (ho : s.Open) (hup : s.client.socksUp = true) {len : ℕ}
    (hpos : 0 < len) (hle : len ≤ s.client.socksRecvTcpPending) {jobs : List SocksAction}
    (hs : ({ s with pcb.acked := s.pcb.acked + len }.clientSentFunc len answers jobs).map returned =
      some s') : Kept false s' := by
  have hbase := base_confirmed len hk.toBase ho hup
  have hopened := opened_confirmed ho hle
  rw [clientSentFunc_eq hk.toBase ho hup hpos hle] at hs
  split at hs
  next hbuf =>
    split at hs
    next hlast =>
      -- everything was sent after SOCKS was closed
      have hdelivered := delivered_of_empty hopened hbuf hlast.2
      exact kept_left (kept_clientFreeClient hbase hopened.toLive fun _ => ⟨hlast.1, hdelivered⟩) rfl hs
    next hmore =>
      refine kept_left { hbase with phase := .inl { hopened with
        waiting := fun h => absurd hbuf h
        draining := fun hsocks => ⟨hup, Nat.pos_of_ne_zero fun h => hmore ⟨hsocks, h⟩⟩
        receiving := ho.receiving } } rfl hs
  next hbuf =>
    obtain ⟨hne, -, -⟩ := ho.waiting hbuf
    have hidle : s.socks.receiving = false := by
      by_contra h
      exact hbuf (hk.receives (Bool.eq_true_of_not_eq_false h))
    have hwriting : Writing true { s.confirmed len with client.socksRecvWaiting := false } :=
      { hbase, hopened with up := hup }
    obtain ⟨hfailed, hsent⟩ := clientSocksRecvSendOut_spec answers hwriting hne rfl
    rcases hresult : clientSocksRecvSendOut { s.confirmed len with client.socksRecvWaiting := false }
      answers with ⟨t, sentOut⟩
    rw [hresult] at hs hfailed hsent
    dsimp only at hs hfailed hsent
    cases sentOut with
    | false => exact kept_left (hfailed rfl).1 rfl hs
    | true =>
      have hout := hsent rfl
      rw [if_neg (by decide), assert_of_not_freed (decide_eq_true hout.unconfirmed) hout.freed] at hs
      have hidle' : t.socks.receiving = false :=
        (congrArg SocksConnection.receiving hout.socks).trans hidle
      split at hs
      next hagain =>
        exact kept_committed
          (kept_clientSocksRecvInitiate hout.toWriting hagain.2 hidle' hagain.1) hs
      next hwait =>
        refine kept_left (hout.kept hidle ?_) rfl hs
        by_cases hsome : t.client.socksRecvBuf = none
        · exact .inr (Bool.eq_true_of_not_eq_false fun h => hwait ⟨hsome, h⟩)
        · exact .inl hsome

theorem Kept.step (hk : Kept false s) {a : TcpAction} (hstep : s.step a = some s') : Kept false s' := by
  cases a with
  | recv p answers jobs =>
    simp only [TcpSession.step] at hstep
    split at hstep
    next henabled =>
      have ho := hk.open_of_calls henabled.1 fun h => .inr (.inl h)
      have hset : s.pcb.recvFunc = true := (Bool.and_eq_true_iff.mp henabled.1).1
      have hsocks : s.client.socksClosed = false := by
        rw [ho.recvFunc, Bool.not_eq_true'] at hset
        exact hset
      cases p with
      | none =>
        have heq : { s with pcb.finished := true }.clientRecvFunc none answers jobs =
            some ((clientFreeClient answers.close { s with
                pcb.finished := true, client.deadAborted := .entered, dead := 0 }).deadLeave,
              (clientFreeClient answers.close { s with
                pcb.finished := true, client.deadAborted := .entered, dead := 0 }).returnValue) := by
          have hnull : s.client.deadAborted = .null :=
            hk.deadAborted (hk.not_aborted ho.ended) ho.freed
          simp [clientRecvFunc, assert, access, deadEnter, ho.freed, ho.clientClosed, hnull]
        exact kept_left (kept_recvFinished hk.toBase ho.toLive) heq hstep
      | some p =>
        obtain ⟨-, hmay⟩ := henabled
        rw [mayReceive, Bool.and_eq_true, decide_eq_true_eq, decide_eq_true_eq] at hmay
        have hfits : s.client.buf.length + p.length ≤ TCP_WND := by
          have hlength := congrArg List.length hk.toSocks
          rw [List.length_append] at hlength
          have hrecved := ho.recved
          omega
        dsimp only at hstep
        rw [clientRecvFunc_eq hk.toBase ho hmay.1 hsocks hfits] at hstep
        split at hstep
        next hstart =>
          exact kept_committed (kept_took hk ho hmay.1 hsocks hfits (if_pos hstart).symm) hstep
        next hbusy =>
          exact kept_left (kept_took hk ho hmay.1 hsocks hfits (if_neg hbusy).symm) rfl hstep
    · cases hstep
  | sent len answers jobs =>
    rw [TcpSession.step] at hstep
    split at hstep
    next henabled =>
      obtain ⟨hcalls, hpos, hle⟩ := henabled
      have ho := hk.open_of_calls hcalls fun h => .inr (.inr h)
      have hup : s.client.socksUp = true := ho.sentFunc.symm.trans (Bool.and_eq_true_iff.mp hcalls).1
      have hcount := ho.pending
      exact kept_clientSentFunc hk ho hup hpos (by omega) hstep
    · cases hstep
  | err =>
    rw [TcpSession.step] at hstep
    split at hstep
    next hcalls =>
      have ho := hk.open_of_calls hcalls .inl
      cases hstep
      exact kept_clientErrFunc hk.toBase ho.toLive
    · cases hstep
  | socks a => exact hk.socksStep hstep
  | murder =>
    rw [TcpSession.step] at hstep
    split at hstep
    · cases hstep
    next hfreed =>
      cases hstep
      have hmurdered : Kept false { s with murdered := true } := by
        refine { hk.toBase with complete := fun _ _ h => (by cases h), phase := ?_ }
        rcases hk.phase with ho | hs
        · exact .inl { ho with }
        · exact .inr { hs with }
      exact kept_clientMurder hmurdered rfl (Bool.eq_false_of_not_eq_true hfreed)

theorem kept_init : Kept false init := by
  have hopen : init.Open :=
    { clientClosed := rfl, freed := rfl, ended := rfl, errFunc := rfl, recvFunc := rfl, sentFunc := rfl,
      recved := rfl, rest := rfl, pending := rfl, waiting := fun h => absurd rfl h,
      draining := (fun h => by cases h), receiving := fun h => by cases h }
  exact
    { faults := rfl, dead := .inl rfl, aborted := ⟨(fun h => by cases h), fun h => by cases h⟩,
      callbacks := (fun h => by cases h), socksFreed := rfl, socksUp := rfl, toSocks := rfl,
      window := Nat.zero_le _, sending := (fun _ h => by cases h), sends := (fun h => by cases h),
      early := fun _ => ⟨rfl, rfl, rfl, rfl, rfl, rfl⟩, receives := (fun h => by cases h),
      fromSocks := List.prefix_rfl, complete := (fun h => by cases h),
      delivered := (fun h => by cases h), phase := .inl hopen }

/-- The invariant holds in every run. -/
theorem kept_of_run {jobs : List SocksAction} {actions : List TcpAction}
    (hrun : run jobs actions = some s) : Kept false s := by
  rw [run, listenerAcceptFunc, Option.bind_eq_some_iff] at hrun
  obtain ⟨t, haccept, hsteps⟩ := hrun
  have hentered : Kept true init.deadEnter := by
    obtain ⟨hbase, -⟩ := kept_init.enter ⟨rfl, rfl, rfl⟩
    rcases kept_init.phase with ho | hs
    · exact { hbase with phase := .inl { ho with } }
    · exact { hbase with phase := .inr { hs with } }
  have hk := kept_committed hentered haccept
  exact Reactive.steps_invariant (fun _ _ _ hstep ht => ht.step hstep) hsteps hk

end TcpSession

end Badvpn
