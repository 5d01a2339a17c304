import DripVpn.Tun2socks.TcpTeardown

/-!
# What a TCP client does with its data

The callbacks of the SOCKS client keep the invariant: data of the device is sent to SOCKS, data from SOCKS
is written to the device as far as lwIP takes it, and the rest waits for a confirmation.
-/

namespace Badvpn

namespace TcpSession

variable {inCallback : Bool} {s s' : TcpSession} {close : Err} {answers : LwipAnswers}

/-! ## To SOCKS -/

/-- Data was sent to SOCKS, and the device may send more. -/
def sentOff (s : TcpSession) (dataLen : ℕ) : TcpSession :=
  { s with
    socks.sending := none
    socks.sent := s.socks.sent ++ s.client.buf.take dataLen
    client.buf := s.client.buf.drop dataLen
    pcb.recved := if s.client.clientClosed then s.pcb.recved else s.pcb.recved + dataLen }

theorem clientSocksSendHandlerDone_eq (hk : Kept inCallback s) {n dataLen : ℕ}
    (hsending : s.socks.sending = some n) (hpos : 0 < dataLen) (hle : dataLen ≤ n) :
    { s with
      socks.sending := none
      socks.sent := s.socks.sent ++ s.client.buf.take dataLen }.clientSocksSendHandlerDone dataLen answers =
    if (s.sentOff dataLen).client.buf ≠ [] then (s.sentOff dataLen).senderSend
    else if s.client.clientClosed then (s.sentOff dataLen).clientFreeSocks answers.close
    else s.sentOff dataLen := by
  obtain ⟨-, hn, hup, hsocks⟩ := hk.sending n hsending
  have hfreed := hk.not_freed hsocks
  have hne : s.client.buf.isEmpty = false := by
    rw [List.isEmpty_eq_false_iff]
    exact List.length_pos_iff.mp (by omega)
  rcases hk.phase with ho | hs
  · simp [clientSocksSendHandlerDone, assert, access, tcpRecved, usePcb, sentOff, hfreed, hsocks, hup, hne,
      hpos, hle.trans hn, ho.clientClosed, ho.ended]
  · simp [clientSocksSendHandlerDone, assert, access, sentOff, hfreed, hsocks, hup, hne, hpos, hle.trans hn,
      hs.clientClosed]

theorem kept_clientSocksSendHandlerDone (hk : Kept inCallback s) {n dataLen : ℕ}
    (hsending : s.socks.sending = some n) (hpos : 0 < dataLen) (hle : dataLen ≤ n) :
    Kept inCallback ({ s with
      socks.sending := none
      socks.sent := s.socks.sent ++ s.client.buf.take dataLen }.clientSocksSendHandlerDone
        dataLen answers) := by
  obtain ⟨-, hn, hup, hsocks⟩ := hk.sending n hsending
  have hto : s.socks.sent ++ s.client.buf.take dataLen ++ s.client.buf.drop dataLen =
      s.pcb.received := by
    rw [List.append_assoc, List.take_append_drop]
    exact hk.toSocks
  have hwindow : (s.client.buf.drop dataLen).length ≤ TCP_WND := by
    have hwindow := hk.window
    rw [List.length_drop]
    omega
  -- what is sent next is what is left in the buffer
  have hbase : ∀ next, (∀ m, next = some m → 0 < m ∧ m ≤ (s.client.buf.drop dataLen).length) →
      (s.client.buf.drop dataLen ≠ [] → next ≠ none) →
      Base inCallback { s.sentOff dataLen with socks.sending := next } := by
    intro next hnext hsends
    exact { hk.toBase with
      toSocks := hto
      window := hwindow
      sending := fun m hm => ⟨(hnext m hm).1, (hnext m hm).2, hup, hsocks⟩
      sends := fun _ _ => hsends
      complete := fun h => absurd (hsocks.symm.trans h) Bool.false_ne_true }
  have hopened : s.Open → ∀ next, ({ s.sentOff dataLen with socks.sending := next } : TcpSession).Open := by
    intro ho next
    refine { ho with recved := ?_ }
    have htake : (s.client.buf.take dataLen).length = dataLen :=
      List.length_take_of_le (hle.trans hn)
    change (if s.client.clientClosed = true then s.pcb.recved else s.pcb.recved + dataLen) =
      (s.socks.sent ++ s.client.buf.take dataLen).length
    rw [if_neg (ne_true_of_eq_false ho.clientClosed), ho.recved, List.length_append, htake]
  rw [clientSocksSendHandlerDone_eq hk hsending hpos hle]
  have hsocksFreed : (s.sentOff dataLen).socks.freed = false := hk.socksFreed.trans hsocks
  split
  next hmore =>
    have hlength := List.length_pos_iff.mpr hmore
    have hnext := hbase (some (s.client.buf.drop dataLen).length)
      (fun m hm => by cases hm; exact ⟨hlength, le_rfl⟩) fun _ => Option.some_ne_none _
    rw [senderSend_of_idle hsocksFreed rfl]
    rcases hk.phase with ho | hs
    · exact { hnext with phase := .inl (hopened ho _) }
    · exact { hnext with phase := .inr ⟨hs.clientClosed, hs.ended, fun _ => hmore, hs.freed⟩ }
  next hnone =>
    have hnil : s.client.buf.drop dataLen = [] := not_not.mp hnone
    have hdone : Base inCallback (s.sentOff dataLen) :=
      hbase none (fun m hm => by cases hm) fun hne => absurd hnil hne
    rcases hk.phase with ho | hs
    · rw [if_neg (ne_true_of_eq_false ho.clientClosed)]
      exact { hdone with phase := .inl (hopened ho none) }
    · rw [if_pos hs.clientClosed]
      exact kept_freeSocksWith_of_shut hdone (hk.not_freed hsocks) hs.clientClosed hsocks hs.ended
        (fun _ _ => hnil) _

/-! ## From SOCKS -/

/-- What holds while data is being written to the device. -/
structure Writing (inCallback : Bool) (s : TcpSession) : Prop extends
    Base inCallback s, Opened s where
  up : s.client.socksUp = true

/-- What one round of writing leaves alone, and what it moves. -/
structure WritesOut (s s' : TcpSession) : Prop where
  socks : s'.socks = s.socks
  socksClosed : s'.client.socksClosed = s.client.socksClosed
  socksRecvBuf : s'.client.socksRecvBuf = s.client.socksRecvBuf
  acked : s'.pcb.acked = s.pcb.acked
  moved : s'.client.socksRecvTcpPending + (unsent s'.client).length =
    s.client.socksRecvTcpPending + (unsent s.client).length

/-- One successful `tcp_write`. -/
def writeOut (s : TcpSession) (toWrite : ℕ) : TcpSession :=
  { s with
    pcb.written := s.pcb.written ++ (unsent s.client).take toWrite
    client.socksRecvBufSent := s.client.socksRecvBufSent + toWrite
    client.socksRecvTcpPending := s.client.socksRecvTcpPending + toWrite }

theorem unsent_writeOut (s : TcpSession) (toWrite : ℕ) :
    unsent (s.writeOut toWrite).client = (unsent s.client).drop toWrite := by
  rw [unsent, unsent, List.drop_drop]
  rfl

theorem Writing.writeOut (hw : Writing inCallback s) {toWrite : ℕ}
    (hle : toWrite ≤ (unsent s.client).length) :
    Writing inCallback (s.writeOut toWrite) ∧ WritesOut s (s.writeOut toWrite) := by
  have hrest : s.pcb.written ++ (unsent s.client).take toWrite ++ (unsent s.client).drop toWrite =
      s.socks.received := by
    rw [List.append_assoc, List.take_append_drop]
    exact hw.rest
  have htake : ((unsent s.client).take toWrite).length = toWrite := List.length_take_of_le hle
  have hcount := hw.pending
  constructor
  · refine { hw with
      early := fun h => absurd (hw.up.symm.trans h).symm Bool.false_ne_true
      fromSocks := ⟨_, hrest⟩
      delivered := fun h => absurd (hw.ended.symm.trans h) (Option.some_ne_none _).symm
      rest := ?_
      pending := ?_ }
    · rw [unsent_writeOut]
      exact hrest
    · change (s.pcb.written ++ (unsent s.client).take toWrite).length =
        s.pcb.acked + (s.client.socksRecvTcpPending + toWrite)
      rw [List.length_append, htake]
      omega
  · refine ⟨rfl, rfl, rfl, rfl, ?_⟩
    rw [unsent_writeOut, List.length_drop]
    change s.client.socksRecvTcpPending + toWrite + _ = _
    omega

theorem WritesOut.trans {s'' : TcpSession} (h : WritesOut s s') (h' : WritesOut s' s'') :
    WritesOut s s'' :=
  ⟨h'.socks.trans h.socks, h'.socksClosed.trans h.socksClosed,
    h'.socksRecvBuf.trans h.socksRecvBuf, h'.acked.trans h.acked, h'.moved.trans h.moved⟩

theorem writing_sendOutLoop (hw : Writing inCallback s) (writes : List (ℕ × Err)) :
    Writing inCallback (s.sendOutLoop writes).1 ∧ WritesOut s (s.sendOutLoop writes).1 := by
  induction writes generalizing s with
  | nil => exact ⟨hw, rfl, rfl, rfl, rfl, rfl⟩
  | cons answer writes ih =>
    obtain ⟨sndbuf, err⟩ := answer
    have hsame : Writing inCallback s ∧ WritesOut s s := ⟨hw, rfl, rfl, rfl, rfl, rfl⟩
    rw [sendOutLoop, usePcb_of_open hw.ended]
    split
    · exact hsame
    · cases err with
      | mem => exact hsame
      | abrt => exact hsame
      | conn => exact hsame
      | ok =>
        obtain ⟨hnext, hout⟩ := hw.writeOut (Nat.min_le_left (unsent s.client).length sndbuf)
        dsimp only
        split
        · obtain ⟨hend, hout'⟩ := ih hnext
          exact ⟨hend, hout.trans hout'⟩
        · exact ⟨hnext, hout⟩

/-- `client_socks_recv_send_out` returned 0: the client waits for a confirmation, or everything was
queued. -/
structure SentOut (inCallback : Bool) (s s' : TcpSession) : Prop extends Writing inCallback s' where
  socks : s'.socks = s.socks
  socksClosed : s'.client.socksClosed = s.client.socksClosed
  acked : s'.pcb.acked = s.pcb.acked
  unconfirmed : 0 < s'.client.socksRecvTcpPending
  waiting : s'.client.socksRecvBuf ≠ none →
    unsent s'.client ≠ [] ∧ s'.client.socksRecvWaiting = true

theorem clientSocksRecvSendOut_spec (answers : LwipAnswers) (hw : Writing inCallback s)
    (hne : unsent s.client ≠ []) (hwaiting : s.client.socksRecvWaiting = false) :
    ((s.clientSocksRecvSendOut answers).2 = false →
      Kept inCallback (s.clientSocksRecvSendOut answers).1 ∧
        (s.client.socksClosed = true → (s.clientSocksRecvSendOut answers).1.Over)) ∧
    ((s.clientSocksRecvSendOut answers).2 = true →
      SentOut inCallback s (s.clientSocksRecvSendOut answers).1) := by
  have hbuf : (s.client.socksRecvBuf.getD []).isEmpty = false := by
    rw [List.isEmpty_eq_false_iff]
    intro hnil
    rw [unsent, hnil, List.drop_nil] at hne
    exact hne rfl
  have hlength := List.length_pos_iff.mpr hne
  obtain ⟨hloop, hout⟩ := writing_sendOutLoop hw answers.writes
  have hmoved := hout.moved
  rw [clientSocksRecvSendOut, assert_of_not_freed (by rw [hw.clientClosed]; rfl) hw.freed,
    assert_of_not_freed hw.up hw.freed, assert_of_not_freed (by rw [hbuf]; rfl) hw.freed,
    assert_of_not_freed (by rw [List.isEmpty_eq_false_iff.mpr hne]; rfl) hw.freed,
    assert_of_not_freed (by rw [hwaiting]; rfl) hw.freed]
  rcases hresult : s.sendOutLoop answers.writes with ⟨t, failed⟩
  rw [hresult] at hloop hout hmoved
  dsimp only at hloop hout hmoved ⊢
  have habort : ∀ {result : TcpSession × Bool}, result = (t.clientAbortClient, false) →
      (result.2 = false → Kept inCallback result.1 ∧
        (s.client.socksClosed = true → result.1.Over)) ∧
      (result.2 = true → SentOut inCallback s result.1) := by
    rintro _ rfl
    refine ⟨fun _ => ⟨kept_clientAbortClient hloop.toBase hloop.toLive, fun hsocks => ?_⟩,
      fun h => by cases h⟩
    exact over_clientAbortClient (hout.socksClosed.trans hsocks)
  split
  · exact habort rfl
  · rw [usePcb_of_open hloop.ended]
    split
    · exact habort rfl
    · split
      next hmore =>
        split
        · exact habort rfl
        next hpending =>
          refine ⟨fun h => (by cases h), fun _ => ?_⟩
          exact { hloop with
            socks := hout.socks
            socksClosed := hout.socksClosed
            acked := hout.acked
            unconfirmed := Nat.pos_of_ne_zero hpending
            waiting := fun _ => ⟨hmore, rfl⟩ }
      next hnone =>
        have hnil : unsent t.client = [] := not_not.mp hnone
        have hrest := hloop.rest
        rw [hnil, List.append_nil] at hrest
        rw [hnil, List.length_nil] at hmoved
        refine ⟨fun h => (by cases h), fun _ => ?_⟩
        exact { hloop with
          early := fun h => absurd (hloop.up.symm.trans h).symm Bool.false_ne_true
          receives := fun _ => rfl
          rest := by
            change t.pcb.written ++ List.drop _ [] = t.socks.received
            rw [List.drop_nil, List.append_nil, hrest]
          socks := hout.socks
          socksClosed := hout.socksClosed
          acked := hout.acked
          unconfirmed := by
            change 0 < t.client.socksRecvTcpPending
            omega
          waiting := fun h => absurd rfl h }

/-- The client starts to receive again. -/
theorem kept_clientSocksRecvInitiate (hw : Writing inCallback s) (hsocks : s.client.socksClosed = false)
    (hidle : s.socks.receiving = false) (hbuf : s.client.socksRecvBuf = none) :
    Kept inCallback s.clientSocksRecvInitiate := by
  rw [clientSocksRecvInitiate, assert_of_not_freed (by rw [hw.clientClosed]; rfl) hw.freed,
    assert_of_not_freed (by rw [hsocks]; rfl) hw.freed, assert_of_not_freed hw.up hw.freed,
    assert_of_not_freed (by rw [hbuf]; rfl) hw.freed,
    receiverRecv_of_idle (hw.socksFreed.trans hsocks) hidle]
  refine { hw with
    early := fun h => absurd (hw.up.symm.trans h).symm Bool.false_ne_true
    receives := fun _ => hbuf
    phase := .inl { hw with
      waiting := fun h => absurd hbuf h
      draining := fun h => absurd (hsocks.symm.trans h) Bool.false_ne_true
      receiving := fun _ _ => ?_ } }
  change true = s.client.socksRecvBuf.isNone
  rw [hbuf]
  rfl

/-- The client waits for a confirmation. -/
theorem SentOut.kept (h : SentOut inCallback s s') (hidle : s.socks.receiving = false)
    (hwait : s'.client.socksRecvBuf ≠ none ∨ s'.client.socksClosed = true) : Kept inCallback s' := by
  refine { h with
    phase := .inl { h with
      waiting := fun hbuf => ⟨(h.waiting hbuf).1, (h.waiting hbuf).2, h.unconfirmed⟩
      draining := fun _ => ⟨h.up, h.unconfirmed⟩
      receiving := fun _ hsocks => ?_ } }
  have hbuf : s'.client.socksRecvBuf ≠ none := by
    rcases hwait with hbuf | hclosed
    · exact hbuf
    · exact absurd (hsocks.symm.trans hclosed) Bool.false_ne_true
  rw [h.socks, hidle]
  exact (Option.isNone_eq_false_iff.mpr (Option.isSome_iff_ne_none.mpr hbuf)).symm

/-- What arrived is in the receive buffer. -/
def loaded (s : TcpSession) (data : Bytes) : TcpSession :=
  { s with
    client.socksRecvBuf := some data
    client.socksRecvBufSent := 0
    client.socksRecvWaiting := false }

theorem clientSocksRecvHandlerDone_eq (hfreed : s.freed = false) (hsocks : s.client.socksClosed = false)
    (hup : s.client.socksUp = true) (hbuf : s.client.socksRecvBuf = none)
    {data : Bytes} (hpos : 0 < data.length) (hle : data.length ≤ CLIENT_SOCKS_RECV_BUF_SIZE) :
    s.clientSocksRecvHandlerDone data answers =
      if s.client.clientClosed then s
      else
        let (s', sentOut) := (s.loaded data).clientSocksRecvSendOut answers
        if sentOut = false then s'
        else if s'.access.client.socksRecvBuf = none then s'.access.clientSocksRecvInitiate
        else s'.access := by
  rw [clientSocksRecvHandlerDone, assert_of_not_freed (decide_eq_true hpos) hfreed,
    assert_of_not_freed (decide_eq_true hle) hfreed, assert_of_not_freed (by rw [hsocks]; rfl) hfreed,
    assert_of_not_freed hup hfreed, assert_of_not_freed (by rw [hbuf]; rfl) hfreed]
  rfl

theorem kept_clientSocksRecvHandlerDone (hk : Kept inCallback s) (hopen : s.socks.freed = false)
    (hreceiving : s.socks.receiving = true) {data : Bytes} (hpos : 0 < data.length)
    (hle : data.length ≤ CLIENT_SOCKS_RECV_BUF_SIZE) :
    Kept inCallback ({ s with
      socks.receiving := false
      socks.received := s.socks.received ++ data }.clientSocksRecvHandlerDone data answers) := by
  have hsocks : s.client.socksClosed = false := hk.socksFreed.symm.trans hopen
  have hfreed := hk.not_freed hsocks
  have hbuf := hk.receives hreceiving
  have hup : s.client.socksUp = true := by
    by_contra h
    have hidle := (hk.early (Bool.eq_false_of_not_eq_true h)).1
    rw [hreceiving] at hidle
    cases hidle
  have hbase : Base inCallback { s with
      socks.receiving := false
      socks.received := s.socks.received ++ data } := by
    refine { hk.toBase with early := ?_, receives := ?_, fromSocks := ?_, delivered := ?_ }
    · exact fun h => absurd (hup.symm.trans h).symm Bool.false_ne_true
    · exact fun h => by cases h
    · exact hk.fromSocks.trans (List.prefix_append _ _)
    · exact fun h h' => absurd (hsocks.symm.trans (hk.delivered h h').1) Bool.false_ne_true
  rw [clientSocksRecvHandlerDone_eq (by exact hfreed) (by exact hsocks) (by exact hup) (by exact hbuf) hpos
    hle]
  rcases hk.phase with ho | hs
  · have hrest := ho.rest
    rw [unsent, hbuf, Option.getD_none, List.drop_nil, List.append_nil] at hrest
    -- the data is in the buffer, and is written from its beginning
    have hwriting : Writing inCallback (loaded { s with
        socks.receiving := false
        socks.received := s.socks.received ++ data } data) :=
      { hbase, ho with
        early := fun h => absurd (hup.symm.trans h).symm Bool.false_ne_true
        receives := fun h => by cases h
        rest := by
          change s.pcb.written ++ data.drop 0 = s.socks.received ++ data
          rw [List.drop_zero, hrest]
        up := hup }
    obtain ⟨hfailed, hsent⟩ := clientSocksRecvSendOut_spec answers hwriting
      (List.length_pos_iff.mp hpos) rfl
    rw [if_neg (by exact ne_true_of_eq_false ho.clientClosed)]
    rcases hresult : (loaded { s with
        socks.receiving := false
        socks.received := s.socks.received ++ data } data).clientSocksRecvSendOut answers
      with ⟨t, sentOut⟩
    rw [hresult] at hfailed hsent
    dsimp only at hfailed hsent ⊢
    cases sentOut with
    | false => exact (hfailed rfl).1
    | true =>
      have hout := hsent rfl
      rw [if_neg (by decide), access_of_not_freed hout.freed]
      split
      next hnone =>
        exact kept_clientSocksRecvInitiate hout.toWriting (hout.socksClosed.trans hsocks)
          (congrArg SocksConnection.receiving hout.socks) hnone
      next hsome => exact hout.kept rfl (.inl hsome)
  · -- what arrives for a closed client is dropped
    rw [if_pos (by exact hs.clientClosed)]
    exact { hbase with phase := .inr { hs with } }

/-! ## The SOCKS client -/

/-- Everything that waited for SOCKS is started. -/
def broughtUp (s : TcpSession) : TcpSession :=
  { s with
    socks.up := true
    socks.sending := if s.client.buf = [] then none else some s.client.buf.length
    socks.receiving := !s.client.clientClosed
    client.socksUp := true
    client.socksRecvBuf := none
    client.socksRecvTcpPending := 0
    pcb.sentFunc := if s.client.clientClosed then s.pcb.sentFunc else true }

theorem clientSocksHandler_up (hk : Kept inCallback s) (hopen : s.socks.freed = false)
    (hup : s.client.socksUp = false) :
    (s.reported .up).clientSocksHandler .up answers = s.broughtUp := by
  have hsocks : s.client.socksClosed = false := hk.socksFreed.symm.trans hopen
  have hfreed := hk.not_freed hsocks
  have hreceiving := (hk.early hup).1
  have hsending : s.socks.sending = none := by
    by_contra h
    obtain ⟨n, hn⟩ := Option.ne_none_iff_exists'.mp h
    exact absurd (hup.symm.trans (hk.sending n hn).2.2.1) Bool.false_ne_true
  rcases hk.phase with ho | hs
  · by_cases hnil : s.client.buf = []
    · simp [clientSocksHandler, reported, broughtUp, assert, access, setSentFunc, usePcb,
        clientSocksRecvInitiate, receiverRecv, hsocks, hfreed, hup, hreceiving, hsending, hopen, hnil,
        ho.clientClosed, ho.ended]
    · simp [clientSocksHandler, reported, broughtUp, assert, access, setSentFunc, usePcb,
        clientSendToSocks, senderSend, clientSocksRecvInitiate, receiverRecv, hsocks, hfreed, hup,
        hreceiving, hsending, hopen, hnil, ho.clientClosed, ho.ended]
  · have hne := hs.draining hsocks
    simp [clientSocksHandler, reported, broughtUp, assert, access, clientSendToSocks, senderSend, hsocks,
      hfreed, hup, hreceiving, hsending, hopen, hne, hs.clientClosed]

theorem kept_broughtUp (hk : Kept inCallback s) (hopen : s.socks.freed = false)
    (hup : s.client.socksUp = false) : Kept inCallback s.broughtUp := by
  have hsocks : s.client.socksClosed = false := hk.socksFreed.symm.trans hopen
  obtain ⟨-, hreceived, hwritten, hacked, hbuf, hpending⟩ := hk.early hup
  have hbase : Base inCallback s.broughtUp := by
    refine { hk.toBase with
      callbacks := ?_, socksUp := rfl, sending := ?_, sends := ?_, early := ?_, receives := fun _ => rfl }
    · intro hclosed
      have hnone := hk.callbacks hclosed
      refine ⟨hnone.1, hnone.2.1, ?_⟩
      rcases hk.phase with ho | hs
      · exact absurd (ho.ended.symm.trans hclosed) (Option.some_ne_none _).symm
      · exact (if_pos hs.clientClosed).trans hnone.2.2
    · intro n hn
      by_cases hnil : s.client.buf = []
      · exact absurd ((if_pos hnil).symm.trans hn) (Option.some_ne_none _).symm
      · have hlength : some s.client.buf.length = some n := (if_neg hnil).symm.trans hn
        cases hlength
        exact ⟨List.length_pos_iff.mpr hnil, le_rfl, rfl, hsocks⟩
    · intro _ _ hne hnone
      exact Option.some_ne_none _ ((if_neg hne).symm.trans hnone)
    · intro h
      cases h
  rcases hk.phase with ho | hs
  · refine { hbase with
      phase := .inl { ho with
        sentFunc := if_neg (ne_true_of_eq_false ho.clientClosed)
        rest := ?_
        pending := ?_
        waiting := fun h => absurd rfl h
        draining := fun h => absurd (hsocks.symm.trans h) Bool.false_ne_true
        receiving := fun _ _ => by
          change (!s.client.clientClosed) = true
          rw [ho.clientClosed]
          rfl } }
    · change s.pcb.written ++ List.drop _ [] = s.socks.received
      rw [List.drop_nil, hwritten, hreceived]
      rfl
    · change s.pcb.written.length = s.pcb.acked + 0
      rw [hwritten, hacked]
      rfl
  · exact { hbase with phase := .inr { hs with } }

/-- A SOCKS client that has come to its end is freed. -/
theorem kept_reported (hk : Kept inCallback s) (hopen : s.socks.freed = false) :
    Kept inCallback ({ s with socks.reported := true }.clientFreeSocks close) := by
  have hreported : Kept inCallback { s with socks.reported := true } := by
    refine { hk.toBase with complete := fun _ h => (by cases h), phase := ?_ }
    rcases hk.phase with ho | hs
    · exact .inl { ho with }
    · exact .inr { hs with }
  exact kept_clientFreeSocks hreported (hk.socksFreed.symm.trans hopen) fun h => by cases h

theorem Kept.socksStep (hk : Kept inCallback s) {a : SocksAction} (hstep : s.socksStep a = some s') :
    Kept inCallback s' := by
  cases a with
  | report event answers =>
    rw [TcpSession.socksStep] at hstep
    split at hstep
    next henabled =>
      obtain ⟨hopen, hreports⟩ := henabled
      have hsocks : s.client.socksClosed = false := hk.socksFreed.symm.trans hopen
      have hfreed := hk.not_freed hsocks
      cases hstep
      cases event with
      | up =>
        rw [reports, Bool.not_eq_true', hk.socksUp] at hreports
        rw [clientSocksHandler_up hk hopen hreports]
        exact kept_broughtUp hk hopen hreports
      | error =>
        have heq : (s.reported .error).clientSocksHandler .error answers =
            { s with socks.reported := true }.clientFreeSocks answers.close := by
          simp [clientSocksHandler, reported, assert, access, hsocks, hfreed]
        rw [heq]
        exact kept_reported hk hopen
      | errorClosed =>
        rw [reports, hk.socksUp] at hreports
        have heq : (s.reported .errorClosed).clientSocksHandler .errorClosed answers =
            { s with socks.reported := true }.clientFreeSocks answers.close := by
          simp [clientSocksHandler, reported, assert, access, hsocks, hfreed, hreports]
        rw [heq]
        exact kept_reported hk hopen
    · cases hstep
  | sendDone dataLen answers =>
    rw [TcpSession.socksStep] at hstep
    split at hstep
    next henabled =>
      obtain ⟨-, hpos, n, hsending, hle⟩ := henabled
      cases hstep
      exact kept_clientSocksSendHandlerDone hk hsending hpos hle
    · cases hstep
  | recvDone data answers =>
    rw [TcpSession.socksStep] at hstep
    split at hstep
    next henabled =>
      obtain ⟨hopen, hreceiving, hpos, hle⟩ := henabled
      cases hstep
      exact kept_clientSocksRecvHandlerDone hk hopen hreceiving hpos hle
    · cases hstep

theorem Kept.syncCommit (hk : Kept inCallback s) {jobs : List SocksAction}
    (hjobs : s.syncCommit jobs = some s') : Kept inCallback s' :=
  Reactive.steps_invariant (fun _ _ _ hstep ht => ht.socksStep hstep) hjobs hk

end TcpSession

end Badvpn
