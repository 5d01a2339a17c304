import DripVpn.Engine.Aead

/-!
# What is written to an encrypted stream

`wire` are the bytes that stand for some chunks of data: the salt, and then a packet for each of them.
The writer puts the packets of what it accepts on the wire, whatever part of a packet the stream takes
at a time (`writes`). It encrypts what it is offered when it first sees it, so it has to be offered the
same bytes until it accepts them.
-/

namespace Engine

open EncryptedWriter

variable {σ : Type} [PollWrite σ] {W : σ → Option Bytes → Bytes → Prop} (method : CipherKind)
  {key salt : Bytes}

/-! ## The wire -/

/-- The packets of some chunks of data. -/
def packets (cipher : Cipher) : List Bytes → Bytes
  | [] => []
  | chunk :: chunks => packet method cipher chunk ++ packets cipher.next.next chunks

/-- The salt is sent with the first packet. -/
def wire (key salt : Bytes) (chunks : List Bytes) : Bytes :=
  if chunks = [] then [] else salt ++ packets method ⟨key, salt, 0⟩ chunks

/-- The cipher after the packets of some chunks. -/
def Cipher.after (cipher : Cipher) (chunks : List Bytes) : Cipher :=
  { cipher with counter := cipher.counter + 2 * chunks.length }

variable {method}

theorem packets_concat (cipher : Cipher) (chunks : List Bytes) (chunk : Bytes) :
    packets method cipher (chunks ++ [chunk]) =
      packets method cipher chunks ++ packet method (cipher.after chunks) chunk := by
  induction chunks generalizing cipher with
  | nil => simp [packets, Cipher.after]
  | cons c chunks ih =>
    have hafter : cipher.next.next.after chunks = cipher.after (c :: chunks) := by
      simp only [Cipher.after, Cipher.next, List.length_cons, Cipher.mk.injEq, true_and]
      omega
    rw [List.cons_append, packets, ih, packets, hafter, List.append_assoc]

/-- One more packet on the wire. -/
theorem wire_concat (key salt : Bytes) (chunks : List Bytes) (chunk : Bytes) :
    wire method key salt (chunks ++ [chunk]) = wire method key salt chunks ++
      ((if chunks = [] then salt else []) ++
        packet method (Cipher.after ⟨key, salt, 0⟩ chunks) chunk) := by
  rw [wire, if_neg (by simp), packets_concat, wire]
  split
  next hnil =>
    subst hnil
    rfl
  · rw [List.nil_append, List.append_assoc]

/-! ## Writing a packet -/

namespace EncryptedWriter

/-- What writing a packet does to the stream and to the writer. -/
theorem writeBuffer_cases {cipher : Cipher} {buffer buf : Bytes} {pos : ℕ} {stream stream' : σ}
    {w' : EncryptedWriter} {p : Poll (Except IoError ℕ)}
    (h : writeBuffer cipher buffer pos stream buf = (p, w', stream')) :
    PollWrite.isShutdown stream' = PollWrite.isShutdown stream ∧
      PollWrite.patience stream' ≤ PollWrite.patience stream ∧
      (p = .pending → PollWrite.patience stream' < PollWrite.patience stream) ∧
      (∀ n, p = .ready (.ok n) → n = buf.length) ∧
      (PollWrite.Reliable stream → PollWrite.Reliable stream' ∧ ∀ e, p ≠ .ready (.error e)) := by
  fun_induction writeBuffer cipher buffer pos stream buf with
  | case1 pos stream hlt stream₁ hpoll =>
    cases h
    obtain ⟨hle, hpending⟩ := PollWrite.patience_write hpoll
    exact ⟨PollWrite.isShutdown_write hpoll, hle, fun _ => hpending rfl, (fun n hp => by cases hp),
      fun hrel => ⟨(PollWrite.reliable_write hrel hpoll).1, fun e he => by cases he⟩⟩
  | case2 pos stream hlt e stream₁ hpoll =>
    cases h
    refine ⟨PollWrite.isShutdown_write hpoll, (PollWrite.patience_write hpoll).1,
      (fun hp => by cases hp), (fun n hp => by cases hp), fun hrel => ?_⟩
    exact absurd rfl ((PollWrite.reliable_write hrel hpoll).2.1 e)
  | case3 pos stream hlt stream₁ hpoll =>
    cases h
    refine ⟨PollWrite.isShutdown_write hpoll, (PollWrite.patience_write hpoll).1,
      (fun hp => by cases hp), (fun n hp => by cases hp), fun hrel => ?_⟩
    have hne : buffer.drop pos ≠ [] := by
      rw [← List.length_pos_iff, List.length_drop]
      omega
    exact absurd rfl ((PollWrite.reliable_write hrel hpoll).2.2 hne)
  | case4 pos stream hlt n stream₁ hpoll ih =>
    obtain ⟨hshut, hle, hpending, hlength, hrel⟩ := ih h
    have hle' := (PollWrite.patience_write hpoll).1
    exact ⟨hshut.trans (PollWrite.isShutdown_write hpoll), hle.trans hle',
      fun hp => (hpending hp).trans_le hle', hlength,
      fun hr => hrel (PollWrite.reliable_write hr hpoll).1⟩
  | case5 pos stream hge =>
    cases h
    refine ⟨rfl, le_rfl, (fun hp => by cases hp), fun n hp => ?_, fun hr => ⟨hr, fun e he => by cases he⟩⟩
    cases hp
    rfl

/-- The packet that is being written: what was sent of it, and what is still in the buffer. -/
def Writing (W : σ → Option Bytes → Bytes → Prop) (wire : Bytes) (buffer : Bytes) (pos : ℕ)
    (stream : σ) : Prop :=
  ∃ offered sent, W stream offered sent ∧ sent ++ buffer.drop pos = wire ∧
    ∀ b ∈ offered, b = buffer.drop pos ∧ pos < buffer.length

/-- A packet is written as it is, and then the writer is ready for the next. -/
theorem Writing.writeBuffer (hW : Writes W) {cipher : Cipher} {wire buffer buf : Bytes} {pos : ℕ}
    {stream stream' : σ} {w' : EncryptedWriter} {p : Poll (Except IoError ℕ)}
    (h : Writing W wire buffer pos stream)
    (hwrite : writeBuffer cipher buffer pos stream buf = (p, w', stream')) :
    (∀ n, p = .ready (.ok n) → w' = ⟨cipher, [], .assemblePacket⟩ ∧ W stream' none wire) ∧
      ((∀ n, p ≠ .ready (.ok n)) →
        ∃ pos', w' = ⟨cipher, buffer, .writing pos'⟩ ∧ Writing W wire buffer pos' stream') := by
  fun_induction EncryptedWriter.writeBuffer cipher buffer pos stream buf with
  | case1 pos stream hlt stream₁ hpoll =>
    cases hwrite
    obtain ⟨offered, sent, hsent, hwire, hoffered⟩ := h
    refine ⟨(fun n hp => by cases hp), fun _ => ⟨pos, rfl, some (buffer.drop pos), sent,
      hW.pending hsent (fun b hb => (hoffered b hb).1) hpoll, hwire, fun b hb => ?_⟩⟩
    cases hb
    exact ⟨rfl, hlt⟩
  | case2 pos stream hlt e stream₁ hpoll =>
    cases hwrite
    obtain ⟨offered, sent, hsent, hwire, hoffered⟩ := h
    refine ⟨(fun n hp => by cases hp), fun _ => ⟨pos, rfl, some (buffer.drop pos), sent,
      hW.failed hsent (fun b hb => (hoffered b hb).1) hpoll, hwire, fun b hb => ?_⟩⟩
    cases hb
    exact ⟨rfl, hlt⟩
  | case3 pos stream hlt stream₁ hpoll =>
    cases hwrite
    obtain ⟨offered, sent, hsent, hwire, hoffered⟩ := h
    have hsent' := hW.ready hsent (fun b hb => (hoffered b hb).1) hpoll
    rw [List.take_zero, List.append_nil] at hsent'
    exact ⟨(fun n hp => by cases hp), fun _ => ⟨pos, rfl, none, sent, hsent', hwire,
      fun b hb => by cases hb⟩⟩
  | case4 pos stream hlt n stream₁ hpoll ih =>
    obtain ⟨offered, sent, hsent, hwire, hoffered⟩ := h
    refine ih ⟨none, _, hW.ready hsent (fun b hb => (hoffered b hb).1) hpoll, ?_,
      fun b hb => by cases hb⟩ hwrite
    rw [List.append_assoc, ← List.drop_drop, List.take_append_drop, hwire]
  | case5 pos stream hge =>
    cases hwrite
    obtain ⟨offered, sent, hsent, hwire, hoffered⟩ := h
    have hnone : offered = none :=
      Option.eq_none_iff_forall_not_mem.mpr fun b hb => absurd (hoffered b hb).2 hge
    rw [List.drop_eq_nil_of_le (Nat.le_of_not_lt hge), List.append_nil] at hwire
    subst hnone hwire
    exact ⟨fun n _ => ⟨rfl, hsent⟩, fun hp => absurd rfl (hp _)⟩

/-- The writer has taken the chunks `chunks`. -/
structure Sent (method : CipherKind) (W : σ → Option Bytes → Bytes → Prop) (key salt : Bytes)
    (w : EncryptedWriter) (stream : σ) (offered : Option Bytes) (chunks : List Bytes) : Prop where
  length_le : ∀ chunk ∈ chunks, chunk.length ≤ MAX_PACKET_SIZE
  assembling : w.state = .assemblePacket →
    w.cipher = Cipher.after ⟨key, salt, 0⟩ chunks ∧ w.buffer = (if chunks = [] then salt else []) ∧
      W stream none (wire method key salt chunks)
  writing : ∀ pos, w.state = .writing pos → ∃ buf, offered = some buf ∧
    w.cipher = Cipher.after ⟨key, salt, 0⟩ (chunks ++ [buf.take MAX_PACKET_SIZE]) ∧
    Writing W (wire method key salt (chunks ++ [buf.take MAX_PACKET_SIZE])) w.buffer pos stream

omit [PollWrite σ] in
theorem sent_new {stream : σ} (h : W stream none []) :
    Sent method W key salt (new key salt) stream none [] where
  length_le := fun _ hchunk => by cases hchunk
  assembling _ := ⟨rfl, rfl, h⟩
  writing _ hstate := by cases hstate

/-- What is offered is put on the wire, and is taken when all of it is there. -/
theorem Sent.pollWriteEncrypted (hW : Writes W) {w w' : EncryptedWriter} {stream stream' : σ}
    {offered : Option Bytes} {chunks : List Bytes} {buf : Bytes} {p : Poll (Except IoError ℕ)}
    (h : Sent method W key salt w stream offered chunks) (hoffered : ∀ b ∈ offered, b = buf)
    (hpoll : w.pollWriteEncrypted method stream buf = (p, w', stream')) :
    (∀ n, p = .ready (.ok n) →
      Sent method W key salt w' stream' none (chunks ++ [buf.take MAX_PACKET_SIZE])) ∧
    ((∀ n, p ≠ .ready (.ok n)) → Sent method W key salt w' stream' (some buf) chunks) := by
  have hlength : ∀ chunk ∈ chunks ++ [buf.take MAX_PACKET_SIZE], chunk.length ≤ MAX_PACKET_SIZE := by
    intro chunk hchunk
    rcases List.mem_append.mp hchunk with hchunk | hchunk
    · exact h.length_le chunk hchunk
    · rw [List.mem_singleton.mp hchunk]
      exact List.length_take_le _ _
  -- either way the packet of `buf` is being written
  obtain ⟨cipher, buffer, pos, hcipher, hwriting, hwrite⟩ : ∃ cipher buffer pos,
      cipher = Cipher.after ⟨key, salt, 0⟩ (chunks ++ [buf.take MAX_PACKET_SIZE]) ∧
      Writing W (wire method key salt (chunks ++ [buf.take MAX_PACKET_SIZE])) buffer pos stream ∧
      EncryptedWriter.writeBuffer cipher buffer pos stream (buf.take MAX_PACKET_SIZE) =
        (p, w', stream') := by
    cases hstate : w.state with
    | assemblePacket =>
      obtain ⟨hcipher, hbuffer, hsent⟩ := h.assembling hstate
      simp only [EncryptedWriter.pollWriteEncrypted, hstate] at hpoll
      refine ⟨_, _, 0, ?_, ⟨none, _, hsent, ?_, fun b hb => by cases hb⟩, hpoll⟩
      · rw [assemblePacket, hcipher]
        simp only [Cipher.after, Cipher.next, List.length_append, List.length_singleton,
          Cipher.mk.injEq, true_and]
        omega
      · rw [List.drop_zero, wire_concat, assemblePacket, hcipher, hbuffer]
    | writing pos =>
      obtain ⟨b, hb, hcipher, hwriting⟩ := h.writing pos hstate
      obtain rfl := hoffered b hb
      simp only [EncryptedWriter.pollWriteEncrypted, hstate] at hpoll
      exact ⟨w.cipher, w.buffer, pos, hcipher, hwriting, hpoll⟩
  obtain ⟨hready, hwaiting⟩ := hwriting.writeBuffer hW hwrite
  refine ⟨fun n hp => ?_, fun hp => ?_⟩
  · obtain ⟨rfl, hsent⟩ := hready n hp
    exact ⟨hlength, fun _ => ⟨hcipher, by simp, hsent⟩, fun pos hstate => by cases hstate⟩
  · obtain ⟨pos', rfl, hwriting'⟩ := hwaiting hp
    refine ⟨h.length_le, (fun hstate => by cases hstate), fun pos hstate => ?_⟩
    cases hstate
    exact ⟨buf, rfl, hcipher, hwriting'⟩

end EncryptedWriter

/-! ## The encrypted stream -/

namespace EncryptedStream

/-- `poll_write_encrypted` of a `CryptoStream` -/
def pollWrite (s : EncryptedStream method σ) (buf : Bytes) :
    Poll (Except IoError ℕ) × EncryptedStream method σ :=
  match s.writer.pollWriteEncrypted method s.stream buf with
  | (p, writer, stream) => (p, ⟨writer, stream⟩)

/-- `poll_flush` of a `CryptoStream` -/
def pollFlush (s : EncryptedStream method σ) :
    Poll (Except IoError Unit) × EncryptedStream method σ :=
  match PollWrite.pollFlush s.stream with
  | (p, stream) => (p, { s with stream })

/-- `poll_shutdown` of a `CryptoStream` -/
def pollShutdown (s : EncryptedStream method σ) :
    Poll (Except IoError Unit) × EncryptedStream method σ :=
  match PollWrite.pollShutdown s.stream with
  | (p, stream) => (p, { s with stream })

theorem pollWrite_eq_iff {s s' : EncryptedStream method σ} {buf : Bytes} {p : Poll (Except IoError ℕ)} :
    s.pollWrite buf = (p, s') ↔
      s.writer.pollWriteEncrypted method s.stream buf = (p, s'.writer, s'.stream) := by
  rw [pollWrite]
  obtain ⟨q, writer, stream⟩ := s.writer.pollWriteEncrypted method s.stream buf
  obtain ⟨writer', stream'⟩ := s'
  simp

theorem pollFlush_eq_iff {s s' : EncryptedStream method σ} {p : Poll (Except IoError Unit)} :
    s.pollFlush = (p, s') ↔ PollWrite.pollFlush s.stream = (p, s'.stream) ∧ s'.writer = s.writer := by
  rw [pollFlush]
  obtain ⟨q, stream⟩ := PollWrite.pollFlush s.stream
  obtain ⟨writer', stream'⟩ := s'
  simp only [Prod.mk.injEq, EncryptedStream.mk.injEq]
  exact ⟨fun ⟨hp, hw, hs⟩ => ⟨⟨hp, hs⟩, hw.symm⟩, fun ⟨⟨hp, hs⟩, hw⟩ => ⟨hp, hw.symm, hs⟩⟩

theorem pollShutdown_eq_iff {s s' : EncryptedStream method σ} {p : Poll (Except IoError Unit)} :
    s.pollShutdown = (p, s') ↔
      PollWrite.pollShutdown s.stream = (p, s'.stream) ∧ s'.writer = s.writer := by
  rw [pollShutdown]
  obtain ⟨q, stream⟩ := PollWrite.pollShutdown s.stream
  obtain ⟨writer', stream'⟩ := s'
  simp only [Prod.mk.injEq, EncryptedStream.mk.injEq]
  exact ⟨fun ⟨hp, hw, hs⟩ => ⟨⟨hp, hs⟩, hw.symm⟩, fun ⟨⟨hp, hs⟩, hw⟩ => ⟨hp, hw.symm, hs⟩⟩

/-- A poll writes some buffer, for the part of `buf` that fits into a packet. -/
theorem pollWrite_writeBuffer {s s' : EncryptedStream method σ} {buf : Bytes}
    {p : Poll (Except IoError ℕ)} (h : s.pollWrite buf = (p, s')) :
    ∃ cipher buffer pos, writeBuffer cipher buffer pos s.stream (buf.take MAX_PACKET_SIZE) =
      (p, s'.writer, s'.stream) := by
  have hwrite := pollWrite_eq_iff.mp h
  cases hstate : s.writer.state with
  | assemblePacket =>
    simp only [pollWriteEncrypted, hstate] at hwrite
    exact ⟨_, _, _, hwrite⟩
  | writing pos =>
    simp only [pollWriteEncrypted, hstate] at hwrite
    exact ⟨_, _, _, hwrite⟩

/-- The part that fits into a packet is accepted as a whole. -/
theorem accepted_eq {s s' : EncryptedStream method σ} {buf : Bytes} {n : ℕ}
    (h : s.pollWrite buf = (.ready (.ok n), s')) : n = (buf.take MAX_PACKET_SIZE).length := by
  obtain ⟨cipher, buffer, pos, hwrite⟩ := pollWrite_writeBuffer h
  exact (writeBuffer_cases hwrite).2.2.2.1 n rfl

instance : PollWrite (EncryptedStream method σ) where
  pollWrite := pollWrite
  pollFlush := pollFlush
  pollShutdown := pollShutdown
  patience s := PollWrite.patience s.stream
  isShutdown s := PollWrite.isShutdown s.stream
  Reliable s := PollWrite.Reliable s.stream
  accepted_le h := by
    rw [accepted_eq h]
    exact List.length_take_le' _ _
  patience_write h := by
    obtain ⟨cipher, buffer, pos, hwrite⟩ := pollWrite_writeBuffer h
    obtain ⟨-, hle, hlt, -⟩ := writeBuffer_cases hwrite
    exact ⟨hle, hlt⟩
  patience_flush h := PollWrite.patience_flush (pollFlush_eq_iff.mp h).1
  patience_shutdown h := PollWrite.patience_shutdown (pollShutdown_eq_iff.mp h).1
  isShutdown_write h := by
    obtain ⟨cipher, buffer, pos, hwrite⟩ := pollWrite_writeBuffer h
    exact (writeBuffer_cases hwrite).1
  isShutdown_flush h := PollWrite.isShutdown_flush (pollFlush_eq_iff.mp h).1
  isShutdown_shutdown h := PollWrite.isShutdown_shutdown (pollShutdown_eq_iff.mp h).1
  reliable_write hrel h := by
    obtain ⟨cipher, buffer, pos, hwrite⟩ := pollWrite_writeBuffer h
    obtain ⟨-, -, -, hlength, hreliable⟩ := writeBuffer_cases hwrite
    refine ⟨(hreliable hrel).1, (hreliable hrel).2, fun hne hp => ?_⟩
    have hzero := hlength 0 hp
    rw [eq_comm, List.length_eq_zero_iff, List.take_eq_nil_iff] at hzero
    rcases hzero with hzero | hzero
    · cases hzero
    · exact hne hzero
  reliable_flush hrel h := PollWrite.reliable_flush hrel (pollFlush_eq_iff.mp h).1
  reliable_shutdown hrel h := PollWrite.reliable_shutdown hrel (pollShutdown_eq_iff.mp h).1

/-- The stream has taken what its writer has taken. -/
def Takes (W : σ → Option Bytes → Bytes → Prop) (key salt : Bytes) (s : EncryptedStream method σ)
    (offered : Option Bytes) (taken : Bytes) : Prop :=
  ∃ chunks, taken = chunks.flatten ∧ Sent method W key salt s.writer s.stream offered chunks

omit [PollWrite σ] in
/-- Flushing and shutting down happens between packets. -/
theorem Takes.between {W : σ → Option Bytes → Bytes → Prop} {s s' : EncryptedStream method σ}
    {taken : Bytes} (h : Takes W key salt s none taken)
    (hstream : ∀ sent, W s.stream none sent → W s'.stream none sent) (hwriter : s'.writer = s.writer) :
    Takes W key salt s' none taken := by
  obtain ⟨chunks, hflatten, hsent⟩ := h
  refine ⟨chunks, hflatten, hsent.length_le, fun hstate => ?_, fun pos hstate => ?_⟩
  · obtain ⟨hcipher, hbuffer, htaken⟩ := hsent.assembling (hwriter ▸ hstate)
    rw [hwriter]
    exact ⟨hcipher, hbuffer, hstream _ htaken⟩
  · obtain ⟨buf, hbuf, -⟩ := hsent.writing pos (hwriter ▸ hstate)
    cases hbuf

/-- An encrypted stream takes what it accepts. -/
theorem writes (hW : Writes W) :
    Writes (Takes W key salt : EncryptedStream method σ → Option Bytes → Bytes → Prop) where
  pending {s s' offered buf taken} h hoffered hpoll := by
    obtain ⟨chunks, hflatten, hsent⟩ := h
    refine ⟨chunks, hflatten, ?_⟩
    exact (hsent.pollWriteEncrypted hW hoffered (pollWrite_eq_iff.mp hpoll)).2 fun n hn => by cases hn
  ready {s s' offered buf taken n} h hoffered hpoll := by
    obtain ⟨chunks, rfl, hsent⟩ := h
    have hn : n = (buf.take MAX_PACKET_SIZE).length := accepted_eq hpoll
    refine ⟨chunks ++ [buf.take MAX_PACKET_SIZE], ?_,
      (hsent.pollWriteEncrypted hW hoffered (pollWrite_eq_iff.mp hpoll)).1 n rfl⟩
    rw [List.flatten_append, List.flatten_singleton, hn, List.length_take, ← List.take_eq_take_min]
  failed {s s' offered buf taken e} h hoffered hpoll := by
    obtain ⟨chunks, hflatten, hsent⟩ := h
    refine ⟨chunks, hflatten, ?_⟩
    exact (hsent.pollWriteEncrypted hW hoffered (pollWrite_eq_iff.mp hpoll)).2 fun n hn => by cases hn
  flush h hpoll := by
    obtain ⟨hflush, hwriter⟩ := pollFlush_eq_iff.mp hpoll
    exact h.between (fun sent hsent => hW.flush hsent hflush) hwriter
  shutdown h hpoll := by
    obtain ⟨hshutdown, hwriter⟩ := pollShutdown_eq_iff.mp hpoll
    exact h.between (fun sent hsent => hW.shutdown hsent hshutdown) hwriter

end EncryptedStream

end Engine
