import DripVpn.Foundations.PollIo

/-!
# Relaying between two streams

`CopyBuffer`, `transfer_one_direction` and `CopyBidirectional` of `relay/tcprelay/utils.rs`, which
relay every connection of the engine, over any two streams.

The buffer is offered to the writer until all of it is accepted, and only then filled again. A writer
that has begun to process bytes it has not accepted is therefore offered the same bytes again, which
is what a writer that encrypts relies on.
-/

namespace Engine

variable {ρ ω : Type} [PollRead ρ] [PollWrite ω]

/-! ## One direction -/

structure CopyBuffer where
  readDone : Bool
  pos : ℕ
  cap : ℕ
  amt : ℕ
  buf : Bytes
  pos_le : pos ≤ cap
  cap_le : cap ≤ buf.length

namespace CopyBuffer

def new (bufferSize : ℕ) : CopyBuffer where
  readDone := false
  pos := 0
  cap := 0
  amt := 0
  buf := List.replicate bufferSize 0
  pos_le := le_rfl
  cap_le := Nat.zero_le _

/-- `buf[pos..cap]` -/
def slice (c : CopyBuffer) : Bytes := (c.buf.take c.cap).drop c.pos

theorem length_slice (c : CopyBuffer) : c.slice.length = c.cap - c.pos := by
  rw [slice, List.length_drop, List.length_take, Nat.min_eq_left c.cap_le]

/-- The buffer after `n` of its bytes were received. -/
def filled (c : CopyBuffer) (received : Bytes) : CopyBuffer where
  readDone := c.readDone
  pos := 0
  cap := received.length
  amt := c.amt
  buf := received ++ c.buf.drop received.length
  pos_le := Nat.zero_le _
  cap_le := by
    rw [List.length_append]
    exact Nat.le_add_right _ _

/-- The buffer after `n` of its bytes were accepted. -/
def advance (c : CopyBuffer) (n : ℕ) (h : n ≤ c.slice.length) : CopyBuffer where
  readDone := c.readDone
  pos := c.pos + n
  cap := c.cap
  amt := c.amt + n
  buf := c.buf
  pos_le := by
    have := c.pos_le
    rw [length_slice] at h
    omega
  cap_le := c.cap_le

/-- If our buffer is empty, then we need to read some data to continue. -/
def fill (c : CopyBuffer) (reader : ρ) : Poll (Except IoError Unit) × CopyBuffer × ρ :=
  if c.pos = c.cap ∧ c.readDone = false then
    match pollRead reader c.buf.length with
    | (.pending, reader) => (.pending, c, reader)
    | (.ready (.error e), reader) => (.ready (.error e), c, reader)
    | (.ready (.ok []), reader) => (.ready (.ok ()), { c with readDone := true }, reader)
    | (.ready (.ok (b :: bytes)), reader) => (.ready (.ok ()), c.filled (b :: bytes), reader)
  else (.ready (.ok ()), c, reader)

/-- If our buffer has some data, let's write it out! -/
def writeOut (c : CopyBuffer) (writer : ω) : Poll (Except IoError Unit) × CopyBuffer × ω :=
  if c.pos < c.cap then
    match h : pollWrite writer c.slice with
    | (.pending, writer) => (.pending, c, writer)
    | (.ready (.error e), writer) => (.ready (.error e), c, writer)
    | (.ready (.ok 0), writer) => (.ready (.error .writeZero), c, writer)
    | (.ready (.ok (i + 1)), writer) =>
      writeOut (c.advance (i + 1) (PollWrite.accepted_le h)) writer
  else (.ready (.ok ()), c, writer)
termination_by c.cap - c.pos
decreasing_by
  simp only [advance]
  omega

theorem pos_of_writeOut {c c' : CopyBuffer} {writer writer' : ω}
    (h : c.writeOut writer = (.ready (.ok ()), c', writer')) :
    c'.pos = c'.cap ∧ c'.readDone = c.readDone := by
  fun_induction writeOut c writer with
  | case1 => cases h
  | case2 => cases h
  | case3 => cases h
  | case4 c writer _ i writer₁ hpoll ih => exact ih h
  | case5 c writer hge =>
    cases h
    exact ⟨Nat.le_antisymm c'.pos_le (Nat.le_of_not_lt hge), rfl⟩

theorem remaining_of_fill {c c' : CopyBuffer} {reader reader' : ρ}
    (h : c.fill reader = (.ready (.ok ()), c', reader')) :
    (c'.readDone = true ∧ PollRead.remaining reader' ≤ PollRead.remaining reader) ∨
      PollRead.remaining reader' < PollRead.remaining reader + (c.cap - c.pos) := by
  rw [fill] at h
  split at h
  next hempty =>
    split at h
    · cases h
    · cases h
    next hpoll =>
      cases h
      exact .inl ⟨rfl, PollRead.remaining_of_ready hpoll⟩
    next hpoll =>
      cases h
      have := PollRead.remaining_of_ready hpoll
      rw [List.length_cons] at this
      omega
  next hfull =>
    cases h
    rcases hdone : c.readDone with _ | _
    · have hne : c.pos ≠ c.cap := fun heq => hfull ⟨heq, hdone⟩
      have := c.pos_le
      omega
    · exact .inl ⟨rfl, le_rfl⟩

/-- A turn of the loop of `poll_copy` that does not finish uses something up. -/
theorem turn_lt {c c₁ c₂ : CopyBuffer} {reader reader' : ρ} {writer writer' : ω}
    (hfill : c.fill reader = (.ready (.ok ()), c₁, reader'))
    (hwrite : c₁.writeOut writer = (.ready (.ok ()), c₂, writer'))
    (hloop : ¬ (c₂.pos = c₂.cap ∧ c₂.readDone = true)) :
    PollRead.remaining reader' + (c₂.cap - c₂.pos) <
      PollRead.remaining reader + (c.cap - c.pos) := by
  obtain ⟨hpos, hdone⟩ := pos_of_writeOut hwrite
  rcases remaining_of_fill hfill with ⟨hdone', -⟩ | hlt
  · exact absurd ⟨hpos, hdone.trans hdone'⟩ hloop
  · omega

/-- `poll_copy` -/
def pollCopy (c : CopyBuffer) (reader : ρ) (writer : ω) :
    Poll (Except IoError ℕ) × CopyBuffer × ρ × ω :=
  match hfill : c.fill reader with
  | (.pending, c, reader) => (.pending, c, reader, writer)
  | (.ready (.error e), c, reader) => (.ready (.error e), c, reader, writer)
  | (.ready (.ok ()), c₁, reader) =>
    match hwrite : c₁.writeOut writer with
    | (.pending, c, writer) => (.pending, c, reader, writer)
    | (.ready (.error e), c, writer) => (.ready (.error e), c, reader, writer)
    | (.ready (.ok ()), c, writer) =>
      -- If we've written all the data and we've seen EOF, flush out the data and finish the transfer.
      if hdone : c.pos = c.cap ∧ c.readDone = true then
        match pollFlush writer with
        | (.pending, writer) => (.pending, c, reader, writer)
        | (.ready (.error e), writer) => (.ready (.error e), c, reader, writer)
        | (.ready (.ok ()), writer) => (.ready (.ok c.amt), c, reader, writer)
      else
        have := turn_lt hfill hwrite hdone
        pollCopy c reader writer
termination_by PollRead.remaining reader + (c.cap - c.pos)

end CopyBuffer

/-! ## Both directions -/

inductive TransferState
  | running (buf : CopyBuffer)
  | shuttingDown (count : ℕ)
  | done (count : ℕ)

/-- The branch of `transfer_one_direction` for `ShuttingDown`. -/
def transferShutdown (count : ℕ) (r : ρ) (w : ω) :
    Poll (Except IoError ℕ) × TransferState × ρ × ω :=
  match pollShutdown w with
  | (.pending, w) => (.pending, .shuttingDown count, r, w)
  | (.ready (.error e), w) => (.ready (.error e), .shuttingDown count, r, w)
  | (.ready (.ok ()), w) => (.ready (.ok count), .done count, r, w)

/-- `transfer_one_direction` -/
def transferOneDirection (state : TransferState) (r : ρ) (w : ω) :
    Poll (Except IoError ℕ) × TransferState × ρ × ω :=
  match state with
  | .running buf =>
    match buf.pollCopy r w with
    | (.pending, buf, r, w) => (.pending, .running buf, r, w)
    | (.ready (.error e), buf, r, w) => (.ready (.error e), .running buf, r, w)
    | (.ready (.ok count), _, r, w) => transferShutdown count r w
  | .shuttingDown count => transferShutdown count r w
  | .done count => (.ready (.ok count), .done count, r, w)

/-- Two streams, each with its half to read from and its half to write to. -/
structure CopyBidirectional (ρ ω ρ' ω' : Type) where
  aRead : ρ
  aWrite : ω'
  bRead : ρ'
  bWrite : ω
  aToB : TransferState
  bToA : TransferState

namespace CopyBidirectional

variable {ρ' ω' : Type} [PollRead ρ'] [PollWrite ω']

/-- `CopyBidirectional::poll` -/
def poll (s : CopyBidirectional ρ ω ρ' ω') :
    Poll (Except IoError (ℕ × ℕ)) × CopyBidirectional ρ ω ρ' ω' :=
  let (pollAToB, aToB, aRead, bWrite) := transferOneDirection s.aToB s.aRead s.bWrite
  let s := { s with aToB, aRead, bWrite }
  match pollAToB.branch with
  | .error e => (.ready (.error e), s)
  | .ok pollAToB =>
    let (pollBToA, bToA, bRead, aWrite) := transferOneDirection s.bToA s.bRead s.aWrite
    let s := { s with bToA, bRead, aWrite }
    match pollBToA.branch with
    | .error e => (.ready (.error e), s)
    | .ok pollBToA =>
      -- both directions were polled before one of them makes the relay wait
      match pollAToB, pollBToA with
      | .ready n, .ready m => (.ready (.ok (n, m)), s)
      | .ready _, .pending => (.pending, s)
      | .pending, .ready _ => (.pending, s)
      | .pending, .pending => (.pending, s)

/-- `copy_encrypted_bidirectional`, before it is polled. -/
def new (aRead : ρ) (aWrite : ω') (bRead : ρ') (bWrite : ω) (aBufferSize bBufferSize : ℕ) :
    CopyBidirectional ρ ω ρ' ω' where
  aRead := aRead
  aWrite := aWrite
  bRead := bRead
  bWrite := bWrite
  aToB := .running (.new aBufferSize)
  bToA := .running (.new bBufferSize)

end CopyBidirectional

/-! ## Nothing is lost -/

/-- A relay in one direction: how its streams deliver and take bytes, all the bytes that there are to
relay and the error that comes after them, if any, and whether the writer is known to be reliable. -/
structure Task (ρ ω : Type) [PollRead ρ] [PollWrite ω] where
  delivers : ρ → Bytes → Option IoError → Prop
  takes : ω → Option Bytes → Bytes → Prop
  total : Bytes
  ending : Option IoError
  reliable : Prop
  reads : Reads delivers
  writes : Writes takes

variable {t : Task ρ ω}

namespace Task

/-- The writer has taken a first part of the bytes, and may have begun to process the next. -/
def TookPart (t : Task ρ ω) (writer : ω) : Prop :=
  ∃ offered taken, t.takes writer offered taken ∧ taken ++ offered.getD [] <+: t.total

theorem tookPart_of_takes {writer : ω} (h : t.takes writer none t.total) : t.TookPart writer :=
  ⟨none, t.total, h, by rw [Option.getD_none, List.append_nil]⟩

/-- What a copy that is ready tells: everything was taken and counted, or there was an error, which is
the one that the reader ends with if the writer is reliable. -/
def Finished (t : Task ρ ω) (writer : ω) : Except IoError ℕ → Prop
  | .ok count => t.takes writer none t.total ∧ count = t.total.length ∧
      (t.reliable → PollWrite.Reliable writer)
  | .error e => t.TookPart writer ∧ (t.reliable → t.ending = some e)

end Task

namespace CopyBuffer

/-- The writer has taken a first part of the bytes; then come those in the buffer, and those that the
reader is to deliver. -/
def Holds (t : Task ρ ω) (c : CopyBuffer) (reader : ρ) (writer : ω) : Prop :=
  ∃ offered taken rest, t.takes writer offered taken ∧ t.delivers reader rest t.ending ∧
    t.total = taken ++ (c.slice ++ rest) ∧ c.amt = taken.length ∧ 0 < c.buf.length ∧
    (c.readDone = true → rest = []) ∧ (∀ b ∈ offered, b = c.slice ∧ c.pos < c.cap) ∧
    (t.reliable → PollWrite.Reliable writer)

theorem slice_eq_nil {c : CopyBuffer} (h : c.pos = c.cap) : c.slice = [] := by
  rw [← List.length_eq_zero_iff, length_slice]
  omega

theorem slice_ne_nil {c : CopyBuffer} (h : c.pos < c.cap) : c.slice ≠ [] := by
  rw [← List.length_pos_iff, length_slice]
  omega

theorem slice_filled (c : CopyBuffer) (received : Bytes) : (c.filled received).slice = received := by
  rw [slice]
  simp only [filled]
  rw [List.take_left' rfl, List.drop_zero]

theorem slice_advance (c : CopyBuffer) {n : ℕ} (h : n ≤ c.slice.length) :
    (c.advance n h).slice = c.slice.drop n := by
  rw [slice, slice, List.drop_drop]
  rfl

theorem Holds.tookPart {c : CopyBuffer} {reader : ρ} {writer : ω} (h : c.Holds t reader writer) :
    t.TookPart writer := by
  obtain ⟨offered, taken, rest, htakes, -, htotal, -, -, -, hoffered, -⟩ := h
  refine ⟨offered, taken, htakes, ?_⟩
  rw [htotal, List.prefix_append_right_inj]
  cases offered with
  | none => exact List.nil_prefix
  | some b =>
    rw [Option.getD_some, (hoffered b rfl).1]
    exact List.prefix_append _ _

/-- Filling the buffer. An error is the one that the reader ends with. -/
theorem Holds.fill {c c' : CopyBuffer} {reader reader' : ρ} {writer : ω}
    {p : Poll (Except IoError Unit)} (h : c.Holds t reader writer)
    (hfill : c.fill reader = (p, c', reader')) :
    (∀ e, p = .ready (.error e) → t.ending = some e) ∧
      ((∀ e, p ≠ .ready (.error e)) → c'.Holds t reader' writer) := by
  obtain ⟨offered, taken, rest, htakes, hrest, htotal, hamt, hsize, hdone, hoffered, hrel⟩ := h
  rw [CopyBuffer.fill] at hfill
  split at hfill
  next hempty =>
    -- an empty buffer was not offered
    have hnone : ∀ b ∈ offered, False := fun b hb => absurd (hoffered b hb).2 (by omega)
    have hslice : c.slice = [] := slice_eq_nil hempty.1
    split at hfill
    next hpoll =>
      cases hfill
      refine ⟨(fun e he => by cases he), fun _ => ?_⟩
      exact ⟨offered, taken, rest, htakes, t.reads.pending hrest hpoll, htotal, hamt, hsize, hdone,
        hoffered, hrel⟩
    next e _ hpoll =>
      cases hfill
      refine ⟨fun e' he => ?_, fun hne => absurd rfl (hne e)⟩
      cases he
      exact (t.reads.fails hrest hsize hpoll).2
    next hpoll =>
      cases hfill
      obtain ⟨rfl, -⟩ := t.reads.ends hrest hsize hpoll
      obtain ⟨rest', hrest', hreader⟩ := t.reads.ready hrest hpoll
      rw [List.nil_append] at hrest'
      subst hrest'
      refine ⟨(fun e he => by cases he), fun _ => ?_⟩
      exact ⟨offered, taken, [], htakes, hreader, htotal, hamt, hsize, fun _ => rfl,
        fun b hb => (hnone b hb).elim, hrel⟩
    next b bytes reader₁ hpoll =>
      cases hfill
      obtain ⟨rest', rfl, hreader⟩ := t.reads.ready hrest hpoll
      refine ⟨(fun e he => by cases he), fun _ => ?_⟩
      refine ⟨offered, taken, rest', htakes, hreader, ?_, hamt, ?_, fun hread => ?_,
        fun b hb => (hnone b hb).elim, hrel⟩
      · rw [slice_filled, htotal, hslice, List.nil_append]
      · simp [filled]
      · exact absurd hread (by simp [filled, hempty.2])
  · cases hfill
    refine ⟨(fun e he => by cases he), fun _ => ?_⟩
    exact ⟨offered, taken, rest, htakes, hrest, htotal, hamt, hsize, hdone, hoffered, hrel⟩

/-- Writing the buffer out. A reliable writer causes no error. -/
theorem Holds.writeOut {c c' : CopyBuffer} {reader : ρ} {writer writer' : ω}
    {p : Poll (Except IoError Unit)} (h : c.Holds t reader writer)
    (hwrite : c.writeOut writer = (p, c', writer')) :
    c'.Holds t reader writer' ∧ (t.reliable → ∀ e, p ≠ .ready (.error e)) := by
  fun_induction CopyBuffer.writeOut c writer with
  | case1 c writer hlt writer₁ hpoll =>
    cases hwrite
    obtain ⟨offered, taken, rest, htakes, hrest, htotal, hamt, hsize, hdone, hoffered, hrel⟩ := h
    have htakes' := t.writes.pending htakes (fun b hb => (hoffered b hb).1) hpoll
    refine ⟨⟨_, taken, rest, htakes', hrest, htotal, hamt, hsize, hdone, fun b hb => ?_,
      fun hr => (PollWrite.reliable_write (hrel hr) hpoll).1⟩, fun _ e he => by cases he⟩
    cases hb
    exact ⟨rfl, hlt⟩
  | case2 c writer hlt e writer₁ hpoll =>
    cases hwrite
    obtain ⟨offered, taken, rest, htakes, hrest, htotal, hamt, hsize, hdone, hoffered, hrel⟩ := h
    have htakes' := t.writes.failed htakes (fun b hb => (hoffered b hb).1) hpoll
    refine ⟨⟨_, taken, rest, htakes', hrest, htotal, hamt, hsize, hdone, fun b hb => ?_,
      fun hr => (PollWrite.reliable_write (hrel hr) hpoll).1⟩, fun hr => ?_⟩
    · cases hb
      exact ⟨rfl, hlt⟩
    · exact absurd rfl ((PollWrite.reliable_write (hrel hr) hpoll).2.1 e)
  | case3 c writer hlt writer₁ hpoll =>
    cases hwrite
    obtain ⟨offered, taken, rest, htakes, hrest, htotal, hamt, hsize, hdone, hoffered, hrel⟩ := h
    have htakes' := t.writes.ready htakes (fun b hb => (hoffered b hb).1) hpoll
    rw [List.take_zero, List.append_nil] at htakes'
    refine ⟨⟨none, taken, rest, htakes', hrest, htotal, hamt, hsize, hdone, (fun b hb => by cases hb),
      fun hr => (PollWrite.reliable_write (hrel hr) hpoll).1⟩, fun hr => ?_⟩
    exact absurd rfl ((PollWrite.reliable_write (hrel hr) hpoll).2.2 (slice_ne_nil hlt))
  | case4 c writer hlt i writer₁ hpoll ih =>
    refine ih ?_ hwrite
    obtain ⟨offered, taken, rest, htakes, hrest, htotal, hamt, hsize, hdone, hoffered, hrel⟩ := h
    have htakes' := t.writes.ready htakes (fun b hb => (hoffered b hb).1) hpoll
    have hle := PollWrite.accepted_le hpoll
    refine ⟨none, _, rest, htakes', hrest, ?_, ?_, hsize, hdone, (fun b hb => by cases hb),
      fun hr => (PollWrite.reliable_write (hrel hr) hpoll).1⟩
    · rw [slice_advance, htotal, List.append_assoc, ← List.append_assoc (c.slice.take _),
        List.take_append_drop]
    · rw [List.length_append, List.length_take, Nat.min_eq_left hle, ← hamt]
      rfl
  | case5 c writer hge =>
    cases hwrite
    exact ⟨h, fun _ e he => by cases he⟩

/-- With an empty buffer after the end of the stream, everything was taken. -/
theorem Holds.taken {c : CopyBuffer} {reader : ρ} {writer : ω} (h : c.Holds t reader writer)
    (hempty : c.pos = c.cap ∧ c.readDone = true) : t.Finished writer (.ok c.amt) := by
  obtain ⟨offered, taken, rest, htakes, -, htotal, hamt, -, hdone, hoffered, hrel⟩ := h
  have hnone : offered = none :=
    Option.eq_none_iff_forall_not_mem.mpr fun b hb => absurd (hoffered b hb).2 (by omega)
  rw [slice_eq_nil hempty.1, hdone hempty.2, List.append_nil, List.append_nil] at htotal
  rw [hnone] at htakes
  rw [Task.Finished, htotal]
  exact ⟨htakes, hamt, hrel⟩

/-- Flushing when everything was taken. -/
theorem Holds.flush {c : CopyBuffer} {reader : ρ} {writer writer' : ω}
    {p : Poll (Except IoError Unit)} (h : c.Holds t reader writer)
    (hempty : c.pos = c.cap ∧ c.readDone = true) (hflush : pollFlush writer = (p, writer')) :
    c.Holds t reader writer' ∧ (t.reliable → ∀ e, p ≠ .ready (.error e)) := by
  obtain ⟨htakes, hamt, hrel⟩ := h.taken hempty
  obtain ⟨-, -, rest, -, hrest, -, -, hsize, hdone, -⟩ := h
  refine ⟨⟨none, t.total, rest, t.writes.flush htakes hflush, hrest, ?_, hamt, hsize, hdone,
    (fun b hb => by cases hb), fun hr => (PollWrite.reliable_flush (hrel hr) hflush).1⟩,
    fun hr => (PollWrite.reliable_flush (hrel hr) hflush).2⟩
  rw [slice_eq_nil hempty.1, hdone hempty.2, List.append_nil, List.append_nil]

/-- A poll keeps the invariant until it is ready. -/
theorem Holds.pollCopy {c c' : CopyBuffer} {reader reader' : ρ} {writer writer' : ω}
    {p : Poll (Except IoError ℕ)} (h : c.Holds t reader writer)
    (hpoll : c.pollCopy reader writer = (p, c', reader', writer')) :
    (p = .pending → c'.Holds t reader' writer') ∧
      ∀ result, p = .ready result → t.Finished writer' result := by
  fun_induction CopyBuffer.pollCopy c reader writer with
  | case1 c reader writer c₁ reader₁ hfill =>
    cases hpoll
    exact ⟨fun _ => (h.fill hfill).2 (fun e he => by cases he), fun result hp => by cases hp⟩
  | case2 c reader writer e c₁ reader₁ hfill =>
    cases hpoll
    refine ⟨(fun hp => by cases hp), fun result hp => ?_⟩
    cases hp
    exact ⟨h.tookPart, fun _ => (h.fill hfill).1 e rfl⟩
  | case3 c reader writer c₁ reader₁ hfill c₂ writer₁ hwrite =>
    cases hpoll
    have h₁ := (h.fill hfill).2 (fun e he => by cases he)
    exact ⟨fun _ => (h₁.writeOut hwrite).1, fun result hp => by cases hp⟩
  | case4 c reader writer c₁ reader₁ hfill e c₂ writer₁ hwrite =>
    cases hpoll
    have h₁ := (h.fill hfill).2 (fun e he => by cases he)
    refine ⟨(fun hp => by cases hp), fun result hp => ?_⟩
    cases hp
    obtain ⟨h₂, hreliable⟩ := h₁.writeOut hwrite
    exact ⟨h₂.tookPart, fun hr => absurd rfl (hreliable hr e)⟩
  | case5 c reader writer c₁ reader₁ hfill c₂ writer₁ hwrite hdone writer₂ hflush =>
    cases hpoll
    have h₂ := (((h.fill hfill).2 (fun e he => by cases he)).writeOut hwrite).1
    exact ⟨fun _ => (h₂.flush hdone hflush).1, fun result hp => by cases hp⟩
  | case6 c reader writer c₁ reader₁ hfill c₂ writer₁ hwrite hdone e writer₂ hflush =>
    cases hpoll
    have h₂ := (((h.fill hfill).2 (fun e he => by cases he)).writeOut hwrite).1
    refine ⟨(fun hp => by cases hp), fun result hp => ?_⟩
    cases hp
    obtain ⟨h₃, hreliable⟩ := h₂.flush hdone hflush
    exact ⟨h₃.tookPart, fun hr => absurd rfl (hreliable hr e)⟩
  | case7 c reader writer c₁ reader₁ hfill c₂ writer₁ hwrite hdone writer₂ hflush =>
    cases hpoll
    have h₂ := (((h.fill hfill).2 (fun e he => by cases he)).writeOut hwrite).1
    refine ⟨(fun hp => by cases hp), fun result hp => ?_⟩
    cases hp
    exact (h₂.flush hdone hflush).1.taken hdone
  | case8 c reader writer c₁ reader₁ hfill c₂ writer₁ hwrite hdone hlt ih =>
    exact ih (((h.fill hfill).2 (fun e he => by cases he)).writeOut hwrite).1 hpoll

/-! ### Shutting down and waiting -/

omit [PollRead ρ] in
theorem isShutdown_writeOut {c c' : CopyBuffer} {writer writer' : ω}
    {p : Poll (Except IoError Unit)} (h : c.writeOut writer = (p, c', writer')) :
    PollWrite.isShutdown writer' = PollWrite.isShutdown writer := by
  fun_induction CopyBuffer.writeOut c writer with
  | case1 c writer hlt writer₁ hpoll =>
    cases h
    exact PollWrite.isShutdown_write hpoll
  | case2 c writer hlt e writer₁ hpoll =>
    cases h
    exact PollWrite.isShutdown_write hpoll
  | case3 c writer hlt writer₁ hpoll =>
    cases h
    exact PollWrite.isShutdown_write hpoll
  | case4 c writer hlt i writer₁ hpoll ih => exact (ih h).trans (PollWrite.isShutdown_write hpoll)
  | case5 c writer hge =>
    cases h
    rfl

/-- Copying does not shut anything down. -/
theorem isShutdown_pollCopy {c c' : CopyBuffer} {reader reader' : ρ} {writer writer' : ω}
    {p : Poll (Except IoError ℕ)} (h : c.pollCopy reader writer = (p, c', reader', writer')) :
    PollWrite.isShutdown writer' = PollWrite.isShutdown writer := by
  fun_induction CopyBuffer.pollCopy c reader writer with
  | case1 => cases h; rfl
  | case2 => cases h; rfl
  | case3 c reader writer c₁ reader₁ hfill c₂ writer₁ hwrite =>
    cases h
    exact isShutdown_writeOut hwrite
  | case4 c reader writer c₁ reader₁ hfill e c₂ writer₁ hwrite =>
    cases h
    exact isShutdown_writeOut hwrite
  | case5 c reader writer c₁ reader₁ hfill c₂ writer₁ hwrite hdone writer₂ hflush =>
    cases h
    exact (PollWrite.isShutdown_flush hflush).trans (isShutdown_writeOut hwrite)
  | case6 c reader writer c₁ reader₁ hfill c₂ writer₁ hwrite hdone e writer₂ hflush =>
    cases h
    exact (PollWrite.isShutdown_flush hflush).trans (isShutdown_writeOut hwrite)
  | case7 c reader writer c₁ reader₁ hfill c₂ writer₁ hwrite hdone writer₂ hflush =>
    cases h
    exact (PollWrite.isShutdown_flush hflush).trans (isShutdown_writeOut hwrite)
  | case8 c reader writer c₁ reader₁ hfill c₂ writer₁ hwrite hdone hlt ih =>
    exact (ih h).trans (isShutdown_writeOut hwrite)

omit [PollWrite ω] in
theorem remaining_fill {c c' : CopyBuffer} {reader reader' : ρ} {p : Poll (Except IoError Unit)}
    (h : c.fill reader = (p, c', reader')) :
    (p = .pending → PollRead.remaining reader' < PollRead.remaining reader) ∧
      (p = .ready (.ok ()) → PollRead.remaining reader' ≤ PollRead.remaining reader) := by
  rw [fill] at h
  split at h
  · split at h
    next hpoll =>
      cases h
      exact ⟨fun _ => PollRead.remaining_of_pending hpoll, fun hp => by cases hp⟩
    · cases h
      exact ⟨(fun hp => by cases hp), fun hp => by cases hp⟩
    next hpoll =>
      cases h
      exact ⟨(fun hp => by cases hp), fun _ => PollRead.remaining_of_ready hpoll⟩
    next hpoll =>
      cases h
      refine ⟨(fun hp => by cases hp), fun _ => ?_⟩
      exact (Nat.le_add_right _ _).trans (PollRead.remaining_of_ready hpoll)
  · cases h
    exact ⟨(fun hp => by cases hp), fun _ => le_rfl⟩

omit [PollRead ρ] in
theorem patience_writeOut {c c' : CopyBuffer} {writer writer' : ω} {p : Poll (Except IoError Unit)}
    (h : c.writeOut writer = (p, c', writer')) :
    PollWrite.patience writer' ≤ PollWrite.patience writer ∧
      (p = .pending → PollWrite.patience writer' < PollWrite.patience writer) := by
  fun_induction CopyBuffer.writeOut c writer with
  | case1 c writer hlt writer₁ hpoll =>
    cases h
    obtain ⟨hle, hlt⟩ := PollWrite.patience_write hpoll
    exact ⟨hle, fun _ => hlt rfl⟩
  | case2 c writer hlt e writer₁ hpoll =>
    cases h
    exact ⟨(PollWrite.patience_write hpoll).1, fun hp => by cases hp⟩
  | case3 c writer hlt writer₁ hpoll =>
    cases h
    exact ⟨(PollWrite.patience_write hpoll).1, fun hp => by cases hp⟩
  | case4 c writer hlt i writer₁ hpoll ih =>
    have hle := (PollWrite.patience_write hpoll).1
    exact ⟨(ih h).1.trans hle, fun hp => ((ih h).2 hp).trans_le hle⟩
  | case5 =>
    cases h
    exact ⟨le_rfl, fun hp => by cases hp⟩

/-- A poll that has to wait uses something up. -/
theorem measure_pollCopy {c c' : CopyBuffer} {reader reader' : ρ} {writer writer' : ω}
    {p : Poll (Except IoError ℕ)} (h : c.pollCopy reader writer = (p, c', reader', writer')) :
    (p = .pending → PollRead.remaining reader' + PollWrite.patience writer' <
      PollRead.remaining reader + PollWrite.patience writer) ∧
    ∀ n, p = .ready (.ok n) → PollRead.remaining reader' + PollWrite.patience writer' ≤
      PollRead.remaining reader + PollWrite.patience writer := by
  fun_induction CopyBuffer.pollCopy c reader writer with
  | case1 c reader writer c₁ reader₁ hfill =>
    cases h
    have hlt := (remaining_fill hfill).1 rfl
    exact ⟨fun _ => Nat.add_lt_add_right hlt _, fun n hp => by cases hp⟩
  | case2 =>
    cases h
    exact ⟨(fun hp => by cases hp), fun n hp => by cases hp⟩
  | case3 c reader writer c₁ reader₁ hfill c₂ writer₁ hwrite =>
    cases h
    have hle := (remaining_fill hfill).2 rfl
    have hlt := (patience_writeOut hwrite).2 rfl
    exact ⟨fun _ => Nat.add_lt_add_of_le_of_lt hle hlt, fun n hp => by cases hp⟩
  | case4 =>
    cases h
    exact ⟨(fun hp => by cases hp), fun n hp => by cases hp⟩
  | case5 c reader writer c₁ reader₁ hfill c₂ writer₁ hwrite hdone writer₂ hflush =>
    cases h
    have hle := (remaining_fill hfill).2 rfl
    have hle' := (patience_writeOut hwrite).1
    have hlt := (PollWrite.patience_flush hflush).2 rfl
    exact ⟨fun _ => by omega, fun n hp => by cases hp⟩
  | case6 =>
    cases h
    exact ⟨(fun hp => by cases hp), fun n hp => by cases hp⟩
  | case7 c reader writer c₁ reader₁ hfill c₂ writer₁ hwrite hdone writer₂ hflush =>
    cases h
    have hle := (remaining_fill hfill).2 rfl
    have hle' := (patience_writeOut hwrite).1
    have hle'' := (PollWrite.patience_flush hflush).1
    exact ⟨(fun hp => by cases hp), fun n _ => by omega⟩
  | case8 c reader writer c₁ reader₁ hfill c₂ writer₁ hwrite hdone hlt ih =>
    have hle := (remaining_fill hfill).2 rfl
    have hle' := (patience_writeOut hwrite).1
    obtain ⟨hpending, hready⟩ := ih h
    exact ⟨fun hp => by have := hpending hp; omega, fun n hp => by have := hready n hp; omega⟩

end CopyBuffer

/-! ### The states of a direction -/

/-- The writer has taken a first part of the bytes, and if it is shut down, all of them. -/
def Task.Took (t : Task ρ ω) (w : ω) : Prop :=
  t.TookPart w ∧ (PollWrite.isShutdown w = true → t.takes w none t.total)

theorem Task.took_of_open {w : ω} (h : t.TookPart w) (hopen : PollWrite.isShutdown w = false) :
    t.Took w := by
  refine ⟨h, fun hshut => ?_⟩
  rw [hopen] at hshut
  cases hshut

/-- The writer is shut down when everything was taken, and not before. -/
def TransferState.Holds (t : Task ρ ω) (r : ρ) (w : ω) : TransferState → Prop
  | running buf => buf.Holds t r w ∧ PollWrite.isShutdown w = false
  | shuttingDown count => t.Finished w (.ok count) ∧ PollWrite.isShutdown w = false
  | done count => t.Finished w (.ok count) ∧ PollWrite.isShutdown w = true

theorem TransferState.Holds.took {r : ρ} {w : ω} {state : TransferState} (h : state.Holds t r w) :
    t.Took w := by
  cases state with
  | running buf => exact Task.took_of_open h.1.tookPart h.2
  | shuttingDown count => exact Task.took_of_open (Task.tookPart_of_takes h.1.1) h.2
  | done count => exact ⟨Task.tookPart_of_takes h.1.1, fun _ => h.1.1⟩

/-- What a poll of a direction leaves behind. -/
def Transferred (t : Task ρ ω) (state : TransferState) (r : ρ) (w : ω) :
    Poll (Except IoError ℕ) → Prop
  | .pending => state.Holds t r w
  | .ready (.ok count) => state = .done count ∧ state.Holds t r w
  | .ready (.error e) => t.Took w ∧ (t.reliable → t.ending = some e)

theorem Transferred.holds {state : TransferState} {r : ρ} {w : ω} {p : Poll (Except IoError ℕ)}
    (h : Transferred t state r w p) (hp : ∀ e, p ≠ .ready (.error e)) : state.Holds t r w := by
  match p with
  | .pending => exact h
  | .ready (.ok count) => exact h.2
  | .ready (.error e) => exact absurd rfl (hp e)

theorem transferShutdown_spec {count : ℕ} {r r' : ρ} {w w' : ω} {state' : TransferState}
    {p : Poll (Except IoError ℕ)} (h : t.Finished w (.ok count))
    (hopen : PollWrite.isShutdown w = false)
    (htransfer : transferShutdown count r w = (p, state', r', w')) :
    Transferred t state' r' w' p := by
  obtain ⟨htakes, hcount, hrel⟩ := h
  rw [transferShutdown] at htransfer
  split at htransfer
  next hpoll =>
    cases htransfer
    have hopen' := PollWrite.isShutdown_shutdown hpoll
    rw [hopen] at hopen'
    exact ⟨⟨t.writes.shutdown htakes hpoll, hcount,
      fun hr => (PollWrite.reliable_shutdown (hrel hr) hpoll).1⟩, hopen'⟩
  next e _ hpoll =>
    cases htransfer
    have hopen' := PollWrite.isShutdown_shutdown hpoll
    rw [hopen] at hopen'
    refine ⟨Task.took_of_open (Task.tookPart_of_takes (t.writes.shutdown htakes hpoll)) hopen',
      fun hr => ?_⟩
    exact absurd rfl ((PollWrite.reliable_shutdown (hrel hr) hpoll).2 e)
  next hpoll =>
    cases htransfer
    exact ⟨rfl, ⟨t.writes.shutdown htakes hpoll, hcount,
      fun hr => (PollWrite.reliable_shutdown (hrel hr) hpoll).1⟩,
      PollWrite.isShutdown_shutdown hpoll⟩

/-- A poll of a direction. -/
theorem transferOneDirection_spec {state state' : TransferState} {r r' : ρ} {w w' : ω}
    {p : Poll (Except IoError ℕ)} (h : state.Holds t r w)
    (htransfer : transferOneDirection state r w = (p, state', r', w')) :
    Transferred t state' r' w' p := by
  cases state with
  | running buf =>
    obtain ⟨hbuf, hopen⟩ := h
    rw [transferOneDirection] at htransfer
    split at htransfer
    next hpoll =>
      cases htransfer
      exact ⟨(hbuf.pollCopy hpoll).1 rfl, (CopyBuffer.isShutdown_pollCopy hpoll).trans hopen⟩
    next hpoll =>
      cases htransfer
      obtain ⟨htook, hending⟩ := (hbuf.pollCopy hpoll).2 _ rfl
      exact ⟨Task.took_of_open htook ((CopyBuffer.isShutdown_pollCopy hpoll).trans hopen), hending⟩
    next hpoll =>
      exact transferShutdown_spec ((hbuf.pollCopy hpoll).2 _ rfl)
        ((CopyBuffer.isShutdown_pollCopy hpoll).trans hopen) htransfer
  | shuttingDown count => exact transferShutdown_spec h.1 h.2 htransfer
  | done count =>
    cases htransfer
    exact ⟨rfl, h⟩

omit [PollRead ρ] in
theorem patience_transferShutdown {count : ℕ} {r r' : ρ} {w w' : ω} {state' : TransferState}
    {p : Poll (Except IoError ℕ)} (h : transferShutdown count r w = (p, state', r', w')) :
    r' = r ∧ PollWrite.patience w' ≤ PollWrite.patience w ∧
      (p = .pending → PollWrite.patience w' < PollWrite.patience w) := by
  rw [transferShutdown] at h
  split at h
  next hpoll =>
    cases h
    obtain ⟨hle, hlt⟩ := PollWrite.patience_shutdown hpoll
    exact ⟨rfl, hle, fun _ => hlt rfl⟩
  next hpoll =>
    cases h
    exact ⟨rfl, (PollWrite.patience_shutdown hpoll).1, fun hp => by cases hp⟩
  next hpoll =>
    cases h
    exact ⟨rfl, (PollWrite.patience_shutdown hpoll).1, fun hp => by cases hp⟩

/-- A direction that has to wait uses something up. -/
theorem measure_transferOneDirection {state state' : TransferState} {r r' : ρ} {w w' : ω}
    {p : Poll (Except IoError ℕ)} (h : transferOneDirection state r w = (p, state', r', w')) :
    (p = .pending → PollRead.remaining r' + PollWrite.patience w' <
      PollRead.remaining r + PollWrite.patience w) ∧
    ∀ n, p = .ready (.ok n) → PollRead.remaining r' + PollWrite.patience w' ≤
      PollRead.remaining r + PollWrite.patience w := by
  cases state with
  | running buf =>
    rw [transferOneDirection] at h
    split at h
    next hpoll =>
      cases h
      exact ⟨fun _ => (CopyBuffer.measure_pollCopy hpoll).1 rfl, fun n hp => by cases hp⟩
    next hpoll =>
      cases h
      exact ⟨(fun hp => by cases hp), fun n hp => by cases hp⟩
    next hpoll =>
      have hcopy := (CopyBuffer.measure_pollCopy hpoll).2 _ rfl
      obtain ⟨rfl, hle, hlt⟩ := patience_transferShutdown h
      exact ⟨fun hp => by have := hlt hp; omega, fun n _ => by omega⟩
  | shuttingDown count =>
    obtain ⟨rfl, hle, hlt⟩ := patience_transferShutdown h
    exact ⟨fun hp => by have := hlt hp; omega, fun n _ => by omega⟩
  | done count =>
    cases h
    exact ⟨(fun hp => by cases hp), fun n _ => le_rfl⟩

/-! ### Both directions -/

namespace CopyBidirectional

variable {ρ' ω' : Type} [PollRead ρ'] [PollWrite ω'] {t' : Task ρ' ω'}

/-- Both directions keep their invariant. -/
structure Holds (t : Task ρ ω) (t' : Task ρ' ω') (s : CopyBidirectional ρ ω ρ' ω') : Prop where
  aToB : s.aToB.Holds t s.aRead s.bWrite
  bToA : s.bToA.Holds t' s.bRead s.aWrite

/-- What a relay that is ready leaves behind: everything was taken in both directions, or there was
an error after a part of it was. -/
def Finished (t : Task ρ ω) (t' : Task ρ' ω') (s : CopyBidirectional ρ ω ρ' ω') :
    Except IoError (ℕ × ℕ) → Prop
  | .ok (n, m) => (t.takes s.bWrite none t.total ∧ PollWrite.isShutdown s.bWrite = true ∧
      n = t.total.length) ∧ t'.takes s.aWrite none t'.total ∧ PollWrite.isShutdown s.aWrite = true ∧
      m = t'.total.length
  | .error e => t.Took s.bWrite ∧ t'.Took s.aWrite ∧
      (t.reliable → t'.reliable → t.ending = some e ∨ t'.ending = some e)

/-- A poll of the relay polls the first direction, and the second one unless the first failed. -/
theorem poll_cases {s s' : CopyBidirectional ρ ω ρ' ω'} {p : Poll (Except IoError (ℕ × ℕ))}
    (hpoll : s.poll = (p, s')) :
    ∃ pa aToB aRead bWrite, transferOneDirection s.aToB s.aRead s.bWrite = (pa, aToB, aRead, bWrite) ∧
      ((∃ e, pa = .ready (.error e) ∧ p = .ready (.error e) ∧ s' = { s with aToB, aRead, bWrite }) ∨
        ((∀ e, pa ≠ .ready (.error e)) ∧ ∃ pb bToA bRead aWrite,
          transferOneDirection s.bToA s.bRead s.aWrite = (pb, bToA, bRead, aWrite) ∧
          s' = { aToB, aRead, bWrite, bToA, bRead, aWrite } ∧
          ((∃ e, pb = .ready (.error e) ∧ p = .ready (.error e)) ∨
            (∃ n m, pa = .ready (.ok n) ∧ pb = .ready (.ok m) ∧ p = .ready (.ok (n, m))) ∨
            ((∀ e, pb ≠ .ready (.error e)) ∧ (pa = .pending ∨ pb = .pending) ∧ p = .pending)))) := by
  rw [poll] at hpoll
  rcases hA : transferOneDirection s.aToB s.aRead s.bWrite with ⟨pa, aToB, aRead, bWrite⟩
  rcases hB : transferOneDirection s.bToA s.bRead s.aWrite with ⟨pb, bToA, bRead, aWrite⟩
  simp only [hA, hB] at hpoll
  refine ⟨pa, aToB, aRead, bWrite, rfl, ?_⟩
  rcases pa with _ | (e | n)
  · refine .inr ⟨(fun e he => by cases he), pb, bToA, bRead, aWrite, rfl, ?_⟩
    rcases pb with _ | (e | m)
    · cases hpoll
      exact ⟨rfl, .inr (.inr ⟨(fun e he => by cases he), .inl rfl, rfl⟩)⟩
    · cases hpoll
      exact ⟨rfl, .inl ⟨e, rfl, rfl⟩⟩
    · cases hpoll
      exact ⟨rfl, .inr (.inr ⟨(fun e he => by cases he), .inl rfl, rfl⟩)⟩
  · cases hpoll
    exact .inl ⟨e, rfl, rfl, rfl⟩
  · refine .inr ⟨(fun e he => by cases he), pb, bToA, bRead, aWrite, rfl, ?_⟩
    rcases pb with _ | (e | m)
    · cases hpoll
      exact ⟨rfl, .inr (.inr ⟨(fun e he => by cases he), .inr rfl, rfl⟩)⟩
    · cases hpoll
      exact ⟨rfl, .inl ⟨e, rfl, rfl⟩⟩
    · cases hpoll
      exact ⟨rfl, .inr (.inl ⟨n, m, rfl, rfl, rfl⟩)⟩

/-- A poll of the relay. -/
theorem poll_spec {s s' : CopyBidirectional ρ ω ρ' ω'} {p : Poll (Except IoError (ℕ × ℕ))}
    (h : s.Holds t t') (hpoll : s.poll = (p, s')) :
    (p = .pending → s'.Holds t t') ∧ ∀ result, p = .ready result → s'.Finished t t' result := by
  obtain ⟨pa, aToB, aRead, bWrite, ha, ⟨e, rfl, rfl, rfl⟩ | ⟨hok, pb, bToA, bRead, aWrite, hb, rfl,
    ⟨e, rfl, rfl⟩ | ⟨n, m, rfl, rfl, rfl⟩ | ⟨hok', -, rfl⟩⟩⟩ := poll_cases hpoll
  · refine ⟨(fun hp => by cases hp), fun result hp => ?_⟩
    cases hp
    obtain ⟨htook, hending⟩ := transferOneDirection_spec h.aToB ha
    exact ⟨htook, h.bToA.took, fun hr _ => .inl (hending hr)⟩
  · refine ⟨(fun hp => by cases hp), fun result hp => ?_⟩
    cases hp
    obtain ⟨htook, hending⟩ := transferOneDirection_spec h.bToA hb
    exact ⟨((transferOneDirection_spec h.aToB ha).holds hok).took, htook, fun _ hr => .inr (hending hr)⟩
  · refine ⟨(fun hp => by cases hp), fun result hp => ?_⟩
    cases hp
    obtain ⟨rfl, ⟨htakes, hn, -⟩, hshut⟩ := transferOneDirection_spec h.aToB ha
    obtain ⟨rfl, ⟨htakes', hm, -⟩, hshut'⟩ := transferOneDirection_spec h.bToA hb
    exact ⟨⟨htakes, hshut, hn⟩, htakes', hshut', hm⟩
  · refine ⟨fun _ => ⟨?_, ?_⟩, fun result hp => by cases hp⟩
    · exact (transferOneDirection_spec h.aToB ha).holds hok
    · exact (transferOneDirection_spec h.bToA hb).holds hok'

/-- The polls that the streams may keep the relay waiting. -/
def measure (s : CopyBidirectional ρ ω ρ' ω') : ℕ :=
  PollRead.remaining s.aRead + PollWrite.patience s.bWrite +
    (PollRead.remaining s.bRead + PollWrite.patience s.aWrite)

/-- A relay that has to wait uses something up. -/
theorem measure_poll {s s' : CopyBidirectional ρ ω ρ' ω'} (hpoll : s.poll = (.pending, s')) :
    s'.measure < s.measure := by
  obtain ⟨pa, aToB, aRead, bWrite, ha, ⟨e, -, hp, -⟩ | ⟨hok, pb, bToA, bRead, aWrite, hb, rfl,
    ⟨e, -, hp⟩ | ⟨n, m, -, -, hp⟩ | ⟨hok', hwait, -⟩⟩⟩ := poll_cases hpoll
  · cases hp
  · cases hp
  · cases hp
  · obtain ⟨halt, hale⟩ := measure_transferOneDirection ha
    obtain ⟨hblt, hble⟩ := measure_transferOneDirection hb
    -- the direction that does not wait does not lose anything
    rw [measure, measure]
    rcases pa with _ | (e | n)
    · rcases pb with _ | (e | m)
      · exact Nat.add_lt_add (halt rfl) (hblt rfl)
      · exact absurd rfl (hok' e)
      · exact Nat.add_lt_add_of_lt_of_le (halt rfl) (hble m rfl)
    · exact absurd rfl (hok e)
    · rcases hwait with hpa | rfl
      · cases hpa
      · exact Nat.add_lt_add_of_le_of_lt (hale n rfl) (hblt rfl)

theorem Finished.took {s : CopyBidirectional ρ ω ρ' ω'} {result : Except IoError (ℕ × ℕ)}
    (h : s.Finished t t' result) : t.Took s.bWrite ∧ t'.Took s.aWrite := by
  match result, h with
  | .ok (n, m), ⟨⟨htakes, _⟩, htakes', _⟩ =>
    exact ⟨⟨Task.tookPart_of_takes htakes, fun _ => htakes⟩,
      ⟨Task.tookPart_of_takes htakes', fun _ => htakes'⟩⟩
  | .error e, ⟨htook, htook', _⟩ => exact ⟨htook, htook'⟩

/-- The invariant holds before the first poll. -/
theorem holds_new {aRead : ρ} {aWrite : ω'} {bRead : ρ'} {bWrite : ω} {aBufferSize bBufferSize : ℕ}
    (ha : 0 < aBufferSize) (hb : 0 < bBufferSize) (hread : t.delivers aRead t.total t.ending)
    (hread' : t'.delivers bRead t'.total t'.ending) (hwrite : t.takes bWrite none [])
    (hwrite' : t'.takes aWrite none []) (hopen : PollWrite.isShutdown bWrite = false)
    (hopen' : PollWrite.isShutdown aWrite = false) (hrel : t.reliable → PollWrite.Reliable bWrite)
    (hrel' : t'.reliable → PollWrite.Reliable aWrite) :
    (new aRead aWrite bRead bWrite aBufferSize bBufferSize).Holds t t' := by
  refine ⟨⟨⟨none, [], t.total, hwrite, hread, rfl, rfl, ?_, (fun hp => by cases hp),
    (fun b hb => by cases hb), hrel⟩, hopen⟩, ⟨⟨none, [], t'.total, hwrite', hread', rfl, rfl, ?_,
    (fun hp => by cases hp), (fun b hb => by cases hb), hrel'⟩, hopen'⟩⟩
  · simpa [new, CopyBuffer.new] using ha
  · simpa [new, CopyBuffer.new] using hb

end CopyBidirectional

end Engine
