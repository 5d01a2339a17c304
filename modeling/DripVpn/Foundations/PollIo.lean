import DripVpn.Foundations.AsyncIo

/-!
# Readers and writers that are polled

Generic code reads from and writes to streams that it can only poll. `PollRead` and `PollWrite` are
what such code relies on; the measures in them say that a stream does not keep its user waiting
forever, so that loops over polls end.

What a reader still delivers and what a writer has taken are relations between its state and some
bytes: `Reads R` and `Writes W` are the rules that these relations follow from poll to poll. A writer
may have begun to process bytes that it has not yet accepted, and must then be offered the same bytes
again; the second argument of `W` are those bytes.

`AsyncRead` and `AsyncWrite` are the streams of the operating system, with everything that will happen
to them.
-/

/-! ## Readers -/

/-- `tokio::io::AsyncRead` -/
class PollRead (ρ : Type) where
  /-- Poll for at most `n` bytes; no bytes mean the end of the stream. -/
  pollRead : ρ → ℕ → Poll (Except IoError Bytes) × ρ
  /-- A bound on the bytes that are still to come and on the polls that find nothing. -/
  remaining : ρ → ℕ
  length_le : ∀ {r r' n bytes}, pollRead r n = (.ready (.ok bytes), r') → bytes.length ≤ n
  remaining_of_pending : ∀ {r r' n}, pollRead r n = (.pending, r') → remaining r' < remaining r
  remaining_of_ready : ∀ {r r' n bytes}, pollRead r n = (.ready (.ok bytes), r') →
    remaining r' + bytes.length ≤ remaining r

export PollRead (pollRead)

/-- `R r bytes ending` says that the reader delivers `bytes`, and then the error `ending` or, without
one, the end of the stream. -/
structure Reads {ρ : Type} [PollRead ρ] (R : ρ → Bytes → Option IoError → Prop) : Prop where
  pending : ∀ {r r' n bytes ending}, R r bytes ending → pollRead r n = (.pending, r') →
    R r' bytes ending
  ready : ∀ {r r' n bytes ending received}, R r bytes ending →
    pollRead r n = (.ready (.ok received), r') →
    ∃ rest, bytes = received ++ rest ∧ R r' rest ending
  ends : ∀ {r r' n bytes ending}, R r bytes ending → 0 < n →
    pollRead r n = (.ready (.ok []), r') → bytes = [] ∧ ending = none
  fails : ∀ {r r' n bytes ending e}, R r bytes ending → 0 < n →
    pollRead r n = (.ready (.error e), r') → bytes = [] ∧ ending = some e

/-- A reader that goes on failing after an error. -/
def Fused {ρ : Type} [PollRead ρ] (R : ρ → Bytes → Option IoError → Prop) : Prop :=
  ∀ {r r' n bytes ending e}, R r bytes ending → pollRead r n = (.ready (.error e), r') →
    R r' bytes ending

/-- `read_exact` of `n` bytes, awaited: polls that find nothing are repeated later. -/
def awaitExact {ρ : Type} [PollRead ρ] (r : ρ) (n : ℕ) : Except IoError Bytes × ρ :=
  if n = 0 then (.ok [], r)
  else
    match hpoll : pollRead r n with
    | (.pending, r') =>
      have := PollRead.remaining_of_pending hpoll
      awaitExact r' n
    | (.ready (.error e), r') => (.error e, r')
    | (.ready (.ok []), r') => (.error .unexpectedEof, r')
    | (.ready (.ok (b :: bytes)), r') =>
      have := PollRead.remaining_of_ready hpoll
      match awaitExact r' (n - (b :: bytes).length) with
      | (.ok rest, r'') => (.ok (b :: bytes ++ rest), r'')
      | (.error e, r'') => (.error e, r'')
termination_by PollRead.remaining r
decreasing_by
  · assumption
  · rw [List.length_cons] at this
    omega

section AwaitExact

variable {ρ : Type} [PollRead ρ] {R : ρ → Bytes → Option IoError → Prop}

/-- Enough bytes are to come: they are read, wherever the pieces end. -/
theorem awaitExact_of_le (hR : Reads R) {r : ρ} {n : ℕ} {bytes : Bytes} {ending : Option IoError}
    (h : R r bytes ending) (hle : n ≤ bytes.length) :
    ∃ r', awaitExact r n = (.ok (bytes.take n), r') ∧ R r' (bytes.drop n) ending := by
  fun_induction awaitExact r n generalizing bytes with
  | case1 r => exact ⟨r, by rw [List.take_zero], h⟩
  | case2 r n hn r' hpoll _ ih => exact ih (hR.pending h hpoll) hle
  | case3 r n hn e r' hpoll =>
    obtain ⟨rfl, -⟩ := hR.fails h (Nat.pos_of_ne_zero hn) hpoll
    exact absurd (Nat.le_zero.mp hle) hn
  | case4 r n hn r' hpoll =>
    obtain ⟨rfl, -⟩ := hR.ends h (Nat.pos_of_ne_zero hn) hpoll
    exact absurd (Nat.le_zero.mp hle) hn
  | case5 r n hn b received r' hpoll _ rest r'' hrec ih =>
    obtain ⟨later, rfl, hlater⟩ := hR.ready h hpoll
    have hreceived := PollRead.length_le hpoll
    rw [List.length_append] at hle
    obtain ⟨r₂, hread, hr₂⟩ := ih hlater (by omega)
    rw [hrec, Prod.mk.injEq, Except.ok.injEq] at hread
    obtain ⟨rfl, rfl⟩ := hread
    refine ⟨r'', ?_, ?_⟩
    · rw [List.take_append, List.take_of_length_le hreceived]
    · rwa [List.drop_append, List.drop_eq_nil_of_le hreceived, List.nil_append]
  | case6 r n hn b received r' hpoll _ e r'' hrec ih =>
    obtain ⟨later, rfl, hlater⟩ := hR.ready h hpoll
    rw [List.length_append] at hle
    obtain ⟨r₂, hread, -⟩ := ih hlater (by omega)
    rw [hrec] at hread
    cases hread

/-- Too few bytes are to come: the stream is read to its end. -/
theorem awaitExact_of_lt (hR : Reads R) (hfused : Fused R) {r : ρ} {n : ℕ} {bytes : Bytes}
    {ending : Option IoError} (h : R r bytes ending) (hlt : bytes.length < n) :
    ∃ r', awaitExact r n = (.error (ending.getD .unexpectedEof), r') ∧ R r' [] ending := by
  fun_induction awaitExact r n generalizing bytes with
  | case1 r => exact absurd hlt (Nat.not_lt_zero _)
  | case2 r n hn r' hpoll _ ih => exact ih (hR.pending h hpoll) hlt
  | case3 r n hn e r' hpoll =>
    have hr' := hfused h hpoll
    obtain ⟨rfl, rfl⟩ := hR.fails h (Nat.pos_of_ne_zero hn) hpoll
    exact ⟨r', rfl, hr'⟩
  | case4 r n hn r' hpoll =>
    obtain ⟨later, hlater, hr'⟩ := hR.ready h hpoll
    obtain ⟨rfl, rfl⟩ := hR.ends h (Nat.pos_of_ne_zero hn) hpoll
    obtain rfl : later = [] := hlater.symm
    exact ⟨r', rfl, hr'⟩
  | case5 r n hn b received r' hpoll _ rest r'' hrec ih =>
    obtain ⟨later, rfl, hlater⟩ := hR.ready h hpoll
    rw [List.length_append] at hlt
    obtain ⟨r₂, hread, -⟩ := ih hlater (by omega)
    rw [hrec] at hread
    cases hread
  | case6 r n hn b received r' hpoll _ e r'' hrec ih =>
    obtain ⟨later, rfl, hlater⟩ := hR.ready h hpoll
    rw [List.length_append] at hlt
    obtain ⟨r₂, hread, hr₂⟩ := ih hlater (by omega)
    rw [hrec, Prod.mk.injEq, Except.error.injEq] at hread
    obtain ⟨rfl, rfl⟩ := hread
    exact ⟨r'', rfl, hr₂⟩

end AwaitExact

/-! ## Writers -/

/-- `tokio::io::AsyncWrite` -/
class PollWrite (ω : Type) where
  /-- Offer bytes; the result is how many of them were accepted. -/
  pollWrite : ω → Bytes → Poll (Except IoError ℕ) × ω
  pollFlush : ω → Poll (Except IoError Unit) × ω
  pollShutdown : ω → Poll (Except IoError Unit) × ω
  /-- A bound on the polls that the writer keeps waiting. -/
  patience : ω → ℕ
  isShutdown : ω → Bool
  /-- No error is to come. -/
  Reliable : ω → Prop
  accepted_le : ∀ {w w' bytes n}, pollWrite w bytes = (.ready (.ok n), w') → n ≤ bytes.length
  patience_write : ∀ {w w' bytes p}, pollWrite w bytes = (p, w') →
    patience w' ≤ patience w ∧ (p = .pending → patience w' < patience w)
  patience_flush : ∀ {w w' p}, pollFlush w = (p, w') →
    patience w' ≤ patience w ∧ (p = .pending → patience w' < patience w)
  patience_shutdown : ∀ {w w' p}, pollShutdown w = (p, w') →
    patience w' ≤ patience w ∧ (p = .pending → patience w' < patience w)
  isShutdown_write : ∀ {w w' bytes p}, pollWrite w bytes = (p, w') → isShutdown w' = isShutdown w
  isShutdown_flush : ∀ {w w' p}, pollFlush w = (p, w') → isShutdown w' = isShutdown w
  isShutdown_shutdown : ∀ {w w' p}, pollShutdown w = (p, w') →
    isShutdown w' = (decide (p = .ready (.ok ())) || isShutdown w)
  reliable_write : ∀ {w w' bytes p}, Reliable w → pollWrite w bytes = (p, w') →
    Reliable w' ∧ (∀ e, p ≠ .ready (.error e)) ∧ (bytes ≠ [] → p ≠ .ready (.ok 0))
  reliable_flush : ∀ {w w' p}, Reliable w → pollFlush w = (p, w') →
    Reliable w' ∧ ∀ e, p ≠ .ready (.error e)
  reliable_shutdown : ∀ {w w' p}, Reliable w → pollShutdown w = (p, w') →
    Reliable w' ∧ ∀ e, p ≠ .ready (.error e)

export PollWrite (pollWrite pollFlush pollShutdown)

/-- `W w offered taken` says that the writer has taken the bytes `taken`; of bytes that are offered to
it but not yet accepted it may have begun to process some. -/
structure Writes {ω : Type} [PollWrite ω] (W : ω → Option Bytes → Bytes → Prop) : Prop where
  pending : ∀ {w w' offered bytes taken}, W w offered taken → (∀ b ∈ offered, b = bytes) →
    pollWrite w bytes = (.pending, w') → W w' (some bytes) taken
  ready : ∀ {w w' offered bytes taken n}, W w offered taken → (∀ b ∈ offered, b = bytes) →
    pollWrite w bytes = (.ready (.ok n), w') → W w' none (taken ++ bytes.take n)
  failed : ∀ {w w' offered bytes taken e}, W w offered taken → (∀ b ∈ offered, b = bytes) →
    pollWrite w bytes = (.ready (.error e), w') → W w' (some bytes) taken
  flush : ∀ {w w' taken p}, W w none taken → pollFlush w = (p, w') → W w' none taken
  shutdown : ∀ {w w' taken p}, W w none taken → pollShutdown w = (p, w') → W w' none taken

/-! ## The streams of the operating system -/

namespace AsyncRead

/-- Bytes and polls that find nothing. -/
def measure (s : AsyncRead) : ℕ := s.events.length + s.bytes.length

theorem length_arrive_le (bytes : Bytes) (events : List ReadEvent) :
    (arrive bytes events).length ≤ events.length + 1 := by
  cases bytes with
  | nil => exact Nat.le_succ _
  | cons b bytes => exact le_rfl

theorem pollRead_pending {s s' : AsyncRead} {n : ℕ} (h : s.pollRead n = (.pending, s')) :
    s.events = .pending :: s'.events ∧ s'.ending = s.ending := by
  obtain ⟨events, ending⟩ := s
  rw [pollRead] at h
  split at h
  · cases h
  next heq =>
    cases h
    exact ⟨heq, rfl⟩
  · cases h

/-- A poll takes some of the bytes that arrive next, and is told of the end only at the end. -/
theorem pollRead_ready {s s' : AsyncRead} {n : ℕ} {bytes : Bytes}
    (h : s.pollRead n = (.ready (.ok bytes), s')) :
    s.bytes = bytes ++ s'.bytes ∧ s'.ending = s.ending ∧ bytes.length ≤ n ∧
      s'.events.length ≤ s.events.length ∧ (bytes = [] → 0 < n → s.events = [] ∧ s.ending = none) := by
  obtain ⟨events, ending⟩ := s
  rw [pollRead] at h
  split at h
  next heq =>
    dsimp only at heq h
    subst heq
    cases ending with
    | none =>
      cases h
      exact ⟨rfl, rfl, Nat.zero_le _, le_rfl, fun _ _ => ⟨rfl, rfl⟩⟩
    | some e => cases h
  · cases h
  next b bs events' heq =>
    dsimp only at heq
    subst heq
    cases h
    refine ⟨?_, rfl, ?_, ?_, ?_⟩
    · rw [bytes_data, bytes_arrive, ← List.append_assoc, List.take_append_drop]
    · exact List.length_take_le n _
    · exact length_arrive_le _ _
    · intro hnil hpos
      rw [List.take_eq_nil_iff] at hnil
      rcases hnil with rfl | hnil
      · exact absurd hpos (Nat.lt_irrefl 0)
      · cases hnil

theorem pollRead_error {s s' : AsyncRead} {n : ℕ} {e : IoError}
    (h : s.pollRead n = (.ready (.error e), s')) : s.events = [] ∧ s.ending = some e := by
  obtain ⟨events, ending⟩ := s
  rw [pollRead] at h
  split at h
  next heq =>
    cases ending with
    | none => cases h
    | some e' =>
      cases h
      exact ⟨heq, rfl⟩
  · cases h
  · cases h

instance : PollRead AsyncRead where
  pollRead := pollRead
  remaining := measure
  length_le h := (pollRead_ready h).2.2.1
  remaining_of_pending {s s' n} h := by
    obtain ⟨events, ending⟩ := s
    obtain ⟨hevents, hending⟩ := pollRead_pending h
    dsimp only at hevents
    subst hevents
    obtain ⟨events', ending'⟩ := s'
    subst hending
    rw [measure, measure, bytes_pending, List.length_cons]
    exact Nat.add_lt_add_right (Nat.lt_succ_self _) _
  remaining_of_ready h := by
    obtain ⟨hbytes, -, -, hevents, -⟩ := pollRead_ready h
    rw [measure, measure, hbytes, List.length_append]
    omega

/-- A stream delivers its bytes and its end. -/
theorem reads : Reads fun (s : AsyncRead) bytes ending => s.bytes = bytes ∧ s.ending = ending where
  pending {s s' n bytes ending} h hpoll := by
    obtain ⟨events, ending⟩ := s
    obtain ⟨hevents, hending⟩ := pollRead_pending hpoll
    obtain ⟨events', ending'⟩ := s'
    dsimp only at hevents hending
    subst hevents hending
    exact h
  ready {s s' n bytes ending received} h hpoll := by
    obtain ⟨hbytes, hending, -⟩ := pollRead_ready hpoll
    exact ⟨s'.bytes, h.1.symm.trans hbytes, rfl, hending.trans h.2⟩
  ends {s s' n bytes ending} h hpos hpoll := by
    obtain ⟨-, -, -, -, hend⟩ := pollRead_ready hpoll
    obtain ⟨hevents, hending⟩ := hend rfl hpos
    refine ⟨?_, h.2.symm.trans hending⟩
    rw [← h.1, AsyncRead.bytes, hevents]
    rfl
  fails {s s' n bytes ending e} h _ hpoll := by
    obtain ⟨hevents, hending⟩ := pollRead_error hpoll
    refine ⟨?_, h.2.symm.trans hending⟩
    rw [← h.1, AsyncRead.bytes, hevents]
    rfl

theorem fused : Fused fun (s : AsyncRead) bytes ending => s.bytes = bytes ∧ s.ending = ending := by
  intro s s' n bytes ending e h hpoll
  obtain ⟨hevents, hending⟩ := pollRead_error hpoll
  obtain ⟨events, ending'⟩ := s
  dsimp only at hevents hending
  subst hevents hending
  cases hpoll
  exact h

end AsyncRead

/-- What a poll of a writer meets: it has to wait, or some of the bytes are accepted, or it fails. -/
inductive WriteEvent
  | pending
  | accept (n : ℕ)
  | error (e : IoError)
deriving DecidableEq

/-- The events of a writer that are still to come, after which it accepts everything, and what was
written to it. -/
structure AsyncWrite where
  events : List WriteEvent
  written : Bytes
  isShutdown : Bool
deriving DecidableEq

namespace AsyncWrite

/-- A writer nothing was written to. -/
def ofEvents (events : List WriteEvent) : AsyncWrite := ⟨events, [], false⟩

/-- `poll_write` -/
def pollWrite (w : AsyncWrite) (bytes : Bytes) : Poll (Except IoError ℕ) × AsyncWrite :=
  match w.events with
  | [] => (.ready (.ok bytes.length), { w with written := w.written ++ bytes })
  | .pending :: events => (.pending, { w with events })
  | .accept n :: events =>
    (.ready (.ok (min n bytes.length)), { w with events, written := w.written ++ bytes.take n })
  | .error e :: events => (.ready (.error e), { w with events })

/-- `poll_flush` -/
def pollFlush (w : AsyncWrite) : Poll (Except IoError Unit) × AsyncWrite :=
  match w.events with
  | [] => (.ready (.ok ()), w)
  | .pending :: events => (.pending, { w with events })
  | .accept _ :: events => (.ready (.ok ()), { w with events })
  | .error e :: events => (.ready (.error e), { w with events })

/-- `poll_shutdown` -/
def pollShutdown (w : AsyncWrite) : Poll (Except IoError Unit) × AsyncWrite :=
  match w.events with
  | [] => (.ready (.ok ()), { w with isShutdown := true })
  | .pending :: events => (.pending, { w with events })
  | .accept _ :: events => (.ready (.ok ()), { w with events, isShutdown := true })
  | .error e :: events => (.ready (.error e), { w with events })

/-- A poll takes an event, if there is one, and adds the bytes that it accepts. -/
theorem pollWrite_cases {w w' : AsyncWrite} {bytes : Bytes} {p : Poll (Except IoError ℕ)}
    (h : w.pollWrite bytes = (p, w')) :
    w'.isShutdown = w.isShutdown ∧ w'.events <:+ w.events ∧
      ((∃ n, p = .ready (.ok n) ∧ n ≤ bytes.length ∧ w'.written = w.written ++ bytes.take n ∧
          (n = 0 → bytes ≠ [] → .accept 0 ∈ w.events)) ∨
        (p = .pending ∧ w'.events.length < w.events.length ∧ w'.written = w.written) ∨
        ∃ e, p = .ready (.error e) ∧ w'.written = w.written ∧ .error e ∈ w.events) := by
  obtain ⟨events, written, isShutdown⟩ := w
  rw [pollWrite] at h
  split at h
  · cases h
    refine ⟨rfl, List.suffix_rfl, .inl ⟨_, rfl, le_rfl, by rw [List.take_length], fun hn hne => ?_⟩⟩
    exact absurd (List.length_eq_zero_iff.mp hn) hne
  next heq =>
    dsimp only at heq
    subst heq
    cases h
    exact ⟨rfl, List.suffix_cons _ _, .inr (.inl ⟨rfl, Nat.lt_succ_self _, rfl⟩)⟩
  next n events' heq =>
    dsimp only at heq
    subst heq
    cases h
    refine ⟨rfl, List.suffix_cons _ _, .inl ⟨_, rfl, min_le_right _ _, ?_, fun hn hne => ?_⟩⟩
    · rw [← List.take_eq_take_min]
    · obtain rfl : n = 0 := by
        have := List.length_pos_of_ne_nil hne
        omega
      exact List.mem_cons_self
  next e events' heq =>
    dsimp only at heq
    subst heq
    cases h
    exact ⟨rfl, List.suffix_cons _ _, .inr (.inr ⟨e, rfl, rfl, List.mem_cons_self⟩)⟩

theorem pollFlush_cases {w w' : AsyncWrite} {p : Poll (Except IoError Unit)}
    (h : w.pollFlush = (p, w')) :
    w'.isShutdown = w.isShutdown ∧ w'.written = w.written ∧ w'.events <:+ w.events ∧
      (p = .pending → w'.events.length < w.events.length) ∧
      ∀ e, p = .ready (.error e) → .error e ∈ w.events := by
  obtain ⟨events, written, isShutdown⟩ := w
  rw [pollFlush] at h
  split at h
  · cases h
    exact ⟨rfl, rfl, List.suffix_rfl, (fun hp => by cases hp), fun e hp => by cases hp⟩
  all_goals
    next heq =>
      dsimp only at heq
      subst heq
      cases h
      refine ⟨rfl, rfl, List.suffix_cons _ _, fun _ => Nat.lt_succ_self _, fun e hp => ?_⟩
      cases hp <;> exact List.mem_cons_self

theorem pollShutdown_cases {w w' : AsyncWrite} {p : Poll (Except IoError Unit)}
    (h : w.pollShutdown = (p, w')) :
    w'.isShutdown = (decide (p = .ready (.ok ())) || w.isShutdown) ∧ w'.written = w.written ∧
      w'.events <:+ w.events ∧ (p = .pending → w'.events.length < w.events.length) ∧
      ∀ e, p = .ready (.error e) → .error e ∈ w.events := by
  obtain ⟨events, written, isShutdown⟩ := w
  rw [pollShutdown] at h
  split at h
  · cases h
    exact ⟨rfl, rfl, List.suffix_rfl, (fun hp => by cases hp), fun e hp => by cases hp⟩
  all_goals
    next heq =>
      dsimp only at heq
      subst heq
      cases h
      refine ⟨rfl, rfl, List.suffix_cons _ _, fun _ => Nat.lt_succ_self _, fun e hp => ?_⟩
      cases hp <;> exact List.mem_cons_self

/-- A writer that meets no error and accepts something whenever it need not wait. -/
def Reliable (w : AsyncWrite) : Prop := .accept 0 ∉ w.events ∧ ∀ e, .error e ∉ w.events

theorem Reliable.mono {w w' : AsyncWrite} (h : w.Reliable) (hsuffix : w'.events <:+ w.events) :
    w'.Reliable :=
  ⟨fun hmem => h.1 (hsuffix.mem hmem), fun e hmem => h.2 e (hsuffix.mem hmem)⟩

instance : PollWrite AsyncWrite where
  pollWrite := pollWrite
  pollFlush := pollFlush
  pollShutdown := pollShutdown
  patience w := w.events.length
  isShutdown := isShutdown
  Reliable := Reliable
  accepted_le h := by
    obtain ⟨-, -, ⟨n, hn, hle, -⟩ | ⟨hn, -⟩ | ⟨e, hn, -⟩⟩ := pollWrite_cases h
    · cases hn
      exact hle
    · cases hn
    · cases hn
  patience_write h := by
    obtain ⟨-, hsuffix, ⟨n, rfl, -⟩ | ⟨-, hlt, -⟩ | ⟨e, rfl, -⟩⟩ := pollWrite_cases h
    · exact ⟨hsuffix.length_le, fun hp => by cases hp⟩
    · exact ⟨hlt.le, fun _ => hlt⟩
    · exact ⟨hsuffix.length_le, fun hp => by cases hp⟩
  patience_flush h := ⟨(pollFlush_cases h).2.2.1.length_le, (pollFlush_cases h).2.2.2.1⟩
  patience_shutdown h := ⟨(pollShutdown_cases h).2.2.1.length_le, (pollShutdown_cases h).2.2.2.1⟩
  isShutdown_write h := (pollWrite_cases h).1
  isShutdown_flush h := (pollFlush_cases h).1
  isShutdown_shutdown h := (pollShutdown_cases h).1
  reliable_write hw h := by
    obtain ⟨-, hsuffix, ⟨n, rfl, -, -, hzero⟩ | ⟨rfl, -⟩ | ⟨e, rfl, -, he⟩⟩ := pollWrite_cases h
    · refine ⟨hw.mono hsuffix, (fun e he => by cases he), fun hne hp => ?_⟩
      cases hp
      exact hw.1 (hzero rfl hne)
    · exact ⟨hw.mono hsuffix, (fun e he => by cases he), fun _ hp => by cases hp⟩
    · exact absurd he (hw.2 e)
  reliable_flush hw h := by
    obtain ⟨-, -, hsuffix, -, herror⟩ := pollFlush_cases h
    exact ⟨hw.mono hsuffix, fun e he => hw.2 e (herror e he)⟩
  reliable_shutdown hw h := by
    obtain ⟨-, -, hsuffix, -, herror⟩ := pollShutdown_cases h
    exact ⟨hw.mono hsuffix, fun e he => hw.2 e (herror e he)⟩

/-- A writer takes what it accepts. -/
theorem writes : Writes fun (w : AsyncWrite) _ taken => w.written = taken where
  pending {w w' offered bytes taken} h _ hpoll := by
    obtain ⟨-, -, ⟨n, hn, -⟩ | ⟨-, -, hwritten⟩ | ⟨e, hn, -⟩⟩ := pollWrite_cases hpoll
    · cases hn
    · exact hwritten.trans h
    · cases hn
  ready {w w' offered bytes taken n} h _ hpoll := by
    obtain ⟨-, -, ⟨n, hn, -, hwritten, -⟩ | ⟨hn, -⟩ | ⟨e, hn, -⟩⟩ := pollWrite_cases hpoll
    · cases hn
      rw [hwritten, h]
    · cases hn
    · cases hn
  failed {w w' offered bytes taken e} h _ hpoll := by
    obtain ⟨-, -, ⟨n, hn, -⟩ | ⟨hn, -⟩ | ⟨e, -, hwritten, -⟩⟩ := pollWrite_cases hpoll
    · cases hn
    · cases hn
    · exact hwritten.trans h
  flush h hpoll := (pollFlush_cases hpoll).2.1.trans h
  shutdown h hpoll := (pollShutdown_cases hpoll).2.1.trans h

end AsyncWrite

/-! ## Futures -/

/-- Poll a future until it is ready, at most `k` times. -/
def drive {σ α : Type} (poll : σ → Poll α × σ) : ℕ → σ → Poll α × σ
  | 0, s => (.pending, s)
  | k + 1, s =>
    match poll s with
    | (.pending, s') => drive poll k s'
    | (.ready a, s') => (.ready a, s')

section Drive

variable {σ α : Type} {poll : σ → Poll α × σ}

/-- What holds at first and is kept by every poll holds whenever the future is looked at; what every
poll that is ready ensures holds at the end. -/
theorem drive_induction {I : σ → Prop} {Q : α → σ → Prop}
    (hpending : ∀ s s', I s → poll s = (.pending, s') → I s')
    (hready : ∀ s a s', I s → poll s = (.ready a, s') → Q a s') {k : ℕ} {s s' : σ} {p : Poll α}
    (h : I s) (hdrive : drive poll k s = (p, s')) :
    (p = .pending → I s') ∧ ∀ a, p = .ready a → Q a s' := by
  induction k generalizing s with
  | zero =>
    cases hdrive
    exact ⟨fun _ => h, fun a ha => by cases ha⟩
  | succ k ih =>
    rw [drive] at hdrive
    split at hdrive
    next s₁ hpoll => exact ih (hpending s s₁ h hpoll) hdrive
    next a s₁ hpoll =>
      cases hdrive
      refine ⟨(fun hp => by cases hp), fun a' ha => ?_⟩
      cases ha
      exact hready s a s' h hpoll

/-- A future whose polls use up something is ready in the end. -/
theorem drive_ready {measure : σ → ℕ}
    (hpending : ∀ s s', poll s = (.pending, s') → measure s' < measure s) {k : ℕ} {s : σ}
    (h : measure s < k) : ∃ a s', drive poll k s = (.ready a, s') := by
  induction k generalizing s with
  | zero => exact absurd h (Nat.not_lt_zero _)
  | succ k ih =>
    rw [drive]
    split
    next s' hpoll => exact ih (by have := hpending s s' hpoll; omega)
    next a s' hpoll => exact ⟨a, s', rfl⟩

end Drive
