import DripVpn.Foundations.PollIo

/-!
# Programs over a byte connection

An asynchronous function that awaits `read_exact` and `write_all` on one connection, as a tree of
what it waits for. `Exchange.run` performs it on a stream whose bytes arrive in pieces;
`Exchange.parse` performs it on the bytes alone. `run_eq_parse` says that the two agree, so that a
parser need only be looked at on bytes. `Parses` is the case in which it succeeds, with the rules to
put parsers together; it then succeeds on any reader that delivers the bytes (`Parses.run`).
-/

/-- A program that reads from and writes to a connection before it returns an `α`. -/
inductive Exchange (α : Type) : Type
  | done (result : α)
  | receive (n : ℕ) (next : Except IoError Bytes → Exchange α)
  | send (bytes : Bytes) (next : Except IoError Unit → Exchange α)

namespace Exchange

variable {α β ε : Type}

/-- Go on with another program. -/
def bind : Exchange α → (α → Exchange β) → Exchange β
  | done a, f => f a
  | receive n next, f => receive n fun r => (next r).bind f
  | send bytes next, f => send bytes fun r => (next r).bind f

instance : Monad Exchange where
  pure := done
  bind := Exchange.bind

/-- `stream.read_exact(..).await?` -/
def readExact (ofIo : IoError → ε) (n : ℕ) : ExceptT ε Exchange Bytes :=
  ExceptT.mk (receive n fun
    | .ok bytes => done (.ok bytes)
    | .error e => done (.error (ofIo e)))

/-- `stream.write_all(..).await?` -/
def writeAll (ofIo : IoError → ε) (bytes : Bytes) : ExceptT ε Exchange Unit :=
  ExceptT.mk (send bytes fun
    | .ok () => done (.ok ())
    | .error e => done (.error (ofIo e)))

/-! ## Performing a program -/

/-- The result of a program, what is left of the stream, and what was written. -/
@[ext]
structure Outcome (α σ : Type) where
  result : α
  rest : σ
  written : Bytes
deriving DecidableEq

/-- Perform a program on a stream; writing succeeds. -/
def run {ρ : Type} [PollRead ρ] : Exchange α → ρ → Outcome α ρ
  | done a, r => ⟨a, r, []⟩
  | receive n next, r => (next (awaitExact r n).1).run (awaitExact r n).2
  | send bytes next, r =>
    let outcome := (next (.ok ())).run r
    { outcome with written := bytes ++ outcome.written }

/-- Perform a program on the bytes of a stream with the given end. -/
def parse (ending : Option IoError) : Exchange α → Bytes → Outcome α Bytes
  | done a, bytes => ⟨a, bytes, []⟩
  | receive n next, bytes =>
    if n ≤ bytes.length then (next (.ok (bytes.take n))).parse ending (bytes.drop n)
    else (next (.error (ending.getD .unexpectedEof))).parse ending []
  | send bytes next, input =>
    let outcome := (next (.ok ())).parse ending input
    { outcome with written := bytes ++ outcome.written }

/-- How the bytes are cut into pieces makes no difference. -/
theorem run_eq_parse (p : Exchange α) (s : AsyncRead) :
    (p.run s).result = (p.parse s.ending s.bytes).result ∧
      (p.run s).rest.bytes = (p.parse s.ending s.bytes).rest ∧
      (p.run s).rest.ending = s.ending ∧
      (p.run s).written = (p.parse s.ending s.bytes).written := by
  induction p generalizing s with
  | done a => exact ⟨rfl, rfl, rfl, rfl⟩
  | receive n next ih =>
    rw [run, parse]
    split
    next hle =>
      obtain ⟨s', hread, hbytes, hending⟩ := awaitExact_of_le AsyncRead.reads ⟨rfl, rfl⟩ hle
      rw [hread, ← hbytes, ← hending]
      exact ih _ s'
    next hlt =>
      obtain ⟨s', hread, hbytes, hending⟩ :=
        awaitExact_of_lt AsyncRead.reads AsyncRead.fused ⟨rfl, rfl⟩ (Nat.lt_of_not_le hlt)
      rw [hread, ← hending, ← hbytes]
      exact ih _ s'
  | send bytes next ih =>
    obtain ⟨hresult, hrest, hending, hwritten⟩ := ih (.ok ()) s
    exact ⟨hresult, hrest, hending, congrArg (bytes ++ ·) hwritten⟩

/-- A program leaves the last of the bytes. -/
theorem parse_rest_suffix (p : Exchange α) (ending : Option IoError) (bytes : Bytes) :
    (p.parse ending bytes).rest <:+ bytes := by
  induction p generalizing bytes with
  | done a => exact List.suffix_rfl
  | receive n next ih =>
    rw [parse]
    split
    · exact (ih _ _).trans (List.drop_suffix n bytes)
    · exact (ih _ _).trans List.nil_suffix
  | send out next ih => exact ih (.ok ()) bytes

theorem parse_bind (ending : Option IoError) (p : Exchange α) (f : α → Exchange β) (bytes : Bytes) :
    (p.bind f).parse ending bytes =
      let first := p.parse ending bytes
      let second := (f first.result).parse ending first.rest
      ⟨second.result, second.rest, first.written ++ second.written⟩ := by
  induction p generalizing bytes with
  | done a => rfl
  | receive n next ih =>
    simp only [bind, parse]
    split
    · exact ih _ _
    · exact ih _ _
  | send out next ih =>
    simp only [bind, parse, ih, List.append_assoc]

/-! ## Parsers -/

/-- The program reads `bytes` off the front of whatever comes and returns `a`. -/
def Parses (p : ExceptT ε Exchange α) (bytes : Bytes) (a : α) : Prop :=
  ∀ ending rest, parse ending p.run (bytes ++ rest) = ⟨.ok a, rest, []⟩

theorem parses_pure (a : α) : Parses (pure a : ExceptT ε Exchange α) [] a :=
  fun _ _ => rfl

theorem parses_readExact (ofIo : IoError → ε) {n : ℕ} {bytes : Bytes} (h : bytes.length = n) :
    Parses (readExact ofIo n) bytes bytes := by
  intro ending rest
  rw [readExact, ExceptT.run_mk, parse, if_pos (by rw [List.length_append]; omega),
    List.take_left' h, List.drop_left' h, parse]

theorem Parses.bind {p : ExceptT ε Exchange α} {f : α → ExceptT ε Exchange β} {bytes bytes' : Bytes}
    {a : α} {b : β} (hp : Parses p bytes a) (hf : Parses (f a) bytes' b) :
    Parses (p >>= f) (bytes ++ bytes') b := by
  intro ending rest
  show parse ending (Exchange.bind p.run _) _ = _
  rw [parse_bind, List.append_assoc, hp ending (bytes' ++ rest)]
  dsimp only [ExceptT.bindCont]
  rw [show parse ending (f a) (bytes' ++ rest) = _ from hf ending rest]
  rfl

/-- What follows need not read anything. -/
theorem Parses.bind_last {p : ExceptT ε Exchange α} {f : α → ExceptT ε Exchange β} {bytes : Bytes}
    {a : α} {b : β} (hp : Parses p bytes a) (hf : Parses (f a) [] b) : Parses (p >>= f) bytes b := by
  have h := hp.bind hf
  rwa [List.append_nil] at h

theorem parse_bind_run (ending : Option IoError) (p : ExceptT ε Exchange α)
    (f : α → ExceptT ε Exchange β) (bytes : Bytes) :
    parse ending (p >>= f).run bytes =
      match parse ending p.run bytes with
      | ⟨.ok a, rest, written⟩ =>
        let second := parse ending (f a).run rest
        ⟨second.result, second.rest, written ++ second.written⟩
      | ⟨.error e, rest, written⟩ => ⟨.error e, rest, written⟩ := by
  show parse ending (Exchange.bind p.run _) _ = _
  rw [parse_bind]
  obtain ⟨result, rest, written⟩ := parse ending p.run bytes
  cases result with
  | ok a => rfl
  | error e => simp [ExceptT.bindCont, pure, parse]

/-- A sequence succeeds if its parts do, one after the other. -/
theorem parse_bind_eq_ok_iff {ending : Option IoError} {p : ExceptT ε Exchange α}
    {f : α → ExceptT ε Exchange β} {bytes rest written : Bytes} {b : β} :
    parse ending (p >>= f).run bytes = ⟨.ok b, rest, written⟩ ↔
      ∃ a mid written₁ written₂, parse ending p.run bytes = ⟨.ok a, mid, written₁⟩ ∧
        parse ending (f a).run mid = ⟨.ok b, rest, written₂⟩ ∧ written = written₁ ++ written₂ := by
  rw [parse_bind_run]
  constructor
  · intro h
    split at h
    next a mid written₁ hp =>
      simp only [Outcome.mk.injEq] at h
      obtain ⟨hresult, hrest, rfl⟩ := h
      exact ⟨a, mid, written₁, _, hp, by rw [← hresult, ← hrest], rfl⟩
    · cases h
  · rintro ⟨a, mid, written₁, written₂, hp, hf, rfl⟩
    simp only [hp, hf]

theorem parse_readExact_eq_ok_iff {ofIo : IoError → ε} {ending : Option IoError} {n : ℕ}
    {bytes rest written received : Bytes} :
    parse ending (readExact ofIo n).run bytes = ⟨.ok received, rest, written⟩ ↔
      bytes = received ++ rest ∧ received.length = n ∧ written = [] := by
  rw [readExact, ExceptT.run_mk, parse]
  split
  next hle =>
    simp only [parse, Outcome.mk.injEq, Except.ok.injEq]
    constructor
    · rintro ⟨rfl, rfl, rfl⟩
      exact ⟨(List.take_append_drop n bytes).symm, List.length_take_of_le hle, rfl⟩
    · rintro ⟨rfl, hlength, rfl⟩
      exact ⟨List.take_left' hlength, List.drop_left' hlength, rfl⟩
  next hlt =>
    simp only [parse, Outcome.mk.injEq, reduceCtorEq, false_and, false_iff, not_and]
    rintro rfl hlength
    rw [List.length_append] at hlt
    omega

/-- A parser that succeeds on some bytes does so however they arrive, and leaves what follows. -/
theorem Parses.run {p : ExceptT ε Exchange α} {bytes : Bytes} {a : α} (h : Parses p bytes a)
    {ρ : Type} [PollRead ρ] {R : ρ → Bytes → Option IoError → Prop} (hR : Reads R) {r : ρ}
    {rest : Bytes} {ending : Option IoError} (hr : R r (bytes ++ rest) ending) :
    ((ExceptT.run p).run r).result = .ok a ∧ R ((ExceptT.run p).run r).rest rest ending := by
  rw [Parses] at h
  generalize ExceptT.run p = q at h ⊢
  induction q generalizing r bytes with
  | done result =>
    -- nothing is read, so there is nothing to be read
    have hnil := congrArg Outcome.rest (h ending [])
    rw [List.append_nil, parse] at hnil
    dsimp only at hnil
    subst hnil
    have hresult := congrArg Outcome.result (h ending [])
    exact ⟨hresult, hr⟩
  | receive n next ih =>
    by_cases hn : n ≤ bytes.length
    · obtain ⟨r', hread, hr'⟩ := awaitExact_of_le (n := n) hR hr (by rw [List.length_append]; omega)
      rw [List.take_append_of_le_length hn] at hread
      rw [List.drop_append_of_le_length hn] at hr'
      rw [Exchange.run, hread]
      refine ih _ hr' fun ending rest => ?_
      have hparse := h ending rest
      rwa [parse, if_pos (by rw [List.length_append]; omega), List.take_append_of_le_length hn,
        List.drop_append_of_le_length hn] at hparse
    · -- a program that reads more than `bytes` would not leave what follows
      have hlength : (bytes ++ List.replicate (n - bytes.length) 0).length = n := by
        rw [List.length_append, List.length_replicate]
        omega
      have hrest := congrArg Outcome.rest (h ending (List.replicate (n - bytes.length) 0))
      rw [parse, if_pos hlength.ge, List.drop_eq_nil_of_le hlength.le] at hrest
      have hsuffix := (parse_rest_suffix _ ending _).length_le.trans_eq' (congrArg List.length hrest)
      rw [List.length_replicate, List.length_nil] at hsuffix
      omega
  | send out next ih =>
    refine ih _ hr fun ending rest => ?_
    have hparse := h ending rest
    rw [parse] at hparse
    simp only [Outcome.mk.injEq, List.append_eq_nil_iff] at hparse
    obtain ⟨hresult, hrest, -, hwritten⟩ := hparse
    rw [Outcome.ext_iff]
    exact ⟨hresult, hrest, hwritten⟩

end Exchange
