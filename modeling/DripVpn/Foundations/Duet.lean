import DripVpn.Foundations.Confluence
import DripVpn.Foundations.Exchange

/-!
# Two programs at the ends of a connection

A `Duet` is a connection with a program at each end and the bytes that are on their way. Either
program can take its next step at any time: read a byte that has arrived, write one, or find out that
the other end was closed.

The steps of the two programs commute, so all that matters is where one schedule leads
(`Reactive.Commutes.joins`). `Runs` collects what a program can do without the other one, and
`leads_left` and `leads_right` make schedules of it. The order of events is not lost altogether: a
program that speaks last (`SpeaksLast`) is done when the other end has heard it.
-/

namespace Exchange

variable {α β ε : Type}

/-! ## Steps of a program -/

/-- The next step of a program at the end of a connection, with the bytes that have arrived there:
what the program goes on as, the bytes that are left, and what it writes. -/
def advance (closed : Bool) : Exchange α → Bytes → Option (Exchange α × Bytes × Bytes)
  | done _, _ => none
  | receive 0 next, inbox => some (next (.ok []), inbox, [])
  | receive (n + 1) next, b :: inbox => some (receive n fun r => next (r.map (b :: ·)), inbox, [])
  | receive (_ + 1) next, [] => if closed then some (next (.error .unexpectedEof), [], []) else none
  | send [] next, inbox => some (next (.ok ()), inbox, [])
  | send [b] next, inbox => some (next (.ok ()), inbox, [b])
  | send (b :: b' :: bytes) next, inbox => some (send (b' :: bytes) next, inbox, [b])

/-- What arrives later does not change a step that can be taken now. -/
theorem advance_append {closed : Bool} {p p' : Exchange α} {inbox inbox' out : Bytes}
    (h : p.advance false inbox = some (p', inbox', out)) (later : Bytes) :
    p.advance closed (inbox ++ later) = some (p', inbox' ++ later, out) := by
  rw [advance.eq_def] at h
  split at h
  · cases h
  · cases h
    rfl
  · cases h
    rfl
  · cases h
  · cases h
    rfl
  · cases h
    rfl
  · cases h
    rfl

/-- A program that goes on with another one takes its own steps first. -/
theorem advance_bind {closed : Bool} {p p' : Exchange α} {inbox inbox' out : Bytes}
    (h : p.advance closed inbox = some (p', inbox', out)) (f : α → Exchange β) :
    (p.bind f).advance closed inbox = some (p'.bind f, inbox', out) := by
  rw [advance.eq_def] at h
  split at h
  · cases h
  · cases h
    rfl
  · cases h
    rfl
  · split at h
    next hclosed =>
      cases h
      rw [bind, advance, if_pos hclosed]
    · cases h
  · cases h
    rfl
  · cases h
    rfl
  · cases h
    rfl

/-- What a program can do as long as the other end does nothing: it goes on as `p'`, leaves `inbox'`
of the bytes that have arrived and writes `out`. -/
inductive Runs (closed : Bool) : Exchange α → Bytes → Exchange α → Bytes → Bytes → Prop
  | refl (p : Exchange α) (inbox : Bytes) : Runs closed p inbox p inbox []
  | step {p p₁ p' : Exchange α} {inbox inbox₁ inbox' out out' : Bytes}
      (h : p.advance closed inbox = some (p₁, inbox₁, out))
      (hrest : Runs closed p₁ inbox₁ p' inbox' out') : Runs closed p inbox p' inbox' (out ++ out')

variable {closed : Bool} {p p' p'' : Exchange α} {inbox inbox' inbox'' out out' : Bytes}

theorem Runs.trans (h : Runs closed p inbox p' inbox' out)
    (h' : Runs closed p' inbox' p'' inbox'' out') : Runs closed p inbox p'' inbox'' (out ++ out') := by
  induction h with
  | refl p inbox => exact h'
  | step h hrest ih =>
    rw [List.append_assoc]
    exact .step h (ih h')

theorem Runs.bind (h : Runs closed p inbox p' inbox' out) (f : α → Exchange β) :
    Runs closed (p.bind f) inbox (p'.bind f) inbox' out := by
  induction h with
  | refl p inbox => exact .refl _ _
  | step h hrest ih => exact .step (advance_bind h f) ih

/-- A step that writes nothing. -/
theorem Runs.silent (h : p.advance closed inbox = some (p', inbox', []))
    (hrest : Runs closed p' inbox' p'' inbox'' out) : Runs closed p inbox p'' inbox'' out :=
  .step h hrest

/-- A step that writes a byte. -/
theorem Runs.writes {b : UInt8} (h : p.advance closed inbox = some (p', inbox', [b]))
    (hrest : Runs closed p' inbox' p'' inbox'' out) : Runs closed p inbox p'' inbox'' (b :: out) :=
  .step h hrest

theorem runs_send (bytes inbox : Bytes) (next : Except IoError Unit → Exchange α) :
    Runs closed (send bytes next) inbox (next (.ok ())) inbox bytes := by
  induction bytes with
  | nil => exact .silent rfl (.refl _ _)
  | cons b bytes ih =>
    cases bytes with
    | nil => exact .writes rfl (.refl _ _)
    | cons b' bytes => exact .writes rfl ih

theorem runs_receive (bytes inbox : Bytes) (next : Except IoError Bytes → Exchange α) :
    Runs closed (receive bytes.length next) (bytes ++ inbox) (next (.ok bytes)) inbox [] := by
  induction bytes generalizing next with
  | nil => exact .silent rfl (.refl _ _)
  | cons b bytes ih => exact .silent rfl (ih fun r => next (r.map (b :: ·)))

/-- A part of a message is written. -/
theorem runs_send_part (bytes : Bytes) {rest : Bytes} (hne : rest ≠ []) (inbox : Bytes)
    (next : Except IoError Unit → Exchange α) :
    Runs closed (send (bytes ++ rest) next) inbox (send rest next) inbox bytes := by
  induction bytes with
  | nil => exact .refl _ _
  | cons b bytes ih =>
    obtain ⟨b', rest', hcons⟩ := List.exists_cons_of_ne_nil (List.append_ne_nil_of_right_ne_nil bytes hne)
    rw [List.cons_append, hcons]
    rw [hcons] at ih
    exact .writes rfl ih

/-- A part of a message is read. -/
theorem runs_receive_part (bytes inbox : Bytes) (n : ℕ) (next : Except IoError Bytes → Exchange α) :
    Runs closed (receive (bytes.length + n) next) (bytes ++ inbox)
      (receive n fun r => next (r.map (bytes ++ ·))) inbox [] := by
  induction bytes generalizing next with
  | nil =>
    have hid : (fun r : Except IoError Bytes => next (r.map ([] ++ ·))) = next := by
      funext r
      cases r with
      | ok bytes => rfl
      | error e => rfl
    rw [List.length_nil, Nat.zero_add, hid]
    exact .refl _ _
  | cons b bytes ih =>
    have hcons : (fun r : Except IoError Bytes => next (r.map (b :: bytes ++ ·))) =
        fun r => next ((r.map (bytes ++ ·)).map (b :: ·)) := by
      funext r
      cases r with
      | ok bytes => rfl
      | error e => rfl
    rw [List.length_cons, Nat.succ_add, hcons]
    exact .silent rfl (ih fun r => next (r.map (b :: ·)))

/-- The bytes that are there are not enough, and no more will come. -/
theorem runs_receive_eof {n : ℕ} (h : inbox.length < n) (next : Except IoError Bytes → Exchange α) :
    Runs true (receive n next) inbox (next (.error .unexpectedEof)) [] [] := by
  induction inbox generalizing n next with
  | nil =>
    obtain ⟨m, rfl⟩ := Nat.exists_eq_add_one_of_ne_zero (Nat.ne_of_gt h)
    exact .silent rfl (.refl _ _)
  | cons b inbox ih =>
    obtain ⟨m, rfl⟩ := Nat.exists_eq_add_one_of_ne_zero (Nat.ne_of_gt (Nat.zero_lt_of_lt h))
    exact .silent rfl (ih (Nat.lt_of_succ_lt_succ h) fun r => next (r.map (b :: ·)))

/-- A program that finds all it needs among the bytes runs to its end. -/
theorem runs_parse {bytes rest written : Bytes} {a : α}
    (h : ∀ ending later, parse ending p (bytes ++ later) = ⟨a, rest ++ later, written⟩) :
    Runs closed p bytes (done a) rest written := by
  induction p generalizing bytes written with
  | done result =>
    have hdone := h none []
    rw [parse, List.append_nil, List.append_nil, Outcome.mk.injEq] at hdone
    obtain ⟨rfl, rfl, rfl⟩ := hdone
    exact .refl _ _
  | receive n next ih =>
    have hle : n ≤ bytes.length := by
      by_contra hlt
      -- with just as many bytes as are needed, none would be left
      have hlength : (bytes ++ List.replicate (n - bytes.length) 0).length = n := by
        rw [List.length_append, List.length_replicate]
        omega
      have hrest := congrArg Outcome.rest (h none (List.replicate (n - bytes.length) 0))
      rw [parse, if_pos hlength.ge, List.drop_eq_nil_of_le hlength.le] at hrest
      have hle := (parse_rest_suffix _ none _).length_le.trans_eq' (congrArg List.length hrest)
      rw [List.length_append, List.length_replicate, List.length_nil] at hle
      omega
    have hread : Runs closed _ _ _ _ _ := runs_receive (bytes.take n) (bytes.drop n) next
    rw [List.take_append_drop, List.length_take_of_le hle] at hread
    refine hread.trans (ih _ fun ending later => ?_)
    have hparse := h ending later
    rwa [parse, if_pos (by rw [List.length_append]; omega), List.take_append_of_le_length hle,
      List.drop_append_of_le_length hle] at hparse
  | send out next ih =>
    have hwritten : ∃ written', written = out ++ written' := by
      have hnone := congrArg Outcome.written (h none [])
      exact ⟨_, hnone.symm⟩
    obtain ⟨written', rfl⟩ := hwritten
    refine (runs_send out bytes next).trans (ih _ fun ending later => ?_)
    have hparse := h ending later
    rw [parse] at hparse
    simp only [Outcome.mk.injEq, List.append_cancel_left_eq] at hparse
    exact Outcome.ext hparse.1 hparse.2.1 hparse.2.2

/-- A parser that is followed by something else. -/
theorem Parses.runs {p : ExceptT ε Exchange α} {bytes : Bytes} {a : α} (h : Parses p bytes a)
    (rest : Bytes) : Runs closed p.run (bytes ++ rest) (done (.ok a)) rest [] := by
  refine runs_parse fun ending later => ?_
  rw [List.append_assoc]
  exact h ending (rest ++ later)

/-! ## Speaking last -/

/-- The program writes something right before it is done with a result in `P`. -/
def SpeaksLast (P : α → Prop) : Exchange α → Prop
  | done _ => True
  | receive _ next => ∀ r, (next r).SpeaksLast P ∧ ∀ a, next r = done a → ¬ P a
  | send bytes next => bytes ≠ [] ∧ ∀ r, (next r).SpeaksLast P

/-- The program has something to write before it is done with a result in `P`. -/
def Announces (P : α → Prop) (p : Exchange α) : Prop := p.SpeaksLast P ∧ ∀ a, p = done a → ¬ P a

variable {P : α → Prop} {Q : β → Prop}

theorem speaksLast_done (a : α) : (done a).SpeaksLast P := trivial

theorem announces_done {a : α} (h : ¬ P a) : (done a).Announces P :=
  ⟨trivial, fun _ ha => by cases ha; exact h⟩

theorem announces_receive {n : ℕ} {next : Except IoError Bytes → Exchange α}
    (h : ∀ r, (next r).Announces P) : (receive n next).Announces P :=
  ⟨h, fun _ ha => by cases ha⟩

theorem announces_send {bytes : Bytes} {next : Except IoError Unit → Exchange α} (hne : bytes ≠ [])
    (h : ∀ r, (next r).SpeaksLast P) : (send bytes next).Announces P :=
  ⟨⟨hne, h⟩, fun _ ha => by cases ha⟩

/-- The program writes no empty messages. -/
def Spoken (p : Exchange α) : Prop := p.SpeaksLast fun _ => False

/-- What comes first may write and read, as long as it writes no empty messages. -/
theorem Spoken.bind (hp : p.Spoken) {f : α → Exchange β}
    (hf : ∀ a, (f a).Announces Q) : (p.bind f).Announces Q := by
  induction p with
  | done a => exact hf a
  | receive n next ih => exact announces_receive fun r => ih r (hp r).1
  | send bytes next ih => exact announces_send hp.1 fun r => (ih r (hp.2 r)).1

theorem spoken_pure (a : α) : (pure a : ExceptT ε Exchange α).run.Spoken := trivial

theorem spoken_throw (e : ε) : (throw e : ExceptT ε Exchange α).run.Spoken := trivial

theorem spoken_readExact (ofIo : IoError → ε) (n : ℕ) : (readExact ofIo n).run.Spoken := by
  intro r
  refine ⟨?_, fun _ _ => not_false⟩
  cases r with
  | ok bytes => exact trivial
  | error e => exact trivial

theorem spoken_bind {p : ExceptT ε Exchange α} {f : α → ExceptT ε Exchange β} (hp : p.run.Spoken)
    (hf : ∀ a, (f a).run.Spoken) : (p >>= f).run.Spoken := by
  refine (Spoken.bind (Q := fun _ => False) hp fun a => ?_).1
  cases a with
  | ok a => exact ⟨hf a, fun _ _ => not_false⟩
  | error e => exact ⟨trivial, fun _ _ => not_false⟩

theorem SpeaksLast.advance (h : p.SpeaksLast P)
    (hadvance : p.advance closed inbox = some (p', inbox', out)) :
    p'.SpeaksLast P ∧ ((∃ a, p' = done a ∧ P a) → out ≠ []) := by
  rw [advance.eq_def] at hadvance
  split at hadvance
  · cases hadvance
  · cases hadvance
    exact ⟨(h _).1, fun ⟨a, ha, hP⟩ => absurd hP ((h _).2 a ha)⟩
  · cases hadvance
    exact ⟨fun r => h (r.map _), fun ⟨a, ha, _⟩ => by cases ha⟩
  · split at hadvance
    · cases hadvance
      exact ⟨(h _).1, fun ⟨a, ha, hP⟩ => absurd hP ((h _).2 a ha)⟩
    · cases hadvance
  · exact absurd rfl h.1
  · cases hadvance
    exact ⟨h.2 _, fun _ => List.cons_ne_nil _ _⟩
  · cases hadvance
    exact ⟨⟨List.cons_ne_nil _ _, h.2⟩, fun _ => List.cons_ne_nil _ _⟩

/-- The connection is closed by a program that is done with a result in `closes`. -/
def hasClosed (closes : α → Bool) : Exchange α → Bool
  | done a => closes a
  | _ => false

theorem hasClosed_eq_false_of_advance (closes : α → Bool)
    (h : p.advance closed inbox = some (p', inbox', out)) : p.hasClosed closes = false := by
  cases p with
  | done a => cases h
  | receive n next => rfl
  | send bytes next => rfl

end Exchange

/-- The two ends of a connection. -/
inductive Side
  | left
  | right
deriving DecidableEq

/-- A connection with a program at each end, and the bytes that are on their way. -/
structure Duet (α β : Type) where
  left : Exchange α
  right : Exchange β
  toLeft : Bytes
  toRight : Bytes

namespace Duet

open Exchange Reactive

variable {α β : Type} {closesLeft : α → Bool} {closesRight : β → Bool}

/-- The next step of the program at one end. -/
def step (closesLeft : α → Bool) (closesRight : β → Bool) (d : Duet α β) : Side → Option (Duet α β)
  | .left =>
    (d.left.advance (d.right.hasClosed closesRight) d.toLeft).map fun (left, toLeft, out) =>
      { d with left, toLeft, toRight := d.toRight ++ out }
  | .right =>
    (d.right.advance (d.left.hasClosed closesLeft) d.toRight).map fun (right, toRight, out) =>
      { d with right, toRight, toLeft := d.toLeft ++ out }

variable {d d' : Duet α β}

theorem step_left_iff : d.step closesLeft closesRight .left = some d' ↔
    ∃ left toLeft out, d.left.advance (d.right.hasClosed closesRight) d.toLeft =
      some (left, toLeft, out) ∧ d' = { d with left, toLeft, toRight := d.toRight ++ out } := by
  rw [step, Option.map_eq_some_iff]
  constructor
  · rintro ⟨⟨left, toLeft, out⟩, hadvance, rfl⟩
    exact ⟨left, toLeft, out, hadvance, rfl⟩
  · rintro ⟨left, toLeft, out, hadvance, rfl⟩
    exact ⟨(left, toLeft, out), hadvance, rfl⟩

theorem step_right_iff : d.step closesLeft closesRight .right = some d' ↔
    ∃ right toRight out, d.right.advance (d.left.hasClosed closesLeft) d.toRight =
      some (right, toRight, out) ∧ d' = { d with right, toRight, toLeft := d.toLeft ++ out } := by
  rw [step, Option.map_eq_some_iff]
  constructor
  · rintro ⟨⟨right, toRight, out⟩, hadvance, rfl⟩
    exact ⟨right, toRight, out, hadvance, rfl⟩
  · rintro ⟨right, toRight, out, hadvance, rfl⟩
    exact ⟨(right, toRight, out), hadvance, rfl⟩

/-- A step at one end and a step at the other can be taken in either order. -/
theorem step_left_right {d₁ d₂ : Duet α β} (hleft : d.step closesLeft closesRight .left = some d₁)
    (hright : d.step closesLeft closesRight .right = some d₂) :
    ∃ d', d₁.step closesLeft closesRight .right = some d' ∧
      d₂.step closesLeft closesRight .left = some d' := by
  obtain ⟨left, toLeft, out, hl, rfl⟩ := step_left_iff.mp hleft
  obtain ⟨right, toRight, out', hr, rfl⟩ := step_right_iff.mp hright
  -- a program that can go on has not closed the connection
  have hopen := hasClosed_eq_false_of_advance closesLeft hl
  have hopen' := hasClosed_eq_false_of_advance closesRight hr
  rw [hopen'] at hl
  rw [hopen] at hr
  refine ⟨⟨left, right, toLeft ++ out', toRight ++ out⟩, step_right_iff.mpr ?_, step_left_iff.mpr ?_⟩
  · exact ⟨right, toRight ++ out, out', advance_append hr out, rfl⟩
  · exact ⟨left, toLeft ++ out', out, advance_append hl out', rfl⟩

theorem commutes_step : Commutes (step closesLeft closesRight) := by
  intro d d₁ d₂ i j hi hj hne
  match i, j with
  | .left, .left => exact absurd rfl hne
  | .left, .right => exact step_left_right hi hj
  | .right, .left =>
    obtain ⟨d', hright, hleft⟩ := step_left_right hj hi
    exact ⟨d', hleft, hright⟩
  | .right, .right => exact absurd rfl hne

/-! ## Schedules -/

theorem leads_left {p p' : Exchange α} {q : Exchange β} {inbox inbox' out : Bytes}
    (h : Runs (q.hasClosed closesRight) p inbox p' inbox' out) (toRight : Bytes) :
    Leads (step closesLeft closesRight) ⟨p, q, inbox, toRight⟩ ⟨p', q, inbox', toRight ++ out⟩ := by
  induction h generalizing toRight with
  | refl p inbox =>
    rw [List.append_nil]
    exact .refl _
  | step h hrest ih =>
    obtain ⟨is, his⟩ := ih (toRight ++ _)
    rw [← List.append_assoc]
    exact ⟨.left :: is, steps_cons_iff.mpr ⟨_, step_left_iff.mpr ⟨_, _, _, h, rfl⟩, his⟩⟩

theorem leads_right {p : Exchange α} {q q' : Exchange β} {inbox inbox' out : Bytes}
    (h : Runs (p.hasClosed closesLeft) q inbox q' inbox' out) (toLeft : Bytes) :
    Leads (step closesLeft closesRight) ⟨p, q, toLeft, inbox⟩ ⟨p, q', toLeft ++ out, inbox'⟩ := by
  induction h generalizing toLeft with
  | refl q inbox =>
    rw [List.append_nil]
    exact .refl _
  | step h hrest ih =>
    obtain ⟨is, his⟩ := ih (toLeft ++ _)
    rw [← List.append_assoc]
    exact ⟨.right :: is, steps_cons_iff.mpr ⟨_, step_right_iff.mpr ⟨_, _, _, h, rfl⟩, his⟩⟩

/-- Nothing happens any more when both programs are done. -/
theorem step_done (a : α) (b : β) (toLeft toRight : Bytes) (i : Side) :
    step closesLeft closesRight ⟨done a, done b, toLeft, toRight⟩ i = none := by
  cases i <;> rfl

variable {P : β → Prop}

theorem speaksLast_steps {is : List Side} (h : d.right.SpeaksLast P)
    (his : steps (step closesLeft closesRight) d is = some d') : d'.right.SpeaksLast P := by
  induction is generalizing d with
  | nil =>
    cases his
    exact h
  | cons i is ih =>
    obtain ⟨d₁, hi, hrest⟩ := steps_cons_iff.mp his
    refine ih ?_ hrest
    match i with
    | .left =>
      obtain ⟨left, toLeft, out, -, rfl⟩ := step_left_iff.mp hi
      exact h
    | .right =>
      obtain ⟨right, toRight, out, hadvance, rfl⟩ := step_right_iff.mp hi
      exact (h.advance hadvance).1

/-- A program that is done stays so. -/
theorem left_done_steps {a : α} {is : List Side} (hleft : d.left = done a)
    (his : steps (step closesLeft closesRight) d is = some d') : d'.left = done a := by
  induction is generalizing d with
  | nil =>
    cases his
    exact hleft
  | cons i is ih =>
    obtain ⟨d₁, hi, hrest⟩ := steps_cons_iff.mp his
    match i with
    | .left =>
      obtain ⟨left, toLeft, out, hadvance, -⟩ := step_left_iff.mp hi
      rw [hleft] at hadvance
      cases hadvance
    | .right =>
      obtain ⟨right, toRight, out, -, rfl⟩ := step_right_iff.mp hi
      exact ih (d := { d with right, toRight, toLeft := d.toLeft ++ out }) hleft hrest

/-- **Who speaks last was heard.** If the program on the left is done and nothing that is written to
it will be left over, the program on the right, which speaks last, is done too. -/
theorem right_done {a : α} {b : β} {is : List Side} (hleft : d.left = done a)
    (hright : d.right.SpeaksLast P) (his : steps (step closesLeft closesRight) d is = some d')
    (hb : d'.right = done b) (hP : P b) (hnil : d'.toLeft = []) : d.right = done b := by
  induction is generalizing d with
  | nil =>
    cases his
    exact hb
  | cons i is ih =>
    obtain ⟨d₁, hi, hrest⟩ := steps_cons_iff.mp his
    match i with
    | .left =>
      obtain ⟨left, toLeft, out, hadvance, -⟩ := step_left_iff.mp hi
      rw [hleft] at hadvance
      cases hadvance
    | .right =>
      obtain ⟨right, toRight, out, hadvance, rfl⟩ := step_right_iff.mp hi
      obtain ⟨hspeaks, hout⟩ := hright.advance hadvance
      have hdone : right = done b :=
        ih (d := { d with right, toRight, toLeft := d.toLeft ++ out }) hleft hspeaks hrest
      subst hdone
      -- both programs are done, and the last word was not heard
      match is with
      | [] =>
        cases hrest
        exact absurd (List.append_eq_nil_iff.mp hnil).2 (hout ⟨b, rfl, hP⟩)
      | j :: js =>
        obtain ⟨d₂, hj, -⟩ := steps_cons_iff.mp hrest
        rw [hleft, step_done] at hj
        cases hj

end Duet
