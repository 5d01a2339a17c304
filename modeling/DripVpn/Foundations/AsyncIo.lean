import DripVpn.Foundations.Bytes

/-!
# Asynchronous byte streams

The future of a byte stream, poll by poll: a poll finds nothing yet, or some bytes that arrive
together, and after the last of them the end of the stream or an error. How the bytes are cut into
pieces and where polls find nothing is up to the network, so what a reader makes of a stream should
depend on `AsyncRead.bytes` and `AsyncRead.ending` only.
-/

/-- The kinds of `io::Error` that are told apart. -/
inductive IoError
  | unexpectedEof
  | writeZero
  | connectionRefused
  | connectionAborted
  | other
deriving DecidableEq

/-- `std::task::Poll` -/
inductive Poll (α : Type*)
  | pending
  | ready (a : α)
deriving DecidableEq

/-- The operator `?` on a poll, of which an error is the result at once. -/
def Poll.branch {ε α : Type*} : Poll (Except ε α) → Except ε (Poll α)
  | .pending => .ok .pending
  | .ready (.ok a) => .ok (.ready a)
  | .ready (.error e) => .error e

/-! ## Readers -/

/-- What a poll of a reader finds: nothing yet, or at least one byte. -/
inductive ReadEvent
  | pending
  | data (first : UInt8) (rest : Bytes)
deriving DecidableEq

/-- The events of a stream that are still to come, and its end: an error or, without one, the end of
the file. -/
structure AsyncRead where
  events : List ReadEvent
  ending : Option IoError
deriving DecidableEq

namespace AsyncRead

/-- Bytes that arrive together, if there are any, before `events`. -/
def arrive : Bytes → List ReadEvent → List ReadEvent
  | [], events => events
  | b :: bs, events => .data b bs :: events

/-- The stream of some pieces. -/
def ofChunks (chunks : List Bytes) : AsyncRead := ⟨chunks.foldr arrive [], none⟩

/-- The bytes that are still to come. -/
def bytes (s : AsyncRead) : Bytes :=
  s.events.flatMap fun
    | .pending => []
    | .data b bs => b :: bs

/-- `poll_read` into a buffer with room for `n` bytes; no bytes mean the end of the stream. -/
def pollRead (s : AsyncRead) (n : ℕ) : Poll (Except IoError Bytes) × AsyncRead :=
  match s.events with
  | [] => (.ready (match s.ending with | none => .ok [] | some e => .error e), s)
  | .pending :: events => (.pending, { s with events })
  | .data b bs :: events =>
    (.ready (.ok ((b :: bs).take n)), { s with events := arrive ((b :: bs).drop n) events })

@[simp]
theorem bytes_nil (ending : Option IoError) : bytes ⟨[], ending⟩ = [] := rfl

@[simp]
theorem bytes_pending (events : List ReadEvent) (ending : Option IoError) :
    bytes ⟨.pending :: events, ending⟩ = bytes ⟨events, ending⟩ := rfl

@[simp]
theorem bytes_data (b : UInt8) (bs : Bytes) (events : List ReadEvent) (ending : Option IoError) :
    bytes ⟨.data b bs :: events, ending⟩ = b :: bs ++ bytes ⟨events, ending⟩ := rfl

@[simp]
theorem bytes_arrive (bs : Bytes) (events : List ReadEvent) (ending : Option IoError) :
    bytes ⟨arrive bs events, ending⟩ = bs ++ bytes ⟨events, ending⟩ := by
  cases bs with
  | nil => rfl
  | cons b bs => rfl

theorem bytes_ofChunks (chunks : List Bytes) : (ofChunks chunks).bytes = chunks.flatten := by
  induction chunks with
  | nil => rfl
  | cons chunk chunks ih =>
    rw [ofChunks, List.foldr_cons, bytes_arrive, List.flatten_cons, ← ih, ofChunks]

end AsyncRead
