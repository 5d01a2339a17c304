import DripVpn.Foundations.Bytes

/-!
# The local DNS worker

`LocalDnsWorker.accept` reads one query from a local socket, gives it to the resolver and writes
the answer back. Queries and answers are framed: two bytes of length, then the message.

The length is read byte by byte, but the query is read with a single `read`, which may deliver
only a part of it; the rest of the buffer then stays zero. `relayed_iff` says for which chunks the
resolver still gets the query, and that a query that is cut short reaches the resolver as soon as
its length has arrived.
-/

namespace LocalDnsWorker

/-- What one connection did: the queries that the resolver was called with, and the bytes that were
written to the socket. -/
structure Connection where
  queries : List Bytes
  written : Bytes
  deriving DecidableEq

section

variable {E : Type}

/-- A buffer after a read into its beginning. -/
def fill (buffer received : Bytes) : Bytes := received ++ buffer.drop received.length

/-- `output.writeShort` and `output.write`. -/
def write (response : Bytes) : Bytes := bigEndian 2 response.length ++ response

/-- `LocalDnsWorker.accept`. A resolver that throws is answered with `servfail`, the response made
from the query, or with nothing if the query cannot be parsed. -/
def accept (resolver : Bytes → Except E Bytes) (servfail : Bytes → Option Bytes)
    (input : InputStream) : Connection :=
  match input.readUnsignedShort with
  | none => ⟨[], []⟩  -- connection early close
  | some (size, input) =>
    -- one `read`, which may return before the array is full; -1 leaves it as it is
    let query := fill (List.replicate size 0) ((input.read size).1.getD [])
    let response := match resolver query with
      | .ok response => response
      | .error _ => (servfail query).getD []
    ⟨[query], write response⟩

/-- The frame of a message. -/
def frame (message : Bytes) : Bytes := bigEndian 2 message.length ++ message

/-- A peer decodes a frame: the length, and as many bytes as it says. -/
def unframe (bytes : Bytes) : Option Bytes :=
  let message := bytes.drop 2
  if 2 ≤ bytes.length ∧ message.length = ofBigEndian (bytes.take 2) then some message else none

/-- The query is relayed whole, or not at all if the stream ends before the frame is complete. -/
structure Relayed (servfail : Bytes → Option Bytes) (q : Bytes) (input : InputStream) : Prop where
  whole : input.bytes = frame q → ∀ (resolver : Bytes → Except E Bytes) (r : Bytes),
    r.length ≤ 65535 → resolver q = .ok r →
      (accept resolver servfail input).queries = [q] ∧
        (accept resolver servfail input).written = frame r ∧
          unframe (accept resolver servfail input).written = some r
  early : input.bytes <+: frame q → input.bytes ≠ frame q →
    ∀ resolver : Bytes → Except E Bytes, (accept resolver servfail input).queries = []

/-- The bytes that arrive after the chunk in which the message begins. -/
def late (input : InputStream) : Bytes := (input.skip 2).chunks.tail.flatten

/-! ## Frames -/

theorem unframe_frame {r : Bytes} (hr : r.length ≤ 65535) : unframe (frame r) = some r := by
  have hlength : ofBigEndian (bigEndian 2 r.length) = r.length :=
    ofBigEndian_bigEndian_of_lt (Nat.lt_of_le_of_lt hr (by decide))
  have htwo : (bigEndian 2 r.length).length = 2 := length_bigEndian 2 r.length
  rw [unframe, frame, List.drop_left' htwo, List.take_left' htwo, hlength, if_pos]
  rw [List.length_append, htwo]
  omega

theorem exists_frame_eq {q : Bytes} (hq : q.length ≤ 65535) :
    ∃ b₁ b₂, frame q = b₁ :: b₂ :: q ∧ ofBigEndian [b₁, b₂] = q.length := by
  have hlength : ofBigEndian (bigEndian 2 q.length) = q.length :=
    ofBigEndian_bigEndian_of_lt (Nat.lt_of_le_of_lt hq (by decide))
  exact ⟨UInt8.ofNat (q.length / 256), UInt8.ofNat q.length, rfl, hlength⟩

variable {resolver : Bytes → Except E Bytes} {servfail : Bytes → Option Bytes}
  {input : InputStream} {q : Bytes}

/-! ## Connections -/

theorem accept_of_short (h : input.bytes.length < 2) : accept resolver servfail input = ⟨[], []⟩ := by
  rw [accept, InputStream.readUnsignedShort_of_short h]

/-- The resolver gets the first chunk of the message, filled up with zeros. -/
theorem queries_accept {b₁ b₂ : UInt8} {body : Bytes} (h : input.bytes = b₁ :: b₂ :: body) :
    (accept resolver servfail input).queries =
      [fill (List.replicate (ofBigEndian [b₁, b₂]) 0)
        (((input.skip 2).chunks.headD []).take (ofBigEndian [b₁, b₂]))] := by
  rw [accept, InputStream.readUnsignedShort_of_cons h, ← InputStream.read_getD]

theorem written_accept {r : Bytes} (h : (accept resolver servfail input).queries = [q])
    (hr : resolver q = .ok r) : (accept resolver servfail input).written = frame r := by
  unfold accept at h ⊢
  cases hread : input.readUnsignedShort with
  | none =>
    rw [hread] at h
    cases h
  | some result =>
    rw [hread] at h
    have hquery := List.singleton_inj.mp h
    simp only [hquery, hr]
    rfl

/-- A buffer of zeros into which the first bytes of `q` are read becomes `q` exactly if the other
bytes of `q` are zero. -/
theorem fill_eq_iff (first rest : Bytes) :
    fill (List.replicate (first ++ rest).length 0) first = first ++ rest ↔ ∀ b ∈ rest, b = 0 := by
  rw [fill, List.drop_replicate, List.append_cancel_left_eq, List.length_append,
    Nat.add_sub_cancel_left, eq_comm, List.eq_replicate_iff]
  exact and_iff_right rfl

theorem queries_accept_eq_iff (hq : q.length ≤ 65535) (h : input.bytes = frame q) :
    (accept resolver servfail input).queries = [q] ↔ ∀ b ∈ late input, b = 0 := by
  obtain ⟨b₁, b₂, hframe, hsize⟩ := exists_frame_eq hq
  have hbody : (input.skip 2).chunks.flatten = q := by
    show (input.skip 2).bytes = q
    rw [InputStream.bytes_skip, h, hframe]
    rfl
  rw [queries_accept (h.trans hframe), hsize, List.singleton_inj, late]
  cases hchunks : (input.skip 2).chunks with
  | nil =>
    rw [hchunks] at hbody
    subst hbody
    simp [fill]
  | cons first rest =>
    rw [hchunks, List.flatten_cons] at hbody
    subst hbody
    rw [List.headD_cons, List.tail_cons, List.take_of_length_le (by simp)]
    exact fill_eq_iff first rest.flatten

/-- **Framing.** A query is relayed whole exactly if all that arrives after the chunk in which it
begins are zeros; a connection that ends early is dropped exactly if not even the length has
arrived. -/
theorem relayed_iff (servfail : Bytes → Option Bytes) (hq : q.length ≤ 65535)
    (h : input.bytes <+: frame q) :
    Relayed (E := E) servfail q input ↔
      if input.bytes = frame q then ∀ b ∈ late input, b = 0 else input.bytes.length < 2 := by
  split
  next hwhole =>
    constructor
    · intro hrelayed
      have hqueries := (hrelayed.whole hwhole (fun _ => .ok []) [] (Nat.zero_le _) rfl).1
      exact (queries_accept_eq_iff hq hwhole).mp hqueries
    · intro hlate
      refine ⟨fun _ resolver r hr hres => ?_, fun _ hne => absurd hwhole hne⟩
      have hqueries : (accept resolver servfail input).queries = [q] :=
        (queries_accept_eq_iff hq hwhole).mpr hlate
      have hwritten := written_accept hqueries hres
      exact ⟨hqueries, hwritten, hwritten ▸ unframe_frame hr⟩
  next hearly =>
    constructor
    · intro hrelayed
      have hqueries := hrelayed.early h hearly fun _ => .ok []
      match hbytes : input.bytes with
      | [] => exact Nat.zero_lt_two
      | [b] => exact Nat.one_lt_two
      | b₁ :: b₂ :: body =>
        rw [queries_accept hbytes] at hqueries
        cases hqueries
    · intro hshort
      refine ⟨fun hwhole => absurd hwhole hearly, fun _ _ resolver => ?_⟩
      rw [accept_of_short hshort]

/-- A query in one piece, with its length in two. -/
theorem relayed_in_one_piece :
    Relayed (E := Unit) (fun _ => none) [1, 2] (.ofChunks [[0], [2, 1, 2]]) := by
  have hwhole : (InputStream.ofChunks [[0], [2, 1, 2]]).bytes = frame [1, 2] := by decide
  have hlate : late (.ofChunks [[0], [2, 1, 2]]) = [] := by decide
  refine (relayed_iff (fun _ => none) (by decide) (hwhole ▸ List.prefix_refl _)).mpr ?_
  rw [if_pos hwhole, hlate]
  exact List.forall_mem_nil _

/-- The second byte of a query in two pieces is lost, and the resolver is called for a query that
never arrives in full. -/
theorem second_piece_lost :
    ((InputStream.ofChunks [[0, 2, 1], [2]]).bytes = frame [1, 2] ∧
      accept (E := Unit) (fun q => .ok q) (fun _ => none) (.ofChunks [[0, 2, 1], [2]]) =
        ⟨[[1, 0]], [0, 2, 1, 0]⟩ ∧
      ¬ Relayed (E := Unit) (fun _ => none) [1, 2] (.ofChunks [[0, 2, 1], [2]])) ∧
    (accept (E := Unit) (fun q => .ok q) (fun _ => none) (.ofChunks [[0, 2]])).queries =
        [[0, 0]] ∧
      ¬ Relayed (E := Unit) (fun _ => none) [1, 2] (.ofChunks [[0, 2]]) := by
  refine ⟨⟨by decide, by decide, fun h => ?_⟩, by decide, fun h => ?_⟩
  · exact absurd (h.whole (by decide) (fun q => .ok q) [1, 2] (by decide) rfl).1 (by decide)
  · exact absurd (h.early (by decide) (by decide) fun q => .ok q) (by decide)

end

end LocalDnsWorker
