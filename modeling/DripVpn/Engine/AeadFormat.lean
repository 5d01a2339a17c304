import DripVpn.Engine.AeadReader
import DripVpn.Engine.AeadWriter

/-!
# Encrypted streams, from one end to the other

What was encrypted decrypts to itself, for a cipher that decrypts what it encrypted. Of a stream that
was tampered with, the reader accepts a first part of what was sent under the salt of the stream, or
else the cipher accepts a piece that it did not produce at that place (`Forged`). A stream that is cut
off holds no such piece.
-/

namespace Engine

open EncryptedWriter DecryptedReader

variable {method : CipherKind}

/-- What the ciphers are for. -/
structure CipherKind.Lawful (method : CipherKind) : Prop where
  length_encryptPacket : ∀ cipher bytes,
    (method.encryptPacket cipher bytes).length = bytes.length + method.tagLen
  decryptPacket_encryptPacket : ∀ cipher bytes,
    method.decryptPacket cipher (method.encryptPacket cipher bytes) = some bytes
  length_decryptPacket : ∀ cipher bytes plain, method.decryptPacket cipher bytes = some plain →
    bytes.length = plain.length + method.tagLen

/-- A method that leaves the data readable and has the number of the packet as its tag. -/
def countingTag : CipherKind where
  saltLen := 1
  tagLen := 1
  encryptPacket cipher bytes := bytes ++ [UInt8.ofNat cipher.counter]
  decryptPacket cipher bytes :=
    if bytes.getLast? = some (UInt8.ofNat cipher.counter) then some bytes.dropLast else none
  tagLen_pos := Nat.one_pos

theorem lawful_countingTag : countingTag.Lawful where
  length_encryptPacket cipher bytes := by simp [countingTag]
  decryptPacket_encryptPacket cipher bytes := by simp [countingTag]
  length_decryptPacket cipher bytes plain h := by
    simp only [countingTag, Option.ite_none_right_eq_some, Option.some.injEq] at h
    obtain ⟨hlast, rfl⟩ := h
    have hne : bytes ≠ [] := by
      rintro rfl
      cases hlast
    have := List.length_pos_of_ne_nil hne
    rw [List.length_dropLast]
    exact (Nat.sub_add_cancel this).symm

/-! ## Pieces -/

/-- The pieces that are encrypted one by one, two for each chunk. -/
def pieces (method : CipherKind) (cipher : Cipher) : List Bytes → List Bytes
  | [] => []
  | chunk :: chunks => method.encryptPacket cipher (bigEndian 2 chunk.length) ::
      method.encryptPacket cipher.next chunk :: pieces method cipher.next.next chunks

theorem packets_eq_flatten (cipher : Cipher) (chunks : List Bytes) :
    packets method cipher chunks = (pieces method cipher chunks).flatten := by
  induction chunks generalizing cipher with
  | nil => rfl
  | cons chunk chunks ih =>
    rw [packets, pieces, packet, ih, List.flatten_cons, List.flatten_cons, List.append_assoc]

/-- The cipher of the piece with the given number. -/
def Cipher.atPiece (cipher : Cipher) (k : ℕ) : Cipher := { cipher with counter := cipher.counter + k }

/-- After genuine pieces comes one that is accepted in the place of another. -/
def Forged (method : CipherKind) (cipher : Cipher) (genuine : List Bytes) (bytes : Bytes) : Prop :=
  ∃ k piece rest, k ≤ genuine.length ∧ bytes = (genuine.take k).flatten ++ (piece ++ rest) ∧
    (method.decryptPacket (cipher.atPiece k) piece).isSome ∧ genuine[k]? ≠ some piece ∧
    ∀ expected, genuine[k]? = some expected → piece.length = expected.length

theorem Forged.cons₂ {cipher : Cipher} {genuine : List Bytes} {bytes : Bytes}
    (h : Forged method cipher.next.next genuine bytes) (piece₁ piece₂ : Bytes) :
    Forged method cipher (piece₁ :: piece₂ :: genuine) (piece₁ ++ (piece₂ ++ bytes)) := by
  obtain ⟨k, piece, rest, hk, rfl, haccepted, hgenuine, hlength⟩ := h
  refine ⟨k + 2, piece, rest, Nat.add_le_add_right hk 2, ?_, ?_, hgenuine, hlength⟩
  · rw [List.take_succ_cons, List.take_succ_cons, List.flatten_cons, List.flatten_cons,
      List.append_assoc, List.append_assoc]
  · rwa [show cipher.atPiece (k + 2) = cipher.next.next.atPiece k by
      simp only [Cipher.atPiece, Cipher.next, Cipher.mk.injEq, true_and]; omega]

/-- The length of a chunk fits into two bytes. -/
theorem decryptLength_encryptPacket (hmethod : method.Lawful) (cipher : Cipher) {chunk : Bytes}
    (hchunk : chunk.length ≤ MAX_PACKET_SIZE) :
    decryptLength method cipher (method.encryptPacket cipher (bigEndian 2 chunk.length)) =
      .ok chunk.length := by
  have hvalue : ofBigEndian (bigEndian 2 chunk.length) = chunk.length :=
    ofBigEndian_bigEndian_of_lt (hchunk.trans_lt (by decide))
  have hbytes : ∀ bytes : Bytes, bytes.length = 2 →
      [bytes.getD 0 0, bytes.getD 1 0] = bytes := by
    intro bytes h
    match bytes, h with
    | [_, _], _ => rfl
  simp only [decryptLength, hmethod.decryptPacket_encryptPacket, hbytes _ (length_bigEndian _ _),
    hvalue]
  rw [if_neg (Nat.not_lt.mpr hchunk)]

/-- A length that is accepted is that of a piece that is accepted. -/
theorem isSome_of_decryptLength {cipher : Cipher} {m : Bytes} {length : ℕ}
    (h : decryptLength method cipher m = .ok length) : (method.decryptPacket cipher m).isSome := by
  rw [decryptLength] at h
  split at h
  · cases h
  next hsome => rw [hsome, Option.isSome_some]

/-- What was encrypted decrypts to itself. -/
theorem decryptedPackets_packets (hmethod : method.Lawful) (cipher : Cipher) {chunks : List Bytes}
    (hchunks : ∀ chunk ∈ chunks, chunk.length ≤ MAX_PACKET_SIZE) (ending : Option IoError) :
    decryptedPackets method cipher (packets method cipher chunks) ending =
      (chunks.flatten, ending) := by
  induction chunks generalizing cipher with
  | nil =>
    have htag := method.tagLen_pos
    rw [packets, decryptedPackets, if_pos (by rw [List.length_nil]; omega), if_pos rfl]
    rfl
  | cons chunk chunks ih =>
    have hchunk := hchunks chunk List.mem_cons_self
    have hlen : (method.encryptPacket cipher (bigEndian 2 chunk.length)).length =
        2 + method.tagLen := by
      rw [hmethod.length_encryptPacket, length_bigEndian]
    have hdata : (method.encryptPacket cipher.next chunk).length = chunk.length + method.tagLen :=
      hmethod.length_encryptPacket _ _
    rw [packets, packet, List.append_assoc, decryptedPackets_of_length (n := chunk.length)
      (by rw [List.length_append, hlen]; omega)
      (by rw [List.take_left' hlen]; exact decryptLength_encryptPacket hmethod cipher hchunk),
      List.drop_left' hlen, decryptedData,
      if_neg (by rw [List.length_append, hdata]; omega), List.take_left' hdata,
      hmethod.decryptPacket_encryptPacket, List.drop_left' hdata]
    simp only [ih cipher.next.next fun c hc => hchunks c (List.mem_cons_of_mem _ hc),
      List.take_length, List.flatten_cons]

/-- Something decrypts only if a length and data of that length are accepted. -/
theorem decryptedPackets_cases (method : CipherKind) (cipher : Cipher) (bytes : Bytes) (ending : Option IoError) :
    (decryptedPackets method cipher bytes ending).1 = [] ∨
      ∃ piece₁ piece₂ rest length plain, bytes = piece₁ ++ (piece₂ ++ rest) ∧
        piece₁.length = 2 + method.tagLen ∧ decryptLength method cipher piece₁ = .ok length ∧
        piece₂.length = length + method.tagLen ∧
        method.decryptPacket cipher.next piece₂ = some plain ∧
        (decryptedPackets method cipher bytes ending).1 =
          plain.take length ++ (decryptedPackets method cipher.next.next rest ending).1 := by
  by_cases hlength : bytes.length < 2 + method.tagLen
  · rw [decryptedPackets, if_pos hlength]
    exact .inl rfl
  cases hlen : decryptLength method cipher (bytes.take (2 + method.tagLen)) with
  | error e =>
    rw [decryptedPackets, if_neg hlength, hlen]
    exact .inl rfl
  | ok length =>
    rw [decryptedPackets_of_length hlength hlen, decryptedData]
    split
    · exact .inl rfl
    next hdata =>
      split
      · exact .inl rfl
      next plain hplain =>
        refine .inr ⟨_, _, _, length, plain, ?_, ?_, hlen, ?_, hplain, rfl⟩
        · rw [List.take_append_drop, List.take_append_drop]
        · exact List.length_take_of_le (Nat.le_of_not_lt hlength)
        · exact List.length_take_of_le (Nat.le_of_not_lt hdata)

/-- Whatever arrives decrypts to a first part of what was encrypted, unless a piece is forged. -/
theorem decryptedPackets_authentic (hmethod : method.Lawful) (cipher : Cipher) {chunks : List Bytes}
    (hchunks : ∀ chunk ∈ chunks, chunk.length ≤ MAX_PACKET_SIZE) (bytes : Bytes)
    (ending : Option IoError) :
    (decryptedPackets method cipher bytes ending).1 <+: chunks.flatten ∨
      Forged method cipher (pieces method cipher chunks) bytes := by
  induction chunks generalizing cipher bytes with
  | nil =>
    obtain hnil | ⟨piece₁, piece₂, rest, length, plain, rfl, -, hlen, -, -, -⟩ :=
      decryptedPackets_cases method cipher bytes ending
    · rw [hnil]
      exact .inl List.nil_prefix
    · refine .inr ⟨0, piece₁, _, le_rfl, rfl, isSome_of_decryptLength hlen, by simp [pieces], ?_⟩
      intro expected hexpected
      cases hexpected
  | cons chunk chunks ih =>
    have hchunk := hchunks chunk List.mem_cons_self
    obtain hnil | ⟨piece₁, piece₂, rest, length, plain, rfl, hpiece₁, hlen, hpiece₂, hplain, heq⟩ :=
      decryptedPackets_cases method cipher bytes ending
    · rw [hnil]
      exact .inl List.nil_prefix
    by_cases hfirst : piece₁ = method.encryptPacket cipher (bigEndian 2 chunk.length)
    · subst hfirst
      rw [decryptLength_encryptPacket hmethod cipher hchunk, Except.ok.injEq] at hlen
      subst hlen
      by_cases hsecond : piece₂ = method.encryptPacket cipher.next chunk
      · subst hsecond
        rw [hmethod.decryptPacket_encryptPacket, Option.some.injEq] at hplain
        subst hplain
        rw [heq, List.take_length, List.flatten_cons, List.prefix_append_right_inj]
        refine (ih cipher.next.next (fun c hc => hchunks c (List.mem_cons_of_mem _ hc)) rest).imp_right ?_
        exact fun hforged => hforged.cons₂ _ _
      · -- the data were replaced
        refine .inr ⟨1, piece₂, rest, by simp [pieces], ?_, ?_, ?_, ?_⟩
        · simp [pieces]
        · rw [show cipher.atPiece 1 = cipher.next from rfl, hplain, Option.isSome_some]
        · simpa [pieces] using Ne.symm hsecond
        · intro expected hexpected
          simp only [pieces, List.getElem?_cons_succ, List.getElem?_cons_zero,
            Option.some.injEq] at hexpected
          rw [hpiece₂, ← hexpected, hmethod.length_encryptPacket]
    · -- the length was replaced
      refine .inr ⟨0, piece₁, piece₂ ++ rest, Nat.zero_le _, rfl, isSome_of_decryptLength hlen, ?_, ?_⟩
      · simpa [pieces] using Ne.symm hfirst
      · intro expected hexpected
        simp only [pieces, List.getElem?_cons_zero, Option.some.injEq] at hexpected
        rw [hpiece₁, ← hexpected, hmethod.length_encryptPacket, length_bigEndian]

/-- In a stream that is only cut off nothing is forged. -/
theorem not_forged_of_cut (hmethod : method.Lawful) {cipher : Cipher} {genuine : List Bytes}
    {bytes : Bytes} (h : bytes <+: genuine.flatten) : ¬ Forged method cipher genuine bytes := by
  rintro ⟨k, piece, rest, hk, rfl, haccepted, hgenuine, hlength⟩
  obtain ⟨plain, hplain⟩ := Option.isSome_iff_exists.mp haccepted
  have hpiece := hmethod.length_decryptPacket _ _ _ hplain
  have htag := method.tagLen_pos
  -- the piece begins the pieces that come after the first `k`
  have hbegins : piece ++ rest <+: (genuine.drop k).flatten := by
    rw [← List.take_append_drop k genuine, List.flatten_append, List.take_left' (by simp [hk]),
      List.prefix_append_right_inj] at h
    exact h
  cases hdrop : genuine.drop k with
  | nil =>
    rw [hdrop, List.flatten_nil, List.prefix_nil, List.append_eq_nil_iff] at hbegins
    rw [hbegins.1, List.length_nil] at hpiece
    omega
  | cons expected later =>
    have hexpected : genuine[k]? = some expected := by
      rw [← List.head?_drop, hdrop, List.head?_cons]
    rw [hdrop, List.flatten_cons] at hbegins
    have hsame := hlength expected hexpected
    have heq : piece = expected :=
      (List.prefix_of_prefix_length_le ((List.prefix_append piece rest).trans hbegins)
        (List.prefix_append expected _) hsame.le).eq_of_length hsame
    exact hgenuine (heq ▸ hexpected)

/-! ## Streams -/

/-- What was put on the wire decrypts to what was written. -/
theorem decrypted_wire (hmethod : method.Lawful) (key : Bytes) {salt : Bytes}
    (hsalt : salt.length = method.saltLen) {chunks : List Bytes} (hne : chunks ≠ [])
    (hchunks : ∀ chunk ∈ chunks, chunk.length ≤ MAX_PACKET_SIZE) (ending : Option IoError) :
    decrypted method key (wire method key salt chunks) ending = (chunks.flatten, ending) := by
  rw [wire, if_neg hne, decrypted, if_neg (by rw [List.length_append]; omega), List.take_left' hsalt,
    List.drop_left' hsalt, decryptedPackets_packets hmethod _ hchunks]

/-- The stream holds a piece that is accepted in the place of another, where `sessions` are the chunks
that were sent under each salt. -/
def ForgedStream (method : CipherKind) (key : Bytes) (sessions : Bytes → List Bytes) (bytes : Bytes) :
    Prop :=
  method.saltLen ≤ bytes.length ∧
    Forged method ⟨key, bytes.take method.saltLen, 0⟩
      (pieces method ⟨key, bytes.take method.saltLen, 0⟩ (sessions (bytes.take method.saltLen)))
      (bytes.drop method.saltLen)

/-- Whatever arrives decrypts to a first part of what was sent under its salt. -/
theorem decrypted_authentic (hmethod : method.Lawful) (key : Bytes) {sessions : Bytes → List Bytes}
    (hsessions : ∀ salt, ∀ chunk ∈ sessions salt, chunk.length ≤ MAX_PACKET_SIZE) (bytes : Bytes)
    (ending : Option IoError) :
    (decrypted method key bytes ending).1 <+: (sessions (bytes.take method.saltLen)).flatten ∨
      ForgedStream method key sessions bytes := by
  rw [decrypted]
  split
  · exact .inl List.nil_prefix
  next hlength =>
    refine (decryptedPackets_authentic hmethod _ (hsessions _) _ ending).imp_right ?_
    exact fun hforged => ⟨Nat.le_of_not_lt hlength, hforged⟩

/-- A stream that is cut off decrypts to a first part of what was written. -/
theorem decrypted_of_cut (hmethod : method.Lawful) (key : Bytes) {salt : Bytes}
    (hsalt : salt.length = method.saltLen) {chunks : List Bytes}
    (hchunks : ∀ chunk ∈ chunks, chunk.length ≤ MAX_PACKET_SIZE) {bytes : Bytes}
    (h : bytes <+: wire method key salt chunks) (ending : Option IoError) :
    (decrypted method key bytes ending).1 <+: chunks.flatten := by
  rw [decrypted]
  split
  · exact List.nil_prefix
  next hlength =>
    rw [wire] at h
    split at h
    next hnil =>
      -- nothing was sent, not even a salt
      obtain rfl := List.prefix_nil.mp h
      have htag := method.tagLen_pos
      rw [List.drop_nil, decryptedPackets, if_pos (by rw [List.length_nil]; omega)]
      exact List.nil_prefix
    · have hsplit : bytes = salt ++ bytes.drop method.saltLen := by
        have htake : bytes.take method.saltLen = salt :=
          (List.prefix_of_prefix_length_le ((List.take_prefix _ _).trans h) (List.prefix_append _ _)
            (by rw [List.length_take]; omega)).eq_of_length (by rw [List.length_take]; omega)
        rw [← htake, List.take_append_drop]
      rw [hsplit, List.prefix_append_right_inj, packets_eq_flatten] at h
      rw [hsplit, List.take_left' hsalt, List.drop_left' hsalt]
      exact (decryptedPackets_authentic hmethod _ hchunks _ ending).resolve_right
        (not_forged_of_cut hmethod h)

end Engine
