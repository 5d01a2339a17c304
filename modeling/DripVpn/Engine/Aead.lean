import DripVpn.Foundations.PollIo

/-!
# Encrypted streams

`DecryptedReader` and `EncryptedWriter` of `relay/tcprelay/aead.rs`. What is written becomes packets,
each an encrypted length and encrypted data, after a salt that tells the connection's keys apart. The
ciphers themselves are those of the `shadowsocks-crypto` crate; a `CipherKind` is what is used of one.

The buffers of both are explicit: a reader can be left with a part of a salt, of a length or of a packet,
and a writer with a packet of which only a part was taken. What they deliver and put on the wire, however
the bytes arrive or are taken, is in `AeadReader` and `AeadWriter`.
-/

namespace Engine

/-- AEAD packet payload must be smaller than 0x3FFF -/
def MAX_PACKET_SIZE : ℕ := 0x3FFF

/-- A cipher with its key and the number of the next packet. -/
structure Cipher where
  key : Bytes
  salt : Bytes
  counter : ℕ
deriving DecidableEq

/-- A method of encryption: the lengths of its salts and tags, and what encrypting a packet and
decrypting one give, which fails for a packet with a wrong tag. -/
structure CipherKind where
  saltLen : ℕ
  tagLen : ℕ
  encryptPacket : Cipher → Bytes → Bytes
  decryptPacket : Cipher → Bytes → Option Bytes
  tagLen_pos : 0 < tagLen

/-- AEAD protocol error -/
inductive ProtocolError
  | ioError (e : IoError)
  | decryptDataError
  | decryptLengthError
  | dataTooLong (length : ℕ)
deriving DecidableEq

/-- `From<ProtocolError> for io::Error` -/
def ProtocolError.toIo : ProtocolError → IoError
  | ioError e => e
  | _ => .other

namespace Cipher

/-- The cipher for the next packet. -/
def next (cipher : Cipher) : Cipher := { cipher with counter := cipher.counter + 1 }

end Cipher

/-! ## Reading -/

/-- The cipher exists from the salt on. -/
inductive DecryptReadState
  | waitSalt (key : Bytes)
  | readLength (cipher : Cipher)
  | readData (cipher : Cipher) (length : ℕ)
  | bufferedData (cipher : Cipher) (pos : ℕ)
deriving DecidableEq

/-- Reader wrapper that will decrypt data automatically -/
structure DecryptedReader where
  state : DecryptReadState
  buffer : Bytes
deriving DecidableEq

namespace DecryptedReader

variable {σ : Type} [PollRead σ] (method : CipherKind)

def new (key : Bytes) : DecryptedReader where
  state := if method.saltLen > 0 then .waitSalt key else .readLength ⟨key, [], 0⟩
  buffer := []

/-- `poll_read_exact` -/
def pollReadExact (buffer : Bytes) (stream : σ) (size : ℕ) : Poll (Except IoError ℕ) × Bytes × σ :=
  if buffer.length < size then
    match pollRead stream (size - buffer.length) with
    | (.pending, stream) => (.pending, buffer, stream)
    | (.ready (.error e), stream) => (.ready (.error e), buffer, stream)
    | (.ready (.ok []), stream) =>
      if buffer ≠ [] then (.ready (.error .unexpectedEof), buffer, stream)
      else (.ready (.ok 0), buffer, stream)
    | (.ready (.ok (b :: bytes)), stream) => pollReadExact (buffer ++ b :: bytes) stream size
  else (.ready (.ok size), buffer, stream)
termination_by size - buffer.length
decreasing_by
  rw [List.length_append, List.length_cons]
  omega

/-- `poll_read_salt` -/
def pollReadSalt (key buffer : Bytes) (stream : σ) :
    Poll (Except ProtocolError Cipher) × Bytes × σ :=
  match pollReadExact buffer stream method.saltLen with
  | (.pending, buffer, stream) => (.pending, buffer, stream)
  | (.ready (.error e), buffer, stream) => (.ready (.error (.ioError e)), buffer, stream)
  | (.ready (.ok n), buffer, stream) =>
    if n < method.saltLen then (.ready (.error (.ioError .unexpectedEof)), buffer, stream)
    else (.ready (.ok ⟨key, buffer.take method.saltLen, 0⟩), buffer, stream)

/-- `decrypt_length` -/
def decryptLength (cipher : Cipher) (m : Bytes) : Except ProtocolError ℕ :=
  match method.decryptPacket cipher m with
  | none => .error .decryptLengthError
  | some plain =>
    let plen := ofBigEndian [plain.getD 0 0, plain.getD 1 0]
    if plen > MAX_PACKET_SIZE then .error (.dataTooLong plen) else .ok plen

/-- `poll_read_length` -/
def pollReadLength (cipher : Cipher) (buffer : Bytes) (stream : σ) :
    Poll (Except ProtocolError (Option ℕ)) × Bytes × σ :=
  let lengthLen := 2 + method.tagLen
  match pollReadExact buffer stream lengthLen with
  | (.pending, buffer, stream) => (.pending, buffer, stream)
  | (.ready (.error e), buffer, stream) => (.ready (.error (.ioError e)), buffer, stream)
  | (.ready (.ok n), buffer, stream) =>
    if n = 0 then (.ready (.ok none), buffer, stream)
    else match decryptLength method cipher (buffer.take lengthLen) with
      | .error e => (.ready (.error e), buffer, stream)
      | .ok length => (.ready (.ok (some length)), buffer, stream)

/-- `poll_read_data`, with the data in place of the buffer. -/
def pollReadData (cipher : Cipher) (size : ℕ) (buffer : Bytes) (stream : σ) :
    Poll (Except ProtocolError Unit) × Bytes × σ :=
  let dataLen := size + method.tagLen
  match pollReadExact buffer stream dataLen with
  | (.pending, buffer, stream) => (.pending, buffer, stream)
  | (.ready (.error e), buffer, stream) => (.ready (.error (.ioError e)), buffer, stream)
  | (.ready (.ok n), buffer, stream) =>
    if n = 0 then (.ready (.error (.ioError .unexpectedEof)), buffer, stream)
    else match method.decryptPacket cipher (buffer.take dataLen) with
      | none => (.ready (.error .decryptDataError), buffer, stream)
      -- Remote TAG
      | some plain => (.ready (.ok ()), plain.take size, stream)

/-! ### The loop -/

/-- The bytes in the buffer that are still of use. -/
def buffered (r : DecryptedReader) : ℕ :=
  match r.state with
  | .bufferedData _ pos => r.buffer.length - pos
  | _ => r.buffer.length

/-- The order of the states within one packet. -/
def rank (r : DecryptedReader) : ℕ :=
  match r.state with
  | .waitSalt _ => 3
  | .readData _ _ => 2
  | .bufferedData _ _ => 1
  | .readLength _ => 0

/-- Reading does not invent bytes, and stops when it has as many as it was asked for. -/
theorem remaining_pollReadExact {buffer buffer' : Bytes} {stream stream' : σ} {size : ℕ}
    {p : Poll (Except IoError ℕ)} (h : pollReadExact buffer stream size = (p, buffer', stream')) :
    (p = .pending → buffer'.length + PollRead.remaining stream' <
      buffer.length + PollRead.remaining stream) ∧
    ∀ n, p = .ready (.ok n) → buffer'.length + PollRead.remaining stream' ≤
      buffer.length + PollRead.remaining stream ∧ (n ≠ 0 → size ≤ buffer'.length) := by
  fun_induction pollReadExact buffer stream size with
  | case1 buffer stream hlt stream₁ hpoll =>
    cases h
    have := PollRead.remaining_of_pending hpoll
    exact ⟨fun _ => by omega, fun n hp => by cases hp⟩
  | case2 =>
    cases h
    exact ⟨(fun hp => by cases hp), fun n hp => by cases hp⟩
  | case3 =>
    cases h
    exact ⟨(fun hp => by cases hp), fun n hp => by cases hp⟩
  | case4 buffer stream hlt stream₁ hpoll hnil =>
    cases h
    have := PollRead.remaining_of_ready hpoll
    refine ⟨(fun hp => by cases hp), fun n hp => ?_⟩
    cases hp
    exact ⟨by omega, fun hn => absurd rfl hn⟩
  | case5 buffer stream hlt b bytes stream₁ hpoll ih =>
    have := PollRead.remaining_of_ready hpoll
    obtain ⟨hpending, hready⟩ := ih h
    rw [List.length_append] at hpending hready
    refine ⟨fun hp => ?_, fun n hp => ⟨?_, (hready n hp).2⟩⟩
    · have := hpending hp
      omega
    · have := (hready n hp).1
      omega
  | case6 buffer stream hge =>
    cases h
    refine ⟨(fun hp => by cases hp), fun n hp => ?_⟩
    cases hp
    exact ⟨le_rfl, fun _ => by omega⟩

variable {method}

theorem remaining_pollReadSalt {key buffer buffer' : Bytes} {stream stream' : σ}
    {p : Poll (Except ProtocolError Cipher)}
    (h : pollReadSalt method key buffer stream = (p, buffer', stream')) :
    (p = .pending → buffer'.length + PollRead.remaining stream' <
      buffer.length + PollRead.remaining stream) ∧
    ∀ cipher, p = .ready (.ok cipher) →
      PollRead.remaining stream' ≤ buffer.length + PollRead.remaining stream := by
  rw [pollReadSalt] at h
  split at h
  next hread =>
    cases h
    exact ⟨fun _ => (remaining_pollReadExact hread).1 rfl, fun n hp => by cases hp⟩
  · cases h
    exact ⟨(fun hp => by cases hp), fun n hp => by cases hp⟩
  next n _ _ hread =>
    have hle := ((remaining_pollReadExact hread).2 n rfl).1
    split at h
    · cases h
      exact ⟨(fun hp => by cases hp), fun n hp => by cases hp⟩
    · cases h
      exact ⟨(fun hp => by cases hp), fun cipher _ => by omega⟩

theorem remaining_pollReadLength {cipher : Cipher} {buffer buffer' : Bytes} {stream stream' : σ}
    {p : Poll (Except ProtocolError (Option ℕ))}
    (h : pollReadLength method cipher buffer stream = (p, buffer', stream')) :
    (p = .pending → buffer'.length + PollRead.remaining stream' <
      buffer.length + PollRead.remaining stream) ∧
    (p = .ready (.ok none) → buffer'.length + PollRead.remaining stream' ≤
      buffer.length + PollRead.remaining stream) ∧
    ∀ length, p = .ready (.ok (some length)) →
      PollRead.remaining stream' < buffer.length + PollRead.remaining stream := by
  simp only [pollReadLength] at h
  split at h
  next hread =>
    cases h
    exact ⟨fun _ => (remaining_pollReadExact hread).1 rfl, (fun hp => by cases hp),
      fun n hp => by cases hp⟩
  · cases h
    exact ⟨(fun hp => by cases hp), (fun hp => by cases hp), fun n hp => by cases hp⟩
  next n _ _ hread =>
    obtain ⟨hle, hfull⟩ := (remaining_pollReadExact hread).2 n rfl
    split at h
    · cases h
      exact ⟨(fun hp => by cases hp), fun _ => hle, fun n hp => by cases hp⟩
    next hn =>
      have := hfull hn
      split at h
      · cases h
        exact ⟨(fun hp => by cases hp), (fun hp => by cases hp), fun n hp => by cases hp⟩
      · cases h
        exact ⟨(fun hp => by cases hp), (fun hp => by cases hp), fun length _ => by omega⟩

theorem remaining_pollReadData {cipher : Cipher} {size : ℕ} {buffer buffer' : Bytes}
    {stream stream' : σ} {p : Poll (Except ProtocolError Unit)}
    (h : pollReadData method cipher size buffer stream = (p, buffer', stream')) :
    (p = .pending → buffer'.length + PollRead.remaining stream' <
      buffer.length + PollRead.remaining stream) ∧
    (p = .ready (.ok ()) → buffer'.length + PollRead.remaining stream' ≤
      buffer.length + PollRead.remaining stream) := by
  simp only [pollReadData] at h
  split at h
  next hread =>
    cases h
    exact ⟨fun _ => (remaining_pollReadExact hread).1 rfl, fun hp => by cases hp⟩
  · cases h
    exact ⟨(fun hp => by cases hp), fun hp => by cases hp⟩
  next n _ _ hread =>
    obtain ⟨hle, hfull⟩ := (remaining_pollReadExact hread).2 n rfl
    split at h
    · cases h
      exact ⟨(fun hp => by cases hp), fun hp => by cases hp⟩
    next hn =>
      have := hfull hn
      split at h
      · cases h
        exact ⟨(fun hp => by cases hp), fun hp => by cases hp⟩
      next plain _ =>
        cases h
        have := List.length_take_le size plain
        exact ⟨(fun hp => by cases hp), fun _ => by omega⟩

variable (method)

/-- `poll_read_decrypted` into a buffer with room for `n` bytes. -/
def pollReadDecrypted (r : DecryptedReader) (stream : σ) (n : ℕ) :
    Poll (Except ProtocolError Bytes) × DecryptedReader × σ :=
  match r with
  | ⟨.waitSalt key, buffer⟩ =>
    match hread : pollReadSalt method key buffer stream with
    | (.pending, buffer, stream) => (.pending, ⟨.waitSalt key, buffer⟩, stream)
    | (.ready (.error e), buffer, stream) => (.ready (.error e), ⟨.waitSalt key, buffer⟩, stream)
    | (.ready (.ok cipher), _, stream) =>
      have := (remaining_pollReadSalt hread).2 cipher rfl
      pollReadDecrypted ⟨.readLength cipher, []⟩ stream n
  | ⟨.readLength cipher, buffer⟩ =>
    match hread : pollReadLength method cipher buffer stream with
    | (.pending, buffer, stream) => (.pending, ⟨.readLength cipher, buffer⟩, stream)
    | (.ready (.error e), buffer, stream) => (.ready (.error e), ⟨.readLength cipher, buffer⟩, stream)
    | (.ready (.ok none), buffer, stream) => (.ready (.ok []), ⟨.readLength cipher, buffer⟩, stream)
    | (.ready (.ok (some length)), _, stream) =>
      have := (remaining_pollReadLength hread).2.2 length rfl
      pollReadDecrypted ⟨.readData cipher.next length, []⟩ stream n
  | ⟨.readData cipher length, buffer⟩ =>
    match hread : pollReadData method cipher length buffer stream with
    | (.pending, buffer, stream) => (.pending, ⟨.readData cipher length, buffer⟩, stream)
    | (.ready (.error e), buffer, stream) =>
      (.ready (.error e), ⟨.readData cipher length, buffer⟩, stream)
    | (.ready (.ok ()), buffer, stream) =>
      have := (remaining_pollReadData hread).2 rfl
      pollReadDecrypted ⟨.bufferedData cipher.next 0, buffer⟩ stream n
  | ⟨.bufferedData cipher pos, buffer⟩ =>
    if pos < buffer.length then
      let consumed := min (buffer.length - pos) n
      (.ready (.ok ((buffer.drop pos).take consumed)), ⟨.bufferedData cipher (pos + consumed), buffer⟩,
        stream)
    else pollReadDecrypted ⟨.readLength cipher, []⟩ stream n
termination_by 4 * (buffered r + PollRead.remaining stream) + rank r
decreasing_by
  all_goals
    simp only [buffered, rank, List.length_nil]
    omega

end DecryptedReader

/-- A stream that is decrypted. -/
structure DecryptedStream (method : CipherKind) (σ : Type) where
  reader : DecryptedReader
  stream : σ

/-! ## Writing -/

inductive EncryptWriteState
  | assemblePacket
  | writing (pos : ℕ)
deriving DecidableEq

/-- Writer wrapper that will encrypt data automatically -/
structure EncryptedWriter where
  cipher : Cipher
  buffer : Bytes
  state : EncryptWriteState
deriving DecidableEq

namespace EncryptedWriter

variable {σ : Type} [PollWrite σ] (method : CipherKind)

def new (key nonce : Bytes) : EncryptedWriter where
  cipher := ⟨key, nonce, 0⟩
  -- nonce should be sent with the first packet
  buffer := nonce
  state := .assemblePacket

/-- The encrypted length and the encrypted data. -/
def packet (cipher : Cipher) (buf : Bytes) : Bytes :=
  method.encryptPacket cipher (bigEndian 2 buf.length) ++ method.encryptPacket cipher.next buf

/-- The branch for `AssemblePacket`. -/
def assemblePacket (w : EncryptedWriter) (buf : Bytes) : EncryptedWriter where
  cipher := w.cipher.next.next
  buffer := w.buffer ++ packet method w.cipher buf
  state := .writing 0

/-- The branch for `Writing`: the number of bytes of `buf` is returned when all are written. -/
def writeBuffer (cipher : Cipher) (buffer : Bytes) (pos : ℕ) (stream : σ) (buf : Bytes) :
    Poll (Except IoError ℕ) × EncryptedWriter × σ :=
  if pos < buffer.length then
    match pollWrite stream (buffer.drop pos) with
    | (.pending, stream) => (.pending, ⟨cipher, buffer, .writing pos⟩, stream)
    | (.ready (.error e), stream) => (.ready (.error e), ⟨cipher, buffer, .writing pos⟩, stream)
    | (.ready (.ok 0), stream) =>
      (.ready (.error .unexpectedEof), ⟨cipher, buffer, .writing pos⟩, stream)
    | (.ready (.ok (n + 1)), stream) => writeBuffer cipher buffer (pos + (n + 1)) stream buf
  else
    -- Reset state
    (.ready (.ok buf.length), ⟨cipher, [], .assemblePacket⟩, stream)
termination_by buffer.length - pos

/-- `poll_write_encrypted` -/
def pollWriteEncrypted (w : EncryptedWriter) (stream : σ) (buf : Bytes) :
    Poll (Except IoError ℕ) × EncryptedWriter × σ :=
  let buf := buf.take MAX_PACKET_SIZE
  match w.state with
  | .assemblePacket =>
    let w := w.assemblePacket method buf
    writeBuffer w.cipher w.buffer 0 stream buf
  | .writing pos => writeBuffer w.cipher w.buffer pos stream buf

end EncryptedWriter

/-- A stream to which data are written encrypted. -/
structure EncryptedStream (method : CipherKind) (σ : Type) where
  writer : EncryptedWriter
  stream : σ

end Engine
