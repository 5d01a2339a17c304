import DripVpn.Engine.Aead

/-!
# What an encrypted stream is read as

`decrypted` says what the bytes of a stream decrypt to and how they end, packet by packet. The reader
delivers just that, however the bytes arrive and however much it is asked for at a time (`reads`).
-/

namespace Engine

variable {σ : Type} [PollRead σ] {R : σ → Bytes → Option IoError → Prop} (method : CipherKind)

/-! ## Packets -/

/-- What bytes decrypt to that begin with the length of a packet. -/
def decryptedPackets (cipher : Cipher) (bytes : Bytes) (ending : Option IoError) :
    Bytes × Option IoError :=
  if bytes.length < 2 + method.tagLen then
    ([], if bytes = [] then ending else some (ending.getD .unexpectedEof))
  else
    match DecryptedReader.decryptLength method cipher (bytes.take (2 + method.tagLen)) with
    | .error e => ([], some e.toIo)
    | .ok length =>
      let data := bytes.drop (2 + method.tagLen)
      if data.length < length + method.tagLen then ([], some (ending.getD .unexpectedEof))
      else
        match method.decryptPacket cipher.next (data.take (length + method.tagLen)) with
        | none => ([], some .other)
        | some plain =>
          let rest := decryptedPackets cipher.next.next (data.drop (length + method.tagLen)) ending
          (plain.take length ++ rest.1, rest.2)
termination_by bytes.length
decreasing_by
  simp only [List.length_drop]
  omega

/-- What bytes decrypt to that begin with the data of a packet. -/
def decryptedData (cipher : Cipher) (length : ℕ) (bytes : Bytes) (ending : Option IoError) :
    Bytes × Option IoError :=
  if bytes.length < length + method.tagLen then ([], some (ending.getD .unexpectedEof))
  else
    match method.decryptPacket cipher (bytes.take (length + method.tagLen)) with
    | none => ([], some .other)
    | some plain =>
      let rest := decryptedPackets method cipher.next (bytes.drop (length + method.tagLen)) ending
      (plain.take length ++ rest.1, rest.2)

/-- What the bytes of a stream decrypt to, and how they end. -/
def decrypted (key bytes : Bytes) (ending : Option IoError) : Bytes × Option IoError :=
  if bytes.length < method.saltLen then ([], some (ending.getD .unexpectedEof))
  else decryptedPackets method ⟨key, bytes.take method.saltLen, 0⟩ (bytes.drop method.saltLen) ending

variable {method}

theorem decryptedPackets_of_length {cipher : Cipher} {bytes : Bytes} {ending : Option IoError}
    {n : ℕ} (hlength : ¬ bytes.length < 2 + method.tagLen)
    (h : DecryptedReader.decryptLength method cipher (bytes.take (2 + method.tagLen)) = .ok n) :
    decryptedPackets method cipher bytes ending =
      decryptedData method cipher.next n (bytes.drop (2 + method.tagLen)) ending := by
  rw [decryptedPackets, if_neg hlength, h]
  rfl

/-! ## Reading some bytes -/

/-- What a read of `size` bytes leaves behind, of the bytes `all` that were in the buffer or to come. -/
def Received (R : σ → Bytes → Option IoError → Prop) (size : ℕ) (all : Bytes)
    (ending : Option IoError) (buffer : Bytes) (stream : σ) : Poll (Except IoError ℕ) → Prop
  | .pending => ∃ bytes, all = buffer ++ bytes ∧ R stream bytes ending ∧ buffer.length ≤ size
  | .ready (.ok n) => ∃ bytes, all = buffer ++ bytes ∧ R stream bytes ending ∧
      (n = size ∧ buffer.length = size ∨ n = 0 ∧ 0 < size ∧ all = [] ∧ ending = none)
  | .ready (.error e) => all.length < size ∧ ending.getD .unexpectedEof = e ∧
      (all = [] → ending = some e)

theorem received_pollReadExact (hR : Reads R) {buffer buffer' bytes : Bytes} {stream stream' : σ}
    {size : ℕ} {ending : Option IoError} {p : Poll (Except IoError ℕ)} (h : R stream bytes ending)
    (hle : buffer.length ≤ size)
    (hread : DecryptedReader.pollReadExact buffer stream size = (p, buffer', stream')) :
    Received R size (buffer ++ bytes) ending buffer' stream' p := by
  fun_induction DecryptedReader.pollReadExact buffer stream size generalizing bytes with
  | case1 buffer stream hlt stream₁ hpoll =>
    cases hread
    exact ⟨bytes, rfl, hR.pending h hpoll, hle⟩
  | case2 buffer stream hlt e stream₁ hpoll =>
    cases hread
    obtain ⟨rfl, rfl⟩ := hR.fails h (by omega) hpoll
    rw [List.append_nil]
    exact ⟨hlt, rfl, fun _ => rfl⟩
  | case3 buffer stream hlt stream₁ hpoll hne =>
    cases hread
    obtain ⟨rfl, rfl⟩ := hR.ends h (by omega) hpoll
    rw [List.append_nil]
    exact ⟨hlt, rfl, fun hnil => absurd hnil hne⟩
  | case4 buffer stream hlt stream₁ hpoll hnil =>
    cases hread
    obtain ⟨rfl, rfl⟩ := hR.ends h (by omega) hpoll
    obtain ⟨rest, hrest, hR'⟩ := hR.ready h hpoll
    obtain rfl := not_not.mp hnil
    exact ⟨rest, hrest, hR', .inr ⟨rfl, hlt, rfl, rfl⟩⟩
  | case5 buffer stream hlt b received stream₁ hpoll ih =>
    obtain ⟨rest, rfl, hR'⟩ := hR.ready h hpoll
    have hle' : (buffer ++ b :: received).length ≤ size := by
      have := PollRead.length_le hpoll
      rw [List.length_append]
      omega
    have hspec := ih hR' hle' hread
    rwa [List.append_assoc] at hspec
  | case6 buffer stream hge =>
    cases hread
    exact ⟨bytes, rfl, h, .inl ⟨rfl, by omega⟩⟩

/-! ## Reading packets -/

theorem pollReadSalt_spec (hR : Reads R) {key buffer buffer' bytes : Bytes} {stream stream' : σ}
    {ending : Option IoError} {p : Poll (Except ProtocolError Cipher)} (h : R stream bytes ending)
    (hle : buffer.length ≤ method.saltLen)
    (hread : DecryptedReader.pollReadSalt method key buffer stream = (p, buffer', stream')) :
    (p = .pending → ∃ bytes', buffer ++ bytes = buffer' ++ bytes' ∧ R stream' bytes' ending ∧
      buffer'.length ≤ method.saltLen) ∧
    (∀ e, p = .ready (.error e) →
      decrypted method key (buffer ++ bytes) ending = ([], some e.toIo)) ∧
    ∀ cipher, p = .ready (.ok cipher) → ∃ bytes', R stream' bytes' ending ∧
      decrypted method key (buffer ++ bytes) ending =
        decryptedPackets method cipher bytes' ending := by
  rw [DecryptedReader.pollReadSalt] at hread
  split at hread
  next hexact =>
    cases hread
    exact ⟨fun _ => received_pollReadExact hR h hle hexact, (fun e hp => by cases hp),
      fun cipher hp => by cases hp⟩
  next e _ _ hexact =>
    cases hread
    obtain ⟨hlt, rfl, -⟩ := received_pollReadExact hR h hle hexact
    refine ⟨(fun hp => by cases hp), fun e hp => ?_, fun cipher hp => by cases hp⟩
    cases hp
    rw [decrypted, if_pos hlt]
    rfl
  next n buffer₁ stream₁ hexact =>
    obtain ⟨bytes', hall, hR', hfull | ⟨rfl, hpos, hnil, rfl⟩⟩ := received_pollReadExact hR h hle hexact
    · rw [if_neg (by omega)] at hread
      cases hread
      refine ⟨(fun hp => by cases hp), (fun e hp => by cases hp), fun cipher hp => ?_⟩
      cases hp
      refine ⟨bytes', hR', ?_⟩
      rw [hall, decrypted, if_neg (by rw [List.length_append]; omega), List.take_left' hfull.2,
        List.drop_left' hfull.2, List.take_of_length_le hfull.2.le]
    · rw [if_pos hpos] at hread
      cases hread
      refine ⟨(fun hp => by cases hp), fun e hp => ?_, fun cipher hp => by cases hp⟩
      cases hp
      rw [hnil, decrypted, if_pos (by rwa [List.length_nil])]
      rfl

theorem pollReadLength_spec (hR : Reads R) {cipher : Cipher} {buffer buffer' bytes : Bytes}
    {stream stream' : σ} {ending : Option IoError} {p : Poll (Except ProtocolError (Option ℕ))}
    (h : R stream bytes ending) (hle : buffer.length ≤ 2 + method.tagLen)
    (hread : DecryptedReader.pollReadLength method cipher buffer stream = (p, buffer', stream')) :
    (p = .pending → ∃ bytes', buffer ++ bytes = buffer' ++ bytes' ∧ R stream' bytes' ending ∧
      buffer'.length ≤ 2 + method.tagLen) ∧
    (∀ e, p = .ready (.error e) →
      decryptedPackets method cipher (buffer ++ bytes) ending = ([], some e.toIo)) ∧
    (p = .ready (.ok none) → buffer ++ bytes = [] ∧ ending = none ∧ buffer' = [] ∧
      R stream' [] ending) ∧
    ∀ length, p = .ready (.ok (some length)) → ∃ bytes', R stream' bytes' ending ∧
      decryptedPackets method cipher (buffer ++ bytes) ending =
        decryptedData method cipher.next length bytes' ending := by
  simp only [DecryptedReader.pollReadLength] at hread
  split at hread
  next hexact =>
    cases hread
    exact ⟨fun _ => received_pollReadExact hR h hle hexact, (fun e hp => by cases hp),
      (fun hp => by cases hp), fun length hp => by cases hp⟩
  next e _ _ hexact =>
    cases hread
    obtain ⟨hlt, he, hempty⟩ := received_pollReadExact hR h hle hexact
    refine ⟨(fun hp => by cases hp), fun e' hp => ?_, (fun hp => by cases hp), fun length hp => by cases hp⟩
    cases hp
    rw [decryptedPackets, if_pos hlt]
    split
    next hnil => rw [hempty hnil]; rfl
    · rw [he]
      rfl
  next n buffer₁ stream₁ hexact =>
    obtain ⟨bytes', hall, hR', hfull | ⟨rfl, -, hnil, rfl⟩⟩ := received_pollReadExact hR h hle hexact
    · rw [if_neg (by omega)] at hread
      have hlength : ¬ (buffer ++ bytes).length < 2 + method.tagLen := by
        rw [hall, List.length_append]
        omega
      have htake : (buffer ++ bytes).take (2 + method.tagLen) = buffer₁.take (2 + method.tagLen) := by
        rw [hall, List.take_left' hfull.2, List.take_of_length_le hfull.2.le]
      split at hread
      next e herror =>
        cases hread
        refine ⟨(fun hp => by cases hp), fun e hp => ?_, (fun hp => by cases hp),
          fun length hp => by cases hp⟩
        cases hp
        rw [decryptedPackets, if_neg hlength, htake, herror]
      next length hlen =>
        cases hread
        refine ⟨(fun hp => by cases hp), (fun e hp => by cases hp), (fun hp => by cases hp),
          fun length hp => ?_⟩
        cases hp
        refine ⟨bytes', hR', ?_⟩
        rw [decryptedPackets_of_length hlength (htake ▸ hlen), hall, List.drop_left' hfull.2]
    · rw [if_pos rfl] at hread
      cases hread
      refine ⟨(fun hp => by cases hp), (fun e hp => by cases hp), fun _ => ?_, fun length hp => by cases hp⟩
      obtain ⟨rfl, rfl⟩ := List.append_eq_nil_iff.mp (hall.symm.trans hnil)
      exact ⟨hnil, rfl, rfl, hR'⟩

theorem pollReadData_spec (hR : Reads R) {cipher : Cipher} {length : ℕ} {buffer buffer' bytes : Bytes}
    {stream stream' : σ} {ending : Option IoError} {p : Poll (Except ProtocolError Unit)}
    (h : R stream bytes ending) (hle : buffer.length ≤ length + method.tagLen)
    (hread : DecryptedReader.pollReadData method cipher length buffer stream = (p, buffer', stream')) :
    (p = .pending → ∃ bytes', buffer ++ bytes = buffer' ++ bytes' ∧ R stream' bytes' ending ∧
      buffer'.length ≤ length + method.tagLen) ∧
    (∀ e, p = .ready (.error e) →
      decryptedData method cipher length (buffer ++ bytes) ending = ([], some e.toIo)) ∧
    (p = .ready (.ok ()) → ∃ bytes', R stream' bytes' ending ∧
      decryptedData method cipher length (buffer ++ bytes) ending =
        (buffer' ++ (decryptedPackets method cipher.next bytes' ending).1,
          (decryptedPackets method cipher.next bytes' ending).2)) := by
  simp only [DecryptedReader.pollReadData] at hread
  split at hread
  next hexact =>
    cases hread
    exact ⟨fun _ => received_pollReadExact hR h hle hexact, (fun e hp => by cases hp),
      fun hp => by cases hp⟩
  next e _ _ hexact =>
    cases hread
    obtain ⟨hlt, rfl, -⟩ := received_pollReadExact hR h hle hexact
    refine ⟨(fun hp => by cases hp), fun e hp => ?_, fun hp => by cases hp⟩
    cases hp
    rw [decryptedData, if_pos hlt]
    rfl
  next n buffer₁ stream₁ hexact =>
    have htag := method.tagLen_pos
    obtain ⟨bytes', hall, hR', hfull | ⟨rfl, hpos, hnil, rfl⟩⟩ := received_pollReadExact hR h hle hexact
    · rw [if_neg (by omega)] at hread
      have hlength : ¬ (buffer ++ bytes).length < length + method.tagLen := by
        rw [hall, List.length_append]
        omega
      have htake : (buffer ++ bytes).take (length + method.tagLen) =
          buffer₁.take (length + method.tagLen) := by
        rw [hall, List.take_left' hfull.2, List.take_of_length_le hfull.2.le]
      split at hread
      next hnone =>
        cases hread
        refine ⟨(fun hp => by cases hp), fun e hp => ?_, fun hp => by cases hp⟩
        cases hp
        rw [decryptedData, if_neg hlength, htake, hnone]
        rfl
      next plain hsome =>
        cases hread
        refine ⟨(fun hp => by cases hp), (fun e hp => by cases hp), fun _ => ⟨bytes', hR', ?_⟩⟩
        rw [decryptedData, if_neg hlength, htake, hsome, hall, List.drop_left' hfull.2]
    · rw [if_pos rfl] at hread
      cases hread
      refine ⟨(fun hp => by cases hp), fun e hp => ?_, fun hp => by cases hp⟩
      cases hp
      rw [hnil, decryptedData, if_pos (by rw [List.length_nil]; omega)]
      rfl

/-- What the reader makes of the bytes that are still to come. -/
def DecryptedReader.expects (method : CipherKind) (r : DecryptedReader) (bytes : Bytes)
    (ending : Option IoError) : Bytes × Option IoError :=
  match r.state with
  | .waitSalt key => decrypted method key (r.buffer ++ bytes) ending
  | .readLength cipher => decryptedPackets method cipher (r.buffer ++ bytes) ending
  | .readData cipher length => decryptedData method cipher length (r.buffer ++ bytes) ending
  | .bufferedData cipher pos =>
    let rest := decryptedPackets method cipher bytes ending
    (r.buffer.drop pos ++ rest.1, rest.2)

/-- The buffer holds no more than it is to hold. -/
def DecryptedReader.Fits (method : CipherKind) (r : DecryptedReader) : Prop :=
  match r.state with
  | .waitSalt _ => r.buffer.length ≤ method.saltLen
  | .readLength _ => r.buffer.length ≤ 2 + method.tagLen
  | .readData _ length => r.buffer.length ≤ length + method.tagLen
  | .bufferedData _ _ => True

/-- The reader delivers `plain`. -/
def DecryptedReader.Delivers (method : CipherKind) (R : σ → Bytes → Option IoError → Prop)
    (r : DecryptedReader) (stream : σ) (plain : Bytes) (ending : Option IoError) : Prop :=
  r.Fits method ∧ ∃ bytes e, R stream bytes e ∧ r.expects method bytes e = (plain, ending)

/-- What a poll of the reader leaves behind. -/
def Decrypted (method : CipherKind) (R : σ → Bytes → Option IoError → Prop) (plain : Bytes)
    (ending : Option IoError) (n : ℕ) (r : DecryptedReader) (stream : σ) :
    Poll (Except ProtocolError Bytes) → Prop
  | .pending => r.Delivers method R stream plain ending
  | .ready (.ok received) => ∃ rest, plain = received ++ rest ∧
      r.Delivers method R stream rest ending ∧
      (received = [] → 0 < n → plain = [] ∧ ending = none)
  | .ready (.error e) => plain = [] ∧ ending = some e.toIo

theorem decrypted_pollReadDecrypted (hR : Reads R) {r r' : DecryptedReader} {stream stream' : σ}
    {plain : Bytes} {ending : Option IoError} {n : ℕ} {p : Poll (Except ProtocolError Bytes)}
    (h : r.Delivers method R stream plain ending)
    (hpoll : r.pollReadDecrypted method stream n = (p, r', stream')) :
    Decrypted method R plain ending n r' stream' p := by
  fun_induction DecryptedReader.pollReadDecrypted method r stream n with
  | case1 stream key buffer buffer₁ stream₁ hread =>
    cases hpoll
    obtain ⟨hfits, bytes, e, hbytes, hexpects⟩ := h
    obtain ⟨bytes', hall, hR', hle⟩ := (pollReadSalt_spec hR hbytes hfits hread).1 rfl
    refine ⟨hle, bytes', e, hR', ?_⟩
    rw [← hexpects]
    exact congrArg (decrypted method key · e) hall.symm
  | case2 stream key buffer e buffer₁ stream₁ hread =>
    cases hpoll
    obtain ⟨hfits, bytes, ending', hbytes, hexpects⟩ := h
    have herror := (pollReadSalt_spec hR hbytes hfits hread).2.1 e rfl
    exact Prod.mk.inj (hexpects.symm.trans herror)
  | case3 stream key buffer cipher _ stream₁ hread _ ih =>
    obtain ⟨hfits, bytes, ending', hbytes, hexpects⟩ := h
    obtain ⟨bytes', hR', hnext⟩ := (pollReadSalt_spec hR hbytes hfits hread).2.2 cipher rfl
    exact ih ⟨Nat.zero_le _, bytes', ending', hR', hnext.symm.trans hexpects⟩ hpoll
  | case4 stream cipher buffer buffer₁ stream₁ hread =>
    cases hpoll
    obtain ⟨hfits, bytes, e, hbytes, hexpects⟩ := h
    obtain ⟨bytes', hall, hR', hle⟩ := (pollReadLength_spec hR hbytes hfits hread).1 rfl
    refine ⟨hle, bytes', e, hR', ?_⟩
    rw [← hexpects]
    exact congrArg (decryptedPackets method cipher · e) hall.symm
  | case5 stream cipher buffer e buffer₁ stream₁ hread =>
    cases hpoll
    obtain ⟨hfits, bytes, ending', hbytes, hexpects⟩ := h
    have herror := (pollReadLength_spec hR hbytes hfits hread).2.1 e rfl
    exact Prod.mk.inj (hexpects.symm.trans herror)
  | case6 stream cipher buffer buffer₁ stream₁ hread =>
    cases hpoll
    obtain ⟨hfits, bytes, ending', hbytes, hexpects⟩ := h
    obtain ⟨hnil, rfl, rfl, hR'⟩ := (pollReadLength_spec hR hbytes hfits hread).2.2.1 rfl
    -- at the end of the stream nothing is left to decrypt
    have hend : decryptedPackets method cipher [] none = ([], none) := by
      rw [decryptedPackets, if_pos (by rw [List.length_nil]; omega), if_pos rfl]
    obtain ⟨rfl, rfl⟩ := Prod.mk.inj
      (hexpects.symm.trans ((congrArg (decryptedPackets method cipher · none) hnil).trans hend))
    exact ⟨[], rfl, ⟨Nat.zero_le _, [], none, hR', hend⟩, fun _ _ => ⟨rfl, rfl⟩⟩
  | case7 stream cipher buffer length _ stream₁ hread _ ih =>
    obtain ⟨hfits, bytes, ending', hbytes, hexpects⟩ := h
    obtain ⟨bytes', hR', hnext⟩ := (pollReadLength_spec hR hbytes hfits hread).2.2.2 length rfl
    exact ih ⟨Nat.zero_le _, bytes', ending', hR', hnext.symm.trans hexpects⟩ hpoll
  | case8 stream cipher length buffer buffer₁ stream₁ hread =>
    cases hpoll
    obtain ⟨hfits, bytes, e, hbytes, hexpects⟩ := h
    obtain ⟨bytes', hall, hR', hle⟩ := (pollReadData_spec hR hbytes hfits hread).1 rfl
    refine ⟨hle, bytes', e, hR', ?_⟩
    rw [← hexpects]
    exact congrArg (decryptedData method cipher length · e) hall.symm
  | case9 stream cipher length buffer e buffer₁ stream₁ hread =>
    cases hpoll
    obtain ⟨hfits, bytes, ending', hbytes, hexpects⟩ := h
    have herror := (pollReadData_spec hR hbytes hfits hread).2.1 e rfl
    exact Prod.mk.inj (hexpects.symm.trans herror)
  | case10 stream cipher length buffer buffer₁ stream₁ hread _ ih =>
    obtain ⟨hfits, bytes, ending', hbytes, hexpects⟩ := h
    obtain ⟨bytes', hR', hnext⟩ := (pollReadData_spec hR hbytes hfits hread).2.2 rfl
    exact ih ⟨trivial, bytes', ending', hR', hnext.symm.trans hexpects⟩ hpoll
  | case11 stream cipher pos buffer hlt consumed =>
    cases hpoll
    obtain ⟨-, bytes, ending', hbytes, hexpects⟩ := h
    obtain ⟨rfl, rfl⟩ := Prod.mk.inj hexpects
    refine ⟨buffer.drop (pos + consumed) ++ (decryptedPackets method cipher bytes ending').1, ?_,
      ⟨trivial, bytes, ending', hbytes, rfl⟩, fun hnil hn => ?_⟩
    · dsimp only
      rw [← List.append_assoc, ← List.drop_drop, List.take_append_drop]
    · -- a buffer that is not used up delivers something
      rw [List.take_eq_nil_iff, List.drop_eq_nil_iff] at hnil
      omega
  | case12 stream cipher pos buffer hge ih =>
    obtain ⟨-, bytes, ending', hbytes, hexpects⟩ := h
    refine ih ⟨Nat.zero_le _, bytes, ending', hbytes, ?_⟩ hpoll
    rw [← hexpects]
    simp only [DecryptedReader.expects]
    rw [List.drop_eq_nil_of_le (Nat.le_of_not_lt hge), List.nil_append, List.nil_append]

/-! ## The decrypted stream -/

namespace DecryptedReader

theorem remaining_pollReadDecrypted {r r' : DecryptedReader} {stream stream' : σ} {n : ℕ}
    {p : Poll (Except ProtocolError Bytes)}
    (h : r.pollReadDecrypted method stream n = (p, r', stream')) :
    (p = .pending → r'.buffered + PollRead.remaining stream' <
      r.buffered + PollRead.remaining stream) ∧
    ∀ received, p = .ready (.ok received) → received.length ≤ n ∧
      r'.buffered + PollRead.remaining stream' + received.length ≤
        r.buffered + PollRead.remaining stream := by
  fun_induction pollReadDecrypted method r stream n with
  | case1 stream key buffer buffer₁ stream₁ hread =>
    cases h
    exact ⟨fun _ => (remaining_pollReadSalt hread).1 rfl, fun received hp => by cases hp⟩
  | case2 =>
    cases h
    exact ⟨(fun hp => by cases hp), fun received hp => by cases hp⟩
  | case3 stream key buffer cipher _ stream₁ hread hle ih =>
    obtain ⟨hpending, hready⟩ := ih h
    simp only [buffered, List.length_nil, Nat.zero_add] at hpending hready ⊢
    refine ⟨fun hp => (hpending hp).trans_le hle, fun received hp => ⟨(hready received hp).1, ?_⟩⟩
    exact (hready received hp).2.trans hle
  | case4 stream cipher buffer buffer₁ stream₁ hread =>
    cases h
    exact ⟨fun _ => (remaining_pollReadLength hread).1 rfl, fun received hp => by cases hp⟩
  | case5 =>
    cases h
    exact ⟨(fun hp => by cases hp), fun received hp => by cases hp⟩
  | case6 stream cipher buffer buffer₁ stream₁ hread =>
    cases h
    refine ⟨(fun hp => by cases hp), fun received hp => ?_⟩
    cases hp
    exact ⟨Nat.zero_le _, (remaining_pollReadLength hread).2.1 rfl⟩
  | case7 stream cipher buffer length _ stream₁ hread hlt ih =>
    obtain ⟨hpending, hready⟩ := ih h
    simp only [buffered, List.length_nil, Nat.zero_add] at hpending hready ⊢
    refine ⟨fun hp => (hpending hp).trans hlt, fun received hp => ⟨(hready received hp).1, ?_⟩⟩
    exact (hready received hp).2.trans hlt.le
  | case8 stream cipher length buffer buffer₁ stream₁ hread =>
    cases h
    exact ⟨fun _ => (remaining_pollReadData hread).1 rfl, fun received hp => by cases hp⟩
  | case9 =>
    cases h
    exact ⟨(fun hp => by cases hp), fun received hp => by cases hp⟩
  | case10 stream cipher length buffer buffer₁ stream₁ hread hle ih =>
    obtain ⟨hpending, hready⟩ := ih h
    simp only [buffered, Nat.sub_zero] at hpending hready ⊢
    refine ⟨fun hp => (hpending hp).trans_le hle, fun received hp => ⟨(hready received hp).1, ?_⟩⟩
    exact (hready received hp).2.trans hle
  | case11 stream cipher pos buffer hlt consumed =>
    cases h
    refine ⟨(fun hp => by cases hp), fun received hp => ?_⟩
    cases hp
    have hlength : ((buffer.drop pos).take consumed).length = consumed := by
      rw [List.length_take, List.length_drop]
      omega
    rw [hlength]
    simp only [buffered]
    omega
  | case12 stream cipher pos buffer hge ih =>
    obtain ⟨hpending, hready⟩ := ih h
    simp only [buffered, List.length_nil, Nat.zero_add] at hpending hready ⊢
    refine ⟨fun hp => ?_, fun received hp => ⟨(hready received hp).1, ?_⟩⟩
    · have := hpending hp
      omega
    · have := (hready received hp).2
      omega

end DecryptedReader

namespace DecryptedStream

/-- `AsyncRead for CryptoStream` -/
def pollRead (s : DecryptedStream method σ) (n : ℕ) :
    Poll (Except IoError Bytes) × DecryptedStream method σ :=
  match s.reader.pollReadDecrypted method s.stream n with
  | (.pending, reader, stream) => (.pending, ⟨reader, stream⟩)
  | (.ready (.ok received), reader, stream) => (.ready (.ok received), ⟨reader, stream⟩)
  | (.ready (.error e), reader, stream) => (.ready (.error e.toIo), ⟨reader, stream⟩)

/-- A poll of the stream is a poll of its reader. -/
theorem pollRead_eq_iff {s s' : DecryptedStream method σ} {n : ℕ} {p : Poll (Except IoError Bytes)} :
    s.pollRead n = (p, s') ↔ ∃ q, s.reader.pollReadDecrypted method s.stream n =
      (q, s'.reader, s'.stream) ∧
        p = match q with
          | .pending => .pending
          | .ready (.ok received) => .ready (.ok received)
          | .ready (.error e) => .ready (.error e.toIo) := by
  rw [pollRead]
  constructor
  · intro h
    split at h
    all_goals
      next hpoll =>
        cases h
        exact ⟨_, hpoll, rfl⟩
  · rintro ⟨q, hpoll, rfl⟩
    rw [hpoll]
    rcases q with _ | _ | _ <;> rfl

instance : PollRead (DecryptedStream method σ) where
  pollRead := pollRead
  remaining s := s.reader.buffered + PollRead.remaining s.stream
  length_le h := by
    obtain ⟨q, hpoll, hq⟩ := pollRead_eq_iff.mp h
    rcases q with _ | e | received
    · cases hq
    · cases hq
    · cases hq
      exact ((DecryptedReader.remaining_pollReadDecrypted hpoll).2 _ rfl).1
  remaining_of_pending h := by
    obtain ⟨q, hpoll, hq⟩ := pollRead_eq_iff.mp h
    rcases q with _ | e | received
    · exact (DecryptedReader.remaining_pollReadDecrypted hpoll).1 rfl
    · cases hq
    · cases hq
  remaining_of_ready h := by
    obtain ⟨q, hpoll, hq⟩ := pollRead_eq_iff.mp h
    rcases q with _ | e | received
    · cases hq
    · cases hq
    · cases hq
      exact ((DecryptedReader.remaining_pollReadDecrypted hpoll).2 _ rfl).2

/-- A decrypted stream delivers what its bytes decrypt to. -/
theorem reads (hR : Reads R) : Reads fun (s : DecryptedStream method σ) plain ending =>
    s.reader.Delivers method R s.stream plain ending where
  pending {s s' n plain ending} h hpoll := by
    obtain ⟨q, hreader, hq⟩ := pollRead_eq_iff.mp hpoll
    rcases q with _ | e | received
    · exact decrypted_pollReadDecrypted hR h hreader
    · cases hq
    · cases hq
  ready {s s' n plain ending received} h hpoll := by
    obtain ⟨q, hreader, hq⟩ := pollRead_eq_iff.mp hpoll
    rcases q with _ | e | received
    · cases hq
    · cases hq
    · cases hq
      obtain ⟨rest, hplain, hrest, -⟩ := decrypted_pollReadDecrypted hR h hreader
      exact ⟨rest, hplain, hrest⟩
  ends {s s' n plain ending} h hn hpoll := by
    obtain ⟨q, hreader, hq⟩ := pollRead_eq_iff.mp hpoll
    rcases q with _ | e | received
    · cases hq
    · cases hq
    · cases hq
      obtain ⟨rest, -, -, hend⟩ := decrypted_pollReadDecrypted hR h hreader
      exact hend rfl hn
  fails {s s' n plain ending e} h _ hpoll := by
    obtain ⟨q, hreader, hq⟩ := pollRead_eq_iff.mp hpoll
    rcases q with _ | e | received
    · cases hq
    · cases hq
      exact decrypted_pollReadDecrypted hR h hreader
    · cases hq

/-- A connection delivers `plain` when it is decrypted. -/
def Delivers (s : DecryptedStream method AsyncRead) (plain : Bytes) (ending : Option IoError) : Prop :=
  s.reader.Delivers method (fun s bytes ending => s.bytes = bytes ∧ s.ending = ending) s.stream plain
    ending

theorem reads_delivers :
    Reads (Delivers : DecryptedStream method AsyncRead → Bytes → Option IoError → Prop) :=
  reads AsyncRead.reads

/-- A connection from which nothing was read yet. -/
theorem delivers_new (key : Bytes) (stream : AsyncRead) :
    Delivers (⟨DecryptedReader.new method key, stream⟩ : DecryptedStream method AsyncRead)
      (decrypted method key stream.bytes stream.ending).1
      (decrypted method key stream.bytes stream.ending).2 := by
  rw [Delivers, DecryptedReader.new]
  by_cases hsalt : method.saltLen > 0
  · rw [if_pos hsalt]
    exact ⟨Nat.zero_le _, stream.bytes, stream.ending, ⟨rfl, rfl⟩, rfl⟩
  · obtain hzero : method.saltLen = 0 := by omega
    rw [if_neg hsalt]
    refine ⟨Nat.zero_le _, stream.bytes, stream.ending, ⟨rfl, rfl⟩, ?_⟩
    simp only [DecryptedReader.expects, decrypted, hzero, Nat.not_lt_zero, if_false, List.take_zero,
      List.drop_zero, List.nil_append]

end DecryptedStream

end Engine
