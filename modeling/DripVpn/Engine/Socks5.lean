import DripVpn.Foundations.Exchange
import DripVpn.Foundations.Utf8
import DripVpn.Net.Subnet

/-!
# SOCKS5 messages

The messages of `relay/socks5.rs`, which the engine reads from its clients, writes to its server and
uses inside encrypted packets. Readers are programs over a connection; writers fill a buffer, and
panic if a domain name is too long.

* `readFrom_iff`: a reader accepts exactly the prefixes of a stream that a writer produces, so an
  address has one encoding, however the stream is cut into pieces.
* `readCursor_iff`: the second parser, for datagrams, accepts the same addresses, and panics on a
  domain name whose port is missing.
-/

namespace Engine

open Exchange

/-! ## Commands and replies -/

/-- SOCKS5 command -/
inductive Command
  | tcpConnect
  | tcpBind
  | udpAssociate
deriving DecidableEq

namespace Command

def asU8 : Command → UInt8
  | tcpConnect => 0x01
  | tcpBind => 0x02
  | udpAssociate => 0x03

def fromU8 (code : UInt8) : Option Command :=
  if code = 0x01 then some tcpConnect
  else if code = 0x02 then some tcpBind
  else if code = 0x03 then some udpAssociate
  else none

end Command

/-- SOCKS5 reply code -/
inductive Reply
  | succeeded
  | generalFailure
  | connectionNotAllowed
  | networkUnreachable
  | hostUnreachable
  | connectionRefused
  | ttlExpired
  | commandNotSupported
  | addressTypeNotSupported
  | otherReply (code : UInt8)
deriving DecidableEq

namespace Reply

def asU8 : Reply → UInt8
  | succeeded => 0x00
  | generalFailure => 0x01
  | connectionNotAllowed => 0x02
  | networkUnreachable => 0x03
  | hostUnreachable => 0x04
  | connectionRefused => 0x05
  | ttlExpired => 0x06
  | commandNotSupported => 0x07
  | addressTypeNotSupported => 0x08
  | otherReply code => code

end Reply

/-- SOCKS5 protocol error -/
inductive Socks5Error
  | ioError (e : IoError)
  | addressTypeNotSupported (atyp : UInt8)
  | addressDomainInvalidEncoding
  | unsupportedSocksVersion (ver : UInt8)
  | unsupportedCommand (cmd : UInt8)
  | unsupportedPasswdAuthVersion (ver : UInt8)
  | passwdAuthInvalidRequest
deriving DecidableEq

/-- Convert to a reply for responding. -/
def Socks5Error.asReply : Socks5Error → Reply
  | ioError .connectionRefused => .connectionRefused
  | ioError _ => .generalFailure
  | addressTypeNotSupported _ => .addressTypeNotSupported
  | addressDomainInvalidEncoding => .generalFailure
  | unsupportedSocksVersion _ => .generalFailure
  | unsupportedCommand _ => .commandNotSupported
  | unsupportedPasswdAuthVersion _ => .generalFailure
  | passwdAuthInvalidRequest => .generalFailure

/-- A function that reads from a connection. -/
abbrev Socks5Reader := ExceptT Socks5Error Exchange

/-- `stream.read_exact(&mut buf).await?` for a buffer of `n` bytes. -/
def readBuf (n : ℕ) : Socks5Reader Bytes := readExact .ioError n

/-! ## Addresses -/

/-- An IP address with a port. -/
structure SocketAddr where
  ip : InetAddress
  port : UInt16
deriving DecidableEq

/-- SOCKS5 address type -/
inductive Address
  | socketAddress (addr : SocketAddr)
  | domainNameAddress (domain : Text) (port : UInt16)
deriving DecidableEq

/-- `Ipv4Addr::new(buf[0], .., buf[3])` -/
def ipv4Of (buf : Bytes) : InetAddress :=
  ⟨(List.range 4).map fun i => buf.getD i 0, .inl rfl⟩

/-- `Ipv6Addr::new` of the eight segments of a buffer in network byte order. -/
def ipv6Of (buf : Bytes) : InetAddress :=
  ⟨(List.range 16).map fun i => buf.getD i 0, .inr rfl⟩

/-- `u16::from_be` -/
def portOf (buf : Bytes) : UInt16 := UInt16.ofNat (ofBigEndian buf)

/-- `String::from_utf8` -/
def fromUtf8 (buf : Bytes) : Option Text := buf.toByteArray.utf8Decode?.map Array.toList

namespace Address

/-- The branch of `Address::read_from` for an IPv4 address. -/
def readIpv4 : Socks5Reader Address := do
  let buf ← readBuf 6
  return socketAddress ⟨ipv4Of buf, portOf (buf.drop 4)⟩

/-- The branch of `Address::read_from` for an IPv6 address. -/
def readIpv6 : Socks5Reader Address := do
  let buf ← readBuf 18
  return socketAddress ⟨ipv6Of buf, portOf (buf.drop 16)⟩

/-- A domain name of `length` bytes with its port. -/
def domainName (length : ℕ) (rawAddr : Bytes) : Socks5Reader Address :=
  match fromUtf8 (rawAddr.take length) with
  | some addr => return domainNameAddress addr (portOf (rawAddr.drop length))
  | none => throw .addressDomainInvalidEncoding

/-- The branch of `Address::read_from` for a domain name. -/
def readDomainName : Socks5Reader Address := do
  let lengthBuf ← readBuf 1
  let length := (lengthBuf.getD 0 0).toNat
  -- Len(Domain) + Len(Port)
  let rawAddr ← readBuf (length + 2)
  domainName length rawAddr

/-- `Address::read_from` -/
def readFrom : Socks5Reader Address := do
  let addrTypeBuf ← readBuf 1
  let addrType := addrTypeBuf.getD 0 0
  if addrType = 0x01 then readIpv4
  else if addrType = 0x04 then readIpv6
  else if addrType = 0x03 then readDomainName
  else throw (.addressTypeNotSupported addrType)

/-- `Address::read_cursor` on what is left in the cursor, with what is left after it; `none` is a
panic of `get_u16`. -/
def readCursor (cur : Bytes) : Option (Except Socks5Error (Address × Bytes)) :=
  if cur.length < 2 then some (.error (.ioError .other))
  else
    let atyp := cur.getD 0 0
    let cur := cur.drop 1
    if atyp = 0x01 then
      if cur.length < 4 + 2 then some (.error (.ioError .other))
      else some (.ok (socketAddress ⟨ipv4Of cur, portOf ((cur.drop 4).take 2)⟩, cur.drop 6))
    else if atyp = 0x04 then
      if cur.length < 16 + 2 then some (.error (.ioError .other))
      else some (.ok (socketAddress ⟨ipv6Of cur, portOf ((cur.drop 16).take 2)⟩, cur.drop 18))
    else if atyp = 0x03 then
      let domainLen := (cur.getD 0 0).toNat
      let cur := cur.drop 1
      if cur.length < domainLen then some (.error .addressDomainInvalidEncoding)
      else
        let buf := cur.take domainLen
        let cur := cur.drop domainLen
        if cur.length < 2 then none
        else match fromUtf8 buf with
          | some addr => some (.ok (domainNameAddress addr (portOf (cur.take 2)), cur.drop 2))
          | none => some (.error .addressDomainInvalidEncoding)
    else some (.error (.addressTypeNotSupported atyp))

/-- `write_to_buf`: the bytes that are put into the buffer, or a panic because the domain name is
longer than 255 bytes. -/
def writeToBuf : Address → Option Bytes
  | socketAddress ⟨ip, port⟩ =>
    some ((if ip.size = 4 then 0x01 else 0x04) :: ip.address ++ bigEndian 2 port.toNat)
  | domainNameAddress domain port =>
    if domain.utf8.length ≤ 255 then
      some (0x03 :: UInt8.ofNat domain.utf8.length :: domain.utf8 ++ bigEndian 2 port.toNat)
    else none

/-- `serialized_len` -/
def serializedLen : Address → ℕ
  | socketAddress ⟨ip, _⟩ => 1 + ip.size + 2
  | domainNameAddress domain _ => 1 + 1 + domain.utf8.length + 2

end Address

/-! ## Parts of an address -/

theorem portOf_bigEndian (port : UInt16) : portOf (bigEndian 2 port.toNat) = port := by
  rw [portOf, ofBigEndian_bigEndian_of_lt port.toNat_lt, UInt16.ofNat_toNat]

/-- Two bytes are the port they stand for. -/
theorem bigEndian_portOf {buf : Bytes} (h : buf.length = 2) : bigEndian 2 (portOf buf).toNat = buf := by
  match buf, h with
  | [b₁, b₂], _ =>
    have h₁ : b₁.toNat < 256 := b₁.toNat_lt
    have h₂ : b₂.toNat < 256 := b₂.toNat_lt
    have hvalue : ofBigEndian [b₁, b₂] = 256 * b₁.toNat + b₂.toNat := by
      rw [ofBigEndian, List.foldl_cons, List.foldl_cons, List.foldl_nil, Nat.mul_zero, Nat.zero_add]
    have hlt : 256 * b₁.toNat + b₂.toNat < UInt16.size := by
      rw [UInt16.size]
      omega
    rw [portOf, hvalue, UInt16.toNat_ofNat_of_lt' hlt]
    simp only [bigEndian, List.nil_append, List.singleton_append, List.cons.injEq, and_true]
    refine ⟨UInt8.toNat_inj.mp ?_, UInt8.toNat_inj.mp ?_⟩
    · rw [UInt8.toNat_ofNat']
      omega
    · rw [UInt8.toNat_ofNat']
      omega

theorem map_getD_range {buf : Bytes} {n : ℕ} (h : n ≤ buf.length) :
    (List.range n).map (fun i => buf.getD i 0) = buf.take n := by
  refine List.ext_getElem (by simp [h]) fun i hi hi' => ?_
  rw [List.length_take] at hi'
  simp [List.getElem?_eq_getElem (by omega : i < buf.length)]

theorem ipv4Of_eq {buf : Bytes} (ip : InetAddress) (rest : Bytes) (h : buf = ip.address ++ rest)
    (hip : ip.size = 4) : ipv4Of buf = ip := by
  obtain ⟨address, hsize⟩ := ip
  subst h
  simp only [ipv4Of, InetAddress.mk.injEq]
  rw [map_getD_range (by rw [List.length_append]; exact hip ▸ Nat.le_add_right _ _),
    List.take_left' hip]

theorem ipv6Of_eq {buf : Bytes} (ip : InetAddress) (rest : Bytes) (h : buf = ip.address ++ rest)
    (hip : ip.size = 16) : ipv6Of buf = ip := by
  obtain ⟨address, hsize⟩ := ip
  subst h
  simp only [ipv6Of, InetAddress.mk.injEq]
  rw [map_getD_range (by rw [List.length_append]; exact hip ▸ Nat.le_add_right _ _),
    List.take_left' hip]

theorem fromUtf8_utf8 (t : Text) : fromUtf8 t.utf8 = some t := by
  have hdecode : t.utf8.toByteArray.utf8Decode? = some t.toArray := List.utf8Decode?_utf8Encode
  rw [fromUtf8, hdecode]
  rfl

/-- Bytes that are the text of a name are its UTF-8 bytes. -/
theorem utf8_of_fromUtf8 {buf : Bytes} {t : Text} (h : fromUtf8 buf = some t) : t.utf8 = buf := by
  -- a text that no bytes are read as stands for those that are not UTF-8
  have hofUtf8 : Text.ofUtf8 (fun _ => 'x' :: t) buf = t := by
    rw [fromUtf8, Option.map_eq_some_iff] at h
    obtain ⟨chars, hdecode, hchars⟩ := h
    rw [Text.ofUtf8, hdecode]
    exact hchars
  rcases Text.ofUtf8_cases (fun _ => 'x' :: t) buf with hbuf | ⟨-, hmalformed⟩
  · rw [hofUtf8] at hbuf
    exact hbuf.symm
  · rw [hofUtf8] at hmalformed
    exact absurd hmalformed.symm (List.cons_ne_self 'x' t)

/-! ## One encoding for each address -/

namespace Address

theorem parses_readBuf {n : ℕ} {b : Bytes} (h : b.length = n) : Parses (readBuf n) b b :=
  parses_readExact _ h

theorem parses_readIpv4 {ip : InetAddress} (hsize : ip.size = 4) (port : UInt16) :
    Parses readIpv4 (ip.address ++ bigEndian 2 port.toNat) (socketAddress ⟨ip, port⟩) := by
  have hlength : (ip.address ++ bigEndian 2 port.toNat).length = 6 := by
    rw [List.length_append, length_bigEndian]
    exact congrArg (· + 2) hsize
  refine (parses_readBuf hlength).bind_last ?_
  rw [ipv4Of_eq ip _ rfl hsize, List.drop_left' hsize, portOf_bigEndian]
  exact parses_pure _

theorem parses_readIpv6 {ip : InetAddress} (hsize : ip.size = 16) (port : UInt16) :
    Parses readIpv6 (ip.address ++ bigEndian 2 port.toNat) (socketAddress ⟨ip, port⟩) := by
  have hlength : (ip.address ++ bigEndian 2 port.toNat).length = 18 := by
    rw [List.length_append, length_bigEndian]
    exact congrArg (· + 2) hsize
  refine (parses_readBuf hlength).bind_last ?_
  rw [ipv6Of_eq ip _ rfl hsize, List.drop_left' hsize, portOf_bigEndian]
  exact parses_pure _

theorem parses_readDomainName {domain : Text} (hle : domain.utf8.length ≤ 255) (port : UInt16) :
    Parses readDomainName (UInt8.ofNat domain.utf8.length :: domain.utf8 ++ bigEndian 2 port.toNat)
      (domainNameAddress domain port) := by
  have hlength : (UInt8.ofNat domain.utf8.length).toNat = domain.utf8.length := by
    rw [UInt8.toNat_ofNat']
    omega
  have hname : (domain.utf8 ++ bigEndian 2 port.toNat).length =
      (UInt8.ofNat domain.utf8.length).toNat + 2 := by
    rw [List.length_append, length_bigEndian, hlength]
  refine (parses_readBuf (b := [UInt8.ofNat domain.utf8.length]) rfl).bind ?_
  refine (parses_readBuf hname).bind_last ?_
  show Parses (domainName (UInt8.ofNat domain.utf8.length).toNat _) _ _
  rw [domainName, hlength, List.take_left' rfl, List.drop_left' rfl, fromUtf8_utf8, portOf_bigEndian]
  exact parses_pure _

/-- `serialized_len` is the number of bytes that are written. -/
theorem length_writeToBuf {a : Address} {bytes : Bytes} (h : a.writeToBuf = some bytes) :
    bytes.length = a.serializedLen ∧ 4 ≤ bytes.length ∧ bytes.length ≤ 259 := by
  cases a with
  | socketAddress addr =>
    obtain ⟨ip, port⟩ := addr
    rw [writeToBuf, Option.some.injEq] at h
    subst h
    have hsize : ip.address.length = 4 ∨ ip.address.length = 16 := ip.size_eq
    rw [serializedLen, List.length_append, List.length_cons, length_bigEndian, InetAddress.size]
    omega
  | domainNameAddress domain port =>
    rw [writeToBuf] at h
    split at h
    next hle =>
      rw [Option.some.injEq] at h
      subst h
      rw [serializedLen, List.length_append, List.length_cons, List.length_cons, length_bigEndian]
      omega
    · cases h

/-- What was written is read back. -/
theorem parses_readFrom {a : Address} {bytes : Bytes} (h : a.writeToBuf = some bytes) :
    Parses readFrom bytes a := by
  cases a with
  | socketAddress addr =>
    obtain ⟨ip, port⟩ := addr
    rw [writeToBuf, Option.some.injEq] at h
    subst h
    rcases ip.size_eq with hsize | hsize
    · have hfour : ip.size = 4 := hsize
      rw [if_pos hfour]
      exact (parses_readBuf (b := [0x01]) rfl).bind (parses_readIpv4 hfour port)
    · have hsixteen : ip.size = 16 := hsize
      rw [if_neg (by omega)]
      exact (parses_readBuf (b := [0x04]) rfl).bind (parses_readIpv6 hsixteen port)
  | domainNameAddress domain port =>
    rw [writeToBuf] at h
    split at h
    next hle =>
      rw [Option.some.injEq] at h
      subst h
      exact (parses_readBuf (b := [0x03]) rfl).bind (parses_readDomainName hle port)
    · cases h

theorem writeToBuf_ipv4 {buf : Bytes} (h : buf.length = 6) :
    (socketAddress ⟨ipv4Of buf, portOf (buf.drop 4)⟩).writeToBuf = some (0x01 :: buf) := by
  have hip : (ipv4Of buf).address = buf.take 4 := map_getD_range (by omega)
  have hsize : (ipv4Of buf).size = 4 := rfl
  rw [writeToBuf, if_pos hsize, hip, bigEndian_portOf (by rw [List.length_drop, h]), List.cons_append,
    List.take_append_drop]

theorem writeToBuf_ipv6 {buf : Bytes} (h : buf.length = 18) :
    (socketAddress ⟨ipv6Of buf, portOf (buf.drop 16)⟩).writeToBuf = some (0x04 :: buf) := by
  have hip : (ipv6Of buf).address = buf.take 16 := map_getD_range (by omega)
  have hsize : (ipv6Of buf).size = 16 := rfl
  rw [writeToBuf, if_neg (by omega), hip, bigEndian_portOf (by rw [List.length_drop, h]),
    List.cons_append, List.take_append_drop]

theorem writeToBuf_domainName {length : UInt8} {buf : Bytes} {domain : Text}
    (h : buf.length = length.toNat + 2) (hdomain : fromUtf8 (buf.take length.toNat) = some domain) :
    (domainNameAddress domain (portOf (buf.drop length.toNat))).writeToBuf =
      some (0x03 :: length :: buf) := by
  have hutf8 : domain.utf8 = buf.take length.toNat := utf8_of_fromUtf8 hdomain
  have hlength : domain.utf8.length = length.toNat := by
    rw [hutf8, List.length_take, h]
    omega
  have hlt : length.toNat < 256 := length.toNat_lt
  rw [writeToBuf, hlength, if_pos (by omega), UInt8.ofNat_toNat, hutf8,
    bigEndian_portOf (by rw [List.length_drop, h]; omega), List.cons_append, List.cons_append,
    List.take_append_drop]

/-- What is accepted was written. -/
theorem writeToBuf_of_parse {ending : Option IoError} {bytes rest written : Bytes} {a : Address}
    (h : parse ending readFrom.run bytes = ⟨.ok a, rest, written⟩) :
    ∃ bs, a.writeToBuf = some bs ∧ bytes = bs ++ rest := by
  obtain ⟨buf, mid, _, _, hbuf, hbranch, -⟩ := parse_bind_eq_ok_iff.mp h
  obtain ⟨rfl, hlength, -⟩ := parse_readExact_eq_ok_iff.mp hbuf
  obtain ⟨addrType, rfl⟩ := List.length_eq_one_iff.mp hlength
  dsimp only [List.getD_cons_zero] at hbranch
  split at hbranch
  next htype =>
    obtain ⟨body, _, _, _, hread, hpure, -⟩ := parse_bind_eq_ok_iff.mp hbranch
    obtain ⟨rfl, hbody, -⟩ := parse_readExact_eq_ok_iff.mp hread
    cases hpure
    exact ⟨_, writeToBuf_ipv4 hbody, htype ▸ rfl⟩
  split at hbranch
  next htype =>
    obtain ⟨body, _, _, _, hread, hpure, -⟩ := parse_bind_eq_ok_iff.mp hbranch
    obtain ⟨rfl, hbody, -⟩ := parse_readExact_eq_ok_iff.mp hread
    cases hpure
    exact ⟨_, writeToBuf_ipv6 hbody, htype ▸ rfl⟩
  split at hbranch
  next htype =>
    obtain ⟨len, _, _, _, hlen, hrest, -⟩ := parse_bind_eq_ok_iff.mp hbranch
    obtain ⟨rfl, hlength', -⟩ := parse_readExact_eq_ok_iff.mp hlen
    obtain ⟨length, rfl⟩ := List.length_eq_one_iff.mp hlength'
    obtain ⟨body, _, _, _, hread, hname, -⟩ := parse_bind_eq_ok_iff.mp hrest
    obtain ⟨rfl, hbody, -⟩ := parse_readExact_eq_ok_iff.mp hread
    rw [domainName] at hname
    split at hname
    next domain hdomain =>
      cases hname
      exact ⟨_, writeToBuf_domainName hbody hdomain, htype ▸ rfl⟩
    · cases hname
  · cases hbranch

/-- **One encoding.** However a stream is cut into pieces, the reader returns an address exactly if
the stream begins with the bytes that the writer puts into a buffer for it, and leaves the rest. -/
theorem readFrom_iff (s : AsyncRead) (a : Address) (rest : Bytes) :
    ((readFrom.run.run s).result = .ok a ∧ (readFrom.run.run s).rest.bytes = rest) ↔
      ∃ bytes, a.writeToBuf = some bytes ∧ s.bytes = bytes ++ rest := by
  constructor
  · rintro ⟨hresult, hrest⟩
    obtain ⟨hresult', hrest', -, -⟩ := run_eq_parse readFrom.run s
    have hparse : parse s.ending readFrom.run s.bytes =
        ⟨.ok a, rest, (parse s.ending readFrom.run s.bytes).written⟩ := by
      rw [← hresult, ← hrest, hresult', hrest']
    exact writeToBuf_of_parse hparse
  · rintro ⟨bytes, hbytes, hs⟩
    obtain ⟨hresult, hrest, -⟩ := (parses_readFrom hbytes).run AsyncRead.reads ⟨hs, rfl⟩
    exact ⟨hresult, hrest⟩

/-! ## The parser for datagrams -/

/-- A domain name whose port is missing or cut off. -/
def PortMissing (data : Bytes) : Prop :=
  ∃ length name port, data = 0x03 :: length :: name ++ port ∧ name.length = length.toNat ∧
    port.length < 2

/-- What was written is read back from a cursor. -/
theorem readCursor_append {a : Address} {bytes : Bytes} (h : a.writeToBuf = some bytes)
    (rest : Bytes) : readCursor (bytes ++ rest) = some (.ok (a, rest)) := by
  cases a with
  | socketAddress addr =>
    obtain ⟨ip, port⟩ := addr
    rw [writeToBuf, Option.some.injEq] at h
    subst h
    have hport : (bigEndian 2 port.toNat).length = 2 := length_bigEndian _ _
    have hdrop : ∀ {n : ℕ}, ip.address.length = n →
        (ip.address ++ (bigEndian 2 port.toNat ++ rest)).drop n = bigEndian 2 port.toNat ++ rest ∧
          (ip.address ++ (bigEndian 2 port.toNat ++ rest)).drop (n + 2) = rest := by
      intro n hn
      rw [← List.drop_drop, List.drop_left' hn, List.drop_left' hport]
      exact ⟨rfl, rfl⟩
    rcases ip.size_eq with hsize | hsize
    · have hfour : ip.size = 4 := hsize
      rw [if_pos hfour, readCursor, if_neg (by simp only [List.length_append, List.length_cons]; omega)]
      simp only [List.cons_append, List.getD_cons_zero, List.drop_succ_cons, List.drop_zero,
        List.append_assoc, ↓reduceIte]
      rw [if_neg (by simp only [List.length_append, hsize, hport]; omega), ipv4Of_eq ip _ rfl hfour,
        (hdrop hsize).1, (hdrop hsize).2, List.take_left' hport, portOf_bigEndian]
    · have hsixteen : ip.size = 16 := hsize
      rw [if_neg (by omega), readCursor,
        if_neg (by simp only [List.length_append, List.length_cons]; omega)]
      simp only [List.cons_append, List.getD_cons_zero, List.drop_succ_cons, List.drop_zero,
        List.append_assoc, ↓reduceIte]
      rw [if_neg (by decide), if_neg (by simp only [List.length_append, hsize, hport]; omega),
        ipv6Of_eq ip _ rfl hsixteen, (hdrop hsize).1, (hdrop hsize).2, List.take_left' hport,
        portOf_bigEndian]
  | domainNameAddress domain port =>
    rw [writeToBuf] at h
    split at h
    next hle =>
      rw [Option.some.injEq] at h
      subst h
      have hport : (bigEndian 2 port.toNat).length = 2 := length_bigEndian _ _
      have hlength : (UInt8.ofNat domain.utf8.length).toNat = domain.utf8.length := by
        rw [UInt8.toNat_ofNat']
        omega
      rw [readCursor, if_neg (by simp)]
      simp only [List.cons_append, List.getD_cons_zero, List.drop_succ_cons, List.drop_zero,
        List.append_assoc, ↓reduceIte, hlength]
      rw [if_neg (by decide), if_neg (by decide), if_neg (by simp), List.take_left' rfl,
        List.drop_left' rfl, if_neg (by rw [List.length_append, hport]; omega), fromUtf8_utf8,
        List.take_left' hport, List.drop_left' hport, portOf_bigEndian]
    · cases h

theorem ipv4Of_take {buf : Bytes} (h : 6 ≤ buf.length) : ipv4Of (buf.take 6) = ipv4Of buf := by
  rw [ipv4Of, ipv4Of, InetAddress.mk.injEq, map_getD_range (by rw [List.length_take]; omega),
    map_getD_range (by omega), List.take_take, Nat.min_eq_left (by decide)]

theorem ipv6Of_take {buf : Bytes} (h : 18 ≤ buf.length) : ipv6Of (buf.take 18) = ipv6Of buf := by
  rw [ipv6Of, ipv6Of, InetAddress.mk.injEq, map_getD_range (by rw [List.length_take]; omega),
    map_getD_range (by omega), List.take_take, Nat.min_eq_left (by decide)]

/-- What a cursor gives back was written. -/
theorem writeToBuf_of_readCursor {data rest : Bytes} {a : Address}
    (h : readCursor data = some (.ok (a, rest))) :
    ∃ bytes, a.writeToBuf = some bytes ∧ data = bytes ++ rest := by
  match data with
  | [] => cases h
  | [_] => cases h
  | atyp :: length :: data =>
    rw [readCursor, if_neg (by simp)] at h
    simp only [List.getD_cons_zero, List.drop_succ_cons, List.drop_zero] at h
    split at h
    next htype =>
      subst htype
      split at h
      · cases h
      next hlength =>
        cases h
        have hsix : 6 ≤ (length :: data).length := Nat.le_of_not_lt hlength
        have hbytes := writeToBuf_ipv4 (List.length_take_of_le hsix)
        rw [ipv4Of_take hsix, List.drop_take] at hbytes
        exact ⟨_, hbytes, congrArg (0x01 :: ·) (List.take_append_drop 6 _).symm⟩
    split at h
    next htype =>
      subst htype
      split at h
      · cases h
      next hlength =>
        cases h
        have heighteen : 18 ≤ (length :: data).length := Nat.le_of_not_lt hlength
        have hbytes := writeToBuf_ipv6 (List.length_take_of_le heighteen)
        rw [ipv6Of_take heighteen, List.drop_take] at hbytes
        exact ⟨_, hbytes, congrArg (0x04 :: ·) (List.take_append_drop 18 _).symm⟩
    split at h
    next htype =>
      subst htype
      split at h
      · cases h
      split at h
      · cases h
      next hname hport =>
        rw [List.length_drop] at hport
        split at h
        next domain hdomain =>
          cases h
          have htake : (data.take (length.toNat + 2)).take length.toNat = data.take length.toNat := by
            rw [List.take_take, Nat.min_eq_left (Nat.le_add_right _ _)]
          have hlength : (data.take (length.toNat + 2)).length = length.toNat + 2 :=
            List.length_take_of_le (by omega)
          have hbytes := writeToBuf_domainName hlength (htake.symm ▸ hdomain)
          rw [List.drop_take, Nat.add_sub_cancel_left] at hbytes
          refine ⟨_, hbytes, ?_⟩
          rw [List.drop_drop, List.cons_append, List.cons_append, List.take_append_drop]
        · cases h
    · cases h

/-- The parser panics on nothing but a domain name whose port is missing. -/
theorem readCursor_eq_none_iff (data : Bytes) : readCursor data = none ↔ PortMissing data := by
  constructor
  · intro h
    match data with
    | [] => cases h
    | [_] => cases h
    | atyp :: length :: data =>
      rw [readCursor, if_neg (by simp)] at h
      simp only [List.getD_cons_zero, List.drop_succ_cons, List.drop_zero] at h
      split at h
      · split at h <;> cases h
      split at h
      · split at h <;> cases h
      split at h
      next htype =>
        subst htype
        split at h
        · cases h
        next hname =>
          split at h
          next hport =>
            refine ⟨length, data.take length.toNat, data.drop length.toNat, ?_,
              List.length_take_of_le (Nat.le_of_not_lt hname), hport⟩
            rw [List.cons_append, List.cons_append, List.take_append_drop]
          · split at h <;> cases h
      · cases h
  · rintro ⟨length, name, port, rfl, hname, hport⟩
    rw [readCursor, if_neg (by simp)]
    simp only [List.cons_append, List.getD_cons_zero, List.drop_succ_cons, List.drop_zero,
      ↓reduceIte]
    rw [if_neg (by decide), if_neg (by decide), if_neg (by rw [List.length_append]; omega),
      List.drop_left' hname, if_pos hport]

/-- **The parser for datagrams.** It finds the same addresses as the reader of streams: those whose
encoding the datagram begins with. On a domain name whose port is missing it panics, and on nothing
else. -/
theorem readCursor_iff (data : Bytes) :
    (∀ a rest, readCursor data = some (.ok (a, rest)) ↔
      ∃ bytes, a.writeToBuf = some bytes ∧ data = bytes ++ rest) ∧
    (readCursor data = none ↔ PortMissing data) := by
  refine ⟨fun a rest => ⟨writeToBuf_of_readCursor, ?_⟩, readCursor_eq_none_iff data⟩
  rintro ⟨bytes, hbytes, rfl⟩
  exact readCursor_append hbytes rest

end Address

end Engine
