import DripVpn.Net.Subnet

/-!
# Access control lists

`Acl.kt`: the line parser, the printer and the object they fill. The parser is a machine driven by
the lines of a text: mode headers set the default for everything unlisted, list headers choose
where rules go, and any other line is a subnet or a host name. A comment may be an import
directive.

The platform supplies the numeric addresses (`NumericAddresses`) and `java.net.URL`. A URL is
represented by its print; `Urls` is what the code relies on.
-/

open Reactive

/-! ## Characters and strings of the platform -/

namespace Kotlin

/-- `Char.isWhitespace` of Kotlin. -/
def isWhitespace (c : Char) : Bool :=
  decide (0x9 ≤ c.toNat ∧ c.toNat ≤ 0xD ∨ 0x1C ≤ c.toNat ∧ c.toNat ≤ 0x20 ∨
    0x2000 ≤ c.toNat ∧ c.toNat ≤ 0x200A ∨
    c.toNat ∈ [0xA0, 0x1680, 0x2028, 0x2029, 0x202F, 0x205F, 0x3000])

/-- `String.trim` of Kotlin. -/
def trim (t : Text) : Text := Text.trimBy isWhitespace t

theorem isWhitespace_of_isAddressChar {c : Char} (h : isAddressChar c = true) :
    isWhitespace c = false := by
  have hrange := toNat_of_isAddressChar h
  simp only [isWhitespace, List.mem_cons, List.not_mem_nil, or_false, decide_eq_false_iff_not]
  omega

/-- The UTF-16 code units of a character. -/
def utf16Units (c : Char) : List ℕ :=
  if c.toNat < 0x10000 then [c.toNat]
  else [0xD800 + (c.toNat - 0x10000) / 0x400, 0xDC00 + (c.toNat - 0x10000) % 0x400]

/-- `String.compareTo`: by UTF-16 code units. -/
def compareStrings : Text → Text → Ordering := compareOn fun t => t.flatMap utf16Units

instance : Std.TransCmp compareStrings := inferInstanceAs (Std.TransCmp (compareOn _))

/-- `StringSorter` -/
def stringSorter : Sorter Text := Sorter.ofCompare compareStrings

theorem exact_stringSorter : stringSorter.Exact := Sorter.exact_ofCompare compareStrings

/-- The class `\s` of a regular expression. -/
def isRegexSpace (c : Char) : Bool := decide (c ∈ [' ', '\t', '\n', '\x0b', '\x0c', '\r'])

/-- The class `.` of a regular expression: everything but line terminators. -/
def isRegexDot (c : Char) : Bool := decide (c ∉ ['\n', '\r', '\u0085', '\u2028', '\u2029'])

end Kotlin

open Kotlin

/-- `java.net.URL`, with every URL represented by its print. -/
structure Urls where
  /-- The constructor; `none` is a `MalformedURLException`. -/
  URL : Text → Option Text
  host : Text → Text
  port : Text → ℤ
  file : Text → Text
  protocol : Text → Text
  equals : Text → Text → Bool
  equals_equivalence : Equivalence fun u v => equals u v = true
  /-- The print of a URL is read as that URL. -/
  URL_toString : ∀ {spec u}, URL spec = some u → URL u = some u
  toString_ne_nil : ∀ {spec u}, URL spec = some u → u ≠ []
  /-- Printing a URL puts no line terminator into it. -/
  toString_dot : ∀ {spec u}, URL spec = some u → (∀ c ∈ spec, isRegexDot c = true) →
    ∀ c ∈ u, isRegexDot c = true

/-- What the access control lists use of the platform. -/
structure Platform extends NumericAddresses, Urls

/-- `URLSorter`: by host, port, file and protocol. -/
def Urls.sorter (U : Urls) : Sorter Text where
  compare := compareLex (fun u v => compareStrings (U.host u) (U.host v))
    (compareLex (compareOn U.port)
      (compareLex (fun u v => compareStrings (U.file u) (U.file v))
        fun u v => compareStrings (U.protocol u) (U.protocol v)))
  transCmp := by
    have hstring : ∀ f : Text → Text, Std.TransCmp fun u v => compareStrings (f u) (f v) :=
      fun f => inferInstanceAs (Std.TransCmp (compareOn fun u => (f u).flatMap utf16Units))
    have := hstring U.host
    have := hstring U.file
    have := hstring U.protocol
    infer_instance
  areItemsTheSame := U.equals
  equivalence := U.equals_equivalence

/-- The URL of an import directive: `networkAclParser.matchEntire`. The last `>` is the last
character that is no blank, so the greedy group of the expression is determined. -/
def importUrl (block : Text) : Option Text :=
  match "IMPORT_URL".toList.isPrefixOf? block with
  | none => none
  | some rest =>
    match rest.dropWhile isRegexSpace with
    | '<' :: rest =>
      -- `<(.+)>` and then blanks up to the end of the line
      let group := (rest.rdropWhile isRegexSpace).dropLast
      if (rest.rdropWhile isRegexSpace).getLast? = some '>' ∧ group ≠ [] ∧
        group.all isRegexDot = true then some group else none
    | _ => none

/-! ## The object -/

/-- An access control list. -/
structure Acl (P : Platform) where
  bypassHostnames : SortedList stringSorter
  proxyHostnames : SortedList stringSorter
  subnets : SortedList Subnet.sorter
  urls : SortedList P.toUrls.sorter
  bypass : Bool

/-- `Acl()` -/
def Acl.new (P : Platform) : Acl P := ⟨.empty, .empty, .empty, .empty, false⟩

/-- What the parser throws, and what opening the connection of an import throws. -/
inductive AclException
  | illegalState (message : Text)
  | malformedURL (spec : Text)
  | io
deriving DecidableEq

/-- Where the parser puts a rule: `hostnames` and `subnets` of the source always point to the two
collections of one list, or to none. -/
inductive RuleList
  | outboundBlock
  | bypass
  | proxy
deriving DecidableEq

/-- The callbacks of the parser, as changes of a state. -/
structure Sinks (σ : Type*) where
  bypassHostnames : Text → σ → σ
  proxyHostnames : Text → σ → σ
  urls : Option (Text → σ → σ)

/-- The local variables of the parser and the state its callbacks changed. -/
structure ParseState (σ : Type*) where
  bypass : Bool
  bypassSubnets : List Subnet
  proxySubnets : List Subnet
  /-- The list that rules go to at present. -/
  current : RuleList
  sink : σ

namespace Acl

variable {σ : Type*} (P : Platform)

/-- The effect of a header line, if there is such a header. -/
def parseHeader (s : ParseState σ) (input : Text) : Option (ParseState σ) :=
  -- rules of the first list are read and dropped: `hostnames` and `subnets` are null
  if input = "[outbound_block_list]".toList then some { s with current := .outboundBlock }
  else if input = "[black_list]".toList ∨ input = "[bypass_list]".toList then
    some { s with current := .bypass }
  else if input = "[white_list]".toList ∨ input = "[proxy_list]".toList then
    some { s with current := .proxy }
  else if input = "[reject_all]".toList ∨ input = "[bypass_all]".toList then
    some { s with bypass := true }
  else if input = "[accept_all]".toList ∨ input = "[proxy_all]".toList then
    some { s with bypass := false }
  else none

/-- Hand a rule to the present list: a subnet if the text is one, a host name otherwise. -/
def parseRule (k : Sinks σ) (s : ParseState σ) (input : Text) : ParseState σ :=
  match s.current, Subnet.fromString P.toNumericAddresses input with
  | .outboundBlock, _ => s
  | .bypass, none => { s with sink := k.bypassHostnames input s.sink }
  | .bypass, some subnet => { s with bypassSubnets := s.bypassSubnets ++ [subnet] }
  | .proxy, none => { s with sink := k.proxyHostnames input s.sink }
  | .proxy, some subnet => { s with proxySubnets := s.proxySubnets ++ [subnet] }

/-- What the parser does with a line once comments and blanks are gone. -/
def parseInput (k : Sinks σ) (s : ParseState σ) (input : Text) :
    Except AclException (ParseState σ) :=
  if input.head? = some '[' then
    match parseHeader s input with
    | some s' => .ok s'
    | none => .error (.illegalState ("Unrecognized block: ".toList ++ input))
  else if input = [] then .ok s
  else .ok (parseRule P k s input)

/-- Pass the URL of an import directive to the callback. -/
def parseImport (urls : Text → σ → σ) (s : ParseState σ) (block : Text) :
    Except AclException (ParseState σ) :=
  match importUrl block with
  | none => .ok s
  | some spec =>
    match P.URL spec with
    | some url => .ok { s with sink := urls url s.sink }
    | none => .error (.malformedURL spec)

/-- One round of the parser's loop. -/
def parseLine (k : Sinks σ) (s : ParseState σ) (line : Text) :
    Except AclException (ParseState σ) :=
  match k.urls with
  | none => parseInput P k s (trim line)
  | some urls =>
    match Text.splitFirst '#' line with
    | (block, comment) =>
      (parseImport P urls s (comment.getD [])).bind fun s => parseInput P k s (trim block)

/-- The state in which the parser starts. -/
def startParse (defaultBypass : Bool) (sink : σ) : ParseState σ where
  bypass := defaultBypass
  bypassSubnets := []
  proxySubnets := []
  current := if defaultBypass then .proxy else .bypass
  sink := sink

/-- `Acl.parse`: the mode, the subnets of the list that the mode consults, and what the callbacks
did. -/
def parse (k : Sinks σ) (reader : Text) (defaultBypass : Bool) (sink : σ) :
    Except AclException (Bool × List Subnet × σ) :=
  ((Text.lines reader).foldlM (parseLine P k) (startParse defaultBypass sink)).map fun s =>
    (s.bypass, if s.bypass then s.proxySubnets else s.bypassSubnets, s.sink)

variable {P}

/-- `urls::add` -/
def addUrl (u : Text) (a : Acl P) : Acl P := { a with urls := a.urls.add u }

/-- The callbacks that fill an access control list. -/
def sinks : Sinks (Acl P) where
  bypassHostnames h a := { a with bypassHostnames := a.bypassHostnames.add h }
  proxyHostnames h a := { a with proxyHostnames := a.proxyHostnames.add h }
  urls := some addUrl

variable (P)

/-- `Acl().fromReader` -/
def fromReader (reader : Text) (defaultBypass : Bool) : Except AclException (Acl P) :=
  (parse P sinks reader defaultBypass (Acl.new P)).map fun (bypass, subnets, a) =>
    { a with bypass := bypass, subnets := a.subnets.addAll subnets }

variable {P}

/-- The entries of the list of bypassed destinations, as printed. -/
def bypassList (a : Acl P) : List Text :=
  if a.bypass then a.bypassHostnames.items
  else a.subnets.items.map (Subnet.toString P.toNumericAddresses) ++ a.bypassHostnames.items

/-- The entries of the list of proxied destinations, as printed. -/
def proxyList (a : Acl P) : List Text :=
  if a.bypass then
    a.subnets.items.map (Subnet.toString P.toNumericAddresses) ++ a.proxyHostnames.items
  else a.proxyHostnames.items

/-- A header and its entries, or nothing if there are no entries. -/
def block (header : Text) (entries : List Text) : Text :=
  if entries = [] then [] else header ++ ['\n'].intercalate entries ++ ['\n']

/-- `Acl.toString` -/
def toString (a : Acl P) : Text :=
  (if a.bypass then "[bypass_all]\n".toList else "[proxy_all]\n".toList) ++
    block "[bypass_list]\n".toList a.bypassList ++ block "[proxy_list]\n".toList a.proxyList ++
    a.urls.items.flatMap fun u => "#IMPORT_URL <".toList ++ u ++ ">\n".toList

end Acl
