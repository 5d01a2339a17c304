import DripVpn.Net.Subnet

/-!
# The access control of the proxy engine

The part of the bundled engine that loads an access control list (`acl/mod.rs`) and decides what is
proxied. The loader is a second line parser, with its own trimming, its own defaults and its own
classification of rules: networks, exact hosts, domains with their subdomains, and regular
expressions, some of which are recognised as one of the former.

The sub-domain tree is represented by the paths to its included nodes. `Rules.Holds` says which
networks and host rules a set of rules holds; it depends on the rules added and not on their order.
-/

/-- What the engine uses of its libraries: the numeric address parser, and the error with which a
regular expression fails to compile, if it does. -/
structure EnginePlatform where
  parseIpAddr : Text → Option InetAddress
  regexError : Text → Option Text

namespace Engine

/-! ## Characters, lines and addresses -/

/-- White space of Unicode, as `str::trim` strips it. -/
def isWhiteSpace (c : Char) : Bool :=
  decide (0x9 ≤ c.toNat ∧ c.toNat ≤ 0xD ∨ 0x2000 ≤ c.toNat ∧ c.toNat ≤ 0x200A ∨
    c.toNat ∈ [0x20, 0x85, 0xA0, 0x1680, 0x2028, 0x2029, 0x202F, 0x205F, 0x3000])

/-- `str::trim` -/
def trim (t : Text) : Text := Text.trimBy isWhiteSpace t

theorem isWhiteSpace_of_isAddressChar {c : Char} (h : isAddressChar c = true) :
    isWhiteSpace c = false := by
  have hrange := toNat_of_isAddressChar h
  simp only [isWhiteSpace, List.mem_cons, List.not_mem_nil, or_false, decide_eq_false_iff_not]
  omega

/-- `str::is_ascii` -/
def isAscii (t : Text) : Bool := t.all fun c => decide (c.toNat < 128)

/-- The pieces between newlines, with whether a newline follows. -/
def rawLines : Text → List (Text × Bool)
  | [] => []
  | c :: t =>
    if c = '\n' then ([], true) :: rawLines t
    else match rawLines t with
      | [] => [([c], false)]
      | (l, b) :: ls => (c :: l, b) :: ls

/-- `BufRead::lines`: a carriage return before the newline belongs to the line end. -/
def lines (t : Text) : List Text :=
  (rawLines t).map fun (l, terminated) =>
    if terminated ∧ l.getLast? = some '\r' then l.dropLast else l

theorem rawLines_append_newline {l : Text} (t : Text) (hl : Text.IsLine l) :
    rawLines (l ++ '\n' :: t) = (l, true) :: rawLines t := by
  induction l with
  | nil => simp [rawLines]
  | cons c l ih =>
    obtain ⟨hc, hl⟩ := Text.isLine_cons.mp hl
    have hne : c ≠ '\n' := by rintro rfl; exact absurd hc (by decide)
    simp [rawLines, hne, ih hl]

/-- The engine reads back lines that were written one by one. -/
theorem lines_unlines {ls : List Text} (h : ∀ l ∈ ls, Text.IsLine l) :
    lines (Text.unlines ls) = ls := by
  induction ls with
  | nil => rfl
  | cons l ls ih =>
    have hl := h l (by simp)
    have hcr : l.getLast? ≠ some '\r' := fun hlast =>
      absurd (hl _ (List.mem_of_mem_getLast? hlast)) (by decide)
    have htail := ih fun m hm => h m (by simp [hm])
    rw [lines] at htail ⊢
    rw [Text.unlines_cons, rawLines_append_newline _ hl, List.map_cons, htail]
    simp [hcr]

/-- The bits of an address, most significant first. -/
def bits (bytes : List UInt8) : List Bool :=
  bytes.flatMap fun b => (List.range 8).map fun i => b.toNat.testBit (7 - i)

/-- Whether the network covers the address. -/
def contains (net : Subnet) (bytes : List UInt8) : Bool :=
  decide (net.address.size = bytes.length) &&
    decide ((bits net.address.address).take net.prefixSize = (bits bytes).take net.prefixSize)

/-- `Ipv4Addr::to_ipv6_mapped` -/
def toIpv6Mapped (bytes : List UInt8) : List UInt8 := List.replicate 10 0 ++ [0xff, 0xff] ++ bytes

/-- `Ipv6Addr::to_ipv4_mapped` -/
def toIpv4Mapped (bytes : List UInt8) : Option (List UInt8) :=
  if bytes.take 12 = List.replicate 10 0 ++ [0xff, 0xff] then some (bytes.drop 12) else none

/-- A prefix length of at most `maxDigits` digits below `upto`. -/
def readPrefix (maxDigits upto : ℕ) (p : Text) : Option ℕ :=
  if p ≠ [] ∧ p.length ≤ maxDigits ∧ p.all Char.isDigit = true ∧ Nat.ofDigitChars 10 p 0 < upto then
    some (Nat.ofDigitChars 10 p 0)
  else none

variable (E : EnginePlatform)

/-- `str::parse::<IpNet>` -/
def parseIpNet (line : Text) : Option Subnet :=
  match Text.splitFirst '/' line with
  | (_, none) => none
  | (host, some p) => (E.parseIpAddr host).bind fun addr =>
    (if addr.size = 4 then readPrefix 2 33 p else readPrefix 3 129 p).bind fun n =>
      Subnet.ofPrefix addr n

/-- The bits of an address make the longest prefix. -/
theorem fullPrefix_le (addr : InetAddress) : addr.size * 8 ≤ addr.size * 8 := Nat.le_refl _

/-- A single address as a network. -/
def ofIpAddr (addr : InetAddress) : Subnet := ⟨addr, addr.size * 8, fullPrefix_le addr⟩

/-! ## Host rules -/

/-- A rule for host names. -/
inductive HostRule
  | regex (pattern : Text)
  | set (host : Text)
  /-- The labels of a domain, top level first. -/
  | tree (path : List Text)
deriving DecidableEq

/-- The final dots of a name are dropped. -/
def trimEndDots (t : Text) : Text := t.rdropWhile (· = '.')

/-- `str::to_ascii_lowercase` -/
def toAsciiLowercase (t : Text) : Text := t.map Char.toLower

/-- The rule of `add_set_rule`. -/
def setRule (rule : Text) : HostRule := .set (toAsciiLowercase (trimEndDots rule))

/-- The rule of `add_tree_rule`. -/
def treeRule (rule : Text) : HostRule :=
  .tree (((trimEndDots rule).splitOn '.').reverse.map toAsciiLowercase)

/-- The class `[\w-]`. -/
def isLabelChar (c : Char) : Bool := c.isAlphanum || c = '_' || c = '-'

/-- The rest of a domain pattern, after a label character or not. -/
def isDomainPatternFrom (afterLabel : Bool) : Text → Bool
  | [] => true
  | '\\' :: '.' :: t => afterLabel && isDomainPatternFrom false t
  | c :: t => isLabelChar c && isDomainPatternFrom true t

/-- The expression `(?:[\w-]+(?:\\\.)?)+`. -/
def isDomainPattern (t : Text) : Bool := decide (t ≠ []) && isDomainPatternFrom false t

/-- Replace every `\.` by a dot. -/
def unescapeDots : Text → Text
  | [] => []
  | '\\' :: '.' :: t => '.' :: unescapeDots t
  | c :: t => c :: unescapeDots t

/-- How a regular expression starts that matches a domain and its subdomains. -/
def treePrefixes : List Text :=
  ["(^|\\.)".toList, "(?:^|\\.)".toList, "^.+\\.".toList, "^.*\\.".toList, "\\.".toList]

/-- The captures of `TREE_SET_RULE_EQUIV`, as the rules they stand for. -/
def treeSetRule (rule : Text) : Option HostRule :=
  if rule.getLast? = some '$' then
    match treePrefixes.findSome? fun p => (p.isPrefixOf? rule.dropLast).filter isDomainPattern with
    | some domain => some (treeRule (unescapeDots domain))
    | none =>
      match (['^'].isPrefixOf? rule.dropLast).filter isDomainPattern with
      | some host => some (setRule (unescapeDots host))
      | none => none
  else none

/-- The rule of `add_regex_rule`. -/
def regexRule (rule : Text) : HostRule := (treeSetRule rule).getD (.regex (toAsciiLowercase rule))

/-! ## Rules -/

/-- The rules of one list. -/
structure Rules where
  ipv4 : List Subnet
  ipv6 : List Subnet
  ruleRegex : List Text
  ruleSet : List Text
  /-- The sub-domain tree: the paths from the root to the included nodes. -/
  ruleTree : List (List Text)

/-- `ParsingRules::new` -/
def Rules.new : Rules := ⟨[], [], [], [], []⟩

/-- `SubDomainsTree::insert`: nothing happens below an included node, and a node that becomes
included loses everything below it. -/
def insertPath (path : List Text) (tree : List (List Text)) : List (List Text) :=
  if tree.any fun p => p.isPrefixOf path then tree
  else path :: tree.filter fun p => !path.isPrefixOf p

namespace Rules

/-- `add_ipv4_rule` and `add_ipv6_rule` -/
def addIp (r : Rules) (net : Subnet) : Rules :=
  if net.address.size = 4 then { r with ipv4 := r.ipv4 ++ [net] }
  else { r with ipv6 := r.ipv6 ++ [net] }

/-- Add a rule for host names. -/
def addHost (r : Rules) : HostRule → Rules
  | .regex pattern => { r with ruleRegex := r.ruleRegex ++ [pattern] }
  | .set host => { r with ruleSet := if host ∈ r.ruleSet then r.ruleSet else r.ruleSet ++ [host] }
  | .tree path => { r with ruleTree := insertPath path r.ruleTree }

/-- `check_ip_matched` -/
def checkIpMatched (r : Rules) (addr : InetAddress) : Bool :=
  if addr.size = 4 then
    r.ipv4.any (fun net => contains net addr.address) ||
      r.ipv6.any (fun net => contains net (toIpv6Mapped addr.address))
  else
    r.ipv6.any (fun net => contains net addr.address) ||
      (match toIpv4Mapped addr.address with
        | some v4 => r.ipv4.any fun net => contains net v4
        | none => false)

/-- `into_rules`: the regular expressions are compiled. -/
def intoRules (name : Text) (r : Rules) : Except Text Rules :=
  match r.ruleRegex.findSome? E.regexError with
  | some err => .error (name ++ " regex error: ".toList ++ err)
  | none => .ok r

end Rules

/-! ## Loading -/

/-- Strategy for addresses that are in no list. -/
inductive Mode
  /-- The default of the engine: the bypass list decides. -/
  | blackList
  /-- The proxy list decides. -/
  | whiteList
deriving DecidableEq

/-- The list that rules go to. -/
inductive CurrentList
  | outboundBlock
  | bypass
  | proxy
deriving DecidableEq

/-- The local variables of the loader. -/
structure LoadState where
  mode : Mode
  outboundBlock : Rules
  bypass : Rules
  proxy : Rules
  curr : CurrentList

/-- `AccessControl` -/
structure AccessControl where
  outboundBlock : Rules
  blackList : Rules
  whiteList : Rules
  mode : Mode

namespace LoadState

/-- The state in which the loader starts. -/
def init : LoadState := ⟨.blackList, .new, .new, .new, .bypass⟩

/-- Change the rules that `curr` refers to. -/
def updateCurr (e : LoadState) (f : Rules → Rules) : LoadState :=
  match e.curr with
  | .outboundBlock => { e with outboundBlock := f e.outboundBlock }
  | .bypass => { e with bypass := f e.bypass }
  | .proxy => { e with proxy := f e.proxy }

end LoadState

/-- What the loader does with a line that is no header: a network, an address or a regular
expression. -/
def loadRule (e : LoadState) (line : Text) : LoadState :=
  match parseIpNet E line with
  | some net => e.updateCurr fun r => r.addIp net
  | none =>
    match E.parseIpAddr line with
    | some addr => e.updateCurr fun r => r.addIp (ofIpAddr addr)
    | none => e.updateCurr fun r => r.addHost (regexRule line)

/-- What the loader does with a trimmed line of ASCII characters that is no host rule with a bar. -/
def loadMatch (e : LoadState) (line : Text) : LoadState :=
  if line = "[reject_all]".toList ∨ line = "[bypass_all]".toList then { e with mode := .whiteList }
  else if line = "[accept_all]".toList ∨ line = "[proxy_all]".toList then
    { e with mode := .blackList }
  else if line = "[outbound_block_list]".toList then { e with curr := .outboundBlock }
  else if line = "[black_list]".toList ∨ line = "[bypass_list]".toList then
    { e with curr := .bypass }
  else if line = "[white_list]".toList ∨ line = "[proxy_list]".toList then { e with curr := .proxy }
  else loadRule E e line

/-- What the loader does with a trimmed line. A line is skipped unless it is ASCII, so the check
that a host rule is ASCII cannot fail. -/
def loadInput (e : LoadState) (line : Text) : LoadState :=
  if isAscii line = false then e
  else match "||".toList.isPrefixOf? line with
    | some rule => e.updateCurr fun r => r.addHost (treeRule rule)
    | none =>
      match ['|'].isPrefixOf? line with
      | some rule => e.updateCurr fun r => r.addHost (setRule rule)
      | none => loadMatch E e line

/-- One round of the loader's loop: empty lines and comments are skipped. -/
def loadLine (e : LoadState) (line : Text) : LoadState :=
  if line = [] ∨ line.head? = some '#' then e else loadInput E e (trim line)

namespace AccessControl

/-- `AccessControl::load_from_file` -/
def loadFromFile (text : Text) : Except Text AccessControl := do
  let e := (lines text).foldl (loadLine E) .init
  let outboundBlock ← e.outboundBlock.intoRules E "[outbound_block_list]".toList
  let blackList ← e.bypass.intoRules E "[black_list] or [bypass_list]".toList
  let whiteList ← e.proxy.intoRules E "[white_list] or [proxy_list]".toList
  return { outboundBlock, blackList, whiteList, mode := e.mode }

/-- `check_ip_in_proxy_list` -/
def checkIpInProxyList (a : AccessControl) (ip : InetAddress) : Bool :=
  match a.mode with
  | .blackList => !a.blackList.checkIpMatched ip
  | .whiteList => a.whiteList.checkIpMatched ip

/-- `is_default_in_proxy_list` -/
def isDefaultInProxyList (a : AccessControl) : Bool :=
  match a.mode with
  | .blackList => true
  | .whiteList => false

end AccessControl

/-! ## What a set of rules holds -/

/-- The rules hold the networks `N` and the host rules `H`; of the domains, those that no other
domain covers. -/
structure Rules.Holds (r : Rules) (N : Subnet → Prop) (H : HostRule → Prop) : Prop where
  ipv4 : ∀ n, n ∈ r.ipv4 ↔ N n ∧ n.address.size = 4
  ipv6 : ∀ n, n ∈ r.ipv6 ↔ N n ∧ n.address.size ≠ 4
  regex : ∀ x, x ∈ r.ruleRegex ↔ H (.regex x)
  set : ∀ x, x ∈ r.ruleSet ↔ H (.set x)
  tree : ∀ p, p ∈ r.ruleTree ↔ H (.tree p) ∧ ∀ q, H (.tree q) → q <+: p → q = p

/-- The two sets of rules have the same rules for host names. -/
structure Rules.SameHostRules (r r' : Rules) : Prop where
  regex : ∀ x, x ∈ r.ruleRegex ↔ x ∈ r'.ruleRegex
  set : ∀ x, x ∈ r.ruleSet ↔ x ∈ r'.ruleSet
  tree : ∀ p, p ∈ r.ruleTree ↔ p ∈ r'.ruleTree

namespace Rules.Holds

variable {r r' : Rules} {N N' : Subnet → Prop} {H H' : HostRule → Prop}

theorem new : Rules.new.Holds (fun _ => False) (fun _ => False) := by
  constructor <;> simp [Rules.new]

theorem congr (h : r.Holds N H) (hN : ∀ n, N n ↔ N' n) (hH : ∀ x, H x ↔ H' x) :
    r.Holds N' H' := by
  obtain rfl : N = N' := funext fun n => propext (hN n)
  obtain rfl : H = H' := funext fun x => propext (hH x)
  exact h

theorem addIp (h : r.Holds N H) (net : Subnet) :
    (r.addIp net).Holds (fun n => n = net ∨ N n) H := by
  by_cases hsize : net.address.size = 4
  · simp only [Rules.addIp, hsize, ↓reduceIte]
    refine ⟨fun n => ?_, fun n => ?_, h.regex, h.set, h.tree⟩
    · simp only [List.mem_append, List.mem_singleton, h.ipv4]
      constructor
      · rintro (⟨hn, h4⟩ | rfl)
        · exact ⟨Or.inr hn, h4⟩
        · exact ⟨Or.inl rfl, hsize⟩
      · rintro ⟨rfl | hn, h4⟩
        · exact Or.inr rfl
        · exact Or.inl ⟨hn, h4⟩
    · rw [h.ipv6]
      refine and_congr_left fun h6 => (or_iff_right ?_).symm
      rintro rfl
      exact h6 hsize
  · simp only [Rules.addIp, hsize, ↓reduceIte]
    refine ⟨fun n => ?_, fun n => ?_, h.regex, h.set, h.tree⟩
    · rw [h.ipv4]
      refine and_congr_left fun h4 => (or_iff_right ?_).symm
      rintro rfl
      exact hsize h4
    · simp only [List.mem_append, List.mem_singleton, h.ipv6]
      constructor
      · rintro (⟨hn, h6⟩ | rfl)
        · exact ⟨Or.inr hn, h6⟩
        · exact ⟨Or.inl rfl, hsize⟩
      · rintro ⟨rfl | hn, h6⟩
        · exact Or.inr rfl
        · exact Or.inl ⟨hn, h6⟩

/-- Every domain is covered by one of the tree. -/
theorem exists_prefix (h : r.Holds N H) {p : List Text} (hp : H (.tree p)) :
    ∃ q ∈ r.ruleTree, q <+: p := by
  -- by induction on the length: a domain that is not minimal is covered by a shorter one
  induction hlen : p.length using Nat.strongRecOn generalizing p with
  | _ n ih =>
    by_cases hmin : ∀ q, H (.tree q) → q <+: p → q = p
    · exact ⟨p, (h.tree p).mpr ⟨hp, hmin⟩, List.prefix_rfl⟩
    · push Not at hmin
      obtain ⟨q, hq, hqp, hne⟩ := hmin
      have hlt : q.length < n := by
        refine lt_of_le_of_ne (hlen ▸ hqp.length_le) fun heq => hne ?_
        exact hqp.eq_of_length (heq.trans hlen.symm)
      obtain ⟨m, hm, hmq⟩ := ih q.length hlt hq rfl
      exact ⟨m, hm, hmq.trans hqp⟩

theorem mem_insertPath (h : r.Holds N H) (path p : List Text) :
    p ∈ insertPath path r.ruleTree ↔ (p = path ∨ H (.tree p)) ∧
      ∀ q, (q = path ∨ H (.tree q)) → q <+: p → q = p := by
  by_cases hany : r.ruleTree.any (fun p => p.isPrefixOf path) = true
  · -- the path is covered already
    obtain ⟨m, hm, hmp⟩ := List.any_eq_true.mp hany
    rw [List.isPrefixOf_iff_prefix] at hmp
    obtain ⟨hHm, hmin⟩ := (h.tree m).mp hm
    simp only [insertPath, hany, ↓reduceIte, h.tree]
    constructor
    · rintro ⟨hp, hpmin⟩
      refine ⟨Or.inr hp, ?_⟩
      rintro q (rfl | hq) hqp
      · have : m = p := hpmin m hHm (hmp.trans hqp)
        exact hqp.eq_of_length_le (this ▸ hmp).length_le
      · exact hpmin q hq hqp
    · rintro ⟨rfl | hp, hpmin⟩
      · obtain rfl := hpmin m (Or.inr hHm) hmp
        exact ⟨hHm, hmin⟩
      · exact ⟨hp, fun q hq => hpmin q (Or.inr hq)⟩
  · have hnone : ∀ m ∈ r.ruleTree, ¬ m <+: path := by
      intro m hm hmp
      exact hany (List.any_eq_true.mpr ⟨m, hm, List.isPrefixOf_iff_prefix.mpr hmp⟩)
    simp only [insertPath, hany, Bool.false_eq_true, ↓reduceIte, List.mem_cons, List.mem_filter,
      h.tree, Bool.not_eq_true', ← Bool.not_eq_true, List.isPrefixOf_iff_prefix]
    constructor
    · rintro (rfl | ⟨⟨hp, hpmin⟩, hnot⟩)
      · refine ⟨Or.inl rfl, ?_⟩
        rintro q (rfl | hq) hqp
        · rfl
        · obtain ⟨m, hm, hmq⟩ := h.exists_prefix hq
          exact absurd (hmq.trans hqp) (hnone m hm)
      · refine ⟨Or.inr hp, ?_⟩
        rintro q (rfl | hq) hqp
        · exact absurd hqp hnot
        · exact hpmin q hq hqp
    · rintro ⟨rfl | hp, hpmin⟩
      · exact Or.inl rfl
      · by_cases hcover : path <+: p
        · exact Or.inl (hpmin path (Or.inl rfl) hcover).symm
        · exact Or.inr ⟨⟨hp, fun q hq => hpmin q (Or.inr hq)⟩, hcover⟩

theorem addHost (h : r.Holds N H) (x : HostRule) :
    (r.addHost x).Holds N (fun y => y = x ∨ H y) := by
  cases x with
  | regex pattern =>
    refine ⟨h.ipv4, h.ipv6, fun y => ?_, ?_, ?_⟩
    · simp [Rules.addHost, h.regex, or_comm]
    · simpa [Rules.addHost] using h.set
    · simpa [Rules.addHost] using h.tree
  | set host =>
    refine ⟨h.ipv4, h.ipv6, ?_, fun y => ?_, ?_⟩
    · simpa [Rules.addHost] using h.regex
    · by_cases hmem : host ∈ r.ruleSet
      · simp only [Rules.addHost, hmem, ↓reduceIte, h.set, HostRule.set.injEq]
        refine (or_iff_right_of_imp ?_).symm
        rintro rfl
        exact (h.set y).mp hmem
      · simp [Rules.addHost, hmem, h.set, or_comm]
    · simpa [Rules.addHost] using h.tree
  | tree path =>
    refine ⟨h.ipv4, h.ipv6, ?_, ?_, fun p => ?_⟩
    · simpa [Rules.addHost] using h.regex
    · simpa [Rules.addHost] using h.set
    · simpa [Rules.addHost] using h.mem_insertPath path p

/-- Rules that hold the same networks match the same addresses. -/
theorem checkIpMatched_eq (h : r.Holds N H) (h' : r'.Holds N H') (ip : InetAddress) :
    r.checkIpMatched ip = r'.checkIpMatched ip := by
  have hany : ∀ {l l' : List Subnet} (f : Subnet → Bool), (∀ n, n ∈ l ↔ n ∈ l') →
      l.any f = l'.any f := by
    intro l l' f hl
    rw [Bool.eq_iff_iff, List.any_eq_true, List.any_eq_true]
    exact exists_congr fun n => and_congr_left fun _ => hl n
  have h4 : ∀ f, r.ipv4.any f = r'.ipv4.any f := fun f =>
    hany f fun n => by rw [h.ipv4, h'.ipv4]
  have h6 : ∀ f, r.ipv6.any f = r'.ipv6.any f := fun f =>
    hany f fun n => by rw [h.ipv6, h'.ipv6]
  simp only [Rules.checkIpMatched, h4, h6]

/-- Rules that hold the same host rules have the same host rules. -/
theorem sameHostRules (h : r.Holds N H) (h' : r'.Holds N' H) : r.SameHostRules r' :=
  ⟨fun x => by rw [h.regex, h'.regex], fun x => by rw [h.set, h'.set],
    fun p => by rw [h.tree, h'.tree]⟩

end Rules.Holds

end Engine
