import DripVpn.Acl.AccessControl
import DripVpn.Acl.RoundTrip

/-!
# The proxy engine on a rewritten access control list

The service hands the engine the print of a list it has read, not the text itself. `Sim` relates
the two line parsers after the same lines: same mode, same present list, and the engine's rules
hold what the service's lists hold. `sim_line` is the step and `sim_run` the run; both the text and
its print satisfy `LineOk`, so the same run lemma speaks about the engine on either.

The relation needs that the two sides strip the same blanks off a line, which they do not in
general: `rewrite_differs` is a text on which they disagree.
-/

open Reactive Kotlin

namespace Acl

open Engine (LoadState AccessControl)

variable {P : Platform} {E : EnginePlatform}

/-! ## Classification of a trimmed line -/

/-- The host rule that the engine reads a line as, if it is one of ASCII characters. -/
def hostRule (line : Text) : Option Engine.HostRule :=
  if Engine.isAscii line = false then none
  else match "||".toList.isPrefixOf? line with
    | some rule => some (Engine.treeRule rule)
    | none =>
      match ['|'].isPrefixOf? line with
      | some rule => some (Engine.setRule rule)
      | none => some (Engine.regexRule line)

/-- Add the host rule that a line is, if it is one. -/
def addHostRule (line : Text) (r : Engine.Rules) : Engine.Rules :=
  match hostRule line with
  | none => r
  | some rule => r.addHost rule

/-- A prefix length that the engine reads: digits, at most two for IPv4 and three for IPv6. -/
structure PrefixOk (n : Subnet) (p : Text) : Prop where
  ne_nil : p ≠ []
  isDigit : ∀ c ∈ p, c.isDigit = true
  length_le : p.length ≤ if n.address.size = 4 then 2 else 3

theorem isPrefixOf?_eq_none_of_head {c : Char} {l p : Text} (h : l.head? ≠ some c) :
    (c :: p).isPrefixOf? l = none := by
  cases l with
  | nil => rfl
  | cons x l =>
    have hne : ¬ c = x := fun hc => h (by simp [hc])
    simp [List.isPrefixOf?, hne]

/-- A line that is no header goes to the rules. -/
theorem loadMatch_of_head_ne {e : LoadState} {x : Text} (h : x.head? ≠ some '[') :
    Engine.loadMatch E e x = Engine.loadRule E e x := by
  have hne : ∀ t : Text, t.head? = some '[' → x ≠ t := fun t ht hx => h (hx ▸ ht)
  unfold Engine.loadMatch
  rw [if_neg (not_or_intro (hne _ rfl) (hne _ rfl)), if_neg (not_or_intro (hne _ rfl) (hne _ rfl)),
    if_neg (hne _ rfl), if_neg (not_or_intro (hne _ rfl) (hne _ rfl)),
    if_neg (not_or_intro (hne _ rfl) (hne _ rfl))]

section Agree

variable (hagree : ∀ t, E.parseIpAddr t = P.parseNumericAddress t)
  (hchar : ∀ t a, P.parseNumericAddress t = some a → ∀ c ∈ t, isAddressChar c = true)

include hagree in
/-- A network that the engine reads is one that the service reads. -/
theorem fromString_of_parseIpNet {x : Text} {n : Subnet} (h : Engine.parseIpNet E x = some n) :
    Subnet.fromString P.toNumericAddresses x = some n := by
  rw [Engine.parseIpNet] at h
  rw [Subnet.fromString]
  rcases hsplit : Text.splitFirst '/' x with ⟨host, _ | p⟩
  · simp [hsplit] at h
  · simp only [hsplit, hagree] at h ⊢
    obtain ⟨addr, haddr, h⟩ := Option.bind_eq_some_iff.mp h
    obtain ⟨k, hk, h⟩ := Option.bind_eq_some_iff.mp h
    have hread : ∀ {m u}, Engine.readPrefix m u p = some k →
        p ≠ [] ∧ (∀ c ∈ p, c.isDigit = true) ∧ k = Nat.ofDigitChars 10 p 0 ∧ k < u := by
      intro m u hm
      rw [Engine.readPrefix] at hm
      split at hm
      · next hcond =>
        obtain ⟨hne, -, hall, hlt⟩ := hcond
        obtain rfl := Option.some_inj.mp hm
        exact ⟨hne, List.all_eq_true.mp hall, rfl, hlt⟩
      · contradiction
    have hlt : p ≠ [] ∧ (∀ c ∈ p, c.isDigit = true) ∧ k = Nat.ofDigitChars 10 p 0 ∧ k < 129 := by
      split at hk
      · obtain ⟨h₁, h₂, h₃, h₄⟩ := hread hk
        exact ⟨h₁, h₂, h₃, by omega⟩
      · exact hread hk
    obtain ⟨hne, hdigit, rfl, hlt⟩ := hlt
    rw [haddr, Option.bind_some, Text.parseInt_of_isDigit hne hdigit (by omega), Option.bind_some]
    exact h

include hchar in
theorem slash_not_mem_of_parse {x : Text} {a : InetAddress}
    (h : P.parseNumericAddress x = some a) : '/' ∉ x := fun hc =>
  Subnet.isAddressChar_ne_slash (hchar x a h _ hc) rfl

include hagree hchar in
/-- What is no subnet to the service is a host rule to the engine. -/
theorem loadInput_host {e : LoadState} {x : Text} (hhead : x.head? ≠ some '[')
    (hnone : Subnet.fromString P.toNumericAddresses x = none) :
    Engine.loadInput E e x = e.updateCurr (addHostRule x) := by
  have hnet : Engine.parseIpNet E x = none := by
    cases hnet : Engine.parseIpNet E x with
    | none => rfl
    | some n =>
      rw [fromString_of_parseIpNet hagree hnet] at hnone
      contradiction
  have haddr : E.parseIpAddr x = none := by
    rw [hagree]
    cases haddr : P.parseNumericAddress x with
    | none => rfl
    | some a =>
      have hslash := slash_not_mem_of_parse hchar haddr
      rw [Subnet.fromString, Text.splitFirst_of_not_mem hslash] at hnone
      simp [haddr] at hnone
  unfold Engine.loadInput addHostRule hostRule
  rw [loadMatch_of_head_ne hhead, Engine.loadRule, hnet, haddr]
  split
  · obtain ⟨mode, outbound, bypass, proxy, curr⟩ := e
    cases curr <;> rfl
  · cases "||".toList.isPrefixOf? x with
    | some rule => rfl
    | none => cases ['|'].isPrefixOf? x <;> rfl

include hagree in
/-- A subnet of the service whose prefix is written plainly is a network to the engine. -/
theorem parseIpNet_of_fromString {x host p : Text} {n : Subnet}
    (hsplit : Text.splitFirst '/' x = (host, some p))
    (h : Subnet.fromString P.toNumericAddresses x = some n) (hp : PrefixOk n p) :
    Engine.parseIpNet E x = some n := by
  obtain ⟨haddr, hk⟩ := (Subnet.fromString_eq_some_iff _).mp h
  simp only [hsplit] at haddr hk
  have hvalue := Text.parseInt_eq_of_isDigit hp.ne_nil hp.isDigit hk
  have hvalue : n.prefixSize = Nat.ofDigitChars 10 p 0 := by exact_mod_cast hvalue
  have hall : p.all Char.isDigit = true := List.all_eq_true.mpr hp.isDigit
  have hread : (if n.address.size = 4 then Engine.readPrefix 2 33 p
      else Engine.readPrefix 3 129 p) = some n.prefixSize := by
    have hle := n.prefixSize_le
    have hlen := hp.length_le
    have hsize := n.address.size_le
    split
    · next h4 =>
      rw [if_pos h4] at hlen
      rw [Engine.readPrefix, if_pos ⟨hp.ne_nil, hlen, hall, by omega⟩, hvalue]
    · next h6 =>
      rw [if_neg h6] at hlen
      rw [Engine.readPrefix, if_pos ⟨hp.ne_nil, hlen, hall, by omega⟩, hvalue]
  simp only [Engine.parseIpNet, hsplit, hagree, haddr, Option.bind_some, hread]
  rw [Subnet.ofPrefix, dif_neg]
  · simp
  · have hle := n.prefixSize_le
    omega

include hagree hchar in
/-- What is a subnet to the service, plainly written, is that network to the engine. -/
theorem loadInput_subnet {e : LoadState} {x : Text} {n : Subnet}
    (h : Subnet.fromString P.toNumericAddresses x = some n)
    (hprefixOk : ∀ p, (Text.splitFirst '/' x).2 = some p → PrefixOk n p) :
    Engine.loadInput E e x = e.updateCurr fun r => r.addIp n := by
  obtain ⟨haddr, hrest⟩ := (Subnet.fromString_eq_some_iff _).mp h
  -- the line consists of address characters and perhaps a slash
  have hx : ∀ c ∈ x, isAddressChar c = true ∨ c = '/' := by
    intro c hc
    rw [Text.splitFirst_eq '/' x] at hc
    rcases List.mem_append.mp hc with hc | hc
    · exact Or.inl (hchar _ _ haddr c hc)
    · cases hp : (Text.splitFirst '/' x).2 with
      | none => simp [hp] at hc
      | some p =>
        simp only [hp, Option.elim_some, List.mem_cons] at hc
        rcases hc with hc | hc
        · exact Or.inr hc
        · exact Or.inl (by simp [isAddressChar, (hprefixOk p hp).isDigit c hc])
  have hnot : ∀ d, (isAddressChar d = false ∧ d ≠ '/') → x.head? ≠ some d := by
    intro d hd hhead
    rcases hx d (List.mem_of_mem_head? hhead) with hd' | hd'
    · rw [hd.1] at hd'
      contradiction
    · exact hd.2 hd'
  have hascii : Engine.isAscii x = true := by
    rw [Engine.isAscii, List.all_eq_true]
    intro c hc
    rw [decide_eq_true_eq]
    rcases hx c hc with hc | rfl
    · exact (toNat_of_isAddressChar hc).2.trans (by decide)
    · decide
  have hbar := hnot '|' (by decide)
  rw [Engine.loadInput, hascii]
  rw [show "||".toList = ['|', '|'] from rfl, isPrefixOf?_eq_none_of_head hbar,
    isPrefixOf?_eq_none_of_head hbar, loadMatch_of_head_ne (hnot '[' (by decide)), Engine.loadRule]
  rcases hsplit : Text.splitFirst '/' x with ⟨host, _ | p⟩
  · -- no slash: the whole line is the address
    have hno : '/' ∉ x := by
      intro hc
      rw [Text.splitFirst_eq '/' x, hsplit] at hc
      simp only [Option.elim_none, List.append_nil] at hc
      have := Text.not_mem_splitFirst_fst '/' x
      rw [hsplit] at this
      exact this hc
    rw [Text.splitFirst_of_not_mem hno] at haddr hrest
    have hnet : Engine.parseIpNet E x = none := by rw [Engine.parseIpNet, hsplit]
    have hn : Engine.ofIpAddr n.address = n := by
      obtain ⟨addr, k, hk⟩ := n
      obtain rfl : k = addr.size * 8 := hrest
      rfl
    simp only [hnet, hagree, haddr, hn]
    simp
  · have hp := hprefixOk p (by rw [hsplit])
    simp only [parseIpNet_of_fromString hagree hsplit h hp]
    simp

end Agree

/-! ## The simulation -/

/-- The engine's name for a mode. -/
def modeOf (bypass : Bool) : Engine.Mode := if bypass then .whiteList else .blackList

/-- The engine's name for a list. -/
def currOf : RuleList → Engine.CurrentList
  | .outboundBlock => .outboundBlock
  | .bypass => .bypass
  | .proxy => .proxy

/-- The host rules that the engine reads the names of a list as. -/
def HostRules (hosts : SortedList stringSorter) (r : Engine.HostRule) : Prop :=
  ∃ h ∈ hosts, hostRule h = some r

/-- The service's parser and the engine's loader after the same lines. -/
structure Sim (s : ParseState (Acl P)) (e : LoadState) : Prop where
  mode : e.mode = modeOf s.bypass
  curr : e.curr = currOf s.current
  bypass : e.bypass.Holds (· ∈ s.bypassSubnets) (HostRules s.sink.bypassHostnames)
  proxy : e.proxy.Holds (· ∈ s.proxySubnets) (HostRules s.sink.proxyHostnames)
  urls : s.sink.urls = .empty
  subnets : s.sink.subnets = .empty
  trim_eq : ∀ h, h ∈ s.sink.bypassHostnames ∨ h ∈ s.sink.proxyHostnames → Engine.trim h = h

theorem sim_start : Sim (startParse false (Acl.new P)) LoadState.init := by
  refine ⟨rfl, rfl, ?_, ?_, rfl, rfl, ?_⟩
  · exact Engine.Rules.Holds.new.congr (by simp [startParse])
      (by simp [HostRules, startParse, Acl.new])
  · exact Engine.Rules.Holds.new.congr (by simp [startParse])
      (by simp [HostRules, startParse, Acl.new])
  · simp [startParse, Acl.new]

theorem sim_header {s s' : ParseState (Acl P)} {e : LoadState} (h : Sim s e) {x : Text}
    (hheader : parseHeader s x = some s') : Sim s' (Engine.loadInput E e x) := by
  unfold parseHeader at hheader
  split_ifs at hheader with h₁ h₂ h₃ h₄ h₅ <;> obtain rfl := Option.some_inj.mp hheader
  · subst h₁
    exact ⟨h.mode, rfl, h.bypass, h.proxy, h.urls, h.subnets, h.trim_eq⟩
  · rcases h₂ with rfl | rfl <;>
      exact ⟨h.mode, rfl, h.bypass, h.proxy, h.urls, h.subnets, h.trim_eq⟩
  · rcases h₃ with rfl | rfl <;>
      exact ⟨h.mode, rfl, h.bypass, h.proxy, h.urls, h.subnets, h.trim_eq⟩
  · rcases h₄ with rfl | rfl <;>
      exact ⟨rfl, h.curr, h.bypass, h.proxy, h.urls, h.subnets, h.trim_eq⟩
  · rcases h₅ with rfl | rfl <;>
      exact ⟨rfl, h.curr, h.bypass, h.proxy, h.urls, h.subnets, h.trim_eq⟩

/-- The host rules after a name was added. -/
theorem hostRules_add {hosts : SortedList stringSorter} {x : Text} {r : Engine.HostRule} :
    HostRules (hosts.add x) r ↔ hostRule x = some r ∨ HostRules hosts r := by
  unfold HostRules
  simp only [SortedList.mem_add_of_exact exact_stringSorter, or_and_right, exists_or,
    exists_eq_left]

/-- Adding a host line to rules that hold the names of a list. -/
theorem holds_addHostRule {r : Engine.Rules} {N : Subnet → Prop} {hosts : SortedList stringSorter}
    (h : r.Holds N (HostRules hosts)) (x : Text) :
    (addHostRule x r).Holds N (HostRules (hosts.add x)) := by
  unfold addHostRule
  cases hx : hostRule x with
  | none => exact h.congr (fun _ => Iff.rfl) fun y => by simp [hostRules_add, hx]
  | some rule =>
    exact (h.addHost rule).congr (fun _ => Iff.rfl) fun y => by
      simp [hostRules_add, hx, eq_comm]

theorem trim_eq_of_mem_add {hosts : SortedList stringSorter} {x y : Text}
    (hhosts : ∀ h ∈ hosts, Engine.trim h = h) (hx : Engine.trim x = x) (hy : y ∈ hosts.add x) :
    Engine.trim y = y := by
  rcases (SortedList.mem_add_of_exact exact_stringSorter).mp hy with rfl | hy
  · exact hx
  · exact hhosts y hy

theorem sim_host {s : ParseState (Acl P)} {e : LoadState} (h : Sim s e) {x : Text}
    (hnone : Subnet.fromString P.toNumericAddresses x = none) (htrim : Engine.trim x = x) :
    Sim (parseRule P sinks s x) (e.updateCurr (addHostRule x)) := by
  have hbypass := fun y hy => h.trim_eq y (Or.inl hy)
  have hproxy := fun y hy => h.trim_eq y (Or.inr hy)
  have hcurr := h.curr
  cases hcurrent : s.current <;>
    simp only [hcurrent, currOf] at hcurr <;>
    simp only [parseRule, hcurrent, hnone, LoadState.updateCurr, hcurr]
  · exact ⟨h.mode, by rw [hcurrent]; rfl, h.bypass, h.proxy, h.urls, h.subnets, h.trim_eq⟩
  · refine ⟨h.mode, rfl, holds_addHostRule h.bypass x, h.proxy, h.urls, h.subnets, ?_⟩
    rintro y (hy | hy)
    · exact trim_eq_of_mem_add hbypass htrim hy
    · exact hproxy y hy
  · refine ⟨h.mode, rfl, h.bypass, holds_addHostRule h.proxy x, h.urls, h.subnets, ?_⟩
    rintro y (hy | hy)
    · exact hbypass y hy
    · exact trim_eq_of_mem_add hproxy htrim hy

theorem sim_subnet {s : ParseState (Acl P)} {e : LoadState} (h : Sim s e) {x : Text} {n : Subnet}
    (hsome : Subnet.fromString P.toNumericAddresses x = some n) :
    Sim (parseRule P sinks s x) (e.updateCurr fun r => r.addIp n) := by
  have hadd : ∀ {r : Engine.Rules} {l : List Subnet} {H}, r.Holds (· ∈ l) H →
      (r.addIp n).Holds (· ∈ l ++ [n]) H := fun hr =>
    (hr.addIp n).congr (fun m => by simp [or_comm]) fun _ => Iff.rfl
  have hcurr := h.curr
  cases hcurrent : s.current <;>
    simp only [hcurrent, currOf] at hcurr <;>
    simp only [parseRule, hcurrent, hsome, LoadState.updateCurr, hcurr]
  · exact ⟨h.mode, by rw [hcurrent]; rfl, h.bypass, h.proxy, h.urls, h.subnets, h.trim_eq⟩
  · exact ⟨h.mode, rfl, hadd h.bypass, h.proxy, h.urls, h.subnets, h.trim_eq⟩
  · exact ⟨h.mode, rfl, h.bypass, hadd h.proxy, h.urls, h.subnets, h.trim_eq⟩

/-- What the simulation needs of a line: comments are lines of their own and import nothing, blank
lines are empty, the two sides trim alike, and prefixes are such as the engine reads. -/
structure LineOk (P : Platform) (l : Text) : Prop where
  comment : '#' ∉ l.tail
  no_import : importUrl ((Text.splitFirst '#' l).2.getD []) = none
  trim_ne_nil : l ≠ [] → l.head? ≠ some '#' → trim l ≠ []
  trim_eq : l.head? ≠ some '#' → Engine.trim l = trim l
  prefixOk : ∀ n p, Subnet.fromString P.toNumericAddresses (trim l) = some n →
    (Text.splitFirst '/' (trim l)).2 = some p → PrefixOk n p

section Run

variable (hagree : ∀ t, E.parseIpAddr t = P.parseNumericAddress t)
  (hchar : ∀ t a, P.parseNumericAddress t = some a → ∀ c ∈ t, isAddressChar c = true)

include hagree hchar

/-- One line keeps the two parsers together. -/
theorem sim_line {s s' : ParseState (Acl P)} {e : LoadState} (h : Sim s e) {l : Text}
    (hl : LineOk P l) (hline : parseLine P sinks s l = .ok s') :
    Sim s' (Engine.loadLine E e l) := by
  have hinput : parseInput P sinks s (trim (Text.splitFirst '#' l).1) = .ok s' := by
    have himport : parseImport P addUrl s ((Text.splitFirst '#' l).2.getD []) = .ok s := by
      rw [parseImport, hl.no_import]
    rw [parseLine_sinks, himport] at hline
    exact hline
  by_cases hskip : l = [] ∨ l.head? = some '#'
  · -- nothing stands in front of the comment
    have hempty : trim (Text.splitFirst '#' l).1 = [] := by
      cases l with
      | nil => rfl
      | cons c l =>
        obtain rfl : c = '#' := by simpa using hskip
        simp [trim, Text.trimBy]
    rw [hempty] at hinput
    obtain rfl : s = s' := Except.ok.inj hinput
    rw [Engine.loadLine, if_pos hskip]
    exact h
  · obtain ⟨hne, hhead⟩ := not_or.mp hskip
    have hno : '#' ∉ l := by
      cases l with
      | nil => simp
      | cons c l =>
        simp only [List.mem_cons, not_or]
        exact ⟨fun hc => hhead (by simp [← hc]), hl.comment⟩
    rw [Text.splitFirst_of_not_mem hno] at hinput
    rw [Engine.loadLine, if_neg hskip, hl.trim_eq hhead]
    rw [parseInput] at hinput
    split at hinput
    · split at hinput
      · next hheader =>
        obtain rfl := Except.ok.inj hinput
        exact sim_header h hheader
      · contradiction
    · next hnot =>
      rw [if_neg (hl.trim_ne_nil hne hhead)] at hinput
      obtain rfl := Except.ok.inj hinput
      cases hsub : Subnet.fromString P.toNumericAddresses (trim l) with
      | none =>
        rw [loadInput_host hagree hchar hnot hsub]
        refine sim_host h hsub ?_
        rw [← hl.trim_eq hhead]
        exact Text.trimBy_trimBy _ _
      | some n =>
        rw [loadInput_subnet hagree hchar hsub fun p => hl.prefixOk n p hsub]
        exact sim_subnet h hsub

/-- A run over lines keeps the two parsers together. -/
theorem sim_run {ls : List Text} (hls : ∀ l ∈ ls, LineOk P l) {s s' : ParseState (Acl P)}
    {e : LoadState} (h : Sim s e) (hrun : ls.foldlM (parseLine P sinks) s = .ok s') :
    Sim s' (ls.foldl (Engine.loadLine E) e) := by
  induction ls generalizing s e with
  | nil =>
    obtain rfl := Except.ok.inj hrun
    exact h
  | cons l ls ih =>
    rw [List.foldlM_cons] at hrun
    cases hl : parseLine P sinks s l with
    | error err =>
      rw [hl] at hrun
      cases hrun
    | ok s₁ =>
      rw [hl] at hrun
      exact ih (fun m hm => hls m (by simp [hm])) (sim_line hagree hchar h (hls l (by simp)) hl)
        hrun

end Run

/-! ## The print -/

/-- A line without a comment that both sides leave as it is. -/
theorem lineOk_of_trimmed {l : Text} (hcomment : '#' ∉ l) (htrim : trim l = l)
    (htrim' : Engine.trim l = l)
    (hprefixOk : ∀ n p, Subnet.fromString P.toNumericAddresses l = some n →
      (Text.splitFirst '/' l).2 = some p → PrefixOk n p) : LineOk P l where
  comment h := hcomment (List.mem_of_mem_tail h)
  no_import := by
    rw [Text.splitFirst_of_not_mem hcomment]
    rfl
  trim_ne_nil hne _ := by rwa [htrim]
  trim_eq _ := by rw [htrim, htrim']
  prefixOk := by rwa [htrim]

theorem lineOk_header {l : Text} (h : l ∈ ["[bypass_all]".toList, "[proxy_all]".toList,
    "[bypass_list]".toList, "[proxy_list]".toList]) : LineOk P l := by
  have hdecide : ∀ l ∈ ["[bypass_all]".toList, "[proxy_all]".toList, "[bypass_list]".toList,
      "[proxy_list]".toList], '#' ∉ l ∧ trim l = l ∧ Engine.trim l = l ∧
        (Text.splitFirst '/' l).2 = none := by decide
  obtain ⟨hcomment, htrim, htrim', hslash⟩ := hdecide l h
  refine lineOk_of_trimmed hcomment htrim htrim' fun n p _ hp => ?_
  rw [hslash] at hp
  contradiction

theorem lineOk_subnet {n : Subnet} (hn : IsSubnet P n) :
    LineOk P (n.toString P.toNumericAddresses) := by
  obtain ⟨t, ht⟩ := hn
  have hchar : ∀ c ∈ n.toString P.toNumericAddresses, isAddressChar c = true ∨ c = '/' :=
    fun _ => Subnet.char_of_mem_toString _
  refine lineOk_of_trimmed (fun hc => absurd (hchar _ hc) (by decide))
    (Text.trimBy_of_forall_not fun c hc => ?_) (Text.trimBy_of_forall_not fun c hc => ?_)
    fun m p hm hp => ?_
  · rcases hchar c hc with h | rfl
    · exact isWhitespace_of_isAddressChar h
    · decide
  · rcases hchar c hc with h | rfl
    · exact Engine.isWhiteSpace_of_isAddressChar h
    · decide
  · rw [Subnet.fromString_toString _ ht] at hm
    obtain rfl := Option.some_inj.mp hm
    -- a slash is printed in front of a prefix shorter than the address
    rw [Subnet.toString] at hp
    split at hp
    · rw [Text.splitFirst_of_not_mem (Subnet.slash_not_mem_hostAddress _ _)] at hp
      contradiction
    · rw [Text.splitFirst_append_cons _ (Subnet.slash_not_mem_hostAddress _ _)] at hp
      obtain rfl := Option.some_inj.mp hp
      refine ⟨Nat.toDigits_ne_nil, fun c hc =>
        Nat.isDigit_of_mem_toDigits (by decide) (by decide) hc, ?_⟩
      have hle := n.prefixSize_le
      have hsize := n.address.size_le
      split
      · exact (Nat.length_toDigits_le_iff (by decide) (by decide)).mpr (by omega)
      · exact (Nat.length_toDigits_le_iff (by decide) (by decide)).mpr (by omega)

theorem lineOk_host {h : Text} (hh : IsHost P h) (htrim : Engine.trim h = h) : LineOk P h :=
  lineOk_of_trimmed hh.no_comment hh.trim_eq htrim fun n p hn _ => by
    rw [hh.not_subnet] at hn
    contradiction

/-- The lines of the print of a list without imports. -/
theorem printedLines_cases {a : Acl P} (hurls : a.urls = .empty) {l : Text}
    (hl : l ∈ a.printedLines) :
    l ∈ ["[bypass_all]".toList, "[proxy_all]".toList, "[bypass_list]".toList,
        "[proxy_list]".toList] ∨
      (∃ n ∈ a.subnets, l = Subnet.toString P.toNumericAddresses n) ∨
      l ∈ a.bypassHostnames ∨ l ∈ a.proxyHostnames := by
  have hnone : a.urls.items = [] := by rw [hurls]; rfl
  unfold printedLines at hl
  simp only [hnone, List.map_nil, List.append_nil, List.mem_cons, List.mem_append] at hl
  rcases hl with rfl | hl | hl
  · refine Or.inl ?_
    split <;> simp
  · rcases mem_blockLines hl with rfl | hl
    · exact Or.inl (by simp)
    · exact Or.inr (mem_list_cases (Or.inl hl))
  · rcases mem_blockLines hl with rfl | hl
    · exact Or.inl (by simp)
    · exact Or.inr (mem_list_cases (Or.inr hl))

/-- The print satisfies what the simulation needs. -/
theorem lineOk_of_mem_printedLines {a : Acl P} (ha : a.WellFormed) (hurls : a.urls = .empty)
    (htrim : ∀ h, h ∈ a.bypassHostnames ∨ h ∈ a.proxyHostnames → Engine.trim h = h) {l : Text}
    (hl : l ∈ a.printedLines) : LineOk P l := by
  rcases printedLines_cases hurls hl with hheader | ⟨n, hn, rfl⟩ | hhost
  · exact lineOk_header hheader
  · exact lineOk_subnet (ha.subnets n hn)
  · have hhost' : IsHost P l := by
      rcases hhost with h | h
      · exact ha.bypassHostnames l h
      · exact ha.proxyHostnames l h
    exact lineOk_host hhost' (htrim l hhost)

/-! ## The list of blocked outbound destinations -/

/-- While no line opens the list of blocked destinations, it stays as it is. -/
theorem loadLine_outboundBlock {e : LoadState} {l : Text} (hcurr : e.curr ≠ .outboundBlock)
    (hl : Engine.trim l ≠ "[outbound_block_list]".toList) :
    (Engine.loadLine E e l).curr ≠ .outboundBlock ∧
      (Engine.loadLine E e l).outboundBlock = e.outboundBlock := by
  have hupdate : ∀ f, (e.updateCurr f).curr ≠ .outboundBlock ∧
      (e.updateCurr f).outboundBlock = e.outboundBlock := by
    intro f
    unfold LoadState.updateCurr
    split
    · contradiction
    · exact ⟨hcurr, rfl⟩
    · exact ⟨hcurr, rfl⟩
  unfold Engine.loadLine
  split
  · exact ⟨hcurr, rfl⟩
  · unfold Engine.loadInput
    split
    · exact ⟨hcurr, rfl⟩
    · split
      · exact hupdate _
      · split
        · exact hupdate _
        · unfold Engine.loadMatch
          split_ifs
          · exact ⟨hcurr, rfl⟩
          · exact ⟨hcurr, rfl⟩
          · exact ⟨by simp, rfl⟩
          · exact ⟨by simp, rfl⟩
          · unfold Engine.loadRule
            split
            · exact hupdate _
            · split
              · exact hupdate _
              · exact hupdate _

theorem run_outboundBlock {ls : List Text}
    (hls : ∀ l ∈ ls, Engine.trim l ≠ "[outbound_block_list]".toList) {e : LoadState}
    (hcurr : e.curr ≠ .outboundBlock) :
    (ls.foldl (Engine.loadLine E) e).outboundBlock = e.outboundBlock := by
  induction ls generalizing e with
  | nil => rfl
  | cons l ls ih =>
    obtain ⟨hcurr', heq⟩ := loadLine_outboundBlock (E := E) hcurr (hls l (by simp))
    rw [List.foldl_cons, ih (fun m hm => hls m (by simp [hm])) hcurr', heq]

theorem trim_printedLines_ne {a : Acl P} (ha : a.WellFormed) (hurls : a.urls = .empty)
    (htrim : ∀ h, h ∈ a.bypassHostnames ∨ h ∈ a.proxyHostnames → Engine.trim h = h) {l : Text}
    (hl : l ∈ a.printedLines) : Engine.trim l ≠ "[outbound_block_list]".toList := by
  rcases printedLines_cases hurls hl with hheader | ⟨n, -, rfl⟩ | hhost
  · have hdecide : ∀ l ∈ ["[bypass_all]".toList, "[proxy_all]".toList, "[bypass_list]".toList,
        "[proxy_list]".toList], Engine.trim l ≠ "[outbound_block_list]".toList := by
      decide
    exact hdecide l hheader
  · -- a printed subnet holds no bracket
    intro h
    have hmem : '[' ∈ Engine.trim (n.toString P.toNumericAddresses) := by rw [h]; simp
    have hsub := Text.trimBy_subset Engine.isWhiteSpace (n.toString P.toNumericAddresses)
    exact absurd (Subnet.char_of_mem_toString _ (hsub hmem)) (by decide)
  · rw [htrim l hhost]
    rintro rfl
    rcases hhost with h | h
    · exact (ha.bypassHostnames _ h).not_header rfl
    · exact (ha.proxyHostnames _ h).not_header rfl

/-! ## The rewriting -/

/-- A prefix length written as one to three digits without leading zeros. -/
structure IsPlainPrefix (p : Text) : Prop where
  ne_nil : p ≠ []
  length_le : p.length ≤ 3
  isDigit : ∀ c ∈ p, c.isDigit = true
  no_leading_zero : p.head? = some '0' → p = ['0']

/-- The texts that are rewritten, by their lines: comments are lines of their own, nothing is
imported, no line consists of blanks, and prefixes are plain. -/
structure PlainLines (P : Platform) (ls : List Text) : Prop where
  isLine : ∀ l ∈ ls, Text.IsLine l
  comment : ∀ l ∈ ls, '#' ∉ l.tail
  no_import : ∀ l ∈ ls, importUrl ((Text.splitFirst '#' l).2.getD []) = none
  not_blank : ∀ l ∈ ls, l ≠ [] → ∃ c ∈ l, isWhitespace c = false
  plain : ∀ l ∈ ls, ∀ host p, Text.splitFirst '/' (trim l) = (host, some p) →
    P.parseNumericAddress host ≠ none → Text.parseInt p ≠ none → IsPlainPrefix p

/-- The engine decides alike: for every address, by default, and with the same host rules. -/
structure SameDecisions (e e' : AccessControl) : Prop where
  checkIp : ∀ ip, e.checkIpInProxyList ip = e'.checkIpInProxyList ip
  isDefault : e.isDefaultInProxyList = e'.isDefaultInProxyList
  blackList : e.blackList.SameHostRules e'.blackList
  whiteList : e.whiteList.SameHostRules e'.whiteList

/-- Three digits without a leading zero are at least one hundred. -/
theorem IsPlainPrefix.length_le_two {p : Text} (h : IsPlainPrefix p)
    (hlt : Nat.ofDigitChars 10 p 0 < 100) : p.length ≤ 2 := by
  by_contra hlen
  obtain ⟨a, b, c, rfl⟩ : ∃ a b c, p = [a, b, c] := by
    have := h.length_le
    exact List.length_eq_three.mp (by omega)
  have hdigit := Char.isDigit_iff_toNat.mp (h.isDigit a (by simp))
  have hzero : a ≠ '0' := by
    rintro rfl
    simpa using h.no_leading_zero rfl
  have hne : a.toNat ≠ 48 := fun h48 => hzero (Char.toNat_inj.mp h48)
  simp only [Char.reduceToNat] at hdigit
  simp only [Nat.ofDigitChars_cons, Nat.ofDigitChars_nil, Char.reduceToNat] at hlt
  omega

theorem trim_ne_nil_of_not_blank {l : Text} (h : ∃ c ∈ l, isWhitespace c = false) :
    trim l ≠ [] := by
  obtain ⟨c, hc, hblank⟩ := h
  intro hnil
  have hdrop : ∀ x ∈ l.dropWhile isWhitespace, isWhitespace x = true :=
    List.rdropWhile_eq_nil_iff.mp hnil
  have hall : l.dropWhile isWhitespace = [] := by
    cases hd : l.dropWhile isWhitespace with
    | nil => rfl
    | cons x xs =>
      have hhead := List.head?_dropWhile_not isWhitespace l
      rw [hd] at hhead hdrop
      have := hdrop x (by simp)
      simp [this] at hhead
  have := List.dropWhile_eq_nil_iff.mp hall c hc
  simp [hblank] at this

theorem lineOk_of_plainLines {ls : List Text} (hls : PlainLines P ls)
    (htrim : ∀ l ∈ ls, l.head? ≠ some '#' → Engine.trim l = trim l) {l : Text} (hl : l ∈ ls) :
    LineOk P l where
  comment := hls.comment l hl
  no_import := hls.no_import l hl
  trim_ne_nil hne _ := trim_ne_nil_of_not_blank (hls.not_blank l hl hne)
  trim_eq := htrim l hl
  prefixOk := by
    intro n p hn hp
    obtain ⟨haddr, hrest⟩ := (Subnet.fromString_eq_some_iff _).mp hn
    simp only [hp] at hrest
    have hplain := hls.plain l hl _ p (Prod.ext rfl hp) (by simp [haddr]) (by simp [hrest])
    refine ⟨hplain.ne_nil, hplain.isDigit, ?_⟩
    split
    · next h4 =>
      have hvalue := Text.parseInt_eq_of_isDigit hplain.ne_nil hplain.isDigit hrest
      have hle := n.prefixSize_le
      exact hplain.length_le_two (by omega)
    · exact hplain.length_le

/-- Loading succeeds exactly when the regular expressions of the three lists compile. -/
theorem loadFromFile_eq_ok_iff {t : Text} {a : AccessControl} {e : LoadState}
    (he : (Engine.lines t).foldl (Engine.loadLine E) .init = e) :
    AccessControl.loadFromFile E t = .ok a ↔
      (e.outboundBlock.ruleRegex.findSome? E.regexError = none ∧
        e.bypass.ruleRegex.findSome? E.regexError = none ∧
        e.proxy.ruleRegex.findSome? E.regexError = none) ∧
      a = ⟨e.outboundBlock, e.bypass, e.proxy, e.mode⟩ := by
  unfold AccessControl.loadFromFile
  simp only [he, Engine.Rules.intoRules, bind, Except.bind, pure, Except.pure]
  cases e.outboundBlock.ruleRegex.findSome? E.regexError with
  | some err => simp
  | none =>
    cases e.bypass.ruleRegex.findSome? E.regexError with
    | some err => simp
    | none =>
      cases e.proxy.ruleRegex.findSome? E.regexError with
      | some err => simp
      | none => simp [eq_comm]

theorem findSome?_eq_none_of_mem {l l' : List Text} {f : Text → Option Text}
    (h : ∀ x, x ∈ l ↔ x ∈ l') (hl : l.findSome? f = none) : l'.findSome? f = none := by
  rw [List.findSome?_eq_none_iff] at hl ⊢
  exact fun x hx => hl x ((h x).mpr hx)

/-- The access control that the loader ends with. -/
def finish (e : LoadState) : AccessControl := ⟨e.outboundBlock, e.bypass, e.proxy, e.mode⟩

/-- Two runs of the engine decide alike when the service's runs next to them agree on the mode, the
host names and the subnets of the list that the mode consults. -/
theorem sameDecisions_of_sim {s s' : ParseState (Acl P)} {e e' : LoadState} (h : Sim s e)
    (h' : Sim s' e') (hmode : s'.bypass = s.bypass)
    (hbypass : ∀ x, x ∈ s'.sink.bypassHostnames ↔ x ∈ s.sink.bypassHostnames)
    (hproxy : ∀ x, x ∈ s'.sink.proxyHostnames ↔ x ∈ s.sink.proxyHostnames)
    (hsubnets : ∀ n, n ∈ (if s.bypass then s'.proxySubnets else s'.bypassSubnets) ↔
      n ∈ (if s.bypass then s.proxySubnets else s.bypassSubnets)) :
    SameDecisions (finish e) (finish e') := by
  have hhosts : ∀ {l l' : SortedList stringSorter}, (∀ x, x ∈ l' ↔ x ∈ l) →
      ∀ r, HostRules l' r ↔ HostRules l r := fun hl r =>
    exists_congr fun x => and_congr_left fun _ => hl x
  have hb := h'.bypass.congr (fun _ => Iff.rfl) (hhosts hbypass)
  have hp := h'.proxy.congr (fun _ => Iff.rfl) (hhosts hproxy)
  refine ⟨fun ip => ?_, ?_, h.bypass.sameHostRules hb, h.proxy.sameHostRules hp⟩
  · simp only [finish, AccessControl.checkIpInProxyList, h.mode, h'.mode, hmode, modeOf]
    cases hs : s.bypass with
    | false =>
      have hmem : ∀ n, n ∈ s'.bypassSubnets ↔ n ∈ s.bypassSubnets := by simpa [hs] using hsubnets
      have hholds := hb.congr hmem fun _ => Iff.rfl
      simp only [Bool.false_eq_true, ↓reduceIte]
      rw [h.bypass.checkIpMatched_eq hholds]
    | true =>
      have hmem : ∀ n, n ∈ s'.proxySubnets ↔ n ∈ s.proxySubnets := by simpa [hs] using hsubnets
      have hholds := hp.congr hmem fun _ => Iff.rfl
      simp only [↓reduceIte]
      rw [h.proxy.checkIpMatched_eq hholds]
  · simp only [finish, AccessControl.isDefaultInProxyList, h.mode, h'.mode, hmode]

/-- The engine decides alike on a text and on the print of what the service read from it, when
both sides trim its lines alike. -/
theorem rewrite_sameDecisions (hagree : ∀ t, E.parseIpAddr t = P.parseNumericAddress t)
    (hchar : ∀ t a, P.parseNumericAddress t = some a → ∀ c ∈ t, isAddressChar c = true)
    (ls : List Text) (hls : PlainLines P ls)
    (htrim : ∀ l ∈ ls, l.head? ≠ some '#' → Engine.trim l = trim l) (a : Acl P)
    (ha : fromReader P (Text.unlines ls) false = .ok a) (e : AccessControl)
    (he : AccessControl.loadFromFile E (Text.unlines ls) = .ok e) :
    ∃ e', AccessControl.loadFromFile E a.toString = .ok e' ∧ SameDecisions e e' := by
  have hwf := wellFormed_of_fromReader ha
  obtain ⟨s, hrun, ha⟩ := fromReader_eq_ok_iff.mp ha
  rw [Text.lines_unlines hls.isLine] at hrun
  -- both parsers over the text
  have hsim := sim_run hagree hchar (fun l => lineOk_of_plainLines hls htrim) sim_start hrun
  have hmode : a.bypass = s.bypass := by rw [ha]
  have hbypass : a.bypassHostnames = s.sink.bypassHostnames := by rw [ha]
  have hproxy : a.proxyHostnames = s.sink.proxyHostnames := by rw [ha]
  have hurls : a.urls = .empty := by rw [ha]; exact hsim.urls
  have htrims : ∀ h, h ∈ a.bypassHostnames ∨ h ∈ a.proxyHostnames → Engine.trim h = h := by
    rw [hbypass, hproxy]
    exact hsim.trim_eq
  have hsubnets : ∀ n, n ∈ a.subnets ↔
      n ∈ (if s.bypass then s.proxySubnets else s.bypassSubnets) := by
    intro n
    rw [ha, SortedList.mem_addAll Subnet.exact_sorter, hsim.subnets]
    simp
  -- both parsers over the print
  obtain ⟨c, hprint⟩ := run_printedLines hwf false
  have hsim' := sim_run hagree hchar
    (fun l => lineOk_of_mem_printedLines hwf hurls htrims) sim_start hprint
  have hsame := sameDecisions_of_sim hsim hsim' hmode
    (fun x => by rw [← hbypass]; exact SortedList.mem_addAll_items _)
    (fun x => by rw [← hproxy]; exact SortedList.mem_addAll_items _)
    (fun n => by
      rw [← hsubnets, hmode, SortedList.mem_def]
      cases s.bypass <;> rfl)
  have houtbound := run_outboundBlock (E := E) (e := .init)
    (fun l => trim_printedLines_ne hwf hurls htrims) (by decide)
  have hlines : Engine.lines a.toString = a.printedLines := by
    rw [toString_eq, Engine.lines_unlines fun l => isLine_of_mem_printedLines hwf]
  -- the same regular expressions compile, and no outbound rule is left
  obtain ⟨⟨-, hbypassOk, hproxyOk⟩, rfl⟩ :=
    (loadFromFile_eq_ok_iff (congrArg _ (Engine.lines_unlines hls.isLine))).mp he
  refine ⟨_, (loadFromFile_eq_ok_iff (congrArg _ hlines)).mpr ⟨⟨?_, ?_, ?_⟩, rfl⟩, hsame⟩
  · rw [houtbound]
    rfl
  · exact findSome?_eq_none_of_mem hsame.blackList.regex hbypassOk
  · exact findSome?_eq_none_of_mem hsame.whiteList.regex hproxyOk

/-! ## Runs -/

/-- An engine with the addresses of `samplePlatform` that compiles every regular expression. -/
def sampleEngine : EnginePlatform := ⟨parseDottedQuad, fun _ => none⟩

theorem isAddressChar_of_parseDottedQuad {t : Text} {a : InetAddress}
    (h : parseDottedQuad t = some a) : ∀ c ∈ t, isAddressChar c = true := by
  have hpieces : ∀ {ls : List Text} {bytes : List UInt8}, ls.mapM parseByte = some bytes →
      ∀ l ∈ ls, ∃ b, l = byteText b := by
    intro ls
    induction ls with
    | nil => simp
    | cons l ls ih =>
      intro bytes hbytes m hm
      simp only [List.mapM_cons, bind, Option.bind_eq_some_iff] at hbytes
      obtain ⟨b, hb, bs, hbs, -⟩ := hbytes
      rcases List.mem_cons.mp hm with rfl | hm
      · rw [parseByte] at hb
        split at hb
        · next heq => exact ⟨_, heq.symm⟩
        · contradiction
      · exact ih hbs m hm
  intro c hc
  have hjoin : ['.'].intercalate (t.splitOn '.') = t := List.intercalate_splitOn '.'
  rw [← hjoin] at hc
  rw [parseDottedQuad] at h
  split at h
  · next bytes hbytes =>
    rcases Text.mem_intercalate hc with rfl | ⟨l, hl, hc⟩
    · decide
    · obtain ⟨b, rfl⟩ := hpieces hbytes l hl
      have hdigit := Nat.isDigit_of_mem_toDigits (by decide) (by decide) hc
      simp [isAddressChar, hdigit]
  · contradiction

/-- A plain text with rules of every kind. -/
def sampleLines : List Text :=
  ["# rules".toList, "[outbound_block_list]".toList, "10.0.0.1".toList, "[bypass_all]".toList,
    "[proxy_list]".toList, " 192.168.0.0/8".toList, "||example.com".toList,
    "(^|\\.)example\\.org$".toList]

/-- Lines whose only prefix length is eight. -/
theorem plainLines_of_forall {ls : List Text}
    (h : ∀ l ∈ ls, Text.IsLine l ∧ '#' ∉ l.tail ∧
      importUrl ((Text.splitFirst '#' l).2.getD []) = none ∧
      (l = [] ∨ l.any (fun c => !isWhitespace c) = true) ∧
      ((Text.splitFirst '/' (trim l)).2 = none ∨ (Text.splitFirst '/' (trim l)).2 = some ['8'])) :
    PlainLines samplePlatform ls where
  isLine l hl := (h l hl).1
  comment l hl := (h l hl).2.1
  no_import l hl := (h l hl).2.2.1
  not_blank l hl hne := by
    obtain ⟨c, hc, hblank⟩ := List.any_eq_true.mp ((h l hl).2.2.2.1.resolve_left hne)
    exact ⟨c, hc, by simpa using hblank⟩
  plain := by
    intro l hl host p hsplit _ _
    rcases (h l hl).2.2.2.2 with hnone | hsome
    · rw [hsplit] at hnone
      contradiction
    · rw [hsplit] at hsome
      obtain rfl := Option.some_inj.mp hsome
      exact ⟨by decide, by decide, List.all_eq_true.mp (by decide), by decide⟩

theorem rewrite_sameDecisions_sampleLines :
    ∃ (a : Acl samplePlatform) (e e' : AccessControl),
      fromReader samplePlatform (Text.unlines sampleLines) false = .ok a ∧
      AccessControl.loadFromFile sampleEngine (Text.unlines sampleLines) = .ok e ∧
      AccessControl.loadFromFile sampleEngine a.toString = .ok e' ∧ SameDecisions e e' := by
  obtain ⟨a, ha⟩ : ∃ a, fromReader samplePlatform (Text.unlines sampleLines) false = .ok a :=
    exists_eq_ok_of_isOk (by decide)
  obtain ⟨e, he⟩ : ∃ e, AccessControl.loadFromFile sampleEngine (Text.unlines sampleLines) = .ok e :=
    exists_eq_ok_of_isOk (by decide)
  have hplain : PlainLines samplePlatform sampleLines := plainLines_of_forall (by decide)
  obtain ⟨e', he', hsame⟩ := rewrite_sameDecisions (E := sampleEngine) (fun _ => rfl)
    (fun _ _ => isAddressChar_of_parseDottedQuad) sampleLines hplain (by decide) a ha e he
  exact ⟨a, e, e', ha, he, he', hsame⟩

/-- An address behind a control character that only one side takes for a blank. -/
def controlLines : List Text := ["\x1c1.2.3.4".toList]

/-- Without the condition on blanks the engine may decide differently. The service strips the
control character in front of the address and the engine does not, so only the print holds a rule
for it. -/
theorem rewrite_differs :
    ¬ ∀ (ls : List Text) (a : Acl samplePlatform) (e e' : AccessControl),
      PlainLines samplePlatform ls →
      fromReader samplePlatform (Text.unlines ls) false = .ok a →
      AccessControl.loadFromFile sampleEngine (Text.unlines ls) = .ok e →
      AccessControl.loadFromFile sampleEngine a.toString = .ok e' → SameDecisions e e' := by
  intro h
  have hdiffer : (match fromReader samplePlatform (Text.unlines controlLines) false with
      | .ok a =>
        match AccessControl.loadFromFile sampleEngine (Text.unlines controlLines),
          AccessControl.loadFromFile sampleEngine a.toString with
        | .ok e, .ok e' =>
          e.checkIpInProxyList ⟨[1, 2, 3, 4], Or.inl rfl⟩ !=
            e'.checkIpInProxyList ⟨[1, 2, 3, 4], Or.inl rfl⟩
        | _, _ => false
      | .error _ => false) = true := by decide
  have hplain : PlainLines samplePlatform controlLines :=
    plainLines_of_forall (by decide)
  cases ha : fromReader samplePlatform (Text.unlines controlLines) false with
  | error err => simp [ha] at hdiffer
  | ok a =>
    cases he : AccessControl.loadFromFile sampleEngine (Text.unlines controlLines) with
    | error err => simp [ha, he] at hdiffer
    | ok e =>
      cases he' : AccessControl.loadFromFile sampleEngine a.toString with
      | error err => simp [ha, he, he'] at hdiffer
      | ok e' =>
        have hsame := (h _ a e e' hplain ha he he').checkIp ⟨[1, 2, 3, 4], Or.inl rfl⟩
        simp [ha, he, he', hsame] at hdiffer

end Acl
