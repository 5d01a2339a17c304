import DripVpn.Acl.Acl
import DripVpn.Foundations.ListMap

/-!
# Printing and reading back an access control list

Whatever the parser accepts is printed in a form that the parser reads as the same list, under
either default mode.

* `Acl.WellFormed` says what every entry of a parsed list satisfies: a host name is trimmed, holds
  no comment sign, is no header and no subnet, and a URL is the print of itself. The loop of the
  parser keeps it (`wellFormed_of_fromReader`).
* `Acl.printedLines` are the lines of the print (`toString_eq`).
* `Acl.run_rules` reads a block of printed entries, and `fromReader_toString` the whole print.
-/

open Reactive Kotlin

namespace Acl

variable {P : Platform}

/-! ## What a parsed list holds -/

/-- A text that the parser takes for a host name wherever it stands. -/
structure IsHost (P : Platform) (h : Text) : Prop where
  ne_nil : h ≠ []
  not_header : h.head? ≠ some '['
  trim_eq : trim h = h
  no_comment : '#' ∉ h
  isLine : Text.IsLine h
  not_subnet : Subnet.fromString P.toNumericAddresses h = none

/-- A URL that an import directive can hold. -/
structure IsUrl (P : Platform) (u : Text) : Prop where
  URL_eq : P.URL u = some u
  ne_nil : u ≠ []
  dot : ∀ c ∈ u, isRegexDot c = true

/-- A subnet whose address the numeric parser returned. -/
def IsSubnet (P : Platform) (s : Subnet) : Prop := ∃ t, P.parseNumericAddress t = some s.address

/-- The entries are such as the parser produces. -/
structure WellFormed (a : Acl P) : Prop where
  bypassHostnames : ∀ h ∈ a.bypassHostnames, IsHost P h
  proxyHostnames : ∀ h ∈ a.proxyHostnames, IsHost P h
  subnets : ∀ s ∈ a.subnets, IsSubnet P s
  urls : ∀ u ∈ a.urls, IsUrl P u

/-- The invariant of the parser's loop. -/
structure ParseInv (s : ParseState (Acl P)) : Prop where
  sink : s.sink.WellFormed
  bypassSubnets : ∀ n ∈ s.bypassSubnets, IsSubnet P n
  proxySubnets : ∀ n ∈ s.proxySubnets, IsSubnet P n

theorem wellFormed_new : (Acl.new P).WellFormed := by
  constructor <;> intro x hx <;> exact absurd hx (SortedList.not_mem_empty x)

theorem isSubnet_of_fromString {t : Text} {s : Subnet}
    (h : Subnet.fromString P.toNumericAddresses t = some s) : IsSubnet P s :=
  ⟨_, ((Subnet.fromString_eq_some_iff _).mp h).1⟩

/-- A URL an import directive matched has no line terminator. -/
theorem importUrl_dot {block spec : Text} (h : importUrl block = some spec) :
    ∀ c ∈ spec, isRegexDot c = true := by
  rw [importUrl] at h
  split at h
  · contradiction
  · split at h
    · simp only [Option.ite_none_right_eq_some, Option.some_inj] at h
      obtain ⟨⟨-, -, hall⟩, rfl⟩ := h
      exact List.all_eq_true.mp hall
    · contradiction

/-- One round of the loop, with the callbacks that fill a list. -/
theorem parseLine_sinks (s : ParseState (Acl P)) (line : Text) :
    parseLine P sinks s line =
      (parseImport P addUrl s ((Text.splitFirst '#' line).2.getD [])).bind fun s =>
        parseInput P sinks s (trim (Text.splitFirst '#' line).1) := rfl

theorem parseImport_inv {s s' : ParseState (Acl P)} {block : Text} (hs : ParseInv s)
    (h : parseImport P addUrl s block = .ok s') : ParseInv s' := by
  rw [parseImport] at h
  split at h
  · cases h
    exact hs
  · next spec hspec =>
    split at h
    · next url hurl =>
      cases h
      refine ⟨⟨hs.sink.bypassHostnames, hs.sink.proxyHostnames, hs.sink.subnets, fun u hu => ?_⟩,
        hs.bypassSubnets, hs.proxySubnets⟩
      rcases SortedList.mem_add.mp hu with rfl | ⟨hu, -⟩
      · exact ⟨P.URL_toString hurl, P.toString_ne_nil hurl,
          P.toString_dot hurl (importUrl_dot hspec)⟩
      · exact hs.sink.urls u hu
    · contradiction

theorem parseHeader_inv {s s' : ParseState (Acl P)} {input : Text} (hs : ParseInv s)
    (h : parseHeader s input = some s') : ParseInv s' := by
  have hframe : s'.sink = s.sink ∧ s'.bypassSubnets = s.bypassSubnets ∧
      s'.proxySubnets = s.proxySubnets := by
    unfold parseHeader at h
    split_ifs at h <;> cases h <;> exact ⟨rfl, rfl, rfl⟩
  obtain ⟨hsink, hbypass, hproxy⟩ := hframe
  exact ⟨hsink ▸ hs.sink, hbypass ▸ hs.bypassSubnets, hproxy ▸ hs.proxySubnets⟩

theorem parseRule_inv {s : ParseState (Acl P)} {input : Text} (hs : ParseInv s)
    (hhost : Subnet.fromString P.toNumericAddresses input = none → IsHost P input) :
    ParseInv (parseRule P sinks s input) := by
  have hadd : ∀ {l : SortedList stringSorter}, (∀ h ∈ l, IsHost P h) → IsHost P input →
      ∀ h ∈ l.add input, IsHost P h := by
    intro l hl hinput h hh
    rcases SortedList.mem_add.mp hh with rfl | ⟨hh, -⟩
    · exact hinput
    · exact hl h hh
  have happend : ∀ {l : List Subnet} {n : Subnet}, (∀ m ∈ l, IsSubnet P m) → IsSubnet P n →
      ∀ m ∈ l ++ [n], IsSubnet P m := by
    intro l n hl hn m hm
    rcases List.mem_append.mp hm with hm | hm
    · exact hl m hm
    · exact (List.mem_singleton.mp hm) ▸ hn
  unfold parseRule
  split
  · exact hs
  · next hnone =>
    exact ⟨⟨hadd hs.sink.bypassHostnames (hhost hnone), hs.sink.proxyHostnames, hs.sink.subnets,
      hs.sink.urls⟩, hs.bypassSubnets, hs.proxySubnets⟩
  · next hsome =>
    exact ⟨hs.sink, happend hs.bypassSubnets (isSubnet_of_fromString hsome), hs.proxySubnets⟩
  · next hnone =>
    exact ⟨⟨hs.sink.bypassHostnames, hadd hs.sink.proxyHostnames (hhost hnone), hs.sink.subnets,
      hs.sink.urls⟩, hs.bypassSubnets, hs.proxySubnets⟩
  · next hsome =>
    exact ⟨hs.sink, hs.bypassSubnets, happend hs.proxySubnets (isSubnet_of_fromString hsome)⟩

/-- One line keeps the invariant. -/
theorem parseLine_inv {s s' : ParseState (Acl P)} {line : Text} (hline : Text.IsLine line)
    (hs : ParseInv s) (h : parseLine P sinks s line = .ok s') : ParseInv s' := by
  have hblock : (Text.splitFirst '#' line).1 ⊆ line := Text.splitFirst_fst_subset _ _
  have htrim : trim (Text.splitFirst '#' line).1 ⊆ (Text.splitFirst '#' line).1 :=
    Text.trimBy_subset _ _
  obtain ⟨s₁, himport, hinput⟩ : ∃ s₁,
      parseImport P addUrl s ((Text.splitFirst '#' line).2.getD []) = .ok s₁ ∧
      parseInput P sinks s₁ (trim (Text.splitFirst '#' line).1) = .ok s' := by
    rw [parseLine_sinks] at h
    cases himport : parseImport P addUrl s ((Text.splitFirst '#' line).2.getD []) with
    | error e =>
      rw [himport] at h
      cases h
    | ok s₁ =>
      rw [himport] at h
      exact ⟨s₁, rfl, h⟩
  have hs₁ := parseImport_inv hs himport
  rw [parseInput] at hinput
  split at hinput
  · split at hinput
    · next hheader =>
      cases hinput
      exact parseHeader_inv hs₁ hheader
    · contradiction
  · next hnot =>
    split at hinput
    · cases hinput
      exact hs₁
    · next hne =>
      cases hinput
      -- what is left of the line is trimmed and has no comment sign
      exact parseRule_inv hs₁ fun hnone =>
        ⟨hne, hnot, Text.trimBy_trimBy _ _, fun hc => Text.not_mem_splitFirst_fst _ _ (htrim hc),
          fun c hc => hline c (hblock (htrim hc)), hnone⟩

/-- A run over lines keeps the invariant. -/
theorem run_inv {ls : List Text} {s s' : ParseState (Acl P)} (hls : ∀ l ∈ ls, Text.IsLine l)
    (hs : ParseInv s) (h : ls.foldlM (parseLine P sinks) s = .ok s') : ParseInv s' := by
  induction ls generalizing s with
  | nil =>
    cases h
    exact hs
  | cons l ls ih =>
    rw [List.foldlM_cons] at h
    cases hl : parseLine P sinks s l with
    | error e =>
      rw [hl] at h
      cases h
    | ok s₁ =>
      rw [hl] at h
      exact ih (fun m hm => hls m (by simp [hm])) (parseLine_inv (hls l (by simp)) hs hl) h

/-- Reading a text succeeds exactly when the loop does. -/
theorem fromReader_eq_ok_iff {t : Text} {d : Bool} {a : Acl P} :
    fromReader P t d = .ok a ↔ ∃ s,
      (Text.lines t).foldlM (parseLine P sinks) (startParse d (Acl.new P)) = .ok s ∧
      a = { s.sink with
        bypass := s.bypass
        subnets := s.sink.subnets.addAll
          (if s.bypass then s.proxySubnets else s.bypassSubnets) } := by
  rw [fromReader, parse]
  cases (Text.lines t).foldlM (parseLine P sinks) (startParse d (Acl.new P)) with
  | error e => simp [Except.map]
  | ok s =>
    simp only [Except.map, Except.ok.injEq, exists_eq_left']
    exact eq_comm

/-- Every entry of a list that was read is well formed. -/
theorem wellFormed_of_fromReader {t : Text} {d : Bool} {a : Acl P}
    (h : fromReader P t d = .ok a) : a.WellFormed := by
  obtain ⟨s, hrun, rfl⟩ := fromReader_eq_ok_iff.mp h
  have hstart : ParseInv (startParse d (Acl.new P)) :=
    ⟨wellFormed_new, by simp [startParse], by simp [startParse]⟩
  have hs := run_inv (fun l => Text.isLine_of_mem_lines) hstart hrun
  refine ⟨hs.sink.bypassHostnames, hs.sink.proxyHostnames, fun n hn => ?_, hs.sink.urls⟩
  rcases (SortedList.mem_addAll Subnet.exact_sorter).mp hn with hn | hn
  · split at hn
    · exact hs.proxySubnets n hn
    · exact hs.bypassSubnets n hn
  · exact hs.sink.subnets n hn

/-! ## The lines of a print -/

/-- A header and its entries, as lines. -/
def blockLines (header : Text) (entries : List Text) : List Text :=
  if entries = [] then [] else header :: entries

/-- The import directive of a URL. -/
def importLine (u : Text) : Text := "#IMPORT_URL <".toList ++ u ++ ['>']

/-- The lines of the print. -/
def printedLines (a : Acl P) : List Text :=
  (if a.bypass then "[bypass_all]".toList else "[proxy_all]".toList) ::
    (blockLines "[bypass_list]".toList a.bypassList ++
      blockLines "[proxy_list]".toList a.proxyList ++ a.urls.items.map importLine)

theorem intercalate_newline {entries : List Text} (h : entries ≠ []) :
    ['\n'].intercalate entries ++ ['\n'] = Text.unlines entries := by
  induction entries with
  | nil => contradiction
  | cons e es ih =>
    cases es with
    | nil => simp
    | cons e' es =>
      rw [List.intercalate_cons_cons, List.append_assoc, List.append_assoc, ih (by simp)]
      simp

theorem block_eq_unlines (header : Text) (entries : List Text) :
    block (header ++ ['\n']) entries = Text.unlines (blockLines header entries) := by
  by_cases h : entries = []
  · simp [block, blockLines, h]
  · simp only [block, blockLines, h, ↓reduceIte, List.append_assoc, intercalate_newline h,
      Text.unlines_cons, List.cons_append, List.nil_append]

/-- The print consists of its lines. -/
theorem toString_eq (a : Acl P) : a.toString = Text.unlines a.printedLines := by
  have hurls : (a.urls.items.flatMap fun u => "#IMPORT_URL <".toList ++ u ++ ">\n".toList) =
      Text.unlines (a.urls.items.map importLine) := by
    unfold Text.unlines importLine
    simp [List.flatMap_map]
  have hbypass := block_eq_unlines "[bypass_list]".toList a.bypassList
  have hproxy := block_eq_unlines "[proxy_list]".toList a.proxyList
  unfold toString printedLines
  rw [hurls, Text.unlines_cons, Text.unlines_append, Text.unlines_append, ← hbypass, ← hproxy]
  cases a.bypass <;> simp

theorem isLine_of_isAddressChar {l : Text} (h : ∀ c ∈ l, isAddressChar c = true ∨ c = '/') :
    Text.IsLine l := by
  intro c hc
  by_contra hterm
  simp only [Text.isTerminator, Bool.not_eq_false, Bool.or_eq_true, decide_eq_true_eq] at hterm
  rcases hterm with rfl | rfl <;> exact absurd (h _ hc) (by decide)

theorem isLine_of_dot {u : Text} (h : ∀ c ∈ u, isRegexDot c = true) : Text.IsLine u := by
  intro c hc
  by_contra hterm
  simp only [Text.isTerminator, Bool.not_eq_false, Bool.or_eq_true, decide_eq_true_eq] at hterm
  rcases hterm with rfl | rfl <;> exact absurd (h _ hc) (by decide)

theorem isLine_subnet (n : Subnet) : Text.IsLine (n.toString P.toNumericAddresses) :=
  isLine_of_isAddressChar fun _ => Subnet.char_of_mem_toString _

theorem isLine_importLine {u : Text} (h : IsUrl P u) : Text.IsLine (importLine u) := by
  unfold importLine
  rw [Text.isLine_append, Text.isLine_append]
  exact ⟨⟨by decide, isLine_of_dot h.dot⟩, by decide⟩

theorem mem_blockLines {header l : Text} {entries : List Text}
    (h : l ∈ blockLines header entries) : l = header ∨ l ∈ entries := by
  unfold blockLines at h
  split at h
  · simp at h
  · exact List.mem_cons.mp h

/-- The entries of a block are subnets or host names. -/
theorem mem_list_cases {a : Acl P} {l : Text} (h : l ∈ a.bypassList ∨ l ∈ a.proxyList) :
    (∃ n ∈ a.subnets, l = Subnet.toString P.toNumericAddresses n) ∨
      l ∈ a.bypassHostnames ∨ l ∈ a.proxyHostnames := by
  simp only [SortedList.mem_def]
  unfold bypassList proxyList at h
  cases hbypass : a.bypass <;> simp only [hbypass, Bool.false_eq_true, ↓reduceIte,
    List.mem_append, List.mem_map] at h <;> grind

theorem isLine_of_mem_printedLines {a : Acl P} (ha : a.WellFormed) {l : Text}
    (h : l ∈ a.printedLines) : Text.IsLine l := by
  have hentry : ∀ l, l ∈ a.bypassList ∨ l ∈ a.proxyList → Text.IsLine l := by
    intro l hl
    rcases mem_list_cases hl with ⟨n, -, rfl⟩ | hhost | hhost
    · exact isLine_subnet n
    · exact (ha.bypassHostnames l hhost).isLine
    · exact (ha.proxyHostnames l hhost).isLine
  simp only [printedLines, List.mem_cons, List.mem_append, List.mem_map] at h
  rcases h with rfl | (h | h) | ⟨u, hu, rfl⟩
  · split <;> decide
  · rcases mem_blockLines h with rfl | h
    · decide
    · exact hentry l (Or.inl h)
  · rcases mem_blockLines h with rfl | h
    · decide
    · exact hentry l (Or.inr h)
  · exact isLine_importLine (ha.urls u hu)

/-! ## Reading the lines of a print -/

/-- The state after the rules `subnets` and `hosts` went to the list `l`. -/
def store (l : RuleList) (subnets : List Subnet) (hosts : List Text) (s : ParseState (Acl P)) :
    ParseState (Acl P) :=
  match l with
  | .outboundBlock => s
  | .bypass =>
    { s with
      bypassSubnets := s.bypassSubnets ++ subnets
      sink := { s.sink with bypassHostnames := s.sink.bypassHostnames.addAll hosts } }
  | .proxy =>
    { s with
      proxySubnets := s.proxySubnets ++ subnets
      sink := { s.sink with proxyHostnames := s.sink.proxyHostnames.addAll hosts } }

@[simp]
theorem store_current (l : RuleList) (ns : List Subnet) (hs : List Text)
    (s : ParseState (Acl P)) : (store l ns hs s).current = s.current := by
  cases l <;> rfl

theorem store_nil (l : RuleList) (s : ParseState (Acl P)) : store l [] [] s = s := by
  cases l <;> simp [store]

theorem store_store (l : RuleList) (ns ms : List Subnet) (hs gs : List Text)
    (s : ParseState (Acl P)) :
    store l ms gs (store l ns hs s) = store l (ns ++ ms) (hs ++ gs) s := by
  cases l <;> simp [store, SortedList.addAll]

/-- A trimmed line without a comment goes to `parseInput` as it is. -/
theorem parseLine_of_no_comment {l : Text} (hcomment : '#' ∉ l) (htrim : trim l = l)
    (s : ParseState (Acl P)) : parseLine P sinks s l = parseInput P sinks s l := by
  rw [parseLine_sinks, Text.splitFirst_of_not_mem hcomment, htrim]
  rfl

/-- A line of address characters is trimmed and holds no comment. -/
theorem parseLine_subnet {n : Subnet} (hn : IsSubnet P n) (s : ParseState (Acl P)) :
    parseLine P sinks s (n.toString P.toNumericAddresses) = .ok (store s.current [n] [] s) := by
  have hchar : ∀ c ∈ n.toString P.toNumericAddresses, isAddressChar c = true ∨ c = '/' :=
    fun _ => Subnet.char_of_mem_toString _
  have hcomment : '#' ∉ n.toString P.toNumericAddresses := fun hc =>
    absurd (hchar _ hc) (by decide)
  have htrim : trim (n.toString P.toNumericAddresses) = n.toString P.toNumericAddresses :=
    Text.trimBy_of_forall_not fun c hc => by
      rcases hchar c hc with h | rfl
      · exact isWhitespace_of_isAddressChar h
      · decide
  have hhead : (n.toString P.toNumericAddresses).head? ≠ some '[' := fun h =>
    absurd (hchar _ (List.mem_of_mem_head? h)) (by decide)
  obtain ⟨t, ht⟩ := hn
  rw [parseLine_of_no_comment hcomment htrim, parseInput, if_neg hhead,
    if_neg (Subnet.toString_ne_nil _ _), parseRule, Subnet.fromString_toString _ ht]
  cases hl : s.current <;> simp [store, hl]

theorem parseLine_host {h : Text} (hh : IsHost P h) (s : ParseState (Acl P)) :
    parseLine P sinks s h = .ok (store s.current [] [h] s) := by
  rw [parseLine_of_no_comment hh.no_comment hh.trim_eq, parseInput, if_neg hh.not_header,
    if_neg hh.ne_nil, parseRule, hh.not_subnet]
  cases hl : s.current <;> simp [store, sinks, hl]

/-- Reading printed rules stores them in the present list. -/
theorem run_rules {ns : List Subnet} {hs : List Text} (hns : ∀ n ∈ ns, IsSubnet P n)
    (hhs : ∀ h ∈ hs, IsHost P h) (s : ParseState (Acl P)) :
    (ns.map (Subnet.toString P.toNumericAddresses) ++ hs).foldlM (parseLine P sinks) s =
      .ok (store s.current ns hs s) := by
  induction ns generalizing s with
  | nil =>
    rw [List.map_nil, List.nil_append]
    induction hs generalizing s with
    | nil => rw [store_nil]; rfl
    | cons h hs ih =>
      rw [List.foldlM_cons, parseLine_host (hhs h (by simp))]
      change List.foldlM _ (store s.current [] [h] s) hs = _
      rw [ih (fun g hg => hhs g (by simp [hg])), store_current, store_store]
      simp
  | cons n ns ih =>
    rw [List.map_cons, List.cons_append, List.foldlM_cons, parseLine_subnet (hns n (by simp))]
    change List.foldlM _ (store s.current [n] [] s) _ = _
    rw [ih (fun m hm => hns m (by simp [hm])), store_current, store_store]
    simp

/-- A printed directive is read as its URL. -/
theorem importUrl_importLine {u : Text} (hne : u ≠ []) (hdot : ∀ c ∈ u, isRegexDot c = true) :
    importUrl ("IMPORT_URL <".toList ++ u ++ ['>']) = some u := by
  have hpre : "IMPORT_URL".toList.isPrefixOf? ("IMPORT_URL <".toList ++ u ++ ['>']) =
      some (' ' :: '<' :: (u ++ ['>'])) := by
    simp [List.isPrefixOf?]
  have hspace : (' ' :: '<' :: (u ++ ['>'])).dropWhile isRegexSpace = '<' :: (u ++ ['>']) := by
    rw [List.dropWhile_cons_of_pos (by decide), List.dropWhile_cons_of_neg (by decide)]
  have hlast : (u ++ ['>']).rdropWhile isRegexSpace = u ++ ['>'] :=
    List.rdropWhile_concat_neg _ _ _ (by decide)
  have hall : u.all isRegexDot = true := List.all_eq_true.mpr hdot
  simp only [importUrl, hpre, hspace, hlast]
  simp [hne, hall]

theorem parseLine_importLine {u : Text} (hu : IsUrl P u) (s : ParseState (Acl P)) :
    parseLine P sinks s (importLine u) =
      .ok { s with sink := addUrl u s.sink } := by
  have hsplit : Text.splitFirst '#' (importLine u) =
      ([], some ("IMPORT_URL <".toList ++ u ++ ['>'])) := by
    unfold importLine
    simp
  have himport : parseImport P addUrl s ("IMPORT_URL <".toList ++ u ++ ['>']) =
      .ok { s with sink := addUrl u s.sink } := by
    rw [parseImport, importUrl_importLine hu.ne_nil hu.dot]
    simp only [hu.URL_eq]
  rw [parseLine_sinks, hsplit, Option.getD_some, himport]
  rfl

theorem run_imports {us : List Text} (hus : ∀ u ∈ us, IsUrl P u) (s : ParseState (Acl P)) :
    (us.map importLine).foldlM (parseLine P sinks) s =
      .ok { s with sink := { s.sink with urls := s.sink.urls.addAll us } } := by
  induction us generalizing s with
  | nil => rfl
  | cons u us ih =>
    rw [List.map_cons, List.foldlM_cons, parseLine_importLine (hus u (by simp))]
    exact ih (fun v hv => hus v (by simp [hv])) _

/-- Reading a printed block stores its rules in the list of the header. -/
theorem run_block (header : Text) (l : RuleList)
    (hheader : ∀ s : ParseState (Acl P),
      parseLine P sinks s header = .ok { s with current := l })
    {ns : List Subnet} {hs : List Text} (hns : ∀ n ∈ ns, IsSubnet P n)
    (hhs : ∀ h ∈ hs, IsHost P h) (s : ParseState (Acl P)) :
    ∃ c, (blockLines header (ns.map (Subnet.toString P.toNumericAddresses) ++ hs)).foldlM
      (parseLine P sinks) s = .ok (store l ns hs { s with current := c }) := by
  by_cases hnil : ns.map (Subnet.toString P.toNumericAddresses) ++ hs = []
  · obtain ⟨hns, rfl⟩ := List.append_eq_nil_iff.mp hnil
    obtain rfl := List.map_eq_nil_iff.mp hns
    exact ⟨s.current, by rw [store_nil]; rfl⟩
  · refine ⟨l, ?_⟩
    rw [blockLines, if_neg hnil, List.foldlM_cons, hheader]
    exact run_rules hns hhs _

/-- The subnets that stand in the bypass list of the print. -/
theorem bypassList_eq (a : Acl P) :
    a.bypassList = (if a.bypass then [] else a.subnets.items).map
      (Subnet.toString P.toNumericAddresses) ++ a.bypassHostnames.items := by
  cases h : a.bypass <;> simp [bypassList, h]

/-- The subnets that stand in the proxy list of the print. -/
theorem proxyList_eq (a : Acl P) :
    a.proxyList = (if a.bypass then a.subnets.items else []).map
      (Subnet.toString P.toNumericAddresses) ++ a.proxyHostnames.items := by
  cases h : a.bypass <;> simp [proxyList, h]

/-- Reading the print from a fresh state fills a fresh list with the entries of the old one. -/
theorem run_printedLines {a : Acl P} (ha : a.WellFormed) (d : Bool) :
    ∃ c, a.printedLines.foldlM (parseLine P sinks) (startParse d (Acl.new P)) =
      .ok {
        bypass := a.bypass
        bypassSubnets := if a.bypass then [] else a.subnets.items
        proxySubnets := if a.bypass then a.subnets.items else []
        current := c
        sink := {
          bypassHostnames := SortedList.empty.addAll a.bypassHostnames.items
          proxyHostnames := SortedList.empty.addAll a.proxyHostnames.items
          subnets := .empty
          urls := SortedList.empty.addAll a.urls.items
          bypass := false } } := by
  have hmode : parseLine P sinks (startParse d (Acl.new P))
      (if a.bypass then "[bypass_all]".toList else "[proxy_all]".toList) =
      .ok { startParse d (Acl.new P) with bypass := a.bypass } := by
    cases a.bypass <;> rfl
  have hsub : ∀ n ∈ (if a.bypass then [] else a.subnets.items), IsSubnet P n := by
    intro n hn
    split at hn
    · simp at hn
    · exact ha.subnets n hn
  have hsub' : ∀ n ∈ (if a.bypass then a.subnets.items else []), IsSubnet P n := by
    intro n hn
    split at hn
    · exact ha.subnets n hn
    · simp at hn
  -- the mode header, the two blocks and the directives, each from the state the last one left
  obtain ⟨c₁, hbypass⟩ := run_block "[bypass_list]".toList .bypass
    (fun s => rfl) hsub ha.bypassHostnames
    { startParse d (Acl.new P) with bypass := a.bypass }
  obtain ⟨c₂, hproxy⟩ := run_block "[proxy_list]".toList .proxy
    (fun s => rfl) hsub' ha.proxyHostnames
    (store .bypass (if a.bypass then [] else a.subnets.items) a.bypassHostnames.items
      { startParse d (Acl.new P) with bypass := a.bypass, current := c₁ })
  refine ⟨c₂, ?_⟩
  unfold printedLines
  rw [List.foldlM_cons, hmode, bypassList_eq, proxyList_eq]
  change List.foldlM _ { startParse d (Acl.new P) with bypass := a.bypass } _ = _
  rw [List.foldlM_append, List.foldlM_append, hbypass]
  change (List.foldlM _ (store _ _ _ _) _ >>= _) = _
  rw [hproxy]
  change List.foldlM _ (store _ _ _ _) _ = _
  rw [run_imports ha.urls]
  rfl

/-- The two lists have the same mode and the same entries. -/
structure SameEntries (a b : Acl P) : Prop where
  bypass : a.bypass = b.bypass
  bypassHostnames : ∀ h, h ∈ a.bypassHostnames ↔ h ∈ b.bypassHostnames
  proxyHostnames : ∀ h, h ∈ a.proxyHostnames ↔ h ∈ b.proxyHostnames
  subnets : ∀ n, n ∈ a.subnets ↔ n ∈ b.subnets
  urls : ∀ u, u ∈ a.urls ↔ u ∈ b.urls

/-- What was read from a text is read again from its print, whatever the two default modes. -/
theorem fromReader_toString (t : Text) (d d' : Bool) (a : Acl P) (h : fromReader P t d = .ok a) :
    ∃ b, fromReader P a.toString d' = .ok b ∧ b.SameEntries a := by
  have ha := wellFormed_of_fromReader h
  obtain ⟨c, hrun⟩ := run_printedLines ha d'
  have hlines : Text.lines a.toString = a.printedLines := by
    rw [toString_eq, Text.lines_unlines fun l => isLine_of_mem_printedLines ha]
  refine ⟨_, fromReader_eq_ok_iff.mpr ⟨_, by rw [hlines, hrun], rfl⟩, rfl, fun h => ?_,
    fun h => ?_, fun n => ?_, fun u => ?_⟩
  · exact SortedList.mem_addAll_items _
  · exact SortedList.mem_addAll_items _
  · have hsubnets : (if a.bypass then (if a.bypass then a.subnets.items else [])
        else (if a.bypass then [] else a.subnets.items)) = a.subnets.items := by
      cases a.bypass <;> rfl
    simp only [hsubnets]
    exact SortedList.mem_addAll_items _
  · exact SortedList.mem_addAll_items _

/-! ## A platform to run the code on -/

/-- A byte in decimal. -/
def byteText (b : UInt8) : Text := Nat.toDigits 10 b.toNat

/-- A byte read from its decimal print. -/
def parseByte (t : Text) : Option UInt8 :=
  let b := UInt8.ofNat (Nat.ofDigitChars 10 t 0)
  if byteText b = t then some b else none

theorem parseByte_byteText (b : UInt8) : parseByte (byteText b) = some b := by
  simp [parseByte, byteText]

/-- An IPv4 address in dotted decimal notation. -/
def parseDottedQuad (t : Text) : Option InetAddress :=
  match (t.splitOn '.').mapM parseByte with
  | some bytes => if h : bytes.length = 4 then some ⟨bytes, Or.inl h⟩ else none
  | none => none

/-- The bytes in decimal, separated by dots in an IPv4 address and by colons otherwise. -/
def printAddress (a : InetAddress) : Text :=
  [if a.size = 4 then '.' else ':'].intercalate (a.address.map byteText)

theorem dot_not_mem_byteText (b : UInt8) : '.' ∉ byteText b := fun h =>
  absurd (Nat.isDigit_of_mem_toDigits (by decide) (by decide) h) (by decide)

theorem parseDottedQuad_printAddress {t : Text} {a : InetAddress}
    (h : parseDottedQuad t = some a) : parseDottedQuad (printAddress a) = some a := by
  have hsize : a.address.length = 4 := by
    rw [parseDottedQuad] at h
    split at h
    · split at h
      · next hlen =>
        cases h
        exact hlen
      · contradiction
    · contradiction
  have hne : a.address.map byteText ≠ [] := by
    intro hnil
    simp [List.map_eq_nil_iff.mp hnil] at hsize
  have hdots : ∀ l ∈ a.address.map byteText, '.' ∉ l := by
    intro l hl
    obtain ⟨b, -, rfl⟩ := List.mem_map.mp hl
    exact dot_not_mem_byteText b
  have hbytes : (a.address.map byteText).mapM parseByte = some a.address := by
    generalize a.address = bytes
    induction bytes with
    | nil => rfl
    | cons b bytes ih => simp [parseByte_byteText, ih]
  rw [parseDottedQuad, printAddress, InetAddress.size, if_pos hsize,
    List.splitOn_intercalate _ hdots hne, hbytes]
  simp [hsize]

theorem isAddressChar_of_mem_printAddress (a : InetAddress) :
    ∀ c ∈ printAddress a, isAddressChar c = true := by
  intro c hc
  rcases Text.mem_intercalate hc with rfl | ⟨l, hl, hc⟩
  · split <;> decide
  · obtain ⟨b, -, rfl⟩ := List.mem_map.mp hl
    have hdigit := Nat.isDigit_of_mem_toDigits (by decide) (by decide) hc
    simp [isAddressChar, hdigit]

theorem printAddress_ne_nil (a : InetAddress) : printAddress a ≠ [] := by
  obtain ⟨bytes, hsize⟩ := a
  cases bytes with
  | nil => simp at hsize
  | cons b bytes =>
    have hb : byteText b ≠ [] := Nat.toDigits_ne_nil
    cases bytes with
    | nil => simpa [printAddress] using hb
    | cons b' bytes => simp [printAddress, List.intercalate_cons_cons, hb]

/-- A platform that knows IPv4 addresses and `https` URLs. -/
def samplePlatform : Platform where
  parseNumericAddress := parseDottedQuad
  hostAddress := printAddress
  parse_hostAddress := parseDottedQuad_printAddress
  hostAddress_ne_nil := printAddress_ne_nil
  hostAddress_char := isAddressChar_of_mem_printAddress
  URL spec := if "https://".toList.isPrefixOf spec then some spec else none
  host u := (u.drop 8).takeWhile (· ≠ '/')
  port _ := -1
  file u := (u.drop 8).dropWhile (· ≠ '/')
  protocol _ := "https".toList
  equals u v := decide (u = v)
  equals_equivalence :=
    ⟨fun u => by simp, fun h => by simpa using (of_decide_eq_true h).symm,
      fun h h' => by simpa using (of_decide_eq_true h).trans (of_decide_eq_true h')⟩
  URL_toString := by
    intro spec u h
    obtain ⟨hpre, ⟨⟩⟩ := Option.ite_none_right_eq_some.mp h
    exact h
  toString_ne_nil := by
    intro spec u h
    obtain ⟨hpre, ⟨⟩⟩ := Option.ite_none_right_eq_some.mp h
    rintro rfl
    exact absurd hpre (by decide)
  toString_dot := by
    intro spec u h hdot
    obtain ⟨hpre, ⟨⟩⟩ := Option.ite_none_right_eq_some.mp h
    exact hdot

/-- A text with both lists, a comment, blanks and an import directive. -/
def sampleText : Text :=
  ("[bypass_all]\n||example.com # rule\n[bypass_list]\n10.0.0.0/8\n[proxy_list]\n" ++
    " 192.168.1.1/32\r\n#IMPORT_URL <https://a.org/b>\n").toList

set_option maxRecDepth 4000 in
theorem exists_fromReader_sampleText :
    ∀ d, ∃ a : Acl samplePlatform, fromReader samplePlatform sampleText d = .ok a := by
  have hok : ∀ d, (fromReader samplePlatform sampleText d).isOk = true := by decide
  exact fun d => exists_eq_ok_of_isOk (hok d)

theorem fromReader_toString_sampleText :
    ∃ a b : Acl samplePlatform, fromReader samplePlatform sampleText true = .ok a ∧
      fromReader samplePlatform a.toString false = .ok b ∧ b.SameEntries a := by
  obtain ⟨a, ha⟩ := exists_fromReader_sampleText true
  obtain ⟨b, hb, hsame⟩ := fromReader_toString sampleText true false a ha
  exact ⟨a, b, ha, hb, hsame⟩

end Acl
