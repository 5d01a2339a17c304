import DripVpn.Db.Link
import DripVpn.Plugin.CutOff

/-!
# Printed links that are read again

`Profile.toString` prints a profile as a link and `Profile.findAllUrls` finds the links in a text.
The printer leaves the characters `_-!.~'()*` as they are, and the pattern that finds a link takes
two of them, `!` and `_`, for what follows a link: they are lost at its end.

`links_roundTrip_iff` says when the links of some profiles, one a line, are read as these profiles:
no link ends with one of the two characters, and the text of every selected plugin is read again.
-/

open Reactive Text

namespace Link

open PluginConfiguration (Printable Entry)

/-- The characters that are printed as they are and cannot end a link. -/
def isOpenEnd (c : Char) : Bool := c = '!' || c = '_'

/-- A profile that a link can express. -/
structure Linkable (platform : LinkPlatform) (p : Profile) : Prop where
  host : ServerUri.isPlainHost platform.hostNames p.host.toList = true ∨
    ServerUri.isIPv6Literal p.host.toList = true
  port_pos : 1 ≤ p.remotePort
  port_le : p.remotePort ≤ 65535
  method_ne : p.method ≠ ""
  method_colon : ':' ∉ p.method.toList
  method_dots : isDots p.method.toList = true
  password_dots : isDots p.password.toList = true
  plugin : ∃ c, p.configuration = .ok c

/-- A profile that was read agrees with the one that was printed. -/
structure Agrees (plugins : Text → Option Text) (p q : Profile) : Prop where
  method : q.method = p.method
  password : q.password = p.password
  host : q.host = p.host
  remotePort : q.remotePort = p.remotePort
  name : q.name.getD "" = p.name.getD ""
  plugin : ∃ o, q.selectedOptions plugins = .ok o ∧ o.Equals (p.options plugins)

/-- The links of the profiles, one a line, are read as the profiles, in order. -/
def RoundTrips (platform : LinkPlatform) (hash : HashOrder) (plugins : Text → Option Text)
    (feature : Option Profile) (profiles : List Profile) : Prop :=
  ∃ texts, profiles.mapM (Profile.toText hash plugins) = .ok texts ∧
    List.Forall₂ (Agrees plugins) profiles
      (Profile.findAllUrls platform (['\n'].intercalate texts) feature)

/-- When the link of a profile is read as the profile. -/
structure Survives (hash : HashOrder) (plugins : Text → Option Text) (p : Profile) : Prop where
  name : ∀ c ∈ (p.name.getD "").toList.getLast?, isOpenEnd c = false
  plugin : (p.options plugins).id ≠ [] → Printable (p.options plugins)
  /-- Without a name, the link ends with the plugin. -/
  pluginEnd : (p.options plugins).id ≠ [] → p.name.getD "" = "" →
    ∀ c ∈ ((p.options plugins).toString hash false).getLast?, isOpenEnd c = false

/-! ## The end of a link -/

theorem isLastChar_iff_of_isUnreserved {c : Char} (h : Uri.isUnreserved c = true) :
    isLastChar c = !isOpenEnd c := by
  have hall : ∀ d ∈ "_-!.~'()*".toList, isLastChar d = !isOpenEnd d :=
    forall_mem_of_all (by decide)
  simp only [Uri.isUnreserved, Bool.or_eq_true, List.contains_iff_mem] at h
  rcases h with h | h
  · have hopen : isOpenEnd c = false := by
      by_contra hopen
      rw [Bool.not_eq_false, isOpenEnd, Bool.or_eq_true, decide_eq_true_eq,
        decide_eq_true_eq] at hopen
      rcases hopen with rfl | rfl <;> exact absurd h (by decide)
    simp [isLastChar, h, hopen]
  · exact hall c h

theorem isSpecial_of_isOpenEnd (c : Char) (hc : isOpenEnd c = true) :
    PluginOptions.isSpecial c = false := by
  rw [isOpenEnd, Bool.or_eq_true, decide_eq_true_eq, decide_eq_true_eq] at hc
  rcases hc with rfl | rfl <;> rfl

/-- The last character of what stands for a character. -/
theorem encode_singleton_cases (c : Char) :
    (isOpenEnd c = true ∧ Uri.encode [c] = [c]) ∨
      (isOpenEnd c = false ∧ ∃ t d, Uri.encode [c] = t ++ [d] ∧ isLastChar d = true) := by
  have hencode := Uri.encode_cons c []
  have hnil : Uri.encode [] = [] := rfl
  rw [hnil, List.append_nil] at hencode
  by_cases hc : Uri.isUnreserved c = true
  · rw [if_pos hc] at hencode
    cases hopen : isOpenEnd c with
    | true => exact .inl ⟨rfl, hencode⟩
    | false =>
      refine .inr ⟨rfl, [], c, hencode, ?_⟩
      rw [isLastChar_iff_of_isUnreserved hc, hopen]
      rfl
  · rw [if_neg hc] at hencode
    have hopen : isOpenEnd c = false := by
      by_contra hopen
      rw [Bool.not_eq_false, isOpenEnd, Bool.or_eq_true, decide_eq_true_eq,
        decide_eq_true_eq] at hopen
      rcases hopen with rfl | rfl <;> exact absurd (by decide) hc
    -- an escape ends with a digit
    rcases List.eq_nil_or_concat (String.utf8EncodeChar c) with hbytes | ⟨bytes, b, hbytes⟩
    · have hpos := length_utf8EncodeChar_pos c
      rw [hbytes] at hpos
      cases hpos
    · refine .inr ⟨hopen, bytes.flatMap Uri.escapeByte ++ ['%', Uri.hexDigit (b.toNat / 16)],
        Uri.hexDigit (b.toNat % 16), ?_, ?_⟩
      · rw [hencode, hbytes, List.concat_eq_append, List.flatMap_append]
        simp [Uri.escapeByte]
      · have hall : ∀ n < 16, isLastChar (Uri.hexDigit n) = true := by decide
        exact hall _ (Nat.mod_lt _ (by decide))

/-- The end of an encoded text is cut where the text is. -/
theorem trimEnd_append_encode {pre : Text} (hpre : ∀ c ∈ pre.getLast?, isLastChar c = true)
    (t : Text) : trimEnd (pre ++ Uri.encode t) = pre ++ Uri.encode (trimEndBy isOpenEnd t) := by
  induction t using List.reverseRecOn with
  | nil =>
    have hnil : Uri.encode (trimEndBy isOpenEnd []) = [] := rfl
    have hnil' : Uri.encode [] = [] := rfl
    rw [hnil, hnil', List.append_nil, trimEnd_eq_self hpre]
  | append_singleton t c ih =>
    rw [Uri.encode_append, ← List.append_assoc]
    rcases encode_singleton_cases c with ⟨hopen, hencode⟩ | ⟨hopen, u, d, hencode, hd⟩
    · have hlast : (!isLastChar c) = true := by
        rw [isOpenEnd, Bool.or_eq_true, decide_eq_true_eq, decide_eq_true_eq] at hopen
        rcases hopen with rfl | rfl <;> rfl
      rw [hencode, trimEnd, trimEndBy_concat_of_pos hlast, trimEndBy_concat_of_pos hopen]
      exact ih
    · rw [trimEndBy_concat_of_neg hopen, Uri.encode_append, hencode, ← List.append_assoc, trimEnd,
        trimEndBy_concat_of_neg (by simp [hd]), List.append_assoc, List.append_assoc]

/-! ## The parts of a printed link -/

section Printed

variable (hash : HashOrder) (plugins : Text → Option Text) {platform : LinkPlatform} {p : Profile}
  (h : Linkable platform p)

/-- The name that is read from a link. -/
def readName (p : Profile) : Text := trimEndBy isOpenEnd (p.name.getD "").toList

/-- The text of the plugin that is read from a link. -/
def readPlugin (options : PluginOptions) (p : Profile) : Text :=
  if p.name.getD "" = "" then trimEndBy isOpenEnd (options.toString hash false)
  else options.toString hash false

/-- The query that is found. -/
def readQuery (selected : Text) (options : PluginOptions) (p : Profile) : Option Text :=
  if selected = [] then none
  else some (Uri.encode "plugin".toList ++ '=' :: Uri.encode (readPlugin hash options p))

/-- The fragment that is found. -/
def readFragment (p : Profile) : Option Text :=
  if p.name.getD "" = "" then none else some (Uri.encode (readName p))

theorem getLast?_concat_isLastChar (t : Text) {c : Char} (hc : isLastChar c = true) :
    ∀ d ∈ (t ++ [c]).getLast?, isLastChar d = true := by
  simp [hc]

theorem authority_eq {n : ℕ} (hn : (toString p.remotePort).toList = Nat.toDigits 10 n) :
    authority p = auth p.method.toList p.password.toList ++
      '@' :: hostPort (wrappedHost p.host.toList) n := by
  rw [authority, hn, hostPort]

include h

/-- The port is printed in decimal. -/
theorem Linkable.exists_port : ∃ n : ℕ, p.remotePort = n ∧ n ≤ 65535 ∧
    (toString p.remotePort).toList = Nat.toDigits 10 n := by
  have hpos := h.port_pos
  have hle := h.port_le
  obtain ⟨n, hn⟩ := Int.eq_ofNat_of_zero_le (show 0 ≤ p.remotePort by omega)
  refine ⟨n, hn, by omega, ?_⟩
  rw [hn]
  exact Nat.toList_repr

theorem Linkable.isHostText :
    ServerUri.IsHostText platform.hostNames (wrappedHost p.host.toList) := by
  rcases h.host with hhost | hhost
  · rw [wrappedHost, if_neg]
    · exact .plain hhost
    · intro hmem
      exact absurd (ServerUri.isNameChar_of_isPlainHost _ hhost ':' hmem) (by decide)
  · rw [wrappedHost, if_pos (ServerUri.colon_mem_of_isIPv6Literal hhost)]
    exact .bracketed hhost

theorem Linkable.withoutBrackets_wrappedHost :
    withoutBrackets (wrappedHost p.host.toList) = p.host.toList := by
  rcases h.host with hhost | hhost
  · have hchars := ServerUri.isNameChar_of_isPlainHost _ hhost
    rw [wrappedHost, if_neg fun hmem => absurd (hchars ':' hmem) (by decide), withoutBrackets,
      if_neg]
    rintro ⟨hhead, -⟩
    exact absurd (hchars '[' (List.mem_of_mem_head? hhead)) (by decide)
  · rw [wrappedHost, if_pos (ServerUri.colon_mem_of_isIPv6Literal hhost), withoutBrackets,
      ← List.cons_append, if_pos ⟨rfl, List.getLast?_concat⟩]
    simp

/-- A printed link, up to its last character that may end a link. -/
theorem Linkable.trimEnd_body (selected : Text) (options : PluginOptions) :
    trimEnd (body hash selected options p) =
      Uri.build (authority p) (readQuery hash selected options p) (readFragment p) := by
  obtain ⟨n, -, -, hdigits⟩ := h.exists_port
  by_cases hname : p.name.getD "" = ""
  · by_cases hselected : selected = []
    · -- the link ends with the port
      rw [body, query, if_pos hselected, readQuery, if_pos hselected, encodedName, if_pos hname,
        readFragment, if_pos hname]
      refine trimEnd_eq_self fun c hc => ?_
      rw [Uri.build, Option.elim_none, Option.elim_none, List.append_nil, List.append_nil,
        authority_eq hdigits, hostPort, ← List.singleton_append, ← List.append_assoc,
        ← List.singleton_append (x := ':'), ← List.append_assoc, ← List.append_assoc,
        List.getLast?_append_of_ne_nil _ Nat.toDigits_ne_nil] at hc
      have hdigit := ServerUri.isDigit_of_mem_toDigits (List.mem_of_getLast? hc)
      simp [isLastChar, Char.isAlphanum, hdigit]
    · rw [body, query, if_neg hselected, readQuery, if_neg hselected, encodedName, if_pos hname,
        readFragment, if_pos hname, readPlugin, if_pos hname]
      have hend := trimEnd_append_encode (getLast?_concat_isLastChar
        (authority p ++ ('?' :: Uri.encode "plugin".toList)) (show isLastChar '=' = true from rfl))
        (options.toString hash false)
      simpa [Uri.build] using hend
  · rw [body, encodedName, if_neg hname, readFragment, if_neg hname, readName]
    have hquery : readQuery hash selected options p = query hash selected options := by
      rw [readQuery, query, readPlugin, if_neg hname]
    have hend := trimEnd_append_encode (getLast?_concat_isLastChar
      (authority p ++ (query hash selected options).elim [] ('?' :: ·))
      (show isLastChar '#' = true from rfl)) (p.name.getD "").toList
    rw [hquery]
    simpa [Uri.build] using hend

/-! ## Reading a printed link -/

omit h in
/-- The parameter of the query is decoded. -/
theorem pluginParameter_build {auth text : Text} {fragment : Option Text}
    (hauth : ∀ c ∈ auth, Uri.isDelimiter c = false) :
    pluginParameter platform (Uri.build auth
      (some (Uri.encode "plugin".toList ++ '=' :: Uri.encode text)) fragment) = some text := by
  have hnotMem : ∀ c, c ∈ "&#".toList →
      c ∉ Uri.encode "plugin".toList ++ '=' :: Uri.encode text := by
    have hall : ∀ c ∈ "&#".toList, Uri.isUnreserved c = false ∧ c ≠ '%' ∧ c ≠ '=' :=
      forall_mem_of_all (by decide)
    intro c hc hmem
    obtain ⟨hunreserved, hpercent, hequals⟩ := hall c hc
    rw [List.mem_append, List.mem_cons] at hmem
    rcases hmem with hmem | hmem | hmem
    · exact Uri.notMem_encode hunreserved hpercent _ hmem
    · exact hequals hmem
    · exact Uri.notMem_encode hunreserved hpercent _ hmem
  have hquery := @Uri.encodedQuery_build auth
    (some (Uri.encode "plugin".toList ++ '=' :: Uri.encode text)) fragment hauth
    (by simpa using hnotMem '#' (by decide))
  have hsplit : splitFirst '=' (Uri.encode "plugin".toList ++ '=' :: Uri.encode text) =
      (Uri.encode "plugin".toList, some (Uri.encode text)) :=
    splitFirst_append_cons _ (Uri.notMem_encode (by decide) (by decide) _)
  rw [pluginParameter, Uri.queryParameter, hquery, Option.bind_some,
    List.splitOn_eq_singleton (hnotMem '&' (by decide)), List.findSome?_cons, hsplit, if_pos rfl,
    Option.elim_some, Uri.decode_encode]

/-- The profile that is read from a printed link. -/
def readBack (feature : Option Profile) (selected : Text) (options : PluginOptions) (p : Profile) :
    Profile :=
  { blank feature with
    method := p.method
    password := p.password
    host := p.host
    remotePort := p.remotePort
    plugin := if selected = [] then none else some (String.ofList (readPlugin hash options p))
    name := some (String.ofList (readName p)) }

theorem Linkable.profile_trimEnd_body (feature : Option Profile) (selected : Text)
    (options : PluginOptions) :
    profile platform feature (link (trimEnd (body hash selected options p))) =
      some (readBack hash feature selected options p) := by
  obtain ⟨n, hport, hle, hdigits⟩ := h.exists_port
  have hunreserved : ∀ c, Uri.isUnreserved c = true → ServerUri.isQueryChar c = true :=
    fun c hc => by simp [ServerUri.isQueryChar, hc]
  have hdelimiter := isDelimiter_of_mem_authority h.isHostText n p.method.toList p.password.toList
  have hhash : ∀ q ∈ readQuery hash selected options p, '#' ∉ q := by
    intro q hq
    unfold readQuery at hq
    split at hq
    · cases hq
    · obtain rfl := Option.some.inj hq
      rw [List.mem_append, List.mem_cons]
      rintro (hmem | hmem | hmem)
      · exact Uri.notMem_encode (by decide) (by decide) _ hmem
      · exact absurd hmem (by decide)
      · exact Uri.notMem_encode (by decide) (by decide) _ hmem
  have hquery : ∀ q ∈ readQuery hash selected options p,
      Uri.isLegal ServerUri.isQueryChar q = true := by
    intro q hq
    unfold readQuery at hq
    split at hq
    · cases hq
    · obtain rfl := Option.some.inj hq
      rw [Uri.isLegal_encode_append hunreserved, Uri.isLegal_cons (by decide),
        Uri.isLegal_encode hunreserved]
      rfl
  have hfragment : ∀ f ∈ readFragment p, Uri.isLegal ServerUri.isQueryChar f = true := by
    intro f hf
    unfold readFragment at hf
    split at hf
    · cases hf
    · obtain rfl := Option.some.inj hf
      exact Uri.isLegal_encode hunreserved _
  have hplugin : pluginParameter platform (Uri.build (authority p)
      (readQuery hash selected options p) (readFragment p)) =
        if selected = [] then none else some (readPlugin hash options p) := by
    rw [authority_eq hdigits]
    by_cases hselected : selected = []
    · rw [readQuery, if_pos hselected, if_pos hselected, pluginParameter, Uri.queryParameter,
        Uri.encodedQuery_build hdelimiter (by simp)]
      rfl
    · rw [readQuery, if_neg hselected, if_neg hselected, pluginParameter_build hdelimiter]
  have hname : ((readFragment p).map
      (Uri.decode platform.malformed platform.broken false)).getD [] = readName p := by
    by_cases hempty : p.name.getD "" = ""
    · rw [readFragment, if_pos hempty, readName, hempty]
      rfl
    · rw [readFragment, if_neg hempty, Option.map_some, Option.getD_some, Uri.decode_encode]
  rw [h.trimEnd_body]
  rw [authority_eq hdigits] at hplugin ⊢
  rw [profile_link h.isHostText n _ _ feature (by simpa using h.method_ne) h.method_colon
    h.method_dots h.password_dots hle hhash hquery hfragment, hplugin, hname,
    h.withoutBrackets_wrappedHost, readBack]
  simp only [String.ofList_toList, hport, apply_ite (Option.map String.ofList), Option.map_none,
    Option.map_some]

/-- A printed link can be found. -/
theorem Linkable.isBody_body (selected : Text) (options : PluginOptions) :
    IsBody (body hash selected options p) := by
  obtain ⟨n, -, -, hdigits⟩ := h.exists_port
  have hencode : ∀ t, ∀ c ∈ Uri.encode t, isLinkChar c = true := by
    have hall : ∀ d ∈ "_-!.~'()*".toList, isLinkChar d = true :=
      forall_mem_of_all (by decide)
    intro t c hc
    rcases Uri.mem_encode hc with hunreserved | rfl
    · simp only [Uri.isUnreserved, Bool.or_eq_true, List.contains_iff_mem] at hunreserved
      rcases hunreserved with halphanum | hmem
      · simp [isLinkChar, halphanum]
      · exact hall c hmem
    · rfl
  rw [body, authority_eq hdigits]
  apply isBody_build h.isHostText
  · intro q hq c hc
    unfold query at hq
    split at hq
    · cases hq
    · obtain rfl := Option.some.inj hq
      rw [List.mem_append, List.mem_cons] at hc
      rcases hc with hc | rfl | hc
      · exact hencode _ c hc
      · rfl
      · exact hencode _ c hc
  · intro f hf c hc
    unfold encodedName at hf
    split at hf
    · cases hf
    · obtain rfl := Option.some.inj hf
      exact hencode _ c hc

/-- The text of a profile. -/
theorem Linkable.toText_eq : p.toText hash plugins =
    .ok (link (body hash (p.options plugins).id (p.options plugins) p)) := by
  obtain ⟨c, hc⟩ := h.plugin
  obtain ⟨hoptions, hselected, -⟩ := JsonExport.selectedOptions_eq plugins hc
  rw [Profile.selectedOptions, hc] at hoptions
  have hget : c.getOptions (plugins c.selected) = .ok (p.options plugins) := hoptions
  rw [Profile.toText, hc]
  show (c.getOptions (plugins c.selected)).bind _ = _
  rw [hget, hselected]
  rfl

/-! ## When the profile is read again -/

/-- The options of the selected plugin come from a line of the column. -/
theorem Linkable.entry (hid : (p.options plugins).id ≠ []) :
    Entry (p.options plugins).id (p.options plugins) := by
  obtain ⟨c, hc⟩ := h.plugin
  obtain ⟨hoptions, hselected, -⟩ := JsonExport.selectedOptions_eq plugins hc
  rw [hselected] at hid ⊢
  obtain ⟨o, ho⟩ := (LinkedMap.containsKey_iff _ _).mp
    ((PluginConfiguration.containsKey_selected hc).mpr hid)
  have hget := LinkedMap.get?_eq_some_iff.mpr ho
  have heq : p.options plugins = o := by
    rw [Profile.selectedOptions, hc] at hoptions
    have hget' : c.getOptions (plugins c.selected) = .ok (p.options plugins) := hoptions
    rw [PluginConfiguration.getOptions, if_neg hid, hget] at hget'
    exact (Except.ok.inj hget').symm
  rw [heq]
  exact PluginConfiguration.entry_ofText hc ho

/-- The selected options that are read. -/
theorem Linkable.options_iff (feature : Option Profile) :
    (∃ o, (readBack hash feature (p.options plugins).id (p.options plugins) p).selectedOptions
        plugins = .ok o ∧ o.Equals (p.options plugins)) ↔
      ((p.options plugins).id ≠ [] → Printable (p.options plugins)) ∧
        ((p.options plugins).id ≠ [] → p.name.getD "" = "" →
          ∀ c ∈ ((p.options plugins).toString hash false).getLast?, isOpenEnd c = false) := by
  by_cases hid : (p.options plugins).id = []
  · -- no plugin is selected
    obtain ⟨c, hc⟩ := h.plugin
    have hoptions := JsonExport.options_of_id_eq_nil plugins hc hid
    have hread : (readBack hash feature (p.options plugins).id (p.options plugins) p).selectedOptions
        plugins = .ok {} := by
      rw [Profile.selectedOptions, Profile.configuration, readBack, if_pos hid]
      rfl
    rw [hread, hoptions]
    constructor
    · intro _
      exact ⟨fun hne => absurd rfl hne, fun hne => absurd rfl hne⟩
    · intro _
      exact ⟨{}, rfl, rfl, fun _ => rfl⟩
  · have hcolumn : (readBack hash feature (p.options plugins).id (p.options plugins)
        p).selectedOptions plugins =
          PluginConfiguration.selectedBy plugins (readPlugin hash (p.options plugins) p) := by
      rw [Profile.selectedOptions, Profile.configuration, readBack, if_neg hid, Option.getD_some,
        String.toList_ofList]
      rfl
    rw [hcolumn]
    by_cases hname : p.name.getD "" = ""
    · rw [readPlugin, if_pos hname, PluginConfiguration.sameOptions_iff hash isSpecial_of_isOpenEnd
        plugins (h.entry plugins hid), trimEndBy_eq_self_iff]
      simp [hid, hname]
    · -- nothing is cut off from the plugin
      have hnone : trimEndBy (fun _ => false) ((p.options plugins).toString hash false) =
          (p.options plugins).toString hash false := trimEndBy_eq_self_iff.mpr fun _ _ => rfl
      have hsame := PluginConfiguration.sameOptions_iff hash
        (fun _ (hfalse : false = true) => by cases hfalse) plugins (h.entry plugins hid)
      rw [hnone] at hsame
      rw [readPlugin, if_neg hname, hsame]
      simp [hid, hname]

/-- What is read agrees with the profile exactly if the link is not cut and the plugin survives. -/
theorem Linkable.agrees_readBack_iff (feature : Option Profile) :
    Agrees plugins p (readBack hash feature (p.options plugins).id (p.options plugins) p) ↔
      Survives hash plugins p := by
  have hname : (some (String.ofList (readName p))).getD "" = p.name.getD "" ↔
      ∀ c ∈ (p.name.getD "").toList.getLast?, isOpenEnd c = false := by
    rw [← trimEndBy_eq_self_iff, Option.getD_some, readName]
    constructor
    · intro heq
      have hlist := congrArg String.toList heq
      rwa [String.toList_ofList] at hlist
    · intro heq
      rw [heq, String.ofList_toList]
  constructor
  · intro hagrees
    obtain ⟨hplugin, hpluginEnd⟩ := (h.options_iff hash plugins feature).mp hagrees.plugin
    exact ⟨hname.mp hagrees.name, hplugin, hpluginEnd⟩
  · intro hsurvives
    refine ⟨rfl, rfl, rfl, rfl, hname.mpr hsurvives.name, ?_⟩
    exact (h.options_iff hash plugins feature).mpr ⟨hsurvives.plugin, hsurvives.pluginEnd⟩

end Printed

/-! ## Lists of profiles -/

section Lists

variable (hash : HashOrder) (plugins : Text → Option Text) (feature : Option Profile)
  {platform : LinkPlatform} {profiles : List Profile} (h : ∀ p ∈ profiles, Linkable platform p)

include h

theorem mapM_toText : profiles.mapM (Profile.toText hash plugins) =
    .ok (profiles.map fun p => link (body hash (p.options plugins).id (p.options plugins) p)) :=
  mapM_eq_ok_map fun p hp => (h p hp).toText_eq hash plugins

/-- The profiles that are read from the links of the profiles. -/
theorem findAllUrls_links :
    Profile.findAllUrls platform (['\n'].intercalate (profiles.map fun p =>
        link (body hash (p.options plugins).id (p.options plugins) p))) feature =
      profiles.map fun p => readBack hash feature (p.options plugins).id (p.options plugins) p := by
  have hbodies : ∀ t ∈ profiles.map fun p => body hash (p.options plugins).id (p.options plugins) p,
      IsBody t := by
    intro t ht
    obtain ⟨p, hp, rfl⟩ := List.mem_map.mp ht
    exact (h p hp).isBody_body hash _ _
  have hfound := findAll_links hbodies
  simp only [List.map_map, Function.comp_def] at hfound
  have hprofiles : ∀ p ∈ profiles, profile platform feature (link (trimEnd
      (body hash (p.options plugins).id (p.options plugins) p))) =
        some (readBack hash feature (p.options plugins).id (p.options plugins) p) :=
    fun p hp => (h p hp).profile_trimEnd_body hash feature _ _
  rw [Profile.findAllUrls, hfound, filterMap_map_of_forall hprofiles]

theorem roundTrips_iff_agrees :
    RoundTrips platform hash plugins feature profiles ↔ ∀ p ∈ profiles,
      Agrees plugins p (readBack hash feature (p.options plugins).id (p.options plugins) p) := by
  rw [RoundTrips, mapM_toText hash plugins h]
  simp only [Except.ok.injEq, exists_eq_left', findAllUrls_links hash plugins feature h]
  rw [List.forall₂_map_right_iff, List.forall₂_same]

/-- **Round trip.** The links of profiles, one a line, are read as these profiles exactly if every
profile survives. -/
theorem links_roundTrip_iff :
    RoundTrips platform hash plugins feature profiles ↔ ∀ p ∈ profiles, Survives hash plugins p := by
  rw [roundTrips_iff_agrees hash plugins feature h]
  exact forall₂_congr fun p hp => (h p hp).agrees_readBack_iff hash plugins feature

end Lists

/-- A server with a plugin and an address in brackets. -/
def brackets : Profile :=
  { name := none, host := "2001:db8::1%eth0", remotePort := 443, password := "p:w@",
    method := "aes-256-gcm", plugin := some "v2ray;tls;host=a.b" }

/-- A server with a name that is escaped in part. -/
def named : Profile :=
  { name := some "Zürich_1", host := "192.168.100.1", remotePort := 8888, password := "test",
    method := "bf-cfb" }

theorem linkable_brackets : Linkable asciiPlatform brackets where
  host := .inr (by decide)
  port_pos := by decide
  port_le := by decide
  method_ne := by decide
  method_colon := by decide
  method_dots := by decide
  password_dots := by decide
  plugin := ⟨_, rfl⟩

theorem linkable_named : Linkable asciiPlatform named where
  host := .inl (by decide)
  port_pos := by decide
  port_le := by decide
  method_ne := by decide
  method_colon := by decide
  method_dots := by decide
  password_dots := by decide
  plugin := ⟨_, rfl⟩

theorem links_roundTrip_two :
    RoundTrips asciiPlatform .insertion (fun _ => none) none [brackets, named] := by
  have hlinkable : ∀ p ∈ [brackets, named], Linkable asciiPlatform p := by
    simp [linkable_brackets, linkable_named]
  have hentries : (brackets.options fun _ => none).options.entries =
      [("tls".toList, none), ("host".toList, some "a.b".toList)] := by decide
  have hprintable : Printable (brackets.options fun _ => none) := by
    refine ⟨?_, by decide⟩
    rw [hentries]
    unfold PluginOptions.EntriesNoControl
    simp only [List.forall_mem_cons, Option.some.injEq, reduceCtorEq, forall_eq',
      false_implies, implies_true, and_true]
    decide
  have hbrackets : Survives .insertion (fun _ => none) brackets :=
    ⟨forall_mem_getLast?_of_all (by decide), fun _ => hprintable,
      fun _ _ => forall_mem_getLast?_of_all (by decide)⟩
  have hnamed : Survives .insertion (fun _ => none) named :=
    ⟨forall_mem_getLast?_of_all (by decide), fun hid => absurd (by decide) hid,
      fun hid => absurd (by decide) hid⟩
  exact (links_roundTrip_iff .insertion (fun _ => none) none hlinkable).mpr
    (by simp [hbrackets, hnamed])

/-- A server whose name ends with an exclamation mark. -/
def exclaimed : Profile := { named with name := some "Tokyo!" }

theorem linkable_exclaimed : Linkable asciiPlatform exclaimed :=
  { linkable_named with }

/-- The exclamation mark is lost. -/
theorem not_roundTrips_exclaimed :
    Linkable asciiPlatform exclaimed ∧
      ¬ RoundTrips asciiPlatform .insertion (fun _ => none) none [exclaimed] := by
  refine ⟨linkable_exclaimed, fun hround => ?_⟩
  have hlinkable : ∀ p ∈ [exclaimed], Linkable asciiPlatform p := by simp [linkable_exclaimed]
  have hagrees := (roundTrips_iff_agrees .insertion (fun _ => none) none hlinkable).mp hround
    exclaimed (by simp)
  exact absurd hagrees.name (by decide)

end Link
