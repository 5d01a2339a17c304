import DripVpn.Db.Link

/-!
# The two formats of links

A legacy link is `ss://` and the Base64 text of `method:password@host:port` in the standard
alphabet; a link of SIP002 encodes the method and the password only, in the alphabet for addresses.
`Profile.findAllUrls` takes the text of a legacy link for a host, and the authority of an address
ends at the first `/`, which is a character of the standard alphabet.

`formats_agree_iff` says that both links give the same profile exactly if there is no `/` in the
Base64 text. Otherwise the text is cut off, and what is read of it lacks at least one byte.
-/

open Text

namespace Link

/-- What a legacy link encodes. -/
def payload (method password host : Text) (port : ℕ) : Text :=
  method ++ ':' :: (password ++ '@' :: hostPort host port)

/-- The Base64 text of a legacy link. -/
def legacyText (method password host : Text) (port : ℕ) : Text :=
  Base64.encodeUnpadded Base64.standard (utf8 (payload method password host port))

/-- A legacy link. -/
def legacyLink (method password host : Text) (port : ℕ) (name : Text) : Text :=
  link (Uri.build (legacyText method password host port) none (some name))

/-- A link of SIP002. -/
def sip002Link (method password host : Text) (port : ℕ) (name : Text) : Text :=
  link (Uri.build (auth method password ++ '@' :: hostPort host port) none (some name))

/-- A server and a name that both formats can express. -/
structure Expressible (platform : LinkPlatform) (method password host : Text) (port : ℕ)
    (name : Text) : Prop where
  method_ne : method ≠ []
  method_lower : platform.lowercase method = method
  method_colon : ':' ∉ method
  method_dots : isDots method = true
  password_dots : isDots password = true
  host : ServerUri.isPlainHost platform.hostNames host = true
  port_pos : 1 ≤ port
  port_le : port ≤ 65535
  name_ne : name ≠ []
  name_alphanum : ∀ c ∈ name, c.isAlphanum = true

/-- Bytes of a text that are cut off inside a character end with the replacement character. -/
def ReplacesCut (malformed : Bytes → Text) : Prop :=
  ∀ (bytes : Bytes) (t : Text), bytes <+: utf8 t → (∀ s, bytes ≠ utf8 s) →
    (malformed bytes).getLast? = some '\uFFFD'

/-- Two profiles of the same server. -/
structure SameServer (p q : Profile) : Prop where
  method : p.method = q.method
  password : p.password = q.password
  host : p.host = q.host
  remotePort : p.remotePort = q.remotePort
  plugin : p.plugin = q.plugin
  name : p.name = q.name

/-- Each link gives one profile, and the two agree. -/
def FormatsAgree (platform : LinkPlatform) (feature : Option Profile)
    (method password host : Text) (port : ℕ) (name : Text) : Prop :=
  ∃ p q,
    Profile.findAllUrls platform (legacyLink method password host port name) feature = [p] ∧
    Profile.findAllUrls platform (sip002Link method password host port name) feature = [q] ∧
    SameServer p q

/-! ## The legacy pattern -/

theorem legacyPattern_payload {method password host : Text} (port : ℕ) (hne : method ≠ [])
    (hcolon : ':' ∉ method) (hmethod : isDots method = true) (hpassword : isDots password = true)
    (hhost : host ≠ []) (hhostDots : isDots host = true) (hhostColon : ':' ∉ host)
    (hat : '@' ∉ hostPort host port) :
    legacyPattern (payload method password host port) =
      some ⟨method, password, host, Nat.toDigits 10 port⟩ := by
  obtain ⟨rest₁, hmethods⟩ := splits_of_notMem_left hcolon (password ++ '@' :: hostPort host port)
  obtain ⟨rest₂, hpasswords⟩ := splits_of_notMem_right password hat
  obtain ⟨rest₃, hhosts⟩ := splits_of_notMem_left hhostColon (Nat.toDigits 10 port)
  have hdigits : (Nat.toDigits 10 port).all Char.isDigit = true :=
    List.all_eq_true.mpr fun c hc => ServerUri.isDigit_of_mem_toDigits hc
  have hend : hostPattern method password (hostPort host port) =
      some ⟨method, password, host, Nat.toDigits 10 port⟩ := by
    rw [hostPattern, hostPort, hhosts, List.findSome?_cons, if_pos]
    exact ⟨hne, hmethod, hpassword, hhost, hhostDots, Nat.toDigits_ne_nil, hdigits⟩
  have hmiddle : passwordPattern method (password ++ '@' :: hostPort host port) =
      some ⟨method, password, host, Nat.toDigits 10 port⟩ := by
    rw [passwordPattern, hpasswords, List.reverse_append, List.reverse_singleton,
      List.singleton_append, List.findSome?_cons, hend]
  rw [legacyPattern, payload, hmethods, List.findSome?_cons, hmiddle]

/-- The groups of a match are the text again. -/
theorem eq_of_legacyPattern {t : Text} {groups : LegacyGroups}
    (h : legacyPattern t = some groups) :
    t = groups.method ++ ':' :: (groups.password ++ '@' :: (groups.host ++ ':' :: groups.port)) ∧
      groups.port ≠ [] ∧ ∀ c ∈ groups.port, c.isDigit = true := by
  obtain ⟨⟨method, t₁⟩, hmethod, h⟩ := List.exists_of_findSome?_eq_some h
  obtain ⟨⟨password, t₂⟩, hpassword, h⟩ := List.exists_of_findSome?_eq_some h
  obtain ⟨⟨host, port⟩, hhost, h⟩ := List.exists_of_findSome?_eq_some h
  rw [List.mem_reverse] at hpassword
  simp only [Option.ite_none_right_eq_some, Option.some.injEq] at h
  obtain ⟨⟨-, -, -, -, -, hport, hdigits⟩, rfl⟩ := h
  have ht : t = method ++ ':' :: t₁ := mem_splits_iff.mp hmethod
  have ht₁ : t₁ = password ++ '@' :: t₂ := mem_splits_iff.mp hpassword
  have ht₂ : t₂ = host ++ ':' :: port := mem_splits_iff.mp hhost
  refine ⟨?_, hport, List.all_eq_true.mp hdigits⟩
  rw [ht, ht₁, ht₂]

/-! ## A text that is cut off -/

/-- A shorter text that starts like the payload is not matched as the payload is. -/
theorem not_matched_of_prefix {method password host : Text} {port : ℕ} (hcolon : ':' ∉ method)
    {groups : LegacyGroups} {t : Text} (hgroups : legacyPattern t = some groups)
    (hinitial : utf8 t <+: utf8 (payload method password host port))
    (hlength : (utf8 t).length < (utf8 (payload method password host port)).length)
    (hpassword : groups.password = password) (hhost : groups.host = host) :
    parseInt groups.port ≠ some (port : ℤ) := by
  intro hport
  obtain ⟨ht, hne, hdigits⟩ := eq_of_legacyPattern hgroups
  have hlonger : (utf8 (Nat.toDigits 10 port)).length ≤ (utf8 groups.port).length := by
    rw [length_utf8_of_isAscii (isAscii_of_isDigit hdigits), length_utf8_of_isAscii
      (isAscii_of_isDigit fun c hc => ServerUri.isDigit_of_mem_toDigits hc)]
    exact length_toDigits_le hne hdigits hport
  -- the first group is shorter than the method, so the method has a colon
  rw [hpassword, hhost] at ht
  rw [ht, payload, hostPort] at hlength hinitial
  simp only [utf8_append, utf8_cons, List.length_append] at hlength
  have hshorter : (utf8 groups.method).length < (utf8 method).length := by omega
  rw [utf8_append method] at hinitial
  have hcolons : utf8 groups.method ++ [58] <+: utf8 (groups.method ++ ':' :: (password ++ '@' ::
      (host ++ ':' :: groups.port))) := by
    rw [utf8_append, utf8_cons]
    exact (List.prefix_append_right_inj _).mpr (List.prefix_append _ _)
  have hbyte : utf8 groups.method ++ [58] <+: utf8 method := by
    refine List.prefix_of_prefix_length_le (hcolons.trans hinitial) (List.prefix_append _ _) ?_
    rw [List.length_append, List.length_singleton]
    omega
  obtain ⟨c, hc, hvalue⟩ := exists_mem_of_mem_utf8
    (hbyte.subset (List.mem_append_right _ (List.mem_singleton_self 58))) (by decide)
  have hchar : c = ':' := Char.ext (UInt32.toNat_inj.mp hvalue)
  exact hcolon (hchar ▸ hc)

/-- What is read of a text that is cut off is not the payload. -/
theorem not_matched_of_cut {malformed : Bytes → Text} (hmalformed : ReplacesCut malformed)
    {method password host : Text} {port : ℕ} (hcolon : ':' ∉ method) {bytes : Bytes}
    (hinitial : bytes <+: utf8 (payload method password host port))
    (hlength : bytes.length < (utf8 (payload method password host port)).length)
    {groups : LegacyGroups} (hgroups : legacyPattern (ofUtf8 malformed bytes) = some groups)
    (hpassword : groups.password = password) (hhost : groups.host = host) :
    parseInt groups.port ≠ some (port : ℤ) := by
  rcases ofUtf8_cases malformed bytes with hbytes | ⟨hnone, htext⟩
  · rw [hbytes] at hinitial hlength
    exact not_matched_of_prefix hcolon hgroups hinitial hlength hpassword hhost
  · -- a replacement character is no digit
    obtain ⟨ht, hne, hdigits⟩ := eq_of_legacyPattern hgroups
    have hlast := hmalformed bytes _ hinitial hnone
    have hend : ofUtf8 malformed bytes = (groups.method ++ ':' :: (groups.password ++ '@' ::
        (groups.host ++ [':']))) ++ groups.port := by
      rw [ht]
      simp
    rw [← htext, hend, List.getLast?_append_of_ne_nil _ hne] at hlast
    exact absurd (hdigits _ (List.mem_of_getLast? hlast)) (by decide)

/-! ## Reading both links -/

/-- What the address takes for the authority of a legacy link. -/
def legacyAuthority (method password host : Text) (port : ℕ) : Text :=
  (legacyText method password host port).takeWhile fun c => !Uri.isDelimiter c

section Read

variable {platform : LinkPlatform} {method password host name : Text} {port : ℕ}

theorem mem_standardChars_of_mem_legacyText {c : Char}
    (h : c ∈ legacyText method password host port) : c ∈ Base64.standardChars :=
  Base64.mem_of_mem_encodeUnpadded Base64.standard h

theorem mem_legacyText_of_mem_legacyAuthority {c : Char}
    (h : c ∈ legacyAuthority method password host port) :
    c ∈ legacyText method password host port :=
  (List.takeWhile_prefix _).subset h

theorem notMem_legacyText (method password host : Text) (port : ℕ) {c : Char}
    (h : ¬ (c.isAlphanum = true ∨ c = '+' ∨ c = '/')) : c ∉ legacyText method password host port :=
  fun hmem => Base64.notMem_standardChars h (mem_standardChars_of_mem_legacyText hmem)

theorem notMem_legacyAuthority (method password host : Text) (port : ℕ) {c : Char}
    (h : ¬ (c.isAlphanum = true ∨ c = '+' ∨ c = '/')) :
    c ∉ legacyAuthority method password host port := fun hmem =>
  notMem_legacyText method password host port h (mem_legacyText_of_mem_legacyAuthority hmem)

/-- The `/` is the only delimiter of the alphabet. -/
theorem legacyAuthority_eq_iff :
    legacyAuthority method password host port = legacyText method password host port ↔
      '/' ∉ legacyText method password host port := by
  have halphabet : ∀ c ∈ Base64.standardChars, c ≠ '/' → Uri.isDelimiter c = false :=
    forall_mem_of_all (by decide)
  rw [legacyAuthority, List.takeWhile_eq_self_iff]
  constructor
  · intro hall hslash
    exact absurd (hall '/' hslash) (by decide)
  · intro hslash c hc
    rw [halphabet c (mem_standardChars_of_mem_legacyText hc) (by rintro rfl; exact hslash hc)]
    rfl

theorem authority_legacy :
    Uri.authority (Uri.build (legacyText method password host port) none (some name)) =
      legacyAuthority method password host port := by
  rw [Uri.authority, Uri.build, List.takeWhile_append]
  split
  · next hlength =>
    have hself := (List.takeWhile_prefix fun c => !Uri.isDelimiter c).eq_of_length hlength
    rw [legacyAuthority, hself]
    simp [Uri.isDelimiter]
  · rfl

/-- The host of a legacy link is its Base64 text, up to a delimiter. -/
theorem encodedHost_legacy (method password host : Text) (port : ℕ) (name : Text) :
    Uri.encodedUserInfo (Uri.build (legacyText method password host port) none (some name)) =
        none ∧
      Uri.encodedHost (Uri.build (legacyText method password host port) none (some name)) =
        legacyAuthority method password host port := by
  have hat : '@' ∉ legacyAuthority method password host port :=
    notMem_legacyAuthority method password host port (by decide)
  have hcolon : ':' ∉ legacyAuthority method password host port :=
    notMem_legacyAuthority method password host port (by decide)
  have hhostPort : Uri.hostPort (Uri.build (legacyText method password host port) none (some name)) =
      legacyAuthority method password host port := by
    rw [Uri.hostPort, authority_legacy, splitLast_of_not_mem hat]
  refine ⟨?_, ?_⟩
  · rw [Uri.encodedUserInfo, authority_legacy, splitLast_of_not_mem hat, Option.map_none]
  · rw [Uri.encodedHost, hhostPort]
    split
    · next hlast =>
      have hmem := List.mem_of_getLast? hlast
      exact absurd ((List.rdropWhile_prefix _ _).subset hmem) hcolon
    · rfl

/-- The profile of a legacy link. -/
theorem profile_legacyLink (platform : LinkPlatform) (method password host : Text) (port : ℕ)
    (feature : Option Profile) (hname : '%' ∉ name) :
    profile platform feature (legacyLink method password host port name) =
      (Base64.decodeLenient Base64.standard (legacyAuthority method password host port)).bind
        fun bytes => (legacyPattern (ofUtf8 platform.malformed bytes)).bind fun groups =>
          (parseInt groups.port).map fun port =>
            { blank feature with
              method := String.ofList (platform.lowercase groups.method)
              password := String.ofList groups.password
              host := String.ofList groups.host
              remotePort := port
              plugin := none
              name := some (String.ofList name) } := by
  have hdrop : ∀ rest, (link rest).drop 5 = rest := fun _ => rfl
  have hhash : '#' ∉ legacyText method password host port :=
    notMem_legacyText method password host port (by decide)
  have hquestion : '?' ∉ legacyText method password host port :=
    notMem_legacyText method password host port (by decide)
  have hsplit := @Uri.splitFirst_build (legacyText method password host port) none (some name)
    hhash (by simp)
  have hplugin : pluginParameter platform
      (Uri.build (legacyText method password host port) none (some name)) = none := by
    rw [pluginParameter, Uri.queryParameter, Uri.encodedQuery, hsplit, Option.elim_none,
      List.append_nil, splitFirst_of_not_mem hquestion]
    rfl
  have hfragment : fragment platform
      (Uri.build (legacyText method password host port) none (some name)) = some name := by
    rw [fragment, Uri.encodedFragment, hsplit, Option.map_some,
      Uri.decode_of_percent_notMem _ _ hname]
  obtain ⟨huser, hhost⟩ := encodedHost_legacy method password host port name
  have hpercent : '%' ∉ legacyAuthority method password host port :=
    notMem_legacyAuthority method password host port (by decide)
  rw [legacyLink, profile, hdrop, huser]
  simp only
  rw [legacyProfile, hhost, Uri.decode_of_percent_notMem _ _ hpercent, hplugin, hfragment]
  simp only [Option.bind_eq_bind, Option.map_none, Option.map_some, Option.pure_def]
  refine congrArg _ (funext fun bytes => congrArg _ (funext fun groups => ?_))
  rw [Option.map_eq_bind]
  rfl

end Read

section Agree

variable {platform : LinkPlatform} {method password host name : Text} {port : ℕ}
  (h : Expressible platform method password host port name) (feature : Option Profile)

include h

theorem Expressible.percent_notMem : '%' ∉ name := fun hmem =>
  absurd (h.name_alphanum '%' hmem) (by decide)

theorem Expressible.isHostText : ServerUri.IsHostText platform.hostNames host := .plain h.host

theorem Expressible.host_dots : isDots host = true := by
  have hterminators : ∀ c ∈ "\n\r\u0085\u2028\u2029".toList, ServerUri.isNameChar c = false :=
    forall_mem_of_all (by decide)
  refine List.all_eq_true.mpr fun c hc => ?_
  by_contra hterminator
  rw [Bool.not_eq_true, Bool.not_eq_false', isLineTerminator, List.contains_iff_mem] at hterminator
  have hname := ServerUri.isNameChar_of_isPlainHost _ h.host c hc
  rw [hterminators c hterminator] at hname
  cases hname

theorem Expressible.host_colon : ':' ∉ host := fun hmem =>
  absurd (ServerUri.isNameChar_of_isPlainHost _ h.host ':' hmem) (by decide)

theorem Expressible.isLinkChar : ∀ c ∈ name, isLinkChar c = true := by
  intro c hc
  simp [Link.isLinkChar, h.name_alphanum c hc]

/-- An address that ends with the name is not cut. -/
theorem Expressible.trimEnd_build (auth : Text) :
    trimEnd (Uri.build auth none (some name)) = Uri.build auth none (some name) := by
  refine trimEnd_eq_self fun c hc => ?_
  have hlast : (Uri.build auth none (some name)).getLast? = name.getLast? := by
    have htext : Uri.build auth none (some name) = (auth ++ ['#']) ++ name := by simp [Uri.build]
    rw [htext, List.getLast?_append_of_ne_nil _ h.name_ne]
  rw [hlast] at hc
  simp [isLastChar, h.name_alphanum c (List.mem_of_getLast? hc)]

theorem Expressible.findAllUrls_link {auth : Text}
    (hbody : IsBody (Uri.build auth none (some name))) :
    Profile.findAllUrls platform (link (Uri.build auth none (some name))) feature =
      (profile platform feature (link (Uri.build auth none (some name)))).toList := by
  have hfound := @findAll_links [Uri.build auth none (some name)] (by simpa using hbody)
  simp only [List.map_cons, List.map_nil, List.intercalate_singleton, h.trimEnd_build] at hfound
  rw [Profile.findAllUrls, hfound]
  cases hprofile : profile platform feature (link (Uri.build auth none (some name))) with
  | none => rw [List.filterMap_cons_none hprofile]; rfl
  | some p => rw [List.filterMap_cons_some hprofile]; rfl

/-- The link of SIP002 gives one profile. -/
theorem Expressible.findAllUrls_sip002Link :
    ∃ q, Profile.findAllUrls platform (sip002Link method password host port name) feature = [q] ∧
      q.method = String.ofList method ∧ q.password = String.ofList password ∧
      q.host = String.ofList host ∧ q.remotePort = port ∧ q.plugin = none ∧
      q.name = some (String.ofList name) := by
  have hbody : IsBody (Uri.build (auth method password ++ '@' :: hostPort host port) none
      (some name)) :=
    isBody_build h.isHostText port none (some name) (by simp) (by simpa using h.isLinkChar)
  have hlegal : Uri.isLegal ServerUri.isQueryChar name = true :=
    Uri.isLegal_of_forall h.percent_notMem fun c hc => by
      simp [ServerUri.isQueryChar, Uri.isUnreserved, h.name_alphanum c hc]
  have hprofile := profile_link h.isHostText port none (some name) feature
    h.method_ne h.method_colon h.method_dots h.password_dots h.port_le (by simp) (by simp)
    (by simpa using hlegal)
  have hbrackets : withoutBrackets host = host := by
    rw [withoutBrackets, if_neg]
    rintro ⟨hhead, -⟩
    exact absurd (ServerUri.isNameChar_of_isPlainHost _ h.host '[' (List.mem_of_mem_head? hhead))
      (by decide)
  have hplugin : pluginParameter platform (Uri.build
      (auth method password ++ '@' :: hostPort host port) none (some name)) = none := by
    rw [pluginParameter, Uri.queryParameter, Uri.encodedQuery_build
      (isDelimiter_of_mem_authority h.isHostText port method password) (by simp)]
    rfl
  refine ⟨_, by rw [sip002Link, h.findAllUrls_link feature hbody, hprofile]; rfl,
    rfl, rfl, ?_, rfl, ?_, ?_⟩
  · rw [hbrackets]
  · rw [hplugin]
    rfl
  · rw [Option.map_some, Option.getD_some, Uri.decode_of_percent_notMem _ _ h.percent_notMem]

theorem Expressible.isBody_legacy :
    IsBody (Uri.build (legacyText method password host port) none (some name)) := by
  have halphabet : ∀ c ∈ Base64.standardChars, Link.isLinkChar c = true :=
    forall_mem_of_all (by decide)
  refine ⟨fun c hc => ?_, '#', by simp [Uri.build], rfl⟩
  simp only [Uri.build, Option.elim_none, Option.elim_some, List.nil_append, List.mem_append,
    List.mem_cons] at hc
  rcases hc with hc | rfl | hc
  · exact halphabet c (mem_standardChars_of_mem_legacyText hc)
  · rfl
  · exact h.isLinkChar c hc

/-- A legacy link with a `/` in its Base64 text gives no profile, or another one. -/
theorem Expressible.not_formatsAgree (hmalformed : ReplacesCut platform.malformed)
    (hslash : '/' ∈ legacyText method password host port) :
    ¬ FormatsAgree platform feature method password host port name := by
  obtain ⟨q, hsip, -, hpassword, hhost, hport, -, -⟩ := h.findAllUrls_sip002Link feature
  have hlegacy := h.findAllUrls_link feature h.isBody_legacy
  have hprofile := profile_legacyLink platform method password host port feature h.percent_notMem
  rintro ⟨p, q', hp, hq', hsame⟩
  obtain rfl := List.singleton_inj.mp (hq'.symm.trans hsip)
  rw [legacyLink] at hprofile
  rw [legacyLink, hlegacy, hprofile, Option.toList_eq_singleton_iff] at hp
  obtain ⟨bytes, hbytes, hp⟩ := Option.bind_eq_some_iff.mp hp
  obtain ⟨groups, hgroups, hp⟩ := Option.bind_eq_some_iff.mp hp
  obtain ⟨port', hport', rfl⟩ := Option.map_eq_some_iff.mp hp
  -- the text is cut at the `/`, so its bytes are a part of the payload
  have hcut : (legacyAuthority method password host port).length <
      (legacyText method password host port).length := by
    refine lt_of_le_of_ne (List.takeWhile_prefix _).length_le fun hlength => ?_
    exact legacyAuthority_eq_iff.mp ((List.takeWhile_prefix _).eq_of_length hlength) hslash
  rw [legacyAuthority, List.prefix_iff_eq_take.mp (List.takeWhile_prefix _)] at hbytes
  obtain ⟨hinitial, hlength⟩ := Base64.prefix_of_decodeLenient_take Base64.standard hbytes
  refine not_matched_of_cut hmalformed h.method_colon hinitial (hlength hcut) hgroups ?_ ?_ ?_
  · exact String.ofList_injective (hsame.password.trans hpassword)
  · exact String.ofList_injective (hsame.host.trans hhost)
  · rw [hport']
    exact congrArg some (hsame.remotePort.trans hport)

/-- A legacy link without a `/` gives the profile of the other link. -/
theorem Expressible.formatsAgree (hslash : '/' ∉ legacyText method password host port) :
    FormatsAgree platform feature method password host port name := by
  obtain ⟨q, hsip, hmethod, hpassword, hhost, hport, hplugin, hname⟩ :=
    h.findAllUrls_sip002Link feature
  have hlegacy := h.findAllUrls_link feature h.isBody_legacy
  have hprofile := profile_legacyLink platform method password host port feature h.percent_notMem
  have hgroups := legacyPattern_payload port h.method_ne h.method_colon h.method_dots
    h.password_dots (ServerUri.ne_nil_of_isPlainHost _ h.host) h.host_dots h.host_colon
    (notMem_hostPort h.isHostText port (by decide))
  have hbytes : Base64.decodeLenient Base64.standard (legacyText method password host port) =
      some (utf8 (payload method password host port)) :=
    Base64.decodeLenient_encodeUnpadded Base64.standard _
  have hle := h.port_le
  rw [legacyLink, legacyAuthority_eq_iff.mpr hslash, hbytes, Option.bind_some, ofUtf8_utf8,
    hgroups, Option.bind_some, parseInt_toDigits (by omega), Option.map_some,
    h.method_lower] at hprofile
  refine ⟨_, q, by rw [legacyLink, hlegacy, hprofile]; rfl, hsip, ?_⟩
  exact ⟨hmethod.symm, hpassword.symm, hhost.symm, hport.symm, hplugin.symm, hname.symm⟩

/-- **The two formats.** Both links give the same profile exactly if there is no `/` in the Base64
text of the legacy link. -/
theorem formats_agree_iff (hmalformed : ReplacesCut platform.malformed) :
    FormatsAgree platform feature method password host port name ↔
      '/' ∉ legacyText method password host port :=
  ⟨fun hagree hslash => h.not_formatsAgree feature hmalformed hslash hagree, h.formatsAgree feature⟩

end Agree

theorem replacesCut_asciiPlatform : ReplacesCut asciiPlatform.malformed :=
  fun _ _ _ _ => rfl

theorem expressible_test (password : Text) (hpassword : isDots password = true) :
    Expressible asciiPlatform "bf-cfb".toList password "192.168.100.1".toList 8888
      "example".toList where
  method_ne := by decide
  method_lower := by decide
  method_colon := by decide
  method_dots := by decide
  password_dots := hpassword
  host := by decide
  port_pos := by decide
  port_le := by decide
  name_ne := by decide
  name_alphanum := forall_mem_of_all (by decide)

theorem formats_agree_test :
    '/' ∉ legacyText "bf-cfb".toList "test".toList "192.168.100.1".toList 8888 ∧
      FormatsAgree asciiPlatform none "bf-cfb".toList "test".toList "192.168.100.1".toList 8888
        "example".toList := by
  have hslash : '/' ∉ legacyText "bf-cfb".toList "test".toList "192.168.100.1".toList 8888 := by
    decide
  exact ⟨hslash, (formats_agree_iff (expressible_test _ (by decide)) none
    replacesCut_asciiPlatform).mpr hslash⟩

/-- The link `ss://YmYtY2ZiOnRlc3Q/QDE5Mi4xNjguMTAwLjE6ODg4OA#example` is cut off in the
password. -/
theorem not_formatsAgree_questionMark :
    Expressible asciiPlatform "bf-cfb".toList "test?".toList "192.168.100.1".toList 8888
        "example".toList ∧
      ¬ FormatsAgree asciiPlatform none "bf-cfb".toList "test?".toList "192.168.100.1".toList 8888
        "example".toList := by
  have h := expressible_test "test?".toList (by decide)
  exact ⟨h, h.not_formatsAgree none replacesCut_asciiPlatform (by decide)⟩

end Link
