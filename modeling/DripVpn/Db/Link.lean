import DripVpn.Db.Export
import DripVpn.Foundations.Base64
import DripVpn.Foundations.Matching
import DripVpn.Foundations.ServerUri

/-!
# Links

`Profile.toUri`, which prints a profile as a link `ss://…`, and `Profile.findAllUrls`, which reads
the links in a text. A link is found by a regular expression with a class of characters for its last
one, cut into parts by `android.net.Uri`, read again by `java.net.URI` for the host and the port,
and its Base64 part is split by a regular expression of its own.

`findAll_links` says what is found in printed links, one a line: each of them, up to its last
character that may end a link.
-/

open Text

/-- What the platform does with texts that the formats here do not give. -/
structure LinkPlatform where
  /-- `lowercase(Locale.ENGLISH)`. -/
  lowercase : Text → Text
  /-- The text of bytes that are not UTF-8. -/
  malformed : Bytes → Text
  /-- The text of a part of an address with an incomplete escape. -/
  broken : Text → Text
  /-- The host names that `java.net.URI` accepts. -/
  hostNames : ServerUri.HostNames

namespace Link

/-! ## The patterns -/

/-- The characters inside a link. -/
def isLinkChar (c : Char) : Bool :=
  c.isAlphanum || "-+&@#/%?=.~*'()|!:,;_[]".toList.contains c

/-- The characters at the end of a link. -/
def isLastChar (c : Char) : Bool :=
  c.isAlphanum || "-+&@#/%=.~*'()|[]".toList.contains c

/-- A run of characters up to the last one that may end a link. -/
def trimEnd (t : Text) : Text := trimEndBy (fun c => !isLastChar c) t

/-- `pattern`, at the start of a text. -/
def matchAt (t : Text) : Option Text :=
  if (t.take 5).map Char.toLower = "ss://".toList then
    if trimEnd ((t.drop 5).takeWhile isLinkChar) = [] then none
    else some (t.take 5 ++ trimEnd ((t.drop 5).takeWhile isLinkChar))
  else none

/-- The characters that `.` does not match. -/
def isLineTerminator (c : Char) : Bool := "\n\r\u0085\u2028\u2029".toList.contains c

/-- What `.*` matches. -/
def isDots (t : Text) : Bool := t.all fun c => !isLineTerminator c

/-- `userInfoPattern.matchEntire`: the method and the password. -/
def userInfoPattern (t : Text) : Option (Text × Text) :=
  (splits ':' t).find? fun groups => groups.1 ≠ [] && isDots groups.1 && isDots groups.2

/-- The groups of `legacyPattern`. -/
structure LegacyGroups where
  method : Text
  password : Text
  host : Text
  port : Text

/-- The end of `legacyPattern`: the host is as short as possible. -/
def hostPattern (method password t : Text) : Option LegacyGroups :=
  (splits ':' t).findSome? fun parts =>
    if method ≠ [] ∧ isDots method ∧ isDots password ∧ parts.1 ≠ [] ∧ isDots parts.1 ∧
        parts.2 ≠ [] ∧ parts.2.all Char.isDigit then
      some { method, password, host := parts.1, port := parts.2 }
    else none

/-- `legacyPattern` after the method: the password is as long as possible. -/
def passwordPattern (method t : Text) : Option LegacyGroups :=
  (splits '@' t).reverse.findSome? fun parts => hostPattern method parts.1 parts.2

/-- `legacyPattern.matchEntire`: the method is as short as possible. -/
def legacyPattern (t : Text) : Option LegacyGroups :=
  (splits ':' t).findSome? fun parts => passwordPattern parts.1 parts.2

/-! ## Reading -/

variable (platform : LinkPlatform)

/-- `Profile()` with the settings of `feature`. -/
def blank (feature : Option Profile) : Profile :=
  feature.elim {} fun feature => feature.copyFeatureSettingsTo {}

/-- `uri.fragment`. -/
def fragment (rest : Text) : Option Text :=
  (Uri.encodedFragment rest).map (Uri.decode platform.malformed platform.broken false)

/-- `uri.getQueryParameter(Key.plugin)`. -/
def pluginParameter (rest : Text) : Option Text :=
  Uri.queryParameter (Uri.decode platform.malformed platform.broken true) "plugin".toList rest

/-- A link without user information; `rest` is what follows `ss://`. -/
def legacyProfile (feature : Option Profile) (rest : Text) : Option Profile := do
  -- the whole authority is the Base64 text of `method:password@host:port`
  let host := Uri.decode platform.malformed platform.broken false (Uri.encodedHost rest)
  let bytes ← Base64.decodeLenient Base64.standard host
  let groups ← legacyPattern (ofUtf8 platform.malformed bytes)
  let port ← parseInt groups.port
  return { blank feature with
    method := String.ofList (platform.lowercase groups.method)
    password := String.ofList groups.password
    host := String.ofList groups.host
    remotePort := port
    plugin := (pluginParameter platform rest).map String.ofList
    name := (fragment platform rest).map String.ofList }

/-- A host without the brackets around it. -/
def withoutBrackets (host : Text) : Text :=
  if host.head? = some '[' ∧ host.getLast? = some ']' then host.tail.dropLast else host

/-- A link with user information. -/
def sip002Profile (feature : Option Profile) (rest userInfo : Text) : Option Profile := do
  let bytes ← Base64.decodeLenient Base64.urlSafe
    (Uri.decode platform.malformed platform.broken false userInfo)
  let groups ← userInfoPattern (ofUtf8 platform.malformed bytes)
  let javaUri ← ServerUri.ofText platform.hostNames rest
  return { blank feature with
    method := String.ofList groups.1
    password := String.ofList groups.2
    host := String.ofList (withoutBrackets (javaUri.host.getD []))
    remotePort := javaUri.port
    plugin := (pluginParameter platform rest).map String.ofList
    name := some (String.ofList ((fragment platform rest).getD [])) }

/-- The profile of a link. -/
def profile (feature : Option Profile) (value : Text) : Option Profile :=
  -- `ss://` is five characters long
  match Uri.encodedUserInfo (value.drop 5) with
  | none => legacyProfile platform feature (value.drop 5)
  | some userInfo => sip002Profile platform feature (value.drop 5) userInfo

end Link

/-- `Profile.findAllUrls`. -/
def Profile.findAllUrls (platform : LinkPlatform) (data : Text) (feature : Option Profile) :
    List Profile :=
  (findAll Link.matchAt data).filterMap (Link.profile platform feature)

namespace Link

/-! ## Printing -/

/-- The host as it stands in an authority. -/
def wrappedHost (host : Text) : Text :=
  if ':' ∈ host then '[' :: (host ++ [']']) else host

/-- `auth`. -/
def auth (method password : Text) : Text :=
  Base64.encodeUnpadded Base64.urlSafe (utf8 (method ++ ':' :: password))

/-- The authority of a link. -/
def authority (p : Profile) : Text :=
  auth p.method.toList p.password.toList ++
    '@' :: (wrappedHost p.host.toList ++ ':' :: (toString p.remotePort).toList)

/-- The query of a link, given the selected plugin and its options. -/
def query (hash : HashOrder) (selected : Text) (options : PluginOptions) : Option Text :=
  if selected = [] then none
  else some (Uri.encode "plugin".toList ++ '=' :: Uri.encode (options.toString hash false))

/-- The fragment of a link. -/
def encodedName (p : Profile) : Option Text :=
  if p.name.getD "" = "" then none else some (Uri.encode (p.name.getD "").toList)

/-- What follows `ss://`. -/
def body (hash : HashOrder) (selected : Text) (options : PluginOptions) (p : Profile) : Text :=
  Uri.build (authority p) (query hash selected options) (encodedName p)

/-- A link, given what follows `ss://`. -/
def link (body : Text) : Text := "ss://".toList ++ body

-- stated here, since Lean takes seconds to derive it from the text of the scheme
theorem link_eq_append (body : Text) : link body = "ss://".toList ++ body := rfl

end Link

/-- `Profile.toString`, which is `toUri().toString()`. -/
def Profile.toText (hash : HashOrder) (plugins : Text → Option Text) (p : Profile) :
    Except String Text := do
  let configuration ← p.configuration
  let options ← configuration.getOptions (plugins configuration.selected)
  return Link.link (Link.body hash configuration.selected options p)

namespace Link

/-! ## Finding links -/

/-- A text that can be found: characters of links, one of which may end a link. -/
structure IsBody (body : Text) : Prop where
  chars : ∀ c ∈ body, isLinkChar c = true
  last : ∃ c ∈ body, isLastChar c = true

theorem trimEnd_ne_nil {body : Text} (h : ∃ c ∈ body, isLastChar c = true) :
    trimEnd body ≠ [] := by
  obtain ⟨c, hc, hlast⟩ := h
  intro hnil
  have hall := trimEndBy_eq_nil_iff.mp hnil c hc
  rw [hlast] at hall
  cases hall

theorem trimEnd_eq_self {body : Text} (h : ∀ c ∈ body.getLast?, isLastChar c = true) :
    trimEnd body = body :=
  trimEndBy_eq_self_iff.mpr fun c hc => by simp [h c hc]

/-- Where the next character is no character of a link. -/
theorem takeWhile_of_head {body t : Text} (hbody : ∀ c ∈ body, isLinkChar c = true)
    (ht : ∀ c ∈ t.head?, isLinkChar c = false) : (body ++ t).takeWhile isLinkChar = body := by
  rw [List.takeWhile_append_of_pos hbody]
  cases t with
  | nil => simp
  | cons c t => simp [ht c rfl]

theorem matchAt_link {body t : Text} (hbody : IsBody body)
    (ht : ∀ c ∈ t.head?, isLinkChar c = false) :
    matchAt (link body ++ t) = some (link (trimEnd body)) := by
  have htake : (link body ++ t).take 5 = "ss://".toList := rfl
  have hdrop : (link body ++ t).drop 5 = body ++ t := rfl
  rw [matchAt, htake, hdrop, takeWhile_of_head hbody.chars ht, if_pos (by decide),
    if_neg (trimEnd_ne_nil hbody.last), link_eq_append]

/-- No link starts with a character that is not the `s`. -/
theorem matchAt_eq_none {c : Char} (h : c.toLower ≠ 's') (t : Text) : matchAt (c :: t) = none := by
  rw [matchAt, if_neg]
  intro hscheme
  rw [List.take_succ_cons, List.map_cons] at hscheme
  exact h (List.cons.inj hscheme).1

theorem isLastChar_of_toLower_eq {c : Char} (h : c.toLower = 's') : isLastChar c = true := by
  rcases toLower_cases c with halphanum | hlower
  · simp [isLastChar, halphanum]
  · rw [← hlower, h]
    rfl

/-- What is cut off at the end. -/
theorem trimEnd_append (body : Text) :
    ∃ cut, body = trimEnd body ++ cut ∧ ∀ c ∈ cut, isLastChar c = false := by
  obtain ⟨cut, hbody, hcut⟩ := trimEndBy_append (fun c => !isLastChar c) body
  exact ⟨cut, hbody, fun c hc => by simpa using hcut c hc⟩

/-- Characters that start no link are passed. -/
theorem findAll_append_of_toLower_ne {s : Text} (h : ∀ c ∈ s, c.toLower ≠ 's') (t : Text) :
    findAll matchAt (s ++ t) = findAll matchAt t := by
  apply findAll_append_of_forall
  intro u v huv hv
  obtain ⟨c, v, rfl⟩ := List.exists_cons_of_ne_nil hv
  exact matchAt_eq_none (h c (by simp [huv])) _

/-- After a link, the search goes on at the next line. -/
theorem findAll_link_append {body t : Text} (hbody : IsBody body)
    (ht : ∀ c ∈ t.head?, isLinkChar c = false) :
    findAll matchAt (link body ++ t) = link (trimEnd body) :: findAll matchAt t := by
  obtain ⟨cut, hcut, hnot⟩ := trimEnd_append body
  have hsplit : link body ++ t = link (trimEnd body) ++ (cut ++ t) := by
    rw [link_eq_append, link_eq_append, List.append_assoc, List.append_assoc,
      ← List.append_assoc (trimEnd body), ← hcut]
  have hmatch := matchAt_link hbody ht
  rw [hsplit] at hmatch ⊢
  rw [findAll_of_match (by simp [link_eq_append]) hmatch, findAll_append_of_toLower_ne]
  -- what is cut off holds no `s`
  intro c hc hs
  have hlast := hnot c hc
  rw [isLastChar_of_toLower_eq hs] at hlast
  cases hlast

/-- Links, one a line, are found up to their last character that may end a link. -/
theorem findAll_links {bodies : List Text} (h : ∀ body ∈ bodies, IsBody body) :
    findAll matchAt (['\n'].intercalate (bodies.map link)) =
      bodies.map fun body => link (trimEnd body) := by
  have hnewline : isLinkChar '\n' = false := by decide
  induction bodies with
  | nil => rfl
  | cons body bodies ih =>
    have hbody := h body List.mem_cons_self
    have hrest := ih fun b hb => h b (List.mem_cons_of_mem body hb)
    cases bodies with
    | nil =>
      have hone := findAll_link_append (t := []) hbody (by simp)
      rw [List.append_nil] at hone
      simp only [List.map_cons, List.map_nil, List.intercalate_singleton]
      exact hone
    | cons body' bodies =>
      have hlines : ['\n'].intercalate ((body :: body' :: bodies).map link) =
          link body ++ (['\n'] ++ ['\n'].intercalate ((body' :: bodies).map link)) := by
        rw [List.map_cons, List.map_cons, List.intercalate_cons_cons, List.append_assoc]
      rw [hlines, findAll_link_append hbody (by simp [hnewline]),
        findAll_append_of_toLower_ne (forall_mem_of_all (by decide)), hrest]
      rfl

/-! ## Reading a link with user information -/

theorem userInfoPattern_eq {method password : Text} (hne : method ≠ []) (hcolon : ':' ∉ method)
    (hmethod : isDots method = true) (hpassword : isDots password = true) :
    userInfoPattern (method ++ ':' :: password) = some (method, password) := by
  obtain ⟨rest, hrest⟩ := splits_of_notMem_left hcolon password
  rw [userInfoPattern, hrest]
  refine List.find?_cons_of_pos ?_
  simp [hne, hmethod, hpassword]

theorem mem_urlSafeChars_of_mem_auth {method password : Text} {c : Char}
    (h : c ∈ auth method password) : c ∈ Base64.urlSafeChars :=
  Base64.mem_of_mem_encodeUnpadded Base64.urlSafe h

/-- A class of characters that holds of the alphabet holds of the Base64 part. -/
theorem forall_mem_auth {P : Char → Prop} (h : ∀ c ∈ Base64.urlSafeChars, P c)
    (method password : Text) : ∀ c ∈ auth method password, P c :=
  fun c hc => h c (mem_urlSafeChars_of_mem_auth hc)

/-- The authority of a server, after the `@`. -/
def hostPort (host : Text) (port : ℕ) : Text := host ++ ':' :: Nat.toDigits 10 port

section Read

variable {platform : LinkPlatform} {host : Text}
  (hhost : ServerUri.IsHostText platform.hostNames host)
  (port : ℕ)

include hhost

/-- A class that holds of the characters of hosts, and of the colon and the digits. -/
theorem forall_mem_hostPort {P : Char → Prop}
    (hchar : ∀ c, ServerUri.isHostTextChar c = true → P c) : ∀ c ∈ hostPort host port, P c := by
  intro c hc
  rw [hostPort, List.mem_append, List.mem_cons] at hc
  rcases hc with hc | rfl | hc
  · exact hchar c (ServerUri.isHostTextChar_of_isHostText hhost c hc)
  · exact hchar ':' (by decide)
  · have hdigit := ServerUri.isDigit_of_mem_toDigits hc
    exact hchar c (by simp [ServerUri.isHostTextChar, ServerUri.isNameChar, Char.isAlphanum, hdigit])

theorem notMem_hostPort {d : Char} (hd : ServerUri.isHostTextChar d = false) :
    d ∉ hostPort host port := by
  refine fun hmem => forall_mem_hostPort hhost port (P := (· ≠ d)) (fun c hc => ?_) d hmem rfl
  rintro rfl
  rw [hc] at hd
  cases hd

variable (method password : Text) (query fragment : Option Text)

theorem isDelimiter_of_mem_authority :
    ∀ c ∈ auth method password ++ '@' :: hostPort host port, Uri.isDelimiter c = false := by
  have halphabet : ∀ c ∈ Base64.urlSafeChars, Uri.isDelimiter c = false :=
    forall_mem_of_all (by decide)
  have hdelimiters : ∀ d ∈ "/\\?#".toList, ServerUri.isHostTextChar d = false :=
    forall_mem_of_all (by decide)
  intro c hc
  rw [List.mem_append, List.mem_cons] at hc
  rcases hc with hc | rfl | hc
  · exact forall_mem_auth halphabet method password c hc
  · rfl
  · by_contra hdelimiter
    rw [Bool.not_eq_false, Uri.isDelimiter, List.contains_iff_mem] at hdelimiter
    exact notMem_hostPort hhost port (hdelimiters c hdelimiter) hc

theorem encodedUserInfo_build :
    Uri.encodedUserInfo
      (Uri.build (auth method password ++ '@' :: hostPort host port) query fragment) =
        some (auth method password) := by
  rw [Uri.encodedUserInfo, Uri.authority_build (isDelimiter_of_mem_authority hhost port _ _),
    splitLast_append_cons _ (notMem_hostPort hhost port (by decide)), Option.map_some]

variable {method password}

/-- A link with user information is found. -/
theorem isBody_build (hquery : ∀ q ∈ query, ∀ c ∈ q, isLinkChar c = true)
    (hfragment : ∀ f ∈ fragment, ∀ c ∈ f, isLinkChar c = true) :
    IsBody (Uri.build (auth method password ++ '@' :: hostPort host port) query fragment) := by
  have hhostChar : ∀ c, ServerUri.isHostTextChar c = true → isLinkChar c = true := by
    have hall : ∀ d ∈ "-._:%[]".toList, isLinkChar d = true :=
      forall_mem_of_all (by decide)
    intro c hc
    simp only [ServerUri.isHostTextChar, ServerUri.isNameChar, Bool.or_eq_true,
      List.contains_iff_mem] at hc
    rcases hc with (hc | hc) | hc
    · simp [isLinkChar, hc]
    · exact hall c (List.mem_append_left [':', '%', '[', ']'] hc)
    · exact hall c (List.mem_append_right ['-', '.', '_'] hc)
  have halphabet : ∀ c ∈ Base64.urlSafeChars, isLinkChar c = true :=
    forall_mem_of_all (by decide)
  refine ⟨fun c hc => ?_, '@', by simp [Uri.build], rfl⟩
  rw [Uri.build, List.mem_append, List.mem_append, List.mem_append, List.mem_cons] at hc
  rcases hc with (hc | rfl | hc) | hc | hc
  · exact forall_mem_auth halphabet method password c hc
  · rfl
  · exact forall_mem_hostPort hhost port hhostChar c hc
  · cases query with
    | none => cases hc
    | some q =>
      rcases List.mem_cons.mp hc with rfl | hc
      · rfl
      · exact hquery q rfl c hc
  · cases fragment with
    | none => cases hc
    | some f =>
      rcases List.mem_cons.mp hc with rfl | hc
      · rfl
      · exact hfragment f rfl c hc

/-- A link with user information is read. -/
theorem profile_link (feature : Option Profile) (hne : method ≠ []) (hcolon : ':' ∉ method)
    (hmethod : isDots method = true) (hpassword : isDots password = true) (hport : port ≤ 65535)
    (hhash : ∀ q ∈ query, '#' ∉ q)
    (hquery : ∀ q ∈ query, Uri.isLegal ServerUri.isQueryChar q = true)
    (hfragment : ∀ f ∈ fragment, Uri.isLegal ServerUri.isQueryChar f = true) :
    profile platform feature
        (link (Uri.build (auth method password ++ '@' :: hostPort host port) query fragment)) =
      some { blank feature with
        method := String.ofList method
        password := String.ofList password
        host := String.ofList (withoutBrackets host)
        remotePort := port
        plugin := (pluginParameter platform (Uri.build
          (auth method password ++ '@' :: hostPort host port) query fragment)).map String.ofList
        name := some (String.ofList ((fragment.map
          (Uri.decode platform.malformed platform.broken false)).getD [])) } := by
  have hpercent : '%' ∉ auth method password := fun hmem =>
    Base64.notMem_urlSafeChars (by decide) (mem_urlSafeChars_of_mem_auth hmem)
  have halphabet : ∀ c ∈ Base64.urlSafeChars,
      ServerUri.isUserInfoChar c = true ∧ c ∉ "@/?#".toList := forall_mem_of_all (by decide)
  have hauth := forall_mem_auth halphabet method password
  have hlegal : Uri.isLegal ServerUri.isUserInfoChar (auth method password) = true :=
    Uri.isLegal_of_forall hpercent fun c hc => (hauth c hc).1
  have huri := ServerUri.ofText_build hlegal (fun c hc => (hauth c hc).2) hhost hport hhash hquery
    hfragment
  have hfragment' : Link.fragment platform (Uri.build
      (auth method password ++ '@' :: hostPort host port) query fragment) =
        fragment.map (Uri.decode platform.malformed platform.broken false) := by
    have hnotMem : '#' ∉ auth method password ++ '@' :: hostPort host port := fun hmem =>
      absurd (isDelimiter_of_mem_authority hhost port method password '#' hmem) (by decide)
    rw [Link.fragment, Uri.encodedFragment_build hnotMem hhash]
  have hdrop : ∀ rest, (link rest).drop 5 = rest := fun _ => rfl
  have hbytes : Base64.decodeLenient Base64.urlSafe (auth method password) =
      some (utf8 (method ++ ':' :: password)) := Base64.decodeLenient_encodeUnpadded _ _
  rw [profile, hdrop, encodedUserInfo_build hhost]
  simp only
  rw [sip002Profile, Uri.decode_of_percent_notMem _ _ hpercent, hbytes, hfragment']
  simp only [Option.bind_eq_bind, Option.bind_some]
  rw [ofUtf8_utf8, userInfoPattern_eq hne hcolon hmethod hpassword, Option.bind_some]
  show (ServerUri.ofText platform.hostNames
    (Uri.build (auth method password ++ '@' :: (host ++ ':' :: Nat.toDigits 10 port)) query
      fragment)).bind _ = _
  rw [huri]
  rfl

end Read

/-- A platform for texts in ASCII. -/
def asciiPlatform : LinkPlatform where
  lowercase t := t.map Char.toLower
  malformed _ := ['\uFFFD']
  broken _ := ['\uFFFD']
  hostNames := .rfc2396

end Link
