import DripVpn.Foundations.Uri

/-!
# Addresses of servers

The strict reader of addresses `scheme://authority/path?query#fragment`, given by what follows
`scheme://`. It checks every character, and knows a host only if the authority is that of a server:
user information, then a name, an IPv4 address or an IPv6 address in brackets, then a port. Any
other authority of legal characters is accepted without a host.

Which names are host names differs between platforms, so `HostNames` is a parameter.
`ofText_build` says what is read of an address that is built from such an authority.
-/

namespace ServerUri

open Uri Text

/-! ## Hosts -/

/-- The characters of a host name. -/
def isNameChar (c : Char) : Bool := c.isAlphanum || "-._".toList.contains c

/-- The host names that are accepted. -/
structure HostNames where
  accepts : Text → Bool
  nonempty : ∀ name, accepts name = true → name ≠ []
  chars : ∀ name, accepts name = true → ∀ c ∈ name, isNameChar c = true

/-- Letters and digits, with hyphens between them. -/
def isLabel (t : Text) : Bool :=
  t.head?.any Char.isAlphanum && t.getLast?.any Char.isAlphanum &&
    t.all fun c => c.isAlphanum || c = '-'

/-- Labels between dots, the last of several of which starts with a letter. -/
def isHostname (t : Text) : Bool :=
  (t.splitOn '.').all isLabel &&
    ((t.splitOn '.').length = 1 || ((t.splitOn '.').getLast?.bind List.head?).any Char.isAlpha)

theorem isNameChar_of_isHostname {t : Text} (h : isHostname t = true) :
    ∀ c ∈ t, isNameChar c = true := by
  intro c hc
  rw [isHostname, Bool.and_eq_true] at h
  rcases mem_splitOn_cases hc '.' with rfl | ⟨label, hlabel, hmem⟩
  · rfl
  · have hchars := List.all_eq_true.mp h.1 label hlabel
    rw [isLabel, Bool.and_eq_true] at hchars
    have hchar := List.all_eq_true.mp hchars.2 c hmem
    simp only [Bool.or_eq_true, decide_eq_true_eq] at hchar
    rcases hchar with hchar | rfl
    · simp [isNameChar, hchar]
    · rfl

theorem ne_nil_of_isHostname {t : Text} (h : isHostname t = true) : t ≠ [] := by
  rintro rfl
  exact absurd h (by decide)

/-- The host names of RFC 2396, without a final dot. -/
def HostNames.rfc2396 : HostNames where
  accepts := isHostname
  nonempty _ := ne_nil_of_isHostname
  chars _ := isNameChar_of_isHostname

/-- A decimal number below 256. -/
def isByte (t : Text) : Bool :=
  t ≠ [] && t.all Char.isDigit && decide (Nat.ofDigitChars 10 t 0 < 256)

/-- Four numbers. -/
def isIPv4 (t : Text) : Bool := (t.splitOn '.').length = 4 && (t.splitOn '.').all isByte

/-- One to four hexadecimal digits. -/
def isGroup (t : Text) : Bool :=
  t ≠ [] && decide (t.length ≤ 4) && t.all fun c => (hexValue c).isSome

/-- How many groups of sixteen bits there are between the colons. The last two may be written as an
IPv4 address. -/
def groupCount (t : Text) : Option ℕ :=
  if t = [] then some 0
  else if (t.splitOn ':').dropLast.all isGroup then
    match (t.splitOn ':').getLast? with
    | some last =>
      if isGroup last then some (t.splitOn ':').length
      else if isIPv4 last then some ((t.splitOn ':').length + 1)
      else none
    | none => none
  else none

/-- What stands before and after the first `::`. -/
def splitCompressed : Text → Option (Text × Text)
  | [] => none
  | c :: t =>
    if c = ':' ∧ t.head? = some ':' then some ([], t.tail)
    else (splitCompressed t).map fun parts => (c :: parts.1, parts.2)

/-- Eight groups, or fewer with one `::`. -/
def isIPv6 (t : Text) : Bool :=
  match splitCompressed t with
  | none => groupCount t = some 8
  | some (before, after) =>
    (before = [] || (before.splitOn ':').all isGroup) &&
      ((groupCount after).any fun count =>
        decide ((if before = [] then 0 else (before.splitOn ':').length) + count ≤ 7))

/-- The characters of the scope of an address. -/
def isScopeChar (c : Char) : Bool := c.isAlphanum || "_.".toList.contains c

/-- An IPv6 address, with an optional scope. -/
def isIPv6Literal (t : Text) : Bool :=
  match splitFirst '%' t with
  | (address, none) => isIPv6 address
  | (address, some scope) => isIPv6 address && scope ≠ [] && scope.all isScopeChar

/-! ## The reader -/

end ServerUri

/-- What is known of an address. -/
structure ServerUri where
  host : Option Text
  port : ℤ

namespace ServerUri

open Uri Text

def isUserInfoChar (c : Char) : Bool := isUnreserved c || ";:&=+$,".toList.contains c

def isRegistryChar (c : Char) : Bool := isUnreserved c || "$,;:@&=+".toList.contains c

def isPathChar (c : Char) : Bool := isUnreserved c || ":@&=+$,;/".toList.contains c

def isQueryChar (c : Char) : Bool := isUnreserved c || ";/?:@&=+$,[]".toList.contains c

/-- What follows the host is a port or nothing. -/
def withPort (host : Text) : Text → Option ServerUri
  | [] => some ⟨some host, -1⟩
  | c :: digits =>
    if c = ':' then
      if digits = [] then some ⟨some host, -1⟩
      else if digits.all Char.isDigit then (parseInt digits).map fun port => ⟨some host, port⟩
      else none
    else none

variable (names : HostNames)

/-- A host that needs no brackets. -/
def isPlainHost (t : Text) : Bool := isIPv4 t || names.accepts t

/-- A host with an optional port. -/
def ofHostPort (t : Text) : Option ServerUri :=
  if t.head? = some '[' then
    match splitFirst ']' t.tail with
    | (literal, some rest) =>
      if isIPv6Literal literal then withPort ('[' :: (literal ++ [']'])) rest else none
    | (_, none) => none
  else if isPlainHost names (t.takeWhile (· ≠ ':')) then
    withPort (t.takeWhile (· ≠ ':')) (t.dropWhile (· ≠ ':'))
  else none

/-- The authority of a server. -/
def ofAuthority (t : Text) : Option ServerUri :=
  match splitFirst '@' t with
  | (userInfo, some hostPort) =>
    if isLegal isUserInfoChar userInfo then ofHostPort names hostPort else none
  | (hostPort, none) => ofHostPort names hostPort

/-- The path, the query and the fragment are legal. -/
def isLegalRest (t : Text) : Bool :=
  isLegal isPathChar (splitFirst '?' (splitFirst '#' t).1).1 &&
    (splitFirst '?' (splitFirst '#' t).1).2.all (isLegal isQueryChar) &&
      (splitFirst '#' t).2.all (isLegal isQueryChar)

/-- The address with the given text after `scheme://`; an illegal text is an error. -/
def ofText (t : Text) : Option ServerUri :=
  let authority := t.takeWhile fun c => !"/?#".toList.contains c
  let rest := t.dropWhile fun c => !"/?#".toList.contains c
  if isLegalRest rest then
    if authority = [] then if rest = [] then none else some ⟨none, -1⟩
    else
      match ofAuthority names authority with
      | some uri => some uri
      -- a registry-based authority has no host and no port
      | none => if isLegal isRegistryChar authority then some ⟨none, -1⟩ else none
  else none

/-! ## Reading what was built -/

/-- The characters of an IPv4 address. -/
theorem chars_of_isIPv4 {t : Text} (h : isIPv4 t = true) :
    ∀ c ∈ t, c.isDigit = true ∨ c = '.' := by
  intro c hc
  rw [isIPv4, Bool.and_eq_true] at h
  rcases mem_splitOn_cases hc '.' with rfl | ⟨part, hpart, hmem⟩
  · exact Or.inr rfl
  · have hbyte := List.all_eq_true.mp h.2 part hpart
    rw [isByte, Bool.and_eq_true, Bool.and_eq_true] at hbyte
    exact Or.inl (List.all_eq_true.mp hbyte.1.2 c hmem)

theorem ne_nil_of_isIPv4 {t : Text} (h : isIPv4 t = true) : t ≠ [] := by
  rintro rfl
  exact absurd h (by decide)

theorem isNameChar_of_isPlainHost {t : Text} (h : isPlainHost names t = true) :
    ∀ c ∈ t, isNameChar c = true := by
  intro c hc
  rw [isPlainHost, Bool.or_eq_true] at h
  rcases h with h | h
  · rcases chars_of_isIPv4 h c hc with hdigit | rfl
    · simp [isNameChar, Char.isAlphanum, hdigit]
    · rfl
  · exact names.chars t h c hc

theorem ne_nil_of_isPlainHost {t : Text} (h : isPlainHost names t = true) : t ≠ [] := by
  rw [isPlainHost, Bool.or_eq_true] at h
  rcases h with h | h
  · exact ne_nil_of_isIPv4 h
  · exact names.nonempty t h

/-- The characters of an IPv6 address with its scope. -/
def isLiteralChar (c : Char) : Bool := c.isAlphanum || ":._%".toList.contains c

theorem isAlphanum_of_hexValue {c : Char} (h : (hexValue c).isSome = true) :
    c.isAlphanum = true := by
  rcases toUpper_cases c with halphanum | hupper
  · exact halphanum
  · have hdigits : ∀ d ∈ "0123456789ABCDEF".toList, d.isAlphanum = true :=
      forall_mem_of_all (by decide)
    rw [hexValue, hupper] at h
    split at h
    · next hmem => exact hdigits c (by simpa using hmem)
    · cases h

theorem isLiteralChar_of_isGroup {t : Text} (h : isGroup t = true) :
    ∀ c ∈ t, isLiteralChar c = true := by
  intro c hc
  rw [isGroup, Bool.and_eq_true] at h
  have halphanum := isAlphanum_of_hexValue (List.all_eq_true.mp h.2 c hc)
  simp [isLiteralChar, halphanum]

theorem isLiteralChar_of_isIPv4 {t : Text} (h : isIPv4 t = true) :
    ∀ c ∈ t, isLiteralChar c = true := by
  intro c hc
  rcases chars_of_isIPv4 h c hc with hdigit | rfl
  · simp [isLiteralChar, Char.isAlphanum, hdigit]
  · rfl

/-- The characters between colons, and the colons. -/
theorem isLiteralChar_of_splitOn {t : Text}
    (h : ∀ part ∈ t.splitOn ':', ∀ c ∈ part, isLiteralChar c = true) :
    ∀ c ∈ t, isLiteralChar c = true := by
  intro c hc
  rcases mem_splitOn_cases hc ':' with rfl | ⟨part, hpart, hmem⟩
  · rfl
  · exact h part hpart c hmem

theorem isLiteralChar_of_groupCount {t : Text} {count : ℕ} (h : groupCount t = some count) :
    ∀ c ∈ t, isLiteralChar c = true := by
  unfold groupCount at h
  split at h
  · next hnil => simp [hnil]
  split at h
  · next hgroups =>
    split at h
    · next last hlast =>
      have hchars : ∀ c ∈ last, isLiteralChar c = true := by
        split at h
        · next hgroup => exact isLiteralChar_of_isGroup hgroup
        split at h
        · next hipv4 => exact isLiteralChar_of_isIPv4 hipv4
        · cases h
      refine isLiteralChar_of_splitOn fun part hpart => ?_
      rw [← List.dropLast_append_getLast? last hlast, List.mem_append,
        List.mem_singleton] at hpart
      rcases hpart with hpart | rfl
      · exact isLiteralChar_of_isGroup (List.all_eq_true.mp hgroups part hpart)
      · exact hchars
    · cases h
  · cases h

theorem eq_of_splitCompressed {t before after : Text}
    (h : splitCompressed t = some (before, after)) : t = before ++ ':' :: ':' :: after := by
  induction t generalizing before after with
  | nil => cases h
  | cons c t ih =>
    rw [splitCompressed] at h
    split at h
    · next hcolons =>
      obtain ⟨rfl, hhead⟩ := hcolons
      obtain ⟨rfl, rfl⟩ := Prod.mk.inj (Option.some.inj h)
      rw [List.nil_append, List.eq_cons_of_mem_head? hhead]
      rfl
    · obtain ⟨⟨before', after'⟩, hrest, hparts⟩ := Option.map_eq_some_iff.mp h
      obtain ⟨rfl, rfl⟩ := Prod.mk.inj hparts
      rw [ih hrest]
      rfl

theorem isLiteralChar_of_isIPv6 {t : Text} (h : isIPv6 t = true) :
    ∀ c ∈ t, isLiteralChar c = true := by
  unfold isIPv6 at h
  split at h
  · exact isLiteralChar_of_groupCount (by simpa using h)
  · next before after hsplit =>
    rw [Bool.and_eq_true, Bool.or_eq_true, Option.any_eq_true] at h
    obtain ⟨hbefore, count, hcount, -⟩ := h
    obtain rfl := eq_of_splitCompressed hsplit
    intro c hc
    rw [List.mem_append, List.mem_cons, List.mem_cons] at hc
    rcases hc with hc | rfl | rfl | hc
    · rcases hbefore with hnil | hgroups
      · rw [decide_eq_true_eq] at hnil
        rw [hnil] at hc
        cases hc
      · exact isLiteralChar_of_splitOn
          (fun part hpart => isLiteralChar_of_isGroup (List.all_eq_true.mp hgroups part hpart)) c hc
    · rfl
    · rfl
    · exact isLiteralChar_of_groupCount hcount c hc

theorem colon_mem_of_isIPv6 {t : Text} (h : isIPv6 t = true) : ':' ∈ t := by
  by_contra hcolon
  unfold isIPv6 at h
  split at h
  · -- without a colon there is one group, or two
    have hsplit := List.splitOn_eq_singleton hcolon
    rw [decide_eq_true_eq] at h
    unfold groupCount at h
    rw [hsplit] at h
    simp only [List.dropLast_singleton, List.all_nil, if_true, List.getLast?_singleton,
      List.length_singleton] at h
    split_ifs at h <;> simp at h
  · next hsplit =>
    rw [eq_of_splitCompressed hsplit] at hcolon
    simp at hcolon

theorem isLiteralChar_of_isIPv6Literal {t : Text} (h : isIPv6Literal t = true) :
    ∀ c ∈ t, isLiteralChar c = true := by
  unfold isIPv6Literal at h
  have heq := splitFirst_eq '%' t
  split at h
  · next address hsplit =>
    rw [hsplit] at heq
    simp only [Option.elim_none, List.append_nil] at heq
    rw [heq]
    exact isLiteralChar_of_isIPv6 h
  · next address scope hsplit =>
    rw [hsplit] at heq
    simp only [Option.elim_some] at heq
    rw [Bool.and_eq_true, Bool.and_eq_true] at h
    intro c hc
    rw [heq, List.mem_append, List.mem_cons] at hc
    rcases hc with hc | rfl | hc
    · exact isLiteralChar_of_isIPv6 h.1.1 c hc
    · rfl
    · have hscope := List.all_eq_true.mp h.2 c hc
      simp only [isScopeChar, Bool.or_eq_true] at hscope
      rcases hscope with hscope | hscope
      · simp [isLiteralChar, hscope]
      · have hall : ∀ d ∈ "_.".toList, isLiteralChar d = true :=
          forall_mem_of_all (by decide)
        exact hall c (by simpa using hscope)

theorem colon_mem_of_isIPv6Literal {t : Text} (h : isIPv6Literal t = true) : ':' ∈ t := by
  unfold isIPv6Literal at h
  have hsubset := splitFirst_fst_subset '%' t
  split at h
  · next address hsplit =>
    rw [hsplit] at hsubset
    exact hsubset (colon_mem_of_isIPv6 h)
  · next address scope hsplit =>
    rw [hsplit] at hsubset
    rw [Bool.and_eq_true, Bool.and_eq_true] at h
    exact hsubset (colon_mem_of_isIPv6 h.1.1)

theorem isDigit_of_mem_toDigits {n : ℕ} {c : Char} (h : c ∈ Nat.toDigits 10 n) :
    c.isDigit = true :=
  Nat.isDigit_of_mem_toDigits (by decide) (by decide) h

/-- A printed port. -/
theorem withPort_toDigits (host : Text) {port : ℕ} (hport : port ≤ 65535) :
    withPort host (':' :: Nat.toDigits 10 port) = some ⟨some host, port⟩ := by
  have hall : (Nat.toDigits 10 port).all Char.isDigit = true :=
    List.all_eq_true.mpr fun c hc => isDigit_of_mem_toDigits hc
  rw [withPort, if_pos rfl, if_neg Nat.toDigits_ne_nil, if_pos hall,
    parseInt_toDigits (by omega), Option.map_some]

/-- The text of a host in an authority. -/
inductive IsHostText : Text → Prop
  | plain {host : Text} : isPlainHost names host = true → IsHostText host
  | bracketed {literal : Text} : isIPv6Literal literal = true →
      IsHostText ('[' :: (literal ++ [']']))

variable {names}

theorem ofHostPort_of_isHostText {host : Text} (hhost : IsHostText names host) {port : ℕ}
    (hport : port ≤ 65535) :
    ofHostPort names (host ++ ':' :: Nat.toDigits 10 port) = some ⟨some host, port⟩ := by
  cases hhost with
  | plain h =>
    have hchars := isNameChar_of_isPlainHost names h
    have hne : ∀ c ∈ host, decide (c ≠ ':') = true := by
      intro c hc
      refine decide_eq_true ?_
      rintro rfl
      exact absurd (hchars _ hc) (by decide)
    have hhead : (host ++ ':' :: Nat.toDigits 10 port).head? ≠ some '[' := by
      obtain ⟨c, t, rfl⟩ := List.exists_cons_of_ne_nil (ne_nil_of_isPlainHost names h)
      intro hc
      obtain rfl := Option.some.inj hc
      exact absurd (hchars '[' List.mem_cons_self) (by decide)
    have htake : (host ++ ':' :: Nat.toDigits 10 port).takeWhile (· ≠ ':') = host := by
      rw [List.takeWhile_append_of_pos hne]
      simp
    have hdrop : (host ++ ':' :: Nat.toDigits 10 port).dropWhile (· ≠ ':') =
        ':' :: Nat.toDigits 10 port := by
      rw [List.dropWhile_append_of_pos hne]
      simp
    rw [ofHostPort, if_neg hhead, htake, hdrop, if_pos h, withPort_toDigits host hport]
  | @bracketed literal h =>
    have hbracket : ']' ∉ literal := fun hmem =>
      absurd (isLiteralChar_of_isIPv6Literal h ']' hmem) (by decide)
    have hsplit : splitFirst ']' (literal ++ ']' :: ':' :: Nat.toDigits 10 port) =
        (literal, some (':' :: Nat.toDigits 10 port)) := splitFirst_append_cons _ hbracket
    have htext : '[' :: (literal ++ [']']) ++ ':' :: Nat.toDigits 10 port =
        '[' :: (literal ++ ']' :: ':' :: Nat.toDigits 10 port) := by simp
    rw [htext, ofHostPort, if_pos (by rfl), List.tail_cons, hsplit]
    simp only [h, if_true]
    exact withPort_toDigits _ hport

/-- The characters of a host in an authority. -/
def isHostTextChar (c : Char) : Bool := isNameChar c || ":%[]".toList.contains c

theorem isHostTextChar_of_isHostText {host : Text} (hhost : IsHostText names host) :
    ∀ c ∈ host, isHostTextChar c = true := by
  intro c hc
  cases hhost with
  | plain h => simp [isHostTextChar, isNameChar_of_isPlainHost names h c hc]
  | @bracketed literal h =>
    rw [List.mem_cons, List.mem_append, List.mem_singleton] at hc
    rcases hc with rfl | hc | rfl
    · rfl
    · have hliteral := isLiteralChar_of_isIPv6Literal h c hc
      simp only [isLiteralChar, Bool.or_eq_true] at hliteral
      rcases hliteral with hliteral | hliteral
      · simp [isHostTextChar, isNameChar, hliteral]
      · have hall : ∀ d ∈ ":._%".toList, isHostTextChar d = true :=
          forall_mem_of_all (by decide)
        exact hall c (by simpa using hliteral)
    · rfl

theorem ofAuthority_of_isHostText {userInfo host : Text} (huser : isLegal isUserInfoChar userInfo)
    (hat : '@' ∉ userInfo) (hhost : IsHostText names host) {port : ℕ} (hport : port ≤ 65535) :
    ofAuthority names (userInfo ++ '@' :: (host ++ ':' :: Nat.toDigits 10 port)) =
      some ⟨some host, port⟩ := by
  rw [ofAuthority, splitFirst_append_cons _ hat]
  simp only [huser, if_true]
  exact ofHostPort_of_isHostText hhost hport

theorem isLegalRest_build {query fragment : Option Text} (hhash : ∀ q ∈ query, '#' ∉ q)
    (hquery : ∀ q ∈ query, isLegal isQueryChar q = true)
    (hfragment : ∀ f ∈ fragment, isLegal isQueryChar f = true) :
    isLegalRest (query.elim [] ('?' :: ·) ++ fragment.elim [] ('#' :: ·)) = true := by
  have hsplit : splitFirst '#' (query.elim [] ('?' :: ·) ++ fragment.elim [] ('#' :: ·)) =
      (query.elim [] ('?' :: ·), fragment) := @splitFirst_build [] query fragment (by simp) hhash
  have hsplit' : splitFirst '?' (query.elim [] ('?' :: ·)) = ([], query) := by
    cases query with
    | none => rfl
    | some q => exact splitFirst_append_cons (t := []) q (by simp)
  rw [isLegalRest, hsplit, hsplit', Bool.and_eq_true, Bool.and_eq_true]
  refine ⟨⟨rfl, ?_⟩, ?_⟩
  · cases query with
    | none => rfl
    | some q => exact hquery q rfl
  · cases fragment with
    | none => rfl
    | some f => exact hfragment f rfl

/-- An address with the authority of a server has its host and its port. -/
theorem ofText_build {userInfo host : Text} (huser : isLegal isUserInfoChar userInfo = true)
    (huserChars : ∀ c ∈ userInfo, c ∉ "@/?#".toList) (hhost : IsHostText names host) {port : ℕ}
    (hport : port ≤ 65535) {query fragment : Option Text} (hhash : ∀ q ∈ query, '#' ∉ q)
    (hquery : ∀ q ∈ query, isLegal isQueryChar q = true)
    (hfragment : ∀ f ∈ fragment, isLegal isQueryChar f = true) :
    ofText names (build (userInfo ++ '@' :: (host ++ ':' :: Nat.toDigits 10 port)) query fragment) =
      some ⟨some host, port⟩ := by
  have hat : '@' ∉ userInfo := fun hmem => huserChars '@' hmem (by decide)
  have hchars : ∀ c ∈ userInfo ++ '@' :: (host ++ ':' :: Nat.toDigits 10 port),
      (!"/?#".toList.contains c) = true := by
    intro c hc
    by_contra hmem
    rw [Bool.not_eq_true, Bool.not_eq_false', List.contains_iff_mem] at hmem
    rw [List.mem_append, List.mem_cons, List.mem_append, List.mem_cons] at hc
    rcases hc with hc | rfl | hc | rfl | hc
    · exact huserChars c hc (List.mem_cons_of_mem '@' hmem)
    · exact absurd hmem (by decide)
    · have hall : ∀ d ∈ "/?#".toList, isHostTextChar d = false :=
        forall_mem_of_all (by decide)
      have hhostChar := isHostTextChar_of_isHostText hhost c hc
      rw [hall c hmem] at hhostChar
      cases hhostChar
    · exact absurd hmem (by decide)
    · have hall : ∀ d ∈ "/?#".toList, d.isDigit = false :=
        forall_mem_of_all (by decide)
      have hdigit := isDigit_of_mem_toDigits hc
      rw [hall c hmem] at hdigit
      cases hdigit
  rw [ofText, takeWhile_build hchars (by decide) (by decide),
    dropWhile_build hchars (by decide) (by decide),
    if_pos (isLegalRest_build hhash hquery hfragment), if_neg (by simp),
    ofAuthority_of_isHostText huser hat hhost hport]

end ServerUri
