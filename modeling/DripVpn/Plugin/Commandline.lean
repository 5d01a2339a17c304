import DripVpn.Plugin.PluginConfiguration
import Mathlib.Data.List.SplitBy

/-!
# Command lines

`Commandline.toString`, and that `Commandline.translateCommandline` undoes it
(`translateTokens_toString`).

The source takes the command line apart with a `StringTokenizer` and looks at one token at a time.
`translateTokens` does that; `translateTokens_eq` says that looking at the characters of a token one
by one, as `translateCommandline` does, comes to the same.
-/

open Reactive

namespace Commandline

/-! ## Tokens -/

/-- The delimiters of the tokenizer. -/
def isDelimiter (c : Char) : Bool := c = '\\' || c = '"' || c = '\'' || c = ' '

/-- `StringTokenizer(toProcess, "\\\"\' ", true)`: every delimiter is a token, and so is every
longest run of other characters. -/
def tokens (toProcess : Text) : List Text :=
  toProcess.splitBy fun c d => !isDelimiter c && !isDelimiter d

/-- A token outside of quotes. -/
def Scan.nextTokenNormal (s : Scan) (nextTok : Text) : Scan :=
  let s := if s.lastTokenIsSlash then
      { s with current := s.current ++ nextTok, lastTokenIsSlash := false }
    else if nextTok = ['\\'] then { s with lastTokenIsSlash := true }
    else if nextTok = ['\''] then { s with state := .inQuote }
    else if nextTok = ['"'] then { s with state := .inDoubleQuote }
    else if nextTok = [' '] then
      -- quotes with nothing between them are an argument, too
      if s.lastTokenHasBeenQuoted || s.current ≠ [] then
        { s with result := s.result ++ [s.current], current := [] }
      else s
    else { s with current := s.current ++ nextTok }
  { s with lastTokenHasBeenQuoted := false }

/-- A token inside double quotes. -/
def Scan.nextTokenDoubleQuote (s : Scan) (nextTok : Text) : Scan :=
  if nextTok = ['"'] then
    if s.lastTokenIsSlash then
      { s with current := s.current ++ nextTok, lastTokenIsSlash := false }
    else { s with lastTokenHasBeenQuoted := true, state := .normal }
  else if nextTok = ['\\'] then
    if s.lastTokenIsSlash then
      { s with current := s.current ++ nextTok, lastTokenIsSlash := false }
    else { s with lastTokenIsSlash := true }
  else if s.lastTokenIsSlash then
    -- a backslash that escapes nothing stands for itself
    { s with current := s.current ++ ['\\'] ++ nextTok, lastTokenIsSlash := false }
  else { s with current := s.current ++ nextTok }

/-- One turn of the loop of `translateCommandline`. -/
def Scan.nextToken (s : Scan) (nextTok : Text) : Scan :=
  match s.state with
  | .inQuote =>
    if nextTok = ['\''] then { s with lastTokenHasBeenQuoted := true, state := .normal }
    else { s with current := s.current ++ nextTok }
  | .inDoubleQuote => s.nextTokenDoubleQuote nextTok
  | .normal => s.nextTokenNormal nextTok

/-- `translateCommandline`, token by token. -/
def translateTokens (toProcess : Text) : Except String (List Text) :=
  let s := (tokens toProcess).foldl Scan.nextToken {}
  let result := if s.lastTokenHasBeenQuoted || s.current ≠ [] then s.result ++ [s.current]
    else s.result
  if s.state ≠ .normal then .error ("unbalanced quotes in " ++ String.ofList toProcess)
  else if s.lastTokenIsSlash then
    .error ("escape character following nothing in " ++ String.ofList toProcess)
  else .ok result

/-- A token is one character, or a run of characters that are no delimiters. -/
theorem token_cases {toProcess token : Text} (h : token ∈ tokens toProcess) :
    (∃ c, token = [c]) ∨ (token ≠ [] ∧ ∀ c ∈ token, isDelimiter c = false) := by
  have hne := List.ne_nil_of_mem_splitBy h
  have hchain := List.isChain_of_mem_splitBy h
  match token with
  | [] => exact absurd rfl hne
  | [c] => exact Or.inl ⟨c, rfl⟩
  | c :: d :: cs =>
    refine Or.inr ⟨hne, ?_⟩
    -- every character of the run is one of a pair of neighbours
    clear h hne
    induction cs generalizing c d with
    | nil => simpa using hchain
    | cons e cs ih =>
      obtain ⟨hcd, hchain⟩ := List.isChain_cons_cons.mp hchain
      intro x hx
      rcases List.mem_cons.mp hx with rfl | hx
      · simp only [Bool.and_eq_true, Bool.not_eq_true'] at hcd
        exact hcd.1
      · exact ih d e hchain x hx

theorem ne_of_isDelimiter_eq_false {c : Char} (h : isDelimiter c = false) :
    c ≠ '\\' ∧ c ≠ '"' ∧ c ≠ '\'' ∧ c ≠ ' ' := by
  simpa [isDelimiter, and_assoc] using h

/-- A run outside of quotes is appended, and ends what came before it. -/
theorem foldl_next_normal {run : Text} (hne : run ≠ [])
    (hrun : ∀ c ∈ run, isDelimiter c = false) {s : Scan} (hs : s.state = .normal) :
    run.foldl Scan.next s =
      { s with
        current := s.current ++ run
        lastTokenHasBeenQuoted := false
        lastTokenIsSlash := false } := by
  have hnext : ∀ c, isDelimiter c = false → ∀ s : Scan, s.state = .normal →
      s.next c =
        { s with
          current := s.current ++ [c]
          lastTokenHasBeenQuoted := false
          lastTokenIsSlash := false } := by
    intro c hc s hs
    obtain ⟨hslash, hdouble, hquote, hblank⟩ := ne_of_isDelimiter_eq_false hc
    simp only [Scan.next, hs, Scan.nextNormal, Scan.append]
    by_cases hescaped : s.lastTokenIsSlash = true
    · simp [hescaped]
    · simp [hescaped, hslash, hdouble, hquote, hblank]
  induction run generalizing s with
  | nil => exact absurd rfl hne
  | cons c cs ih =>
    have hc := hnext c (hrun c List.mem_cons_self) s hs
    rw [List.foldl_cons]
    cases cs with
    | nil => exact hc
    | cons d cs =>
      rw [ih (s := s.next c) (List.cons_ne_nil d cs)
        (fun x hx => hrun x (List.mem_cons_of_mem c hx)) (by rw [hc]; exact hs), hc]
      simp

/-- A run in single quotes is appended. -/
theorem foldl_next_inQuote {run : Text} (hrun : ∀ c ∈ run, isDelimiter c = false) {s : Scan}
    (hs : s.state = .inQuote) :
    run.foldl Scan.next s = { s with current := s.current ++ run } := by
  induction run generalizing s with
  | nil => simp
  | cons c cs ih =>
    have hquote := (ne_of_isDelimiter_eq_false (hrun c List.mem_cons_self)).2.2.1
    have hnext : s.next c = { s with current := s.current ++ [c] } := by
      simp [Scan.next, hs, hquote, Scan.append]
    rw [List.foldl_cons, ih (s := s.next c) (fun x hx => hrun x (List.mem_cons_of_mem c hx))
      (by rw [hnext]; exact hs), hnext]
    simp

/-- A run in double quotes is appended, behind a backslash that escapes nothing. -/
theorem foldl_next_inDoubleQuote {run : Text} (hne : run ≠ [])
    (hrun : ∀ c ∈ run, isDelimiter c = false) {s : Scan} (hs : s.state = .inDoubleQuote) :
    run.foldl Scan.next s =
      { s with
        current := s.current ++ (if s.lastTokenIsSlash then ['\\'] else []) ++ run
        lastTokenIsSlash := false } := by
  induction run generalizing s with
  | nil => exact absurd rfl hne
  | cons c cs ih =>
    obtain ⟨hslash, hdouble, -⟩ := ne_of_isDelimiter_eq_false (hrun c List.mem_cons_self)
    have hnext : s.next c =
        { s with
          current := s.current ++ (if s.lastTokenIsSlash then ['\\'] else []) ++ [c]
          lastTokenIsSlash := false } := by
      simp only [Scan.next, hs, Scan.nextDoubleQuote, hdouble, hslash, if_false, Scan.append]
      by_cases hescaped : s.lastTokenIsSlash = true
      · simp [hescaped]
      · simp [hescaped]
    rw [List.foldl_cons]
    cases cs with
    | nil => exact hnext
    | cons d cs =>
      rw [ih (s := s.next c) (List.cons_ne_nil d cs)
        (fun x hx => hrun x (List.mem_cons_of_mem c hx)) (by rw [hnext]; exact hs), hnext]
      simp

/-- One character as a token. -/
theorem nextToken_singleton (s : Scan) (c : Char) : s.nextToken [c] = s.next c := by
  cases hs : s.state with
  | inQuote => simp [Scan.nextToken, Scan.next, hs, Scan.append]
  | inDoubleQuote =>
    simp [Scan.nextToken, Scan.next, hs, Scan.nextTokenDoubleQuote, Scan.nextDoubleQuote,
      Scan.append]
  | normal =>
    simp [Scan.nextToken, Scan.next, hs, Scan.nextTokenNormal, Scan.nextNormal, Scan.append]

/-- A run is not a delimiter. -/
theorem ne_singleton_of_run {run : Text} (hrun : ∀ c ∈ run, isDelimiter c = false) {c : Char}
    (hc : isDelimiter c = true) : run ≠ [c] := by
  rintro rfl
  rw [hrun c List.mem_cons_self] at hc
  cases hc

/-- A token is read character by character. -/
theorem nextToken_eq {toProcess token : Text} (h : token ∈ tokens toProcess) (s : Scan) :
    s.nextToken token = token.foldl Scan.next s := by
  rcases token_cases h with ⟨c, rfl⟩ | ⟨hne, hrun⟩
  · exact nextToken_singleton s c
  · have hslash := ne_singleton_of_run hrun (c := '\\') rfl
    have hdouble := ne_singleton_of_run hrun (c := '"') rfl
    have hquote := ne_singleton_of_run hrun (c := '\'') rfl
    have hblank := ne_singleton_of_run hrun (c := ' ') rfl
    cases hs : s.state with
    | inQuote =>
      rw [foldl_next_inQuote hrun hs]
      simp [Scan.nextToken, hs, hquote]
    | inDoubleQuote =>
      rw [foldl_next_inDoubleQuote hne hrun hs]
      simp only [Scan.nextToken, hs, Scan.nextTokenDoubleQuote, hdouble, hslash, if_false]
      by_cases hescaped : s.lastTokenIsSlash = true
      · simp [hescaped]
      · simp [hescaped]
    | normal =>
      rw [foldl_next_normal hne hrun hs]
      simp only [Scan.nextToken, hs, Scan.nextTokenNormal, hdouble, hslash, hquote, hblank,
        if_false]
      by_cases hescaped : s.lastTokenIsSlash = true
      · simp [hescaped]
      · simp [hescaped]

/-- The tokens are read like the characters they consist of. -/
theorem foldl_nextToken {ts : List Text}
    (h : ∀ token ∈ ts, ∀ s : Scan, s.nextToken token = token.foldl Scan.next s) (s : Scan) :
    ts.foldl Scan.nextToken s = ts.flatten.foldl Scan.next s := by
  induction ts generalizing s with
  | nil => rfl
  | cons token ts ih =>
    rw [List.foldl_cons, List.flatten_cons, List.foldl_append, h token List.mem_cons_self,
      ih fun t ht => h t (List.mem_cons_of_mem token ht)]

theorem translateTokens_eq (toProcess : Text) :
    translateTokens toProcess = translateCommandline toProcess := by
  rw [translateTokens, foldl_nextToken fun token h s => nextToken_eq h s, tokens,
    List.flatten_splitBy, translateCommandline]

/-! ## Quoting -/

/-- What `toString` appends for one character. -/
def quoteChar (c : Char) : Text := if isDelimiter c then ['\\', c] else [c]

/-- One turn of the loop of `toString`. -/
def appendArgument (result arg : Text) : Text :=
  (if result ≠ [] then result ++ [' '] else result) ++ arg.flatMap quoteChar

/-- `toString`. -/
def toString (args : Option (List Text)) : Text :=
  match args with
  | none => []
  | some args => args.foldl appendArgument []

/-- A quoted character outside of quotes is read as that character. -/
theorem foldl_next_quoteChar (c : Char) {s : Scan} (hs : s.state = .normal)
    (hslash : s.lastTokenIsSlash = false) :
    (quoteChar c).foldl Scan.next s =
      { s with current := s.current ++ [c], lastTokenHasBeenQuoted := false } := by
  rw [quoteChar]
  split
  · simp [Scan.next, hs, Scan.nextNormal, hslash, Scan.append]
  next hc =>
    rw [foldl_next_normal (List.cons_ne_nil c []) (by simpa using hc) hs, ← hslash]

/-- A quoted argument is read into `current`. -/
theorem foldl_next_flatMap_quoteChar (arg : Text) {s : Scan} (hs : s.state = .normal)
    (hslash : s.lastTokenIsSlash = false) (hquoted : s.lastTokenHasBeenQuoted = false) :
    (arg.flatMap quoteChar).foldl Scan.next s = { s with current := s.current ++ arg } := by
  induction arg generalizing s with
  | nil => simp
  | cons c arg ih =>
    have hc := foldl_next_quoteChar c hs hslash
    rw [List.flatMap_cons, List.foldl_append, hc, ih (s := { s with
      current := s.current ++ [c], lastTokenHasBeenQuoted := false }) hs hslash rfl, ← hquoted]
    simp

/-- The arguments that are read from a text: those finished, and the current one. -/
def Scan.arguments (s : Scan) : List Text := if s.current ≠ [] then s.result ++ [s.current]
  else s.result

/-- After the text of some arguments, `translateCommandline` is outside of quotes, at an end of
arguments that are those given without the empty ones. -/
structure Scan.Reads (s : Scan) (args : List Text) : Prop where
  state : s.state = .normal
  slash : s.lastTokenIsSlash = false
  quoted : s.lastTokenHasBeenQuoted = false
  arguments : s.arguments = args.filter (· ≠ [])

/-- A blank ends the current argument. -/
theorem Scan.Reads.next_blank {s : Scan} {args : List Text} (h : s.Reads args) :
    (s.next ' ').Reads args ∧ (s.next ' ').current = [] := by
  have hnext : s.next ' ' = { s with result := s.arguments, current := [] } := by
    obtain ⟨state, result, current, quoted, slash⟩ := s
    obtain rfl : state = .normal := h.state
    obtain rfl : quoted = false := h.quoted
    obtain rfl : slash = false := h.slash
    by_cases hcurrent : current = []
    · simp [Scan.next, Scan.nextNormal, Scan.arguments, hcurrent]
    · simp [Scan.next, Scan.nextNormal, Scan.arguments, hcurrent]
  rw [hnext]
  exact ⟨⟨h.state, h.slash, h.quoted, by simpa [Scan.arguments] using h.arguments⟩, rfl⟩

/-- An argument that is read at the beginning or behind a blank. -/
theorem Scan.Reads.argument {s : Scan} {args : List Text} (h : s.Reads args)
    (hcurrent : s.current = []) (arg : Text) :
    ((arg.flatMap quoteChar).foldl Scan.next s).Reads (args ++ [arg]) := by
  have harguments : s.result = args.filter (· ≠ []) := by
    rw [← h.arguments, Scan.arguments, if_neg (not_not.mpr hcurrent)]
  rw [foldl_next_flatMap_quoteChar arg h.state h.slash h.quoted, hcurrent, List.nil_append]
  refine ⟨h.state, h.slash, h.quoted, ?_⟩
  rw [List.filter_append, ← harguments]
  by_cases harg : arg = []
  · simp [Scan.arguments, harg]
  · simp [Scan.arguments, harg]

/-- The text of one more argument. -/
theorem reads_appendArgument {text : Text} {args : List Text}
    (h : (text.foldl Scan.next {}).Reads args) (arg : Text) :
    ((appendArgument text arg).foldl Scan.next {}).Reads (args ++ [arg]) := by
  rw [appendArgument, List.foldl_append]
  by_cases htext : text = []
  · rw [if_neg (not_not.mpr htext)]
    refine h.argument ?_ arg
    rw [htext]
    rfl
  · rw [if_pos htext, List.foldl_append]
    exact h.next_blank.1.argument h.next_blank.2 arg

theorem reads_toString (args : List Text) :
    ((toString (some args)).foldl Scan.next {}).Reads args := by
  suffices hfrom : ∀ (rest done : List Text) (text : Text),
      (text.foldl Scan.next {}).Reads done →
        ((rest.foldl appendArgument text).foldl Scan.next {}).Reads (done ++ rest) from
    hfrom args [] [] ⟨rfl, rfl, rfl, rfl⟩
  intro rest
  induction rest with
  | nil => exact fun done text h => by rwa [List.append_nil]
  | cons arg rest ih =>
    intro done text h
    have hrest := ih _ _ (reads_appendArgument h arg)
    rwa [List.append_assoc, List.singleton_append] at hrest

/-- **Quoting.** What `toString` makes of some arguments is taken apart into the same arguments, in
order and without the empty ones. -/
theorem translateTokens_toString (args : List Text) :
    translateTokens (toString (some args)) = .ok (args.filter (· ≠ [])) := by
  have h := reads_toString args
  rw [translateTokens_eq, translateCommandline]
  simp only [h.state, h.slash, h.quoted, ne_eq, not_true_eq_false, if_false, Bool.false_or,
    decide_eq_true_eq, Bool.false_eq_true]
  exact congrArg Except.ok h.arguments

example : toString (some ["a b".toList, [], "\\\"".toList]) = "a\\ b  \\\\\\\"".toList := by decide

end Commandline
