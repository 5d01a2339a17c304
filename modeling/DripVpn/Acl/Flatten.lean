import DripVpn.Acl.RoundTrip
import DripVpn.Foundations.ListMap
import Mathlib.Data.List.Chain

/-!
# Flattening an access control list

`Acl.flatten` replaces the import directives of a list by what they import, to a given depth. Each
imported text is parsed with the mode of the importing list as default, is flattened itself, and
loses its subnets when its mode differs.

`ImportPath` is a chain of imports. `flatten_closure` says that flattening collects the entries at
the ends of the import paths of bounded length, the subnets only along paths of a constant mode,
and that the order in which the texts list their imports does not matter. Import graphs may be
cyclic: the induction is on the depth.
-/

open Reactive Kotlin

namespace Acl

variable {P : Platform}

/-- Add what a flattened import holds; subnets for a different mode are discarded. -/
def merge (a child : Acl P) : Acl P :=
  { a with
    bypassHostnames := a.bypassHostnames.addAll child.bypassHostnames.items
    proxyHostnames := a.proxyHostnames.addAll child.proxyHostnames.items
    subnets :=
      if a.bypass ≠ child.bypass then a.subnets else a.subnets.addAll child.subnets.items }

/-- One round of the loop of `Acl.flatten`, where `connect` opens a URL and reads its text. -/
def flattenImport (connect : Text → Except AclException Text)
    (flattenChild : Acl P → Except AclException (Acl P)) (a : Acl P) (url : Text) :
    Except AclException (Acl P) := do
  let text ← connect url
  let child ← fromReader P text a.bypass
  let child ← flattenChild child
  return merge a child

/-- `Acl.flatten` -/
def flatten (connect : Text → Except AclException Text) : ℕ → Acl P → Except AclException (Acl P)
  | 0, a => .ok { a with urls := .empty }
  | depth + 1, a => do
    let a ← a.urls.items.foldlM (flattenImport connect (flatten connect depth)) a
    return { a with urls := .empty }

/-! ## Import paths -/

/-- The list `a` imports `c`. -/
def Imports (fetch : Text → Text) (a c : Acl P) : Prop :=
  ∃ url ∈ a.urls, fromReader P (fetch url) a.bypass = .ok c

/-- A chain of imports that starts at `a`. -/
structure ImportPath (fetch : Text → Text) (a : Acl P) where
  /-- The imported lists, in order. -/
  visits : List (Acl P)
  isChain : (a :: visits).IsChain (Imports fetch)

namespace ImportPath

variable {fetch : Text → Text} {a : Acl P}

/-- The number of imports. -/
def length (p : ImportPath fetch a) : ℕ := p.visits.length

/-- The list at the end of the path. -/
def last (p : ImportPath fetch a) : Acl P := (a :: p.visits).getLast (by simp)

/-- A path of bounded length either stays at its start or starts with an import. -/
theorem exists_succ_iff {C Q : Acl P → Prop} {n : ℕ} :
    (∃ p : ImportPath fetch a, p.length ≤ n + 1 ∧ (∀ c ∈ p.visits, C c) ∧ Q p.last) ↔
      Q a ∨ ∃ c, Imports fetch a c ∧ C c ∧
        ∃ p : ImportPath fetch c, p.length ≤ n ∧ (∀ d ∈ p.visits, C d) ∧ Q p.last := by
  constructor
  · rintro ⟨⟨visits, hchain⟩, hlen, hC, hQ⟩
    cases visits with
    | nil => exact Or.inl hQ
    | cons c visits =>
      obtain ⟨hac, hchain⟩ := List.isChain_cons_cons.mp hchain
      refine Or.inr ⟨c, hac, hC c (by simp), ⟨visits, hchain⟩, ?_, fun d hd => hC d (by simp [hd]),
        hQ⟩
      simpa [length] using hlen
  · rintro (hQ | ⟨c, hac, hc, ⟨visits, hchain⟩, hlen, hC, hQ⟩)
    · exact ⟨⟨[], by simp⟩, by simp [length], by simp, hQ⟩
    · refine ⟨⟨c :: visits, List.isChain_cons_cons.mpr ⟨hac, hchain⟩⟩, ?_, ?_, hQ⟩
      · simpa [length] using hlen
      · exact List.forall_mem_cons.mpr ⟨hc, hC⟩

/-- A path of length zero ends where it starts. -/
theorem exists_zero_iff {C Q : Acl P → Prop} :
    (∃ p : ImportPath fetch a, p.length ≤ 0 ∧ (∀ c ∈ p.visits, C c) ∧ Q p.last) ↔ Q a := by
  constructor
  · rintro ⟨⟨visits, hchain⟩, hlen, -, hQ⟩
    obtain rfl : visits = [] := List.length_eq_zero_iff.mp (Nat.le_zero.mp hlen)
    exact hQ
  · exact fun hQ => ⟨⟨[], by simp⟩, by simp [length], by simp, hQ⟩

end ImportPath

/-! ## One level -/

@[simp]
theorem merge_bypass (a c : Acl P) : (merge a c).bypass = a.bypass := rfl

theorem mem_merge_bypassHostnames {a c : Acl P} {h : Text} :
    h ∈ (merge a c).bypassHostnames ↔ h ∈ a.bypassHostnames ∨ h ∈ c.bypassHostnames := by
  rw [merge, SortedList.mem_addAll exact_stringSorter, ← SortedList.mem_def]
  exact or_comm

theorem mem_merge_proxyHostnames {a c : Acl P} {h : Text} :
    h ∈ (merge a c).proxyHostnames ↔ h ∈ a.proxyHostnames ∨ h ∈ c.proxyHostnames := by
  rw [merge, SortedList.mem_addAll exact_stringSorter, ← SortedList.mem_def]
  exact or_comm

theorem mem_merge_subnets {a c : Acl P} {n : Subnet} :
    n ∈ (merge a c).subnets ↔ n ∈ a.subnets ∨ c.bypass = a.bypass ∧ n ∈ c.subnets := by
  by_cases h : a.bypass = c.bypass
  · simp only [merge, h, ne_eq, not_true_eq_false, ↓reduceIte, true_and]
    rw [SortedList.mem_addAll Subnet.exact_sorter, ← SortedList.mem_def]
    exact or_comm
  · simp [merge, h, Ne.symm h]

section Fetch

variable (fetch : Text → Text)

/-- What the loop merges into `a` for `url`: the text is read under the mode of `a` and flattened
to the given depth. -/
def FlattensTo (depth : ℕ) (a : Acl P) (url : Text) (k : Acl P) : Prop :=
  ∃ c, fromReader P (fetch url) a.bypass = .ok c ∧
    flatten (fun url => .ok (fetch url)) depth c = .ok k

variable {fetch}

theorem FlattensTo.unique {depth : ℕ} {a : Acl P} {url : Text} {k k' : Acl P}
    (h : FlattensTo fetch depth a url k) (h' : FlattensTo fetch depth a url k') : k = k' := by
  obtain ⟨c, hc, hk⟩ := h
  obtain ⟨c', hc', hk'⟩ := h'
  obtain rfl : c = c' := Except.ok.inj (hc.symm.trans hc')
  exact Except.ok.inj (hk.symm.trans hk')

/-- The first import of the loop, or a later one. -/
theorem exists_flattensTo_cons_iff {depth : ℕ} {a k : Acl P} {url : Text} {us : List Text}
    (hk : FlattensTo fetch depth a url k) {Q : Acl P → Prop} :
    (∃ u ∈ url :: us, ∃ k, FlattensTo fetch depth a u k ∧ Q k) ↔
      Q k ∨ ∃ u ∈ us, ∃ k, FlattensTo fetch depth a u k ∧ Q k := by
  constructor
  · rintro ⟨u, hu, k', hk', hQ⟩
    rcases List.mem_cons.mp hu with rfl | hu
    · exact Or.inl (hk.unique hk' ▸ hQ)
    · exact Or.inr ⟨u, hu, k', hk', hQ⟩
  · rintro (hQ | ⟨u, hu, h⟩)
    · exact ⟨url, by simp, k, hk, hQ⟩
    · exact ⟨u, by simp [hu], h⟩

/-- The loop over imports that can all be read and flattened merges them into the list. -/
theorem flattenLoop_spec {depth : ℕ}
    (htotal : ∀ (a : Acl P) url, ∃ k, FlattensTo fetch depth a url k) (us : List Text)
    (a : Acl P) :
    ∃ r, us.foldlM (flattenImport (fun url => .ok (fetch url))
        (flatten (fun url => .ok (fetch url)) depth)) a = .ok r ∧ r.bypass = a.bypass ∧
      (∀ h, h ∈ r.bypassHostnames ↔
        h ∈ a.bypassHostnames ∨ ∃ u ∈ us, ∃ k, FlattensTo fetch depth a u k ∧
          h ∈ k.bypassHostnames) ∧
      (∀ h, h ∈ r.proxyHostnames ↔
        h ∈ a.proxyHostnames ∨ ∃ u ∈ us, ∃ k, FlattensTo fetch depth a u k ∧
          h ∈ k.proxyHostnames) ∧
      ∀ n, n ∈ r.subnets ↔
        n ∈ a.subnets ∨ ∃ u ∈ us, ∃ k, FlattensTo fetch depth a u k ∧
          (k.bypass = a.bypass ∧ n ∈ k.subnets) := by
  induction us generalizing a with
  | nil => exact ⟨a, rfl, rfl, by simp, by simp, by simp⟩
  | cons url us ih =>
    obtain ⟨k, hk⟩ := htotal a url
    obtain ⟨r, hr, hbypass, hb, hp, hn⟩ := ih (merge a k)
    -- the mode does not change, so later imports are read as they would be without this one
    have hmode : ∀ u k', FlattensTo fetch depth (merge a k) u k' ↔ FlattensTo fetch depth a u k' :=
      fun u k' => Iff.rfl
    refine ⟨r, ?_, hbypass, fun h => ?_, fun h => ?_, fun n => ?_⟩
    · obtain ⟨c, hc, hck⟩ := hk
      have hstep : flattenImport (fun url => .ok (fetch url))
          (flatten (fun url => .ok (fetch url)) depth) a url = .ok (merge a k) := by
        simp only [flattenImport, bind, Except.bind, hc, hck, pure, Except.pure]
      rw [List.foldlM_cons, hstep]
      exact hr
    · rw [hb, mem_merge_bypassHostnames, exists_flattensTo_cons_iff hk, or_assoc]
      simp only [hmode]
    · rw [hp, mem_merge_proxyHostnames, exists_flattensTo_cons_iff hk, or_assoc]
      simp only [hmode]
    · rw [hn, mem_merge_subnets, exists_flattensTo_cons_iff hk, or_assoc]
      simp only [hmode, merge_bypass]

/-- Flattening to depth `n + 1`: the list itself and its imports flattened to depth `n`. -/
theorem flatten_succ_spec {n : ℕ} (htotal : ∀ (a : Acl P) url, ∃ k, FlattensTo fetch n a url k)
    (a : Acl P) :
    ∃ r, flatten (fun url => .ok (fetch url)) (n + 1) a = .ok r ∧ r.urls = .empty ∧
      r.bypass = a.bypass ∧
      (∀ h, h ∈ r.bypassHostnames ↔
        h ∈ a.bypassHostnames ∨ ∃ u ∈ a.urls, ∃ k, FlattensTo fetch n a u k ∧
          h ∈ k.bypassHostnames) ∧
      (∀ h, h ∈ r.proxyHostnames ↔
        h ∈ a.proxyHostnames ∨ ∃ u ∈ a.urls, ∃ k, FlattensTo fetch n a u k ∧
          h ∈ k.proxyHostnames) ∧
      ∀ m, m ∈ r.subnets ↔
        m ∈ a.subnets ∨ ∃ u ∈ a.urls, ∃ k, FlattensTo fetch n a u k ∧
          (k.bypass = a.bypass ∧ m ∈ k.subnets) := by
  obtain ⟨r, hr, hbypass, hb, hp, hn⟩ := flattenLoop_spec htotal a.urls.items a
  refine ⟨{ r with urls := .empty }, ?_, rfl, hbypass, hb, hp, hn⟩
  rw [flatten, hr]
  rfl

theorem exists_flattensTo_iff {n : ℕ} {a : Acl P} {R : Acl P → Prop} :
    (∃ u ∈ a.urls, ∃ k, FlattensTo fetch n a u k ∧ R k) ↔
      ∃ c, Imports fetch a c ∧ ∃ k, flatten (fun url => .ok (fetch url)) n c = .ok k ∧ R k := by
  constructor
  · rintro ⟨u, hu, k, ⟨c, hc, hk⟩, hR⟩
    exact ⟨c, ⟨u, hu, hc⟩, k, hk, hR⟩
  · rintro ⟨c, ⟨u, hu, hc⟩, k, hk, hR⟩
    exact ⟨u, hu, k, ⟨c, hc, hk⟩, hR⟩

/-! ## All levels -/

/-- Flattening to depth `n` turned `a` into `r`: the entries of `r` are those at the ends of
the import paths. -/
structure IsClosure (fetch : Text → Text) (n : ℕ) (a r : Acl P) : Prop where
  urls : r.urls = .empty
  bypass : r.bypass = a.bypass
  bypassHostnames : ∀ h, h ∈ r.bypassHostnames ↔
    ∃ p : ImportPath fetch a, p.length ≤ n ∧ h ∈ p.last.bypassHostnames
  proxyHostnames : ∀ h, h ∈ r.proxyHostnames ↔
    ∃ p : ImportPath fetch a, p.length ≤ n ∧ h ∈ p.last.proxyHostnames
  subnets : ∀ m, m ∈ r.subnets ↔
    ∃ p : ImportPath fetch a, p.length ≤ n ∧ (∀ c ∈ p.visits, c.bypass = a.bypass) ∧
      m ∈ p.last.subnets

/-- Paths whose lists are not constrained, one import longer. -/
theorem exists_path_succ_iff {n : ℕ} {a : Acl P} {Q : Acl P → Prop} :
    (∃ p : ImportPath fetch a, p.length ≤ n + 1 ∧ Q p.last) ↔
      Q a ∨ ∃ c, Imports fetch a c ∧ ∃ p : ImportPath fetch c, p.length ≤ n ∧ Q p.last := by
  have h := @ImportPath.exists_succ_iff P fetch a (fun _ => True) Q n
  simpa using h

theorem exists_path_zero_iff {a : Acl P} {Q : Acl P → Prop} :
    (∃ p : ImportPath fetch a, p.length ≤ 0 ∧ Q p.last) ↔ Q a := by
  have h := @ImportPath.exists_zero_iff P fetch a (fun _ => True) Q
  simpa using h

/-- One more level: the imports of `a` are closed at depth `n`, so `a` is at depth `n + 1`. -/
theorem isClosure_succ {n : ℕ}
    (ih : ∀ c : Acl P, ∃ k, flatten (fun url => .ok (fetch url)) n c = .ok k ∧
      IsClosure fetch n c k)
    (hfetch : ∀ url d, ∃ c : Acl P, fromReader P (fetch url) d = .ok c) (a : Acl P) :
    ∃ r, flatten (fun url => .ok (fetch url)) (n + 1) a = .ok r ∧
      IsClosure fetch (n + 1) a r := by
  have htotal : ∀ (a : Acl P) url, ∃ k, FlattensTo fetch n a url k := fun a url => by
    obtain ⟨c, hc⟩ := hfetch url a.bypass
    obtain ⟨k, hk, -⟩ := ih c
    exact ⟨k, c, hc, hk⟩
  -- the flattened import is determined, so what holds of it may be said of its closure
  have hchild : ∀ {R S : Acl P → Prop},
      (∀ c k, IsClosure fetch n c k → (R k ↔ S c)) →
      ((∃ u ∈ a.urls, ∃ k, FlattensTo fetch n a u k ∧ R k) ↔ ∃ c, Imports fetch a c ∧ S c) := by
    intro R S hRS
    rw [exists_flattensTo_iff]
    refine exists_congr fun c => and_congr_right fun _ => ⟨?_, fun hS => ?_⟩
    · rintro ⟨k, hk, hR⟩
      obtain ⟨k', hk', hclosure⟩ := ih c
      obtain rfl : k = k' := Except.ok.inj (hk.symm.trans hk')
      exact (hRS c k hclosure).mp hR
    · obtain ⟨k, hk, hclosure⟩ := ih c
      exact ⟨k, hk, (hRS c k hclosure).mpr hS⟩
  obtain ⟨r, hr, hurls, hbypass, hb, hp, hm⟩ := flatten_succ_spec htotal a
  refine ⟨r, hr, hurls, hbypass, fun h => ?_, fun h => ?_, fun m => ?_⟩
  · rw [hb, exists_path_succ_iff (Q := fun c => h ∈ c.bypassHostnames)]
    exact or_congr_right (hchild fun c k hk => hk.bypassHostnames h)
  · rw [hp, exists_path_succ_iff (Q := fun c => h ∈ c.proxyHostnames)]
    exact or_congr_right (hchild fun c k hk => hk.proxyHostnames h)
  · rw [hm, ImportPath.exists_succ_iff (C := fun c => c.bypass = a.bypass)
      (Q := fun c => m ∈ c.subnets)]
    refine or_congr_right (hchild fun c k hk => ?_)
    rw [hk.bypass, hk.subnets]
    exact and_congr_right fun hmode => by rw [hmode]

/-- Flattening terminates with the closure of the imports. -/
theorem exists_flatten_isClosure
    (hfetch : ∀ url d, ∃ c : Acl P, fromReader P (fetch url) d = .ok c) (n : ℕ) (a : Acl P) :
    ∃ r, flatten (fun url => .ok (fetch url)) n a = .ok r ∧ IsClosure fetch n a r := by
  induction n generalizing a with
  | zero =>
    refine ⟨{ a with urls := .empty }, rfl, rfl, rfl, fun h => ?_, fun h => ?_, fun m => ?_⟩
    · rw [exists_path_zero_iff (Q := fun c => h ∈ c.bypassHostnames)]
    · rw [exists_path_zero_iff (Q := fun c => h ∈ c.proxyHostnames)]
    · exact (ImportPath.exists_zero_iff (a := a) (C := fun c => c.bypass = a.bypass)
        (Q := fun c => m ∈ c.subnets)).symm
  | succ n ih => exact isClosure_succ ih hfetch a

end Fetch

/-! ## The order of the imports -/

/-- The rules and headers of a list of lines, without comments and blank lines. -/
def inputs (ls : List Text) : List Text :=
  (ls.map fun l => trim (Text.splitFirst '#' l).1).filter (· ≠ [])

/-- The import directives of a list of lines. -/
def importSpecs (ls : List Text) : List Text :=
  ls.filterMap fun l => importUrl ((Text.splitFirst '#' l).2.getD [])

/-- The texts have the same rules and headers, and the same imports in any order. -/
structure ReordersImports (t t' : Text) : Prop where
  inputs_eq : inputs (Text.lines t) = inputs (Text.lines t')
  perm : (importSpecs (Text.lines t)).Perm (importSpecs (Text.lines t'))

/-- The state with other imports. -/
def withUrls (U : SortedList P.toUrls.sorter) (s : ParseState (Acl P)) : ParseState (Acl P) :=
  { s with sink := { s.sink with urls := U } }

/-- Rules and headers neither look at the imports nor change them. -/
theorem parseInput_withUrls (U : SortedList P.toUrls.sorter) (s : ParseState (Acl P))
    (input : Text) :
    parseInput P sinks (withUrls U s) input = (parseInput P sinks s input).map (withUrls U) := by
  unfold parseInput
  split_ifs
  · have hheader : parseHeader (withUrls U s) input =
        (parseHeader s input).map (withUrls U) := by
      unfold parseHeader
      split_ifs <;> rfl
    rw [hheader]
    cases parseHeader s input <;> rfl
  · rfl
  · rw [Except.map]
    congr 1
    have hcurrent : (withUrls U s).current = s.current := rfl
    unfold parseRule
    rw [hcurrent]
    cases s.current <;> cases Subnet.fromString P.toNumericAddresses input <;> rfl

theorem parseInput_urls {s s' : ParseState (Acl P)} {input : Text}
    (h : parseInput P sinks s input = .ok s') : s'.sink.urls = s.sink.urls := by
  -- the state is the one with its own imports
  have hself := parseInput_withUrls s.sink.urls s input
  have : withUrls s.sink.urls s = s := rfl
  rw [this, h] at hself
  have heq : s' = withUrls s.sink.urls s' := Except.ok.inj hself
  rw [heq]
  rfl

theorem run_inputs_withUrls (U : SortedList P.toUrls.sorter) (is : List Text)
    (s : ParseState (Acl P)) :
    is.foldlM (parseInput P sinks) (withUrls U s) =
      (is.foldlM (parseInput P sinks) s).map (withUrls U) := by
  induction is generalizing s with
  | nil => rfl
  | cons i is ih =>
    rw [List.foldlM_cons, List.foldlM_cons, parseInput_withUrls]
    cases parseInput P sinks s i with
    | error e => rfl
    | ok s₁ => exact ih s₁

/-- One line: the import of its comment, then the rule or header in front. -/
theorem parseLine_eq_ok_iff {s s' : ParseState (Acl P)} {l : Text} :
    parseLine P sinks s l = .ok s' ↔ ∃ us s₁, (importSpecs [l]).mapM P.URL = some us ∧
      (inputs [l]).foldlM (parseInput P sinks) s = .ok s₁ ∧
      s' = withUrls (s.sink.urls.addAll us) s₁ := by
  have hinputs : (inputs [l]).foldlM (parseInput P sinks) s =
      parseInput P sinks s (trim (Text.splitFirst '#' l).1) := by
    by_cases hnil : trim (Text.splitFirst '#' l).1 = []
    · simp [inputs, hnil, parseInput, pure, Except.pure]
    · simp [inputs, hnil]
  rw [hinputs, parseLine_sinks, parseImport]
  cases himport : importUrl ((Text.splitFirst '#' l).2.getD []) with
  | none =>
    have hspecs : (importSpecs [l]).mapM P.URL = some [] := by simp [importSpecs, himport]
    have hself : ∀ s₁, parseInput P sinks s (trim (Text.splitFirst '#' l).1) = .ok s₁ →
        withUrls s.sink.urls s₁ = s₁ := fun s₁ h => by rw [← parseInput_urls h]; rfl
    simp only [hspecs, Option.some_inj, exists_and_left, exists_eq_left', SortedList.addAll_nil]
    constructor
    · exact fun h => ⟨s', h, (hself s' h).symm⟩
    · rintro ⟨s₁, h, rfl⟩
      rw [hself s₁ h]
      exact h
  | some spec =>
    cases hURL : P.URL spec with
    | none =>
      have hspecs : (importSpecs [l]).mapM P.URL = none := by simp [importSpecs, himport, hURL]
      simp [hspecs, hURL, Except.bind]
    | some u =>
      have hspecs : (importSpecs [l]).mapM P.URL = some [u] := by
        simp [importSpecs, himport, hURL]
      have hinput := parseInput_withUrls (s.sink.urls.add u) s (trim (Text.splitFirst '#' l).1)
      simp only [hspecs, hURL, Option.some_inj, exists_and_left, exists_eq_left']
      change parseInput P sinks (withUrls (s.sink.urls.add u) s) _ = _ ↔ _
      rw [hinput]
      cases parseInput P sinks s (trim (Text.splitFirst '#' l).1) with
      | error e => simp [Except.map]
      | ok s₁ =>
        simp only [Except.map, Except.ok.injEq, exists_eq_left']
        exact eq_comm

theorem inputs_cons (l : Text) (ls : List Text) : inputs (l :: ls) = inputs [l] ++ inputs ls := by
  simp only [inputs, List.map_cons, List.map_nil, ← List.filter_append, List.singleton_append]

theorem importSpecs_cons (l : Text) (ls : List Text) :
    importSpecs (l :: ls) = importSpecs [l] ++ importSpecs ls := by
  simp only [importSpecs, ← List.filterMap_append, List.singleton_append]

/-- The run over the lines of a text: its imports on one side, its rules and headers on the
other. -/
theorem run_eq_ok_iff {ls : List Text} {s s' : ParseState (Acl P)} :
    ls.foldlM (parseLine P sinks) s = .ok s' ↔ ∃ us s₁, (importSpecs ls).mapM P.URL = some us ∧
      (inputs ls).foldlM (parseInput P sinks) s = .ok s₁ ∧
      s' = withUrls (s.sink.urls.addAll us) s₁ := by
  induction ls generalizing s with
  | nil =>
    have hs : withUrls s.sink.urls s = s := rfl
    simp [importSpecs, inputs, pure, Except.pure, hs, eq_comm]
  | cons l ls ih =>
    rw [List.foldlM_cons, Reactive.bind_eq_ok_iff, inputs_cons, importSpecs_cons,
      List.foldlM_append, List.mapM_append]
    constructor
    · rintro ⟨s₂, hl, hls⟩
      obtain ⟨us, s₁, hus, hs₁, rfl⟩ := parseLine_eq_ok_iff.mp hl
      obtain ⟨vs, s₃, hvs, hs₃, rfl⟩ := ih.mp hls
      rw [run_inputs_withUrls] at hs₃
      -- the imports read so far do not matter to the rules that follow
      cases hs₄ : (inputs ls).foldlM (parseInput P sinks) s₁ with
      | error e =>
        rw [hs₄] at hs₃
        cases hs₃
      | ok s₄ =>
        rw [hs₄] at hs₃
        obtain rfl := Except.ok.inj hs₃
        refine ⟨us ++ vs, s₄, by simp [hus, hvs], by rw [hs₁]; exact hs₄, ?_⟩
        simp [withUrls, SortedList.addAll]
    · rintro ⟨ws, s₄, hws, hs₄, rfl⟩
      obtain ⟨us, hus, hws⟩ := Option.bind_eq_some_iff.mp hws
      obtain ⟨vs, hvs, hws⟩ := Option.bind_eq_some_iff.mp hws
      obtain rfl := Option.some_inj.mp hws
      cases hs₁ : (inputs [l]).foldlM (parseInput P sinks) s with
      | error e =>
        rw [hs₁] at hs₄
        cases hs₄
      | ok s₁ =>
        rw [hs₁] at hs₄
        refine ⟨withUrls (s.sink.urls.addAll us) s₁, parseLine_eq_ok_iff.mpr
          ⟨us, s₁, hus, hs₁, rfl⟩, ih.mpr ⟨vs, withUrls (s.sink.urls.addAll us) s₄, hvs, ?_, ?_⟩⟩
        · rw [run_inputs_withUrls]
          rw [show (inputs ls).foldlM (parseInput P sinks) s₁ = .ok s₄ from hs₄]
          rfl
        · simp [withUrls, SortedList.addAll]

/-- Equal but for the choice between URLs that count as the same. -/
structure Agrees (a b : Acl P) : Prop where
  bypass : a.bypass = b.bypass
  bypassHostnames : ∀ h, h ∈ a.bypassHostnames ↔ h ∈ b.bypassHostnames
  proxyHostnames : ∀ h, h ∈ a.proxyHostnames ↔ h ∈ b.proxyHostnames
  subnets : ∀ n, n ∈ a.subnets ↔ n ∈ b.subnets
  urls : ∀ u ∈ a.urls, ∃ v ∈ b.urls, P.toUrls.sorter.same u v = true
  urls' : ∀ v ∈ b.urls, ∃ u ∈ a.urls, P.toUrls.sorter.same v u = true

theorem Agrees.symm {a b : Acl P} (h : a.Agrees b) : b.Agrees a :=
  ⟨h.bypass.symm, fun x => (h.bypassHostnames x).symm, fun x => (h.proxyHostnames x).symm,
    fun n => (h.subnets n).symm, h.urls', h.urls⟩

theorem ReordersImports.symm {t t' : Text} (h : ReordersImports t t') : ReordersImports t' t :=
  ⟨h.inputs_eq.symm, h.perm.symm⟩

/-- A function that is defined on a list is defined on its permutations. -/
theorem exists_mapM_perm {f : Text → Option Text} {l l' us : List Text} (h : l.Perm l')
    (hus : l.mapM f = some us) : ∃ vs, l'.mapM f = some vs ∧ us.Perm vs := by
  induction h generalizing us with
  | nil => exact ⟨us, hus, List.Perm.refl us⟩
  | cons x _ ih =>
    simp only [List.mapM_cons, bind, Option.bind_eq_some_iff, pure, Option.some_inj] at hus
    obtain ⟨u, hu, us, hl, rfl⟩ := hus
    obtain ⟨vs, hvs, hperm⟩ := ih hl
    exact ⟨u :: vs, by simp [hu, hvs], hperm.cons u⟩
  | swap x y l =>
    simp only [List.mapM_cons, bind, Option.bind_eq_some_iff, pure, Option.some_inj] at hus
    obtain ⟨u, hu, _, ⟨v, hv, us, hl, rfl⟩, rfl⟩ := hus
    exact ⟨v :: u :: us, by simp [hu, hv, hl], List.Perm.swap v u us⟩
  | trans _ _ ih ih' =>
    obtain ⟨vs, hvs, hperm⟩ := ih hus
    obtain ⟨ws, hws, hperm'⟩ := ih' hvs
    exact ⟨ws, hws, hperm.trans hperm'⟩

/-- Adding URLs leaves one that is the same as each of them. -/
theorem exists_same_of_perm {S : Sorter Text} {us vs : List Text} (h : us.Perm vs) :
    ∀ u ∈ (SortedList.empty : SortedList S).addAll us,
      ∃ v ∈ (SortedList.empty : SortedList S).addAll vs, S.same u v = true := by
  intro u hu
  have hmem : u ∈ us := (SortedList.mem_of_mem_addAll hu).resolve_right (SortedList.not_mem_empty u)
  exact SortedList.exists_same_of_mem (h.mem_iff.mp hmem)

/-- The order of its imports does not matter to what a text is read as. -/
theorem fromReader_reorders {t t' : Text} (h : ReordersImports t t') {d : Bool} {a : Acl P}
    (ha : fromReader P t d = .ok a) : ∃ b, fromReader P t' d = .ok b ∧ a.Agrees b := by
  obtain ⟨s, hrun, rfl⟩ := fromReader_eq_ok_iff.mp ha
  obtain ⟨us, s₁, hus, hs₁, rfl⟩ := run_eq_ok_iff.mp hrun
  obtain ⟨vs, hvs, hperm⟩ := exists_mapM_perm h.perm hus
  refine ⟨_, fromReader_eq_ok_iff.mpr ⟨withUrls ((startParse d (Acl.new P)).sink.urls.addAll vs) s₁,
    run_eq_ok_iff.mpr ⟨vs, s₁, hvs, h.inputs_eq ▸ hs₁, rfl⟩, rfl⟩, rfl, fun _ => Iff.rfl,
    fun _ => Iff.rfl, fun _ => Iff.rfl, ?_, ?_⟩
  · exact exists_same_of_perm hperm
  · exact exists_same_of_perm hperm.symm

section Reorder

variable {fetch fetch' : Text → Text}
  (hfetch : ∀ url d, ∃ c : Acl P, fromReader P (fetch url) d = .ok c)
  (hsame : ∀ u v, P.toUrls.sorter.same u v = true → fetch u = fetch v)
  (hreorder : ∀ url, ReordersImports (fetch url) (fetch' url))

include hfetch in
theorem exists_flattensTo (n : ℕ) (a : Acl P) (url : Text) :
    ∃ k, FlattensTo fetch n a url k := by
  obtain ⟨c, hc⟩ := hfetch url a.bypass
  obtain ⟨k, hk, -⟩ := exists_flatten_isClosure hfetch n c
  exact ⟨k, c, hc, hk⟩

include hfetch hreorder in
theorem exists_fromReader_of_reorders (url : Text) (d : Bool) :
    ∃ c : Acl P, fromReader P (fetch' url) d = .ok c := by
  obtain ⟨c, hc⟩ := hfetch url d
  obtain ⟨c', hc', -⟩ := fromReader_reorders (hreorder url) hc
  exact ⟨c', hc'⟩

include hfetch hsame hreorder in
/-- The flattened imports of two lists that agree, when flattening respects that at this depth. -/
theorem exists_flattensTo_reorders {n : ℕ}
    (ih : ∀ {a b r k : Acl P}, a.Agrees b →
      flatten (fun url => .ok (fetch url)) n a = .ok r →
      flatten (fun url => .ok (fetch' url)) n b = .ok k → k.SameEntries r)
    {a b : Acl P} (hab : a.Agrees b) {R : Acl P → Prop}
    (hR : ∀ k k' : Acl P, k'.SameEntries k → (R k' ↔ R k)) :
    (∃ v ∈ b.urls, ∃ k, FlattensTo fetch' n b v k ∧ R k) ↔
      ∃ u ∈ a.urls, ∃ k, FlattensTo fetch n a u k ∧ R k := by
  constructor
  · rintro ⟨v, hv, k', ⟨c', hc', hk'⟩, hRk⟩
    obtain ⟨u, hu, hvu⟩ := hab.urls' v hv
    obtain ⟨c, hc, hagrees⟩ := fromReader_reorders (hreorder v).symm hc'
    obtain ⟨k, hk, -⟩ := exists_flatten_isClosure hfetch n c
    rw [hsame v u hvu, ← hab.bypass] at hc
    exact ⟨u, hu, k, ⟨c, hc, hk⟩, (hR k k' (ih hagrees.symm hk hk')).mp hRk⟩
  · rintro ⟨u, hu, k, ⟨c, hc, hk⟩, hRk⟩
    obtain ⟨v, hv, huv⟩ := hab.urls u hu
    rw [hsame u v huv, hab.bypass] at hc
    obtain ⟨c', hc', hagrees⟩ := fromReader_reorders (hreorder v) hc
    obtain ⟨k', hk', -⟩ := exists_flatten_isClosure
      (exists_fromReader_of_reorders hfetch hreorder) n c'
    exact ⟨v, hv, k', ⟨c', hc', hk'⟩, (hR k k' (ih hagrees hk hk')).mpr hRk⟩

include hfetch hsame hreorder in
/-- Texts that list their imports in another order give the same flattened list. -/
theorem flatten_reorders (n : ℕ) {a b r k : Acl P} (hab : a.Agrees b)
    (hr : flatten (fun url => .ok (fetch url)) n a = .ok r)
    (hk : flatten (fun url => .ok (fetch' url)) n b = .ok k) : k.SameEntries r := by
  induction n generalizing a b r k with
  | zero =>
    obtain rfl := Except.ok.inj hr
    obtain rfl := Except.ok.inj hk
    exact ⟨hab.bypass.symm, fun h => (hab.bypassHostnames h).symm,
      fun h => (hab.proxyHostnames h).symm, fun m => (hab.subnets m).symm, fun u => Iff.rfl⟩
  | succ n ih =>
    have htransfer := @exists_flattensTo_reorders P fetch fetch' hfetch hsame hreorder n ih a b hab
    obtain ⟨r', hr', hurls, hbypass, hb, hp, hm⟩ :=
      flatten_succ_spec (exists_flattensTo hfetch n) a
    obtain ⟨k', hk', hurls', hbypass', hb', hp', hm'⟩ :=
      flatten_succ_spec (exists_flattensTo (exists_fromReader_of_reorders hfetch hreorder) n) b
    obtain rfl : r = r' := Except.ok.inj (hr.symm.trans hr')
    obtain rfl : k = k' := Except.ok.inj (hk.symm.trans hk')
    refine ⟨by rw [hbypass, hbypass', hab.bypass], fun h => ?_, fun h => ?_, fun m => ?_,
      fun u => by rw [hurls, hurls']⟩
    · rw [hb, hb', hab.bypassHostnames, htransfer fun k k' hkk => hkk.bypassHostnames h]
    · rw [hp, hp', hab.proxyHostnames, htransfer fun k k' hkk => hkk.proxyHostnames h]
    · rw [hm, hm', hab.subnets, hab.bypass,
        htransfer (R := fun k => k.bypass = b.bypass ∧ m ∈ k.subnets)
          fun k k' hkk => by rw [hkk.bypass, hkk.subnets]]

end Reorder

/-- Flattening to depth `n`, with texts that can all be read: it terminates with the closure of
the imports. Where URLs that count as the same have one text, neither the order of the imports in
the texts nor in the list matters. -/
theorem flatten_closure (fetch : Text → Text)
    (hfetch : ∀ url d, ∃ c : Acl P, fromReader P (fetch url) d = .ok c) (n : ℕ) (a : Acl P) :
    ∃ r, flatten (fun url => .ok (fetch url)) n a = .ok r ∧ IsClosure fetch n a r ∧
      ((∀ u v, P.toUrls.sorter.same u v = true → fetch u = fetch v) →
        ∀ (fetch' : Text → Text) (b : Acl P),
          (∀ url, ReordersImports (fetch url) (fetch' url)) → a.Agrees b →
            ∃ k, flatten (fun url => .ok (fetch' url)) n b = .ok k ∧ k.SameEntries r) := by
  obtain ⟨r, hr, hclosure⟩ := exists_flatten_isClosure hfetch n a
  refine ⟨r, hr, hclosure, fun hsame fetch' b hreorder hab => ?_⟩
  obtain ⟨k, hk, -⟩ := exists_flatten_isClosure (exists_fromReader_of_reorders hfetch hreorder) n b
  exact ⟨k, hk, flatten_reorders hfetch hsame hreorder n hab hr hk⟩

/-- An import graph with a cycle: every URL leads to the same text, which imports a URL. -/
theorem flatten_closure_sampleText :
    ∃ a r : Acl samplePlatform, fromReader samplePlatform sampleText false = .ok a ∧
      flatten (fun _ => .ok sampleText) 10 a = .ok r ∧ IsClosure (fun _ => sampleText) 10 a r := by
  obtain ⟨a, ha⟩ := exists_fromReader_sampleText false
  obtain ⟨r, hr, hclosure, -⟩ :=
    flatten_closure (fun _ => sampleText) (fun _ => exists_fromReader_sampleText) 10 a
  exact ⟨a, r, ha, hr, hclosure⟩

end Acl
