import DripVpn.Acl.AccessControl

/-!
# The tree of domains

`acl/sub_domains_tree.rs`: the domains of a list, label by label from the top level down. The access control
represents the tree by the paths to its included nodes (`insertPath`); here is the tree itself. Both match the
same hosts, which are the domains that were inserted and their subdomains (`contains_addTreeRules`).
-/

namespace Engine

/-! ## The source -/

/-- `DomainPart`. The children are a map from labels. -/
inductive DomainPart
  | mk (included : Bool) (children : List (Text × DomainPart))

/-- `HashMap<String, DomainPart>` -/
abbrev DomainParts := List (Text × DomainPart)

namespace DomainPart

def included : DomainPart → Bool
  | mk included _ => included

def children : DomainPart → DomainParts
  | mk _ children => children

/-- `DomainPart::new` -/
def new : DomainPart := mk false []

end DomainPart

namespace DomainParts

/-- `HashMap::get` -/
def get (parts : DomainParts) (part : Text) : Option DomainPart :=
  (parts.find? fun entry => entry.1 = part).map Prod.snd

/-- `HashMap::insert` -/
def put (parts : DomainParts) (part : Text) (value : DomainPart) : DomainParts :=
  (part, value) :: parts.filter fun entry => entry.1 ≠ part

/-- The loop of `insert`, over the rest of the labels. -/
def insert (currentMap : DomainParts) : List Text → DomainParts
  | [] => currentMap
  | part :: rest =>
    let entry := (currentMap.get part).getD .new
    -- `a.b.c` is not needed where there is `b.c`
    if entry.included then currentMap.put part entry
    -- the subdomains are removed
    else if rest = [] then currentMap.put part (.mk true [])
    else currentMap.put part (.mk false (insert entry.children rest))

/-- The loop of `contains`. -/
def contains (currentMap : DomainParts) : List Text → Bool
  | [] => false
  | part :: rest =>
    match currentMap.get part with
    | some el => el.included || contains el.children rest
    | none => false

end DomainParts

/-- `rsplit('.')` -/
def labels (value : Text) : List Text := (value.splitOn '.').reverse

/-- `SubDomainsTree` -/
structure SubDomainsTree where
  parts : DomainParts

namespace SubDomainsTree

/-- `SubDomainsTree::new` -/
def new : SubDomainsTree := ⟨[]⟩

/-- `SubDomainsTree::insert` -/
def insert (t : SubDomainsTree) (value : Text) : SubDomainsTree :=
  ⟨t.parts.insert ((labels value).map toAsciiLowercase)⟩

/-- `SubDomainsTree::contains` -/
def contains (t : SubDomainsTree) (value : Text) : Bool := t.parts.contains (labels value)

/-- `add_tree_rule_inner`, for an ASCII rule. -/
def addTreeRule (t : SubDomainsTree) (rule : Text) : SubDomainsTree := t.insert (trimEndDots rule)

end SubDomainsTree

/-! ## Insertion -/

namespace DomainParts

variable {m : DomainParts} {part part' : Text} {el : DomainPart} {path host : List Text}

@[simp]
theorem get_put_self (m : DomainParts) (part : Text) (el : DomainPart) :
    (m.put part el).get part = some el := by
  rw [put, get, List.find?_cons, decide_eq_true rfl]
  rfl

theorem get_put_of_ne (h : part' ≠ part) : (m.put part el).get part' = m.get part' := by
  rw [put, get, List.find?_cons_of_neg (by simpa using h.symm), get, List.find?_filter]
  congr 2
  funext entry
  by_cases hentry : entry.1 = part'
  · simp [hentry, h]
  · simp [hentry]

theorem contains_cons (m : DomainParts) (part : Text) (rest : List Text) :
    m.contains (part :: rest) = (m.get part).any fun el => el.included || el.children.contains rest := by
  rw [contains]
  cases m.get part <;> rfl

/-- Nothing changes for names under other labels. -/
theorem contains_put_of_ne {rest : List Text} (h : part' ≠ part) :
    (m.put part el).contains (part' :: rest) = m.contains (part' :: rest) := by
  rw [contains_cons, contains_cons, get_put_of_ne h]

theorem contains_put_self (m : DomainParts) (part : Text) (el : DomainPart) (rest : List Text) :
    (m.put part el).contains (part :: rest) = (el.included || el.children.contains rest) := by
  rw [contains_cons, get_put_self]
  rfl

/-- Where there was no node, a new one stands for nothing. -/
theorem contains_getD (m : DomainParts) (part : Text) (rest : List Text) :
    m.contains (part :: rest) =
      (((m.get part).getD .new).included || ((m.get part).getD .new).children.contains rest) := by
  rw [contains_cons]
  cases m.get part with
  | some el => rfl
  | none => cases rest <;> rfl

/-- After an insertion the tree contains what it did and everything below the new path. -/
theorem contains_insert (hpath : path ≠ []) :
    (m.insert path).contains host = true ↔ m.contains host = true ∨ path <+: host := by
  induction path generalizing m host with
  | nil => exact absurd rfl hpath
  | cons part rest ih =>
    cases host with
    | nil =>
      have hno : ¬ part :: rest <+: [] := fun h => by cases List.prefix_nil.mp h
      have hcontains (m : DomainParts) : m.contains [] = false := rfl
      rw [hcontains, hcontains]
      simp only [hno, or_false]
    | cons label host =>
      rw [insert]
      by_cases hlabel : label = part
      · subst hlabel
        rw [List.cons_prefix_cons, contains_getD m]
        by_cases hincluded : ((m.get label).getD .new).included = true
        · -- a shorter domain covers the path already
          rw [if_pos hincluded, contains_put_self, hincluded]
          simp only [Bool.true_or, true_or]
        · rw [if_neg hincluded]
          rw [Bool.not_eq_true] at hincluded
          by_cases hrest : rest = []
          · rw [if_pos hrest, contains_put_self, hrest]
            simp only [DomainPart.included, Bool.true_or, List.nil_prefix, and_self, or_true]
          · rw [if_neg hrest, contains_put_self, hincluded]
            simp only [DomainPart.included, DomainPart.children, Bool.false_or, true_and]
            exact ih hrest
      · -- the host is under another label, which the insertion leaves alone
        have hne : ¬ (part :: rest <+: label :: host) := fun h =>
          hlabel (List.cons_prefix_cons.mp h).1.symm
        simp only [hne, or_false]
        split_ifs <;> rw [contains_put_of_ne hlabel]

end DomainParts

/-- The same for the paths to the included nodes. -/
theorem any_insertPath {path host : List Text} {tree : List (List Text)} :
    (insertPath path tree).any (·.isPrefixOf host) = true ↔
      tree.any (·.isPrefixOf host) = true ∨ path <+: host := by
  rw [insertPath]
  split_ifs with hany
  · -- a path that is covered adds nothing
    refine (or_iff_left_of_imp fun hpath => ?_).symm
    obtain ⟨p, hp, hprefix⟩ := List.any_eq_true.mp hany
    exact List.any_eq_true.mpr ⟨p, hp, List.isPrefixOf_iff_prefix.mpr
      ((List.isPrefixOf_iff_prefix.mp hprefix).trans hpath)⟩
  · rw [List.any_cons, Bool.or_eq_true, List.isPrefixOf_iff_prefix, or_comm]
    refine or_congr_left' fun hpath => ?_
    rw [List.any_eq_true, List.any_eq_true]
    constructor
    · rintro ⟨p, hp, hprefix⟩
      exact ⟨p, (List.mem_filter.mp hp).1, hprefix⟩
    · rintro ⟨p, hp, hprefix⟩
      -- a path below the new one can only match what the new one matches
      refine ⟨p, List.mem_filter.mpr ⟨hp, ?_⟩, hprefix⟩
      rw [Bool.not_eq_true', Bool.eq_false_iff]
      intro hbelow
      exact hpath ((List.isPrefixOf_iff_prefix.mp hbelow).trans (List.isPrefixOf_iff_prefix.mp hprefix))

/-! ## Labels -/

theorem toLower_eq_dot_iff {c : Char} : c.toLower = '.' ↔ c = '.' := by
  by_cases hupper : c.val ≥ 'A'.val ∧ c.val ≤ 'Z'.val
  · -- the letters come after the dot, in either case
    have hlower : c.toLower.val = c.val + ('a'.val - 'A'.val) := congrArg Char.val (dif_pos hupper)
    obtain ⟨hA, hZ⟩ := hupper
    rw [ge_iff_le, UInt32.le_iff_toNat_le] at hA
    rw [UInt32.le_iff_toNat_le] at hZ
    rw [Char.ext_iff, Char.ext_iff, hlower, UInt32.ext_iff, UInt32.ext_iff]
    simp only [Char.reduceVal, UInt32.reduceToNat, UInt32.reduceSub, UInt32.toNat_add] at *
    omega
  · have hsame : c.toLower = c := dif_neg hupper
    rw [hsame]

theorem splitOn_toAsciiLowercase (value : Text) :
    (toAsciiLowercase value).splitOn '.' = (value.splitOn '.').map toAsciiLowercase := by
  induction value with
  | nil => rfl
  | cons c value ih =>
    rw [toAsciiLowercase] at ih ⊢
    rw [List.map_cons, List.splitOn_cons_eq_if_modifyHead, List.splitOn_cons_eq_if_modifyHead, ih]
    by_cases hdot : c = '.'
    · rw [if_pos (beq_iff_eq.mpr (toLower_eq_dot_iff.mpr hdot)), if_pos (beq_iff_eq.mpr hdot)]
      rfl
    · rw [if_neg fun h => hdot (toLower_eq_dot_iff.mp (beq_iff_eq.mp h)),
        if_neg fun h => hdot (beq_iff_eq.mp h)]
      cases value.splitOn '.' <;> rfl

theorem intercalate_append {sep : Text} {front back : List Text} (hfront : front ≠ [])
    (hback : back ≠ []) :
    sep.intercalate (front ++ back) = sep.intercalate front ++ sep ++ sep.intercalate back := by
  induction front with
  | nil => exact absurd rfl hfront
  | cons l front ih =>
    cases front with
    | nil => rw [List.singleton_append, List.intercalate_cons_of_ne_nil hback, List.intercalate_singleton]
    | cons l' front =>
      have hmore : l' :: front ++ back ≠ [] := List.cons_ne_nil _ _
      have hrest : l' :: front ≠ [] := List.cons_ne_nil _ _
      rw [List.cons_append, List.intercalate_cons_of_ne_nil hmore, ih hrest,
        List.intercalate_cons_of_ne_nil hrest]
      simp only [List.append_assoc]

/-- A domain stands for itself and everything that ends with a dot and it. -/
theorem labels_prefix_iff {domain host : Text} :
    labels domain <+: labels host ↔ host = domain ∨ '.' :: domain <:+ host := by
  rw [labels, labels, List.reverse_prefix]
  constructor
  · rintro ⟨front, hfront⟩
    have hhost : ['.'].intercalate (host.splitOn '.') = host := List.intercalate_splitOn '.'
    have hdomain : ['.'].intercalate (domain.splitOn '.') = domain := List.intercalate_splitOn '.'
    cases front with
    | nil =>
      left
      rw [← hhost, ← hfront, List.nil_append, hdomain]
    | cons l front =>
      right
      refine ⟨['.'].intercalate (l :: front), ?_⟩
      rw [← hhost, ← hfront, intercalate_append (List.cons_ne_nil _ _) (List.splitOn_ne_nil _ _), hdomain,
        List.append_assoc]
      rfl
  · rintro (rfl | ⟨front, rfl⟩)
    · exact List.suffix_rfl
    · rw [List.splitOn_append_cons_self]
      exact List.suffix_append _ _

/-! ## A list of domains -/

theorem contains_addTreeRule (t : SubDomainsTree) (rule host : Text) :
    (t.addTreeRule rule).contains host = true ↔
      t.contains host = true ∨ labels (toAsciiLowercase (trimEndDots rule)) <+: labels host := by
  have hlabels : (labels (trimEndDots rule)).map toAsciiLowercase =
      labels (toAsciiLowercase (trimEndDots rule)) := by
    rw [labels, labels, splitOn_toAsciiLowercase, List.map_reverse]
  have hne : labels (toAsciiLowercase (trimEndDots rule)) ≠ [] :=
    List.reverse_ne_nil_iff.mpr (List.splitOn_ne_nil _ _)
  rw [SubDomainsTree.addTreeRule, SubDomainsTree.insert, SubDomainsTree.contains, hlabels]
  exact DomainParts.contains_insert hne

theorem any_addHost_treeRule (r : Rules) (rule host : Text) :
    (r.addHost (treeRule rule)).ruleTree.any (·.isPrefixOf (labels host)) = true ↔
      r.ruleTree.any (·.isPrefixOf (labels host)) = true ∨
        labels (toAsciiLowercase (trimEndDots rule)) <+: labels host := by
  have hpath : treeRule rule = .tree (labels (toAsciiLowercase (trimEndDots rule))) := by
    rw [treeRule, labels, splitOn_toAsciiLowercase, List.map_reverse]
  rw [hpath, Rules.addHost]
  exact any_insertPath

theorem contains_foldl_addTreeRule (rules : List Text) (t : SubDomainsTree) (host : Text) :
    (rules.foldl SubDomainsTree.addTreeRule t).contains host = true ↔ t.contains host = true ∨
      ∃ rule ∈ rules, labels (toAsciiLowercase (trimEndDots rule)) <+: labels host := by
  induction rules generalizing t with
  | nil => simp only [List.foldl_nil, List.not_mem_nil, false_and, exists_false, or_false]
  | cons rule rules ih =>
    rw [List.foldl_cons, ih, contains_addTreeRule, or_assoc]
    simp only [List.mem_cons, exists_eq_or_imp]

theorem any_foldl_addHost (rules : List Text) (r : Rules) (host : Text) :
    (rules.foldl (fun r rule => r.addHost (treeRule rule)) r).ruleTree.any
      (·.isPrefixOf (labels host)) = true ↔ r.ruleTree.any (·.isPrefixOf (labels host)) = true ∨
      ∃ rule ∈ rules, labels (toAsciiLowercase (trimEndDots rule)) <+: labels host := by
  induction rules generalizing r with
  | nil => simp only [List.foldl_nil, List.not_mem_nil, false_and, exists_false, or_false]
  | cons rule rules ih =>
    rw [List.foldl_cons, ih, any_addHost_treeRule, or_assoc]
    simp only [List.mem_cons, exists_eq_or_imp]

/-- The tree of a list of domains matches exactly these and their subdomains, whatever their order and
however they cover each other, and it matches what the paths of the access control match. -/
theorem contains_addTreeRules (rules : List Text) (host : Text) :
    ((rules.foldl SubDomainsTree.addTreeRule .new).contains host = true ↔
      ∃ rule ∈ rules, host = toAsciiLowercase (trimEndDots rule) ∨
        '.' :: toAsciiLowercase (trimEndDots rule) <:+ host) ∧
    (rules.foldl SubDomainsTree.addTreeRule .new).contains host =
      (rules.foldl (fun r rule => r.addHost (treeRule rule)) Rules.new).ruleTree.any
        (·.isPrefixOf (labels host)) := by
  have hnew : SubDomainsTree.new.contains host = true ↔ False := by
    rw [SubDomainsTree.contains, SubDomainsTree.new]
    cases labels host <;> simp [DomainParts.contains, DomainParts.get]
  constructor
  · rw [contains_foldl_addTreeRule, hnew, false_or]
    simp only [labels_prefix_iff]
  · rw [Bool.eq_iff_iff, contains_foldl_addTreeRule, any_foldl_addHost, hnew]
    simp only [Rules.new, List.any_nil, Bool.false_eq_true]

end Engine
