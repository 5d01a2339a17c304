import DripVpn.Db.ParseJson
import Mathlib.Data.List.Dedup

/-!
# Shared fallbacks

Profiles of one document that ask for the same server as their fallback should share one row.
`finalize` compares a fallback with rows that were read before the loop, so it does not find the
rows of fallbacks that it created itself; it creates a fallback with its plugin; and of equal
profiles only the first keeps a link. `parseJson_sharesFallbacks_iff` says that nothing else goes
wrong.
-/

open Reactive

namespace JsonParser

variable (hash : HashOrder) (feature : Option Profile)

/-! ## The profiles of a document -/

mutual

/-- The profiles that `process` finds, each with the fallback it asks for. -/
def profilesIn : JsonElement → Except String (List (Profile × Option Profile))
  | .object members => do
    match ← tryParse hash feature members with
    | some found => return [found]
    | none => profilesInMembers members
  | .array elements => profilesInElements elements
  | .null | .string _ | .number _ | .boolean _ => return []

/-- The profiles in the elements of an array. -/
def profilesInElements : List JsonElement → Except String (List (Profile × Option Profile))
  | [] => return []
  | e :: es => do
    let found ← profilesIn e
    let found' ← profilesInElements es
    return found ++ found'

/-- The profiles in the values of members. -/
def profilesInMembers :
    List (String × JsonElement) → Except String (List (Profile × Option Profile))
  | [] => return []
  | (_, value) :: ms => do
    let found ← profilesIn value
    let found' ← profilesInMembers ms
    return found ++ found'

end

mutual

/-- The parser collects the profiles of the document. -/
theorem process_eq (parser : JsonParser) : (json : JsonElement) →
    process hash feature parser json = (profilesIn hash feature json).map (collect parser)
  | .object members => by
    rw [process, profilesIn]
    cases tryParse hash feature members with
    | error message => rfl
    | ok found =>
      cases found with
      | some found => rfl
      | none => exact processMembers_eq parser members
  | .array elements => by
    rw [process, profilesIn]
    exact processElements_eq parser elements
  | .null | .string _ | .number _ | .boolean _ => by
    rw [process, profilesIn]
    rfl

theorem processElements_eq (parser : JsonParser) : (elements : List JsonElement) →
    processElements hash feature parser elements =
      (profilesInElements hash feature elements).map (collect parser)
  | [] => by
    rw [processElements, profilesInElements]
    rfl
  | e :: es => by
    rw [processElements, profilesInElements, process_eq parser e]
    cases profilesIn hash feature e with
    | error message => rfl
    | ok found =>
      refine (processElements_eq (collect parser found) es).trans ?_
      cases profilesInElements hash feature es with
      | error message => rfl
      | ok found' => exact congrArg Except.ok (collect_append parser found found').symm

theorem processMembers_eq (parser : JsonParser) : (members : List (String × JsonElement)) →
    processMembers hash feature parser members =
      (profilesInMembers hash feature members).map (collect parser)
  | [] => by
    rw [processMembers, profilesInMembers]
    rfl
  | (key, value) :: ms => by
    rw [processMembers, profilesInMembers, process_eq parser value]
    cases profilesIn hash feature value with
    | error message => rfl
    | ok found =>
      refine (processMembers_eq (collect parser found) ms).trans ?_
      cases profilesInMembers hash feature ms with
      | error message => rfl
      | ok found' => exact congrArg Except.ok (collect_append parser found found').symm

end

/-- A parsed profile has no fallback yet. -/
theorem udpFallback_of_tryParseFallback {json : List (String × JsonElement)} {p : Profile}
    (h : tryParseFallback hash feature json = .ok (some p)) : p.udpFallback = none := by
  unfold tryParseFallback at h
  cases hrequired : requiredColumns json with
  | none =>
    rw [hrequired] at h
    cases h
  | some q =>
    have hq : q.udpFallback = none := by
      simp only [requiredColumns, Option.bind_eq_bind, Option.bind_eq_some_iff] at hrequired
      obtain ⟨_, -, _, -, _, -, _, -, heq⟩ := hrequired
      rw [← Option.some.inj heq]
    rw [hrequired] at h
    cases hplugin : pluginColumn hash json with
    | error message =>
      simp only [hplugin] at h
      cases h
    | ok plugin =>
      simp only [hplugin] at h
      rw [← Option.some.inj (Except.ok.inj h)]
      cases feature with
      | none => exact hq
      | some f => exact hq

theorem udpFallback_optionalColumns (json : List (String × JsonElement)) (p : Profile) :
    (optionalColumns json p).udpFallback = p.udpFallback := by
  unfold optionalColumns
  simp only
  split
  · rfl
  · rfl

theorem udpFallback_of_tryParse {json : List (String × JsonElement)}
    {found : Profile × Option Profile} (h : tryParse hash feature json = .ok (some found)) :
    found.1.udpFallback = none := by
  unfold tryParse at h
  cases hparse : tryParseFallback hash feature json with
  | error message =>
    rw [hparse] at h
    cases h
  | ok profile =>
    rw [hparse] at h
    cases profile with
    | none => cases h
    | some p =>
      have hp := udpFallback_of_tryParseFallback hash feature hparse
      have hcolumns : ∀ fallback, found = (optionalColumns json p, fallback) →
          found.1.udpFallback = none := by
        rintro fallback rfl
        exact (udpFallback_optionalColumns json p).trans hp
      simp only [bind, Except.bind] at h
      split at h
      next members _ =>
        cases hfallback : tryParseFallback hash feature members with
        | error message =>
          rw [hfallback] at h
          cases h
        | ok fallback =>
          rw [hfallback] at h
          exact hcolumns fallback (Option.some.inj (Except.ok.inj h)).symm
      · exact hcolumns none (Option.some.inj (Except.ok.inj h)).symm

mutual

/-- No profile of a document has a fallback yet. -/
theorem udpFallback_of_mem : (json : JsonElement) → ∀ found : List (Profile × Option Profile),
    profilesIn hash feature json = .ok found → ∀ x ∈ found, x.1.udpFallback = none
  | .object members => by
    intro found h
    rw [profilesIn] at h
    cases hparse : tryParse hash feature members with
    | error message =>
      rw [hparse] at h
      cases h
    | ok x =>
      rw [hparse] at h
      cases x with
      | some x =>
        obtain rfl : [x] = found := Except.ok.inj h
        intro y hy
        rw [List.mem_singleton.mp hy]
        exact udpFallback_of_tryParse hash feature hparse
      | none => exact udpFallback_of_mem_members members found h
  | .array elements => by
    intro found h
    rw [profilesIn] at h
    exact udpFallback_of_mem_elements elements found h
  | .null | .string _ | .number _ | .boolean _ => by
    intro found h
    rw [profilesIn] at h
    obtain rfl : [] = found := Except.ok.inj h
    exact fun x hx => by cases hx

theorem udpFallback_of_mem_elements : (elements : List JsonElement) →
    ∀ found : List (Profile × Option Profile),
    profilesInElements hash feature elements = .ok found → ∀ x ∈ found, x.1.udpFallback = none
  | [] => by
    intro found h
    rw [profilesInElements] at h
    obtain rfl : [] = found := Except.ok.inj h
    exact fun x hx => by cases hx
  | e :: es => by
    intro found h
    rw [profilesInElements] at h
    obtain ⟨found₁, h₁, h⟩ := bind_eq_ok_iff.mp h
    obtain ⟨found₂, h₂, h⟩ := bind_eq_ok_iff.mp h
    obtain rfl : found₁ ++ found₂ = found := Except.ok.inj h
    intro x hx
    rcases List.mem_append.mp hx with hx | hx
    · exact udpFallback_of_mem e found₁ h₁ x hx
    · exact udpFallback_of_mem_elements es found₂ h₂ x hx

theorem udpFallback_of_mem_members : (members : List (String × JsonElement)) →
    ∀ found : List (Profile × Option Profile),
    profilesInMembers hash feature members = .ok found → ∀ x ∈ found, x.1.udpFallback = none
  | [] => by
    intro found h
    rw [profilesInMembers] at h
    obtain rfl : [] = found := Except.ok.inj h
    exact fun x hx => by cases hx
  | (key, value) :: ms => by
    intro found h
    rw [profilesInMembers] at h
    obtain ⟨found₁, h₁, h⟩ := bind_eq_ok_iff.mp h
    obtain ⟨found₂, h₂, h⟩ := bind_eq_ok_iff.mp h
    obtain rfl : found₁ ++ found₂ = found := Except.ok.inj h
    intro x hx
    rcases List.mem_append.mp hx with hx | hx
    · exact udpFallback_of_mem value found₁ h₁ x hx
    · exact udpFallback_of_mem_members ms found₂ h₂ x hx

end

/-! ## The property and the condition -/

/-- Server, port, password and method. -/
def server (p : Profile) : String × ℤ × String × String :=
  (p.host, p.remotePort, p.password, p.method)

/-- A row with these four values and no plugin. -/
def isPlain (values : String × ℤ × String × String) (p : Profile) : Bool :=
  server p = values && p.plugin.getD "" = ""

/-- The values that fallbacks have, one for each profile that asks, and that no row and no profile
of the document has without a plugin. -/
def lacking (before : List Profile) (found : List (Profile × Option Profile)) :
    List (String × ℤ × String × String) :=
  ((found.filterMap Prod.snd).map server).filter fun values =>
    !(before ++ found.map Prod.fst).any (isPlain values)

/-- `rows` are the rows of the profiles, and `new` those that were created for fallbacks. -/
structure Shares (before : List Profile) (found : List (Profile × Option Profile))
    (rows new : List Profile) : Prop where
  same : ∀ x ∈ found.zip rows, ∀ y ∈ found.zip rows, ∀ f g, x.1.2 = some f → y.1.2 = some g →
    server f = server g → x.2.udpFallback = y.2.udpFallback
  target : ∀ x ∈ found.zip rows, ∀ f, x.1.2 = some f → ∃ row ∈ before ++ rows ++ new,
    x.2.udpFallback = some row.id ∧ isPlain (server f) row = true
  few : new.length ≤ (lacking before found).dedup.length

/-- When the fallbacks of a document are shared. -/
structure Shareable (before : List Profile) (found : List (Profile × Option Profile)) : Prop where
  /-- No profile that asks for a fallback comes after an equal profile. -/
  distinct : found.Pairwise fun x y => y.2 ≠ none → x.1 ≠ y.1
  /-- A fallback that has to be created has no plugin. -/
  plain : ∀ x ∈ found, ∀ f, x.2 = some f → server f ∈ lacking before found →
    f.plugin.getD "" = ""
  /-- It is asked for once. -/
  once : (lacking before found).Nodup

section

variable {before rows new : List Profile} {found : List (Profile × Option Profile)}
  {targets : List (Option Int64)} {sequence : ℕ}

theorem isMatch_eq_isPlain (f p : Profile) : isMatch f p = isPlain (server f) p := by
  rw [Bool.eq_iff_iff, isMatch_iff, isPlain, Bool.and_eq_true, decide_eq_true_eq,
    decide_eq_true_eq, server, server, Prod.mk.injEq, Prod.mk.injEq, Prod.mk.injEq]
  constructor
  · rintro ⟨h₁, h₂, h₃, h₄, hplugin⟩
    exact ⟨⟨h₁.symm, h₂.symm, h₃.symm, h₄.symm⟩, hplugin⟩
  · rintro ⟨⟨h₁, h₂, h₃, h₄⟩, hplugin⟩
    exact ⟨h₁.symm, h₂.symm, h₃.symm, h₄.symm, hplugin⟩

theorem isPlain_of_isRowOf {p row : Profile} (h : IsRowOf p row)
    (values : String × ℤ × String × String) : isPlain values row = isPlain values p := by
  obtain ⟨id, userOrder, rfl⟩ := h
  rfl

theorem isPlain_withFallback (row : Profile) (target : Option Int64)
    (values : String × ℤ × String × String) :
    isPlain values (withFallback row target) = isPlain values row := by
  cases target with
  | none => rfl
  | some target => rfl

/-- The rows of the profiles match what the profiles match. -/
theorem any_isPlain (hrows : List.Forall₂ (IsNewRowOf id sequence) (found.map Prod.fst) rows)
    (values : String × ℤ × String × String) :
    (before ++ rows).any (isPlain values) =
      (before ++ found.map Prod.fst).any (isPlain values) := by
  rw [List.any_append, List.any_append]
  congr 1
  generalize found.map Prod.fst = profiles at hrows
  induction hrows with
  | nil => rfl
  | @cons p row profiles rows hrow _ ih =>
    have hplain : isPlain values row = isPlain values p := isPlain_of_isRowOf hrow.1 values
    rw [List.any_cons, List.any_cons, hplain, ih]

/-- Whether no row matches a fallback, as `lacking` asks it. -/
theorem isNone_find? (hrows : List.Forall₂ (IsNewRowOf id sequence) (found.map Prod.fst) rows)
    (f : Profile) : ((before ++ rows).find? (isMatch f)).isNone =
      !(before ++ found.map Prod.fst).any (isPlain (server f)) := by
  rw [← any_isPlain hrows, ← funext (isMatch_eq_isPlain f), Bool.eq_iff_iff,
    Option.isNone_iff_eq_none, List.find?_eq_none, Bool.not_eq_true', List.any_eq_false]

/-- A fallback is created exactly if its values are lacking. -/
theorem mem_lacking_iff (hrows : List.Forall₂ (IsNewRowOf id sequence) (found.map Prod.fst) rows)
    {x : Profile × Option Profile} {f : Profile} (hx : x ∈ found) (hf : x.2 = some f) :
    server f ∈ lacking before found ↔ (before ++ rows).find? (isMatch f) = none := by
  have hasked : server f ∈ (found.filterMap Prod.snd).map server :=
    List.mem_map_of_mem (List.mem_filterMap.mpr ⟨x, hx, hf⟩)
  rw [lacking, List.mem_filter, and_iff_right hasked, ← isNone_find? hrows,
    Option.isNone_iff_eq_none]

/-- One row is created for each of the lacking values. -/
theorem length_new (hrows : List.Forall₂ (IsNewRowOf id sequence) (found.map Prod.fst) rows)
    (h : Resolved id sequence (before ++ rows) (found.map Prod.snd) targets new) :
    new.length = (lacking before found).length := by
  rw [h.length_new, lacking, List.filter_map, List.length_map, List.filterMap_map]
  congr 1
  apply List.filter_congr
  exact fun f _ => isNone_find? hrows f

/-- The values that are lacking, profile by profile. -/
theorem lacking_eq_filterMap (before : List Profile) (found : List (Profile × Option Profile)) :
    lacking before found = found.filterMap fun x => (x.2.map server).filter fun values =>
      !(before ++ found.map Prod.fst).any (isPlain values) := by
  rw [lacking, List.map_filterMap, List.filter_filterMap]

/-- A row is linked to what became of the fallback at its place. -/
theorem index_of_mem_zip (hnone : ∀ x ∈ found, x.1.udpFallback = none)
    (hrows : List.Forall₂ (IsNewRowOf id sequence) (found.map Prod.fst) rows)
    {x : (Profile × Option Profile) × Profile}
    (hx : x ∈ found.zip (List.zipWith withFallback rows targets)) :
    ∃ i : ℕ, found[i]? = some x.1 ∧ targets[i]? = some x.2.udpFallback := by
  obtain ⟨i, hi⟩ := List.mem_iff_getElem?.mp hx
  obtain ⟨hfound, hlinked⟩ := List.getElem?_zip_eq_some.mp hi
  obtain ⟨row, target, hrow, htarget, heq⟩ := List.getElem?_zipWith_eq_some.mp hlinked
  have hprofile : (found.map Prod.fst)[i]? = some x.1.1 := by rw [List.getElem?_map, hfound]; rfl
  have hrowNone : row.udpFallback = none := by
    obtain ⟨⟨id, userOrder, rfl⟩, -⟩ := forall₂_getElem? hrows hprofile hrow
    exact hnone x.1 (List.mem_of_getElem? hfound)
  refine ⟨i, hfound, ?_⟩
  rw [htarget, ← heq]
  cases target with
  | none => rw [withFallback, hrowNone]
  | some target => rfl

/-- Every profile has its row. -/
theorem mem_zip_of_index (hrows : List.Forall₂ (IsNewRowOf id sequence) (found.map Prod.fst) rows)
    {i : ℕ} {y : Profile × Option Profile} {target : Option Int64} (hy : found[i]? = some y)
    (htarget : targets[i]? = some target) :
    ∃ row, IsNewRowOf id sequence y.1 row ∧
      (y, withFallback row target) ∈ found.zip (List.zipWith withFallback rows targets) := by
  have hlt : i < rows.length := by
    rw [← hrows.length_eq, List.length_map]
    exact (List.getElem?_eq_some_iff.mp hy).1
  have hprofile : (found.map Prod.fst)[i]? = some y.1 := by rw [List.getElem?_map, hy]; rfl
  refine ⟨rows[i], forall₂_getElem? hrows hprofile (List.getElem?_eq_getElem hlt),
    List.mem_iff_getElem?.mpr ⟨i, ?_⟩⟩
  rw [List.getElem?_zip_eq_some, List.getElem?_zipWith_eq_some]
  exact ⟨hy, rows[i], target, List.getElem?_eq_getElem hlt, htarget, rfl⟩

/-- Of equal profiles only the first is linked, so a later one must not ask for a fallback. -/
theorem Shares.distinct (h : Shares before found (List.zipWith withFallback rows targets) new)
    (hnone : ∀ x ∈ found, x.1.udpFallback = none)
    (hrows : List.Forall₂ (IsNewRowOf id sequence) (found.map Prod.fst) rows)
    (hresolved : Resolved id sequence (before ++ rows)
      (assign (found.map Prod.fst) (collect {} found).fallbackMap) targets new) :
    found.Pairwise fun x y => y.2 ≠ none → x.1 ≠ y.1 := by
  rw [List.pairwise_iff_getElem]
  intro i j hi hj hij hasks heq
  obtain ⟨f, hf⟩ := Option.ne_none_iff_exists'.mp hasks
  have hprofile : (found.map Prod.fst)[j]? = some found[j].1 := by simp [hj]
  have hearlier : found[j].1 ∈ (found.map Prod.fst).take j := by
    rw [← heq, ← List.map_take]
    have hmem : found[i] ∈ found.take j := by
      rw [List.mem_take_iff_getElem]
      exact ⟨i, by omega, rfl⟩
    exact List.mem_map_of_mem hmem
  have htarget : targets[j]? = some none := by
    apply (hresolved.getElem? j).1
    rw [getElem?_assign _ hprofile, if_pos hearlier]
  obtain ⟨row, ⟨⟨id, userOrder, rfl⟩, -⟩, hmem⟩ :=
    mem_zip_of_index hrows (List.getElem?_eq_getElem hj) htarget
  obtain ⟨r, -, hlink, -⟩ := h.target _ hmem f hf
  replace hlink : found[j].1.udpFallback = some r.id := hlink
  rw [hnone _ (List.getElem_mem hj)] at hlink
  cases hlink

/-- The condition is necessary. -/
theorem Shares.shareable (h : Shares before found (List.zipWith withFallback rows targets) new)
    (hnodup : ((before ++ List.zipWith withFallback rows targets ++ new).map Profile.id).Nodup)
    (hnone : ∀ x ∈ found, x.1.udpFallback = none)
    (hrows : List.Forall₂ (IsNewRowOf id sequence) (found.map Prod.fst) rows)
    (hresolved : Resolved id sequence (before ++ rows)
      (assign (found.map Prod.fst) (collect {} found).fallbackMap) targets new) :
    Shareable before found := by
  have hdistinct := h.distinct hnone hrows hresolved
  rw [assign_collect hdistinct] at hresolved
  refine ⟨hdistinct, ?_, ?_⟩
  · intro x hx f hf hlacking
    rw [mem_lacking_iff hrows hx hf] at hlacking
    obtain ⟨i, hi⟩ := List.mem_iff_getElem?.mp hx
    have hassigned : (found.map Prod.snd)[i]? = some (some f) := by
      rw [List.getElem?_map, hi, Option.map_some, hf]
    obtain ⟨target, new₁, htarget, hsubset, hresolves⟩ := (hresolved.getElem? i).2 f hassigned
    rw [Resolves, hlacking] at hresolves
    obtain ⟨row, hrow, rfl, rfl⟩ := hresolves
    -- the row it is linked to is the one that was created for it
    obtain ⟨row₀, -, hmem⟩ := mem_zip_of_index hrows hi htarget
    obtain ⟨r, hr, hlink, hplain⟩ := h.target _ hmem f hf
    have hid : row.id = r.id := Option.some.inj hlink
    have hsame : row = r := List.inj_on_of_nodup_map hnodup
      (List.mem_append_right _ (hsubset List.mem_cons_self)) hr hid
    have hrowPlain : row.plugin = f.plugin := by
      obtain ⟨⟨id, userOrder, rfl⟩, -⟩ := hrow
      rfl
    rw [← hrowPlain, hsame]
    exact (by simpa [isPlain] using hplain : server r = server f ∧ r.plugin.getD "" = "").2
  · have hlength := h.few
    rw [length_new hrows hresolved] at hlength
    have heq := (List.dedup_sublist (lacking before found)).eq_of_length_le hlength
    exact List.dedup_eq_self.mp heq

/-- Profiles at different places do not lack the same values. -/
theorem Shareable.index_eq (h : Shareable before found) {i j : ℕ}
    {x y : Profile × Option Profile} {f g : Profile} (hx : found[i]? = some x)
    (hy : found[j]? = some y) (hf : x.2 = some f) (hg : y.2 = some g)
    (hserver : server f = server g) (hlacking : server f ∈ lacking before found) : i = j := by
  have hpairwise : found.Pairwise fun x y => ∀ f g, x.2 = some f → y.2 = some g →
      server f = server g → server f ∉ lacking before found := by
    have honce := h.once
    rw [lacking_eq_filterMap, List.Nodup, List.pairwise_filterMap] at honce
    refine honce.imp ?_
    intro x y hne f g hf hg hserver hlacking
    have habsent := (List.mem_filter.mp hlacking).2
    refine hne (server f) ?_ (server g) ?_ hserver
    · rw [hf, Option.map_some, Option.filter_some, if_pos habsent]
    · rw [hserver] at habsent
      rw [hg, Option.map_some, Option.filter_some, if_pos habsent]
  rw [List.pairwise_iff_getElem] at hpairwise
  obtain ⟨hi, rfl⟩ := List.getElem?_eq_some_iff.mp hx
  obtain ⟨hj, rfl⟩ := List.getElem?_eq_some_iff.mp hy
  rcases Nat.lt_trichotomy i j with hij | hij | hij
  · exact absurd hlacking (hpairwise i j hi hj hij f g hf hg hserver)
  · exact hij
  · rw [hserver] at hlacking
    exact absurd hlacking (hpairwise j i hj hi hij g f hg hf hserver.symm)

/-- Every row is there after the links are set. -/
theorem mem_zipWith_withFallback (hlength : rows.length = targets.length) {row : Profile}
    (hrow : row ∈ rows) : ∃ linkedRow ∈ List.zipWith withFallback rows targets, ∃ target,
      linkedRow = withFallback row target := by
  obtain ⟨k, hk⟩ := List.mem_iff_getElem?.mp hrow
  have hlt : k < targets.length := hlength ▸ (List.getElem?_eq_some_iff.mp hk).1
  refine ⟨withFallback row targets[k], List.mem_iff_getElem?.mpr ⟨k, ?_⟩, targets[k], rfl⟩
  exact List.getElem?_zipWith_eq_some.mpr ⟨row, targets[k], hk, List.getElem?_eq_getElem hlt, rfl⟩

/-- A profile that asks is linked to what became of its fallback, if none comes after an equal
one. -/
theorem resolves_of_mem_zip (hnone : ∀ x ∈ found, x.1.udpFallback = none)
    (hrows : List.Forall₂ (IsNewRowOf id sequence) (found.map Prod.fst) rows)
    (hresolved : Resolved id sequence (before ++ rows) (found.map Prod.snd) targets new)
    {x : (Profile × Option Profile) × Profile}
    (hx : x ∈ found.zip (List.zipWith withFallback rows targets)) {f : Profile}
    (hf : x.1.2 = some f) :
    ∃ (i : ℕ) (target : Int64) (new₁ : List Profile), found[i]? = some x.1 ∧
      targets[i]? = some (some target) ∧ x.2.udpFallback = some target ∧ new₁ ⊆ new ∧
      Resolves id sequence (before ++ rows) f target new₁ := by
  obtain ⟨i, hi, htarget⟩ := index_of_mem_zip hnone hrows hx
  have hassigned : (found.map Prod.snd)[i]? = some (some f) := by
    rw [List.getElem?_map, hi, Option.map_some, hf]
  obtain ⟨target, new₁, htarget', hsubset, hresolves⟩ := (hresolved.getElem? i).2 f hassigned
  rw [htarget'] at htarget
  exact ⟨i, target, new₁, hi, htarget', (Option.some.inj htarget).symm, hsubset, hresolves⟩

/-- A matched fallback is a row with its values, in the table as it is at the end. -/
theorem exists_row_of_find? (hlength : rows.length = targets.length) {f row : Profile}
    (hfind : (before ++ rows).find? (isMatch f) = some row) :
    ∃ r ∈ before ++ List.zipWith withFallback rows targets ++ new,
      some row.id = some r.id ∧ isPlain (server f) r = true := by
  have hplain : isPlain (server f) row = true := by
    rw [← isMatch_eq_isPlain]
    exact List.find?_some hfind
  rcases List.mem_append.mp (List.mem_of_find?_eq_some hfind) with hrow | hrow
  · exact ⟨row, List.mem_append_left _ (List.mem_append_left _ hrow), rfl, hplain⟩
  -- the row of a profile may be linked itself
  · obtain ⟨linkedRow, hmem, target, rfl⟩ := mem_zipWith_withFallback hlength hrow
    refine ⟨_, List.mem_append_left _ (List.mem_append_right _ hmem), ?_, ?_⟩
    · rw [withFallback_id]
    · rw [isPlain_withFallback]
      exact hplain

/-- The condition is enough. -/
theorem Shareable.shares (h : Shareable before found)
    (hnone : ∀ x ∈ found, x.1.udpFallback = none)
    (hrows : List.Forall₂ (IsNewRowOf id sequence) (found.map Prod.fst) rows)
    (hresolved : Resolved id sequence (before ++ rows)
      (assign (found.map Prod.fst) (collect {} found).fallbackMap) targets new) :
    Shares before found (List.zipWith withFallback rows targets) new := by
  rw [assign_collect h.distinct] at hresolved
  refine ⟨?_, ?_, ?_⟩
  · intro x hx y hy f g hf hg hserver
    obtain ⟨i, t, _, hi, hti, hxt, -, hft⟩ := resolves_of_mem_zip hnone hrows hresolved hx hf
    obtain ⟨j, u, _, hj, huj, hyu, -, hgu⟩ := resolves_of_mem_zip hnone hrows hresolved hy hg
    have hmatch : isMatch f = isMatch g := by
      rw [funext (isMatch_eq_isPlain f), funext (isMatch_eq_isPlain g), hserver]
    rw [hxt, hyu]
    cases hfind : (before ++ rows).find? (isMatch f) with
    | some row =>
      rw [Resolves, hfind] at hft
      rw [Resolves, ← hmatch, hfind] at hgu
      rw [hft.1, hgu.1]
    | none =>
      -- what is lacking is asked for at one place only
      have hlacking : server f ∈ lacking before found :=
        (mem_lacking_iff hrows (List.mem_of_getElem? hi) hf).mpr hfind
      obtain rfl := h.index_eq hi hj hf hg hserver hlacking
      exact Option.some.inj (hti.symm.trans huj)
  · intro x hx f hf
    obtain ⟨i, target, new₁, hi, -, hxt, hsubset, hresolves⟩ :=
      resolves_of_mem_zip hnone hrows hresolved hx hf
    rw [hxt]
    cases hfind : (before ++ rows).find? (isMatch f) with
    | some row =>
      rw [Resolves, hfind] at hresolves
      rw [hresolves.1]
      apply exists_row_of_find? _ hfind
      rw [hresolved.length_targets, List.length_map, ← hrows.length_eq, List.length_map]
    | none =>
      rw [Resolves, hfind] at hresolves
      obtain ⟨row, hrow, rfl, rfl⟩ := hresolves
      have hlacking : server f ∈ lacking before found :=
        (mem_lacking_iff hrows (List.mem_of_getElem? hi) hf).mpr hfind
      have hplugin := h.plain x.1 (List.mem_of_getElem? hi) f hf hlacking
      refine ⟨row, List.mem_append_right _ (hsubset List.mem_cons_self), rfl, ?_⟩
      have hsame : isPlain (server f) row = isPlain (server f) f := isPlain_of_isRowOf hrow.1 _
      rw [hsame]
      simp [isPlain, hplugin]
  · rw [length_new hrows hresolved, List.dedup_eq_self.mpr h.once]

end

/-- A row of a profile, with its key, its place and its fallback. -/
def IsLinkedRowOf (p row : Profile) : Prop :=
  ∃ row₀ target, IsRowOf p row₀ ∧ row = withFallback row₀ target

theorem forall₂_isLinkedRowOf {found : List (Profile × Option Profile)} {rows : List Profile}
    {targets : List (Option Int64)} {sequence : ℕ}
    (hrows : List.Forall₂ (IsNewRowOf id sequence) (found.map Prod.fst) rows)
    (hlength : rows.length = targets.length) :
    List.Forall₂ (fun x row => IsLinkedRowOf x.1 row) found
      (List.zipWith withFallback rows targets) := by
  rw [List.forall₂_map_left_iff] at hrows
  induction hrows generalizing targets with
  | nil => exact .nil
  | cons hrow _ ih =>
    cases targets with
    | nil => cases hlength
    | cons target targets =>
      exact .cons ⟨_, target, hrow.1, rfl⟩ (ih (Nat.succ.inj hlength))

/-- **Shared fallbacks.** After a document was imported, profiles that ask for the same server share
a row without a plugin, and no more rows were created than servers were lacking, if and only if no
profile that asks for a fallback comes after an equal one and every lacking server is asked for
once, without a plugin. -/
theorem parseJson_shares_iff {τ : Type} (hash : HashOrder) (feature : Option Profile)
    (json : JsonElement) {found : List (Profile × Option Profile)} (s : Heap τ)
    (db : ProfileDatabase) (hfound : profilesIn hash feature json = .ok found)
    (hcalls : (Profile.parseJson hash json feature ProfileManager.createProfile s).AllAccepted
      ProfileDatabase.service db) :
    ∃ s' db' rows new, (Profile.parseJson hash json feature ProfileManager.createProfile s).exec
        ProfileDatabase.perform db = ((.ok (), s'), db') ∧
      db'.table.rows = db.table.rows ++ rows ++ new ∧
      List.Forall₂ (fun x row => IsLinkedRowOf x.1 row) found rows ∧
      (Shares db.table.rows found rows new ↔ Shareable db.table.rows found) := by
  have hprocess : process hash feature {} json = .ok (collect {} found) := by
    rw [process_eq, hfound]
    rfl
  have hcreate : CreatesRows ProfileManager.createProfile id s.own := fun p s _ => rfl
  have hstart : At db.sequence s.own db.table.rows [] s db :=
    ⟨le_rfl, rfl, rfl, fun row hrow => by cases hrow⟩
  have h := ensures_parseJson_rows hcreate hash feature json db.table.rows s db hstart hcalls
  revert h
  rcases hexec : (Profile.parseJson hash json feature ProfileManager.createProfile s).exec
    ProfileDatabase.service.perform db with ⟨⟨e | _, s'⟩, db'⟩
  · rintro ⟨-, message, -, herror⟩
    rw [hprocess] at herror
    cases herror
  · rintro ⟨parser, added, hparser, ⟨rows, targets, new, rfl, hrows, hresolved⟩, hat⟩
    rw [hprocess] at hparser
    obtain rfl := Except.ok.inj hparser
    have hprofiles : (collect {} found).profiles = found.map Prod.fst := profiles_collect {} found
    rw [hprofiles] at hrows hresolved
    have hnone := udpFallback_of_mem hash feature json found hfound
    have hlength : rows.length = targets.length := by
      rw [hresolved.length_targets, length_assign, ← hrows.length_eq]
    have hafter : db'.table.rows =
        db.table.rows ++ List.zipWith withFallback rows targets ++ new := by
      rw [hat.rows, List.append_assoc]
    have hnodup := db'.table.nodup
    rw [hafter] at hnodup
    exact ⟨s', db', _, new, hexec, hafter, forall₂_isLinkedRowOf hrows hlength,
      fun hshares => hshares.shareable hnodup hnone hrows hresolved,
      fun hshareable => hshareable.shares hnone hrows hresolved⟩

/-- A profile on a server, with the server of its fallback. -/
def sampleProfile (server : String) (fallback : Option String) : JsonElement :=
  .object ([("server", .string server), ("server_port", .number "8388"),
    ("password", .string "test"), ("method", .string "aes-256-gcm")] ++
      fallback.elim [] fun server => [("udp_fallback", .object [("server", .string server),
        ("server_port", .number "8388"), ("password", .string "test"),
        ("method", .string "aes-256-gcm")])])

/-- The parsed profile on a server. -/
def sampleRow (server : String) : Profile :=
  { host := server, remotePort := 8388, password := "test", method := "aes-256-gcm", name := none }

/-- Two profiles share the third one of their document as their fallback. -/
theorem parseJson_shares_listed :
    ∃ s' db' rows new, (Profile.parseJson .insertion
        (.array [sampleProfile "a" (some "c"), sampleProfile "b" (some "c"),
          sampleProfile "c" none]) none ProfileManager.createProfile
        ({ objects := fun _ => {}, own := () } : Heap Unit)).exec
          ProfileDatabase.perform (.ofProfiles [{}]) = ((.ok (), s'), db') ∧
      db'.table.rows = (ProfileDatabase.ofProfiles [{}]).table.rows ++ rows ++ new ∧
      Shares (ProfileDatabase.ofProfiles [{}]).table.rows
        [(sampleRow "a", some (sampleRow "c")), (sampleRow "b", some (sampleRow "c")),
          (sampleRow "c", none)] rows new := by
  have hfound : profilesIn .insertion none (.array [sampleProfile "a" (some "c"),
      sampleProfile "b" (some "c"), sampleProfile "c" none]) =
        .ok [(sampleRow "a", some (sampleRow "c")), (sampleRow "b", some (sampleRow "c")),
          (sampleRow "c", none)] := by decide
  obtain ⟨s', db', rows, new, hexec, hrows, -, hiff⟩ := parseJson_shares_iff .insertion none _
    ({ objects := fun _ => {}, own := () } : Heap Unit) (.ofProfiles [{}]) hfound
    (by decide +kernel)
  have hlacking : lacking (ProfileDatabase.ofProfiles [{}]).table.rows
      [(sampleRow "a", some (sampleRow "c")), (sampleRow "b", some (sampleRow "c")),
        (sampleRow "c", none)] = [] := by decide
  refine ⟨s', db', rows, new, hexec, hrows, hiff.mpr ⟨by decide, ?_, ?_⟩⟩
  · intro x _ f _ hmem
    rw [hlacking] at hmem
    cases hmem
  · rw [hlacking]
    exact List.nodup_nil

/-- Two profiles that ask for the same server get two rows for it, 3 and 4. -/
theorem twoRows_not_shares :
    profilesIn .insertion none (.array [sampleProfile "a" (some "c"),
        sampleProfile "b" (some "c")]) =
      .ok [(sampleRow "a", some (sampleRow "c")), (sampleRow "b", some (sampleRow "c"))] ∧
    ∃ rows new, importRows .insertion (.array [sampleProfile "a" (some "c"),
        sampleProfile "b" (some "c")]) = rows ++ new ∧
      rows.map (fun row => (row.host, row.udpFallback)) = [("a", some 3), ("b", some 4)] ∧
      new.map (fun row => (row.host, row.id)) = [("c", 3), ("c", 4)] ∧
      ¬ Shares [] [(sampleRow "a", some (sampleRow "c")), (sampleRow "b", some (sampleRow "c"))]
        rows new := by
  have hnew : ((importRows .insertion (.array [sampleProfile "a" (some "c"),
      sampleProfile "b" (some "c")])).drop 2).map (fun row => (row.host, row.id)) =
        [("c", 3), ("c", 4)] := by decide +kernel
  refine ⟨by decide, _, _, (List.take_append_drop 2 _).symm, by decide +kernel, hnew, ?_⟩
  intro hshares
  have hlength := congrArg List.length hnew
  rw [List.length_map] at hlength
  have hfew := hshares.few
  rw [hlength] at hfew
  exact absurd hfew (by decide)

end JsonParser
