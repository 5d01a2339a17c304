import Mathlib.Data.List.Forall2
import Mathlib.Tactic.Common

/-!
# Element by element

Lists that are processed element by element, by a function that may fail: which results they have,
and how an element of one list is found again in the other.
-/

namespace Reactive

variable {ε α β : Type}

theorem exists_eq_ok_of_isOk {x : Except ε α} (h : x.isOk = true) : ∃ a, x = .ok a := by
  cases x with
  | error e => cases h
  | ok a => exact ⟨a, rfl⟩

/-- A sequence returns exactly if both parts do. -/
theorem bind_eq_ok_iff {x : Except ε α} {f : α → Except ε β} {b : β} :
    x >>= f = .ok b ↔ ∃ a, x = .ok a ∧ f a = .ok b := by
  cases x with
  | error e =>
    constructor
    · intro h
      cases h
    · rintro ⟨a, h, -⟩
      cases h
  | ok a =>
    refine ⟨fun h => ⟨a, rfl, h⟩, ?_⟩
    rintro ⟨a', h, hf⟩
    obtain rfl := Except.ok.inj h
    exact hf

/-- `mapM` accepts a list exactly if it accepts every element. -/
theorem mapM_eq_ok_iff {f : α → Except ε β} {as : List α} {bs : List β} :
    as.mapM f = .ok bs ↔ List.Forall₂ (fun a b => f a = .ok b) as bs := by
  induction as generalizing bs with
  | nil =>
    rw [List.mapM_nil, List.forall₂_nil_left_iff]
    constructor
    · intro h
      exact (Except.ok.inj h).symm
    · rintro rfl
      rfl
  | cons a as ih =>
    rw [List.mapM_cons, List.forall₂_cons_left_iff]
    constructor
    · intro h
      obtain ⟨b, hb, h⟩ := bind_eq_ok_iff.mp h
      obtain ⟨bs', hbs, h⟩ := bind_eq_ok_iff.mp h
      exact ⟨b, bs', hb, ih.mp hbs, (Except.ok.inj h).symm⟩
    · rintro ⟨b, bs', hb, hbs, rfl⟩
      rw [hb, ih.mpr hbs]
      rfl

theorem exists_of_mem_left {R : α → β → Prop} {as : List α} {bs : List β}
    (h : List.Forall₂ R as bs) {a : α} (ha : a ∈ as) : ∃ b ∈ bs, R a b := by
  induction h with
  | nil => cases ha
  | cons hab _ ih =>
    rcases List.mem_cons.mp ha with rfl | ha
    · exact ⟨_, List.mem_cons_self, hab⟩
    · obtain ⟨b, hb, hr⟩ := ih ha
      exact ⟨b, List.mem_cons_of_mem _ hb, hr⟩

theorem exists_of_mem_right {R : α → β → Prop} {as : List α} {bs : List β}
    (h : List.Forall₂ R as bs) {b : β} (hb : b ∈ bs) : ∃ a ∈ as, R a b :=
  exists_of_mem_left h.flip hb

/-- Elements at the same place are related. -/
theorem forall₂_getElem? {R : α → β → Prop} {as : List α} {bs : List β} (h : List.Forall₂ R as bs)
    {i : ℕ} {a : α} {b : β} (ha : as[i]? = some a) (hb : bs[i]? = some b) : R a b := by
  obtain ⟨hi, ha⟩ := List.getElem?_eq_some_iff.mp ha
  obtain ⟨hi', hb⟩ := List.getElem?_eq_some_iff.mp hb
  have hget := (List.forall₂_iff_get.mp h).2 i hi hi'
  rwa [List.get_eq_getElem, List.get_eq_getElem, ha, hb] at hget

/-- Related lists are split at the same place. -/
theorem forall₂_split {R : α → β → Prop} {as pre : List α} {a : α} {post : List α}
    {bs : List β} (h : List.Forall₂ R as bs) (has : as = pre ++ a :: post) :
    ∃ pre' b post', bs = pre' ++ b :: post' ∧ R a b ∧ List.Forall₂ R post post' := by
  induction pre generalizing as bs with
  | nil =>
    rw [has, List.nil_append, List.forall₂_cons_left_iff] at h
    obtain ⟨b, post', hab, hpost, rfl⟩ := h
    exact ⟨[], b, post', rfl, hab, hpost⟩
  | cons x pre ih =>
    rw [has, List.cons_append, List.forall₂_cons_left_iff] at h
    obtain ⟨y, bs', -, hrest, rfl⟩ := h
    obtain ⟨pre', b, post', rfl, hab, hpost⟩ := ih hrest rfl
    exact ⟨y :: pre', b, post', rfl, hab, hpost⟩

/-- A list is accepted if its elements are. -/
theorem exists_mapM_eq_ok_iff {f : α → Except ε β} {as : List α} :
    (∃ bs, as.mapM f = .ok bs) ↔ ∀ a ∈ as, ∃ b, f a = .ok b := by
  constructor
  · rintro ⟨bs, hbs⟩ a ha
    obtain ⟨b, -, hb⟩ := exists_of_mem_left (mapM_eq_ok_iff.mp hbs) ha
    exact ⟨b, hb⟩
  · intro h
    induction as with
    | nil => exact ⟨[], rfl⟩
    | cons a as ih =>
      obtain ⟨b, hb⟩ := h a List.mem_cons_self
      obtain ⟨bs, hbs⟩ := ih fun x hx => h x (List.mem_cons_of_mem _ hx)
      exact ⟨b :: bs, mapM_eq_ok_iff.mpr (.cons hb (mapM_eq_ok_iff.mp hbs))⟩

/-- A list whose elements have the results of a function. -/
theorem mapM_eq_ok_map {f : α → Except ε β} {g : α → β} {as : List α}
    (h : ∀ a ∈ as, f a = .ok (g a)) : as.mapM f = .ok (as.map g) :=
  mapM_eq_ok_iff.mpr (List.forall₂_map_right_iff.mpr (List.forall₂_same.mpr h))

/-- The elements of a list are its last one and those before. -/
theorem forall_mem_iff_dropLast {Q : α → Prop} {as : List α} (hne : as ≠ []) (d : α) :
    (∀ a ∈ as, Q a) ↔ (∀ a ∈ as.dropLast, Q a) ∧ Q (as.getLastD d) := by
  obtain ⟨before, last, rfl⟩ := List.eq_nil_or_concat as |>.resolve_left hne
  simp only [List.concat_eq_append, List.dropLast_concat, List.getLastD_concat, List.mem_append,
    List.mem_singleton, or_imp, forall_and, forall_eq]

/-- A partial function that is defined on all elements. -/
theorem filterMap_map_of_forall {α β γ : Type*} {f : β → Option γ} {g : α → β} {k : α → γ}
    {l : List α} (h : ∀ a ∈ l, f (g a) = some (k a)) : (l.map g).filterMap f = l.map k := by
  induction l with
  | nil => rfl
  | cons a l ih =>
    rw [List.map_cons, List.filterMap_cons_some (h a List.mem_cons_self), List.map_cons,
      ih fun b hb => h b (List.mem_cons_of_mem a hb)]

end Reactive
