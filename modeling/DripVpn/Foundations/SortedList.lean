import Mathlib.Data.List.Basic
import Mathlib.Tactic.Common

/-!
# Sorted lists without duplicates

`SortedList S` keeps its items in the order of the comparator of `S` and never holds an item
twice. An item that compares equal to another need not be the same item: `S.areItemsTheSame`
decides. Adding an item that is present puts the new item in the place of the old one; any other
item is inserted.

Both invariants are fields of the structure. Clients use `mem_add`, `mem_addAll` and, for lists
read back item by item, `mem_addAll_empty`.
-/

namespace Reactive

/-- How a sorted list orders and identifies its items. -/
structure Sorter (α : Type*) where
  /-- The order of the list. -/
  compare : α → α → Ordering
  transCmp : Std.TransCmp compare
  /-- Whether two items that compare equal are one item. -/
  areItemsTheSame : α → α → Bool
  equivalence : Equivalence fun x y => areItemsTheSame x y = true

namespace Sorter

variable {α : Type*} (S : Sorter α)

instance : Std.TransCmp S.compare := S.transCmp

/-- Whether a list that holds `x` already holds `y`. -/
def same (x y : α) : Bool := S.compare x y == .eq && S.areItemsTheSame x y

theorem same_iff {x y : α} :
    S.same x y = true ↔ S.compare x y = .eq ∧ S.areItemsTheSame x y = true := by
  simp [same]

theorem same_refl (x : α) : S.same x x = true :=
  S.same_iff.mpr ⟨Std.ReflCmp.compare_self, S.equivalence.refl x⟩

theorem same_symm {x y : α} (h : S.same x y = true) : S.same y x = true := by
  obtain ⟨hcmp, hsame⟩ := S.same_iff.mp h
  exact S.same_iff.mpr ⟨Std.OrientedCmp.eq_symm hcmp, S.equivalence.symm hsame⟩

theorem same_trans {x y z : α} (hxy : S.same x y = true) (hyz : S.same y z = true) :
    S.same x z = true := by
  obtain ⟨hcmp, hsame⟩ := S.same_iff.mp hxy
  obtain ⟨hcmp', hsame'⟩ := S.same_iff.mp hyz
  exact S.same_iff.mpr ⟨Std.TransCmp.eq_trans hcmp hcmp', S.equivalence.trans hsame hsame'⟩

/-- The sorter of a type whose equality identifies the items. -/
def ofCompare [DecidableEq α] (cmp : α → α → Ordering) [Std.TransCmp cmp] : Sorter α where
  compare := cmp
  transCmp := inferInstance
  areItemsTheSame x y := decide (x = y)
  equivalence :=
    ⟨fun x => by simp, fun h => by simpa using (of_decide_eq_true h).symm,
      fun h h' => by simpa using (of_decide_eq_true h).trans (of_decide_eq_true h')⟩

/-- Items that are the same are equal. -/
def Exact : Prop := ∀ {x y : α}, S.same x y = true → x = y

theorem exact_ofCompare [DecidableEq α] (cmp : α → α → Ordering) [Std.TransCmp cmp] :
    (ofCompare cmp).Exact := by
  intro x y h
  simpa [ofCompare] using ((ofCompare cmp).same_iff.mp h).2

end Sorter

/-- A list in the order of `S` in which no item is there twice. -/
structure SortedList {α : Type*} (S : Sorter α) where
  /-- The items, in order. -/
  items : List α
  sorted : items.Pairwise fun x y => (S.compare x y).isLE = true
  distinct : items.Pairwise fun x y => S.same x y = false

namespace SortedList

variable {α : Type*} {S : Sorter α}

instance : Membership α (SortedList S) := ⟨fun l x => x ∈ l.items⟩

theorem mem_def {x : α} {l : SortedList S} : x ∈ l ↔ x ∈ l.items := Iff.rfl

/-- The list without items. -/
def empty : SortedList S := ⟨[], List.Pairwise.nil, List.Pairwise.nil⟩

@[simp]
theorem not_mem_empty (x : α) : x ∉ (empty : SortedList S) := by simp [mem_def, empty]

/-- Insert before the first item that is not smaller. -/
def insertItem (S : Sorter α) (x : α) : List α → List α
  | [] => [x]
  | y :: l => if S.compare x y = .gt then y :: insertItem S x l else x :: y :: l

theorem mem_insertItem {x y : α} {l : List α} : y ∈ insertItem S x l ↔ y = x ∨ y ∈ l := by
  induction l with
  | nil => simp [insertItem]
  | cons z l ih =>
    by_cases h : S.compare x z = .gt
    · simp only [insertItem, h, ↓reduceIte, List.mem_cons, ih]
      exact or_left_comm
    · simp [insertItem, h]

/-- An insertion keeps a relation to every item that also relates to the new one. -/
theorem pairwise_insertItem {R : α → α → Prop} {x : α} {l : List α} (hl : l.Pairwise R)
    (hx : ∀ y ∈ l, S.compare x y = .gt → R y x) (hx' : ∀ y ∈ l, S.compare x y ≠ .gt → R x y)
    (hsucc : ∀ y ∈ l, S.compare x y ≠ .gt → ∀ z ∈ l, R y z → R x z) :
    (insertItem S x l).Pairwise R := by
  induction l with
  | nil => simp [insertItem]
  | cons y l ih =>
    obtain ⟨hy, hl⟩ := List.pairwise_cons.mp hl
    by_cases h : S.compare x y = .gt
    · simp only [insertItem, h, ↓reduceIte, List.pairwise_cons]
      refine ⟨fun z hz => ?_, ih hl (fun z hz => hx z (by simp [hz]))
        (fun z hz => hx' z (by simp [hz])) fun z hz hzx w hw => hsucc z (by simp [hz]) hzx w
          (by simp [hw])⟩
      rcases mem_insertItem.mp hz with rfl | hz
      · exact hx y (by simp) h
      · exact hy z hz
    · simp only [insertItem, h, ↓reduceIte, List.pairwise_cons]
      refine ⟨fun z hz => ?_, hy, hl⟩
      rcases List.mem_cons.mp hz with rfl | hz
      · exact hx' z (by simp) h
      · exact hsucc y (by simp) h z (by simp [hz]) (hy z hz)

/-- Put the item `x` in the place of the item that is the same. -/
def replaceItem (S : Sorter α) (x : α) (l : List α) : List α :=
  l.map fun y => if S.same x y = true then x else y

/-- The items after adding `x`. -/
def addItem (S : Sorter α) (x : α) (l : List α) : List α :=
  if l.any (S.same x) = true then replaceItem S x l else insertItem S x l

theorem mem_addItem {x y : α} {l : List α} :
    y ∈ addItem S x l ↔ y = x ∨ y ∈ l ∧ S.same x y = false := by
  by_cases h : l.any (S.same x) = true
  · obtain ⟨w, hw, hsame⟩ := List.any_eq_true.mp h
    simp only [addItem, h, ↓reduceIte, replaceItem, List.mem_map]
    constructor
    · rintro ⟨z, hz, rfl⟩
      split
      · exact Or.inl rfl
      · next hzx => exact Or.inr ⟨hz, by simpa using hzx⟩
    · rintro (rfl | ⟨hy, hyx⟩)
      · exact ⟨w, hw, by simp [hsame]⟩
      · exact ⟨y, hy, by simp [hyx]⟩
  · simp only [addItem, h, Bool.false_eq_true, ↓reduceIte, mem_insertItem]
    refine or_congr_right ⟨fun hy => ⟨hy, ?_⟩, And.left⟩
    -- nothing in the list is the same as `x`
    by_contra hyx
    exact h (List.any_eq_true.mpr ⟨y, hy, by simpa using hyx⟩)

theorem sorted_addItem {x : α} {l : List α}
    (hl : l.Pairwise fun x y => (S.compare x y).isLE = true) :
    (addItem S x l).Pairwise fun x y => (S.compare x y).isLE = true := by
  by_cases h : l.any (S.same x) = true
  · simp only [addItem, h, ↓reduceIte, replaceItem, List.pairwise_map]
    refine hl.imp fun {y z} hyz => ?_
    -- the same items compare equal, so either side may be exchanged
    have hcmp : ∀ w, S.compare (if S.same x w = true then x else w) w = .eq := by
      intro w
      split
      · next hw => exact (S.same_iff.mp hw).1
      · exact Std.ReflCmp.compare_self
    rwa [Std.TransCmp.congr_left (hcmp y), Std.TransCmp.congr_right (hcmp z)]
  · simp only [addItem, h, Bool.false_eq_true, ↓reduceIte]
    have hle : ∀ y, S.compare x y ≠ .gt → (S.compare x y).isLE = true := fun y hy => by
      simpa [Ordering.isLE_iff_ne_gt] using hy
    refine pairwise_insertItem hl (fun y _ hy => ?_) (fun y _ hy => hle y hy) ?_
    · rw [Std.OrientedCmp.lt_of_gt hy]
      rfl
    · exact fun y _ hy z _ hyz => Std.TransCmp.isLE_trans (hle y hy) hyz

theorem distinct_addItem {x : α} {l : List α} (hl : l.Pairwise fun x y => S.same x y = false) :
    (addItem S x l).Pairwise fun x y => S.same x y = false := by
  have hsymm : ∀ {y z}, S.same y z = false → S.same z y = false := by
    intro y z h
    by_contra hzy
    rw [S.same_symm (by simpa using hzy)] at h
    exact absurd h (by decide)
  by_cases h : l.any (S.same x) = true
  · simp only [addItem, h, ↓reduceIte, replaceItem, List.pairwise_map]
    refine hl.imp fun {y z} hyz => ?_
    by_cases hxy : S.same x y = true
    · by_cases hxz : S.same x z = true
      · rw [S.same_trans (S.same_symm hxy) hxz] at hyz
        exact absurd hyz (by decide)
      · simp [hxy, hxz]
    · by_cases hxz : S.same x z = true
      · simp only [hxy, Bool.false_eq_true, ↓reduceIte, hxz]
        exact hsymm (by simpa using hxy)
      · simpa [hxy, hxz] using hyz
  · simp only [addItem, h, Bool.false_eq_true, ↓reduceIte]
    have hnot : ∀ y ∈ l, S.same x y = false := fun y hy => by
      by_contra hyx
      exact h (List.any_eq_true.mpr ⟨y, hy, by simpa using hyx⟩)
    exact pairwise_insertItem hl (fun y hy _ => hsymm (hnot y hy)) (fun y hy _ => hnot y hy)
      fun _ _ _ z hz _ => hnot z hz

/-- Add an item. -/
def add (x : α) (l : SortedList S) : SortedList S where
  items := addItem S x l.items
  sorted := sorted_addItem l.sorted
  distinct := distinct_addItem l.distinct

theorem mem_add {x y : α} {l : SortedList S} :
    y ∈ l.add x ↔ y = x ∨ y ∈ l ∧ S.same x y = false := mem_addItem

theorem mem_add_of_exact (hS : S.Exact) {x y : α} {l : SortedList S} :
    y ∈ l.add x ↔ y = x ∨ y ∈ l := by
  rw [mem_add]
  constructor
  · rintro (rfl | ⟨hy, -⟩)
    · exact Or.inl rfl
    · exact Or.inr hy
  · rintro (rfl | hy)
    · exact Or.inl rfl
    · by_cases h : S.same x y = true
      · exact Or.inl (hS h).symm
      · exact Or.inr ⟨hy, by simpa using h⟩

/-- Add the items of a list, one after the other. -/
def addAll (xs : List α) (l : SortedList S) : SortedList S := xs.foldl (fun l x => l.add x) l

@[simp]
theorem addAll_nil (l : SortedList S) : l.addAll [] = l := rfl

@[simp]
theorem addAll_cons (x : α) (xs : List α) (l : SortedList S) :
    l.addAll (x :: xs) = (l.add x).addAll xs := rfl

theorem mem_addAll (hS : S.Exact) {xs : List α} {y : α} {l : SortedList S} :
    y ∈ l.addAll xs ↔ y ∈ xs ∨ y ∈ l := by
  induction xs generalizing l with
  | nil => simp
  | cons x xs ih =>
    rw [addAll_cons, ih, mem_add_of_exact hS, List.mem_cons]
    tauto

theorem mem_of_mem_addAll {xs : List α} {y : α} {l : SortedList S} (h : y ∈ l.addAll xs) :
    y ∈ xs ∨ y ∈ l := by
  induction xs generalizing l with
  | nil => exact Or.inr h
  | cons x xs ih =>
    rcases ih h with h | h
    · exact Or.inl (List.mem_cons_of_mem _ h)
    · rcases mem_add.mp h with rfl | ⟨h, -⟩
      · exact Or.inl List.mem_cons_self
      · exact Or.inr h

/-- Items that were there stay up to the choice between items that are the same. -/
theorem exists_same_addAll {x : α} {l : SortedList S} (xs : List α) (h : x ∈ l) :
    ∃ y ∈ l.addAll xs, S.same x y = true := by
  induction xs generalizing x l with
  | nil => exact ⟨x, h, S.same_refl x⟩
  | cons z xs ih =>
    by_cases hz : S.same z x = true
    · obtain ⟨y, hy, hzy⟩ := ih (x := z) (l := l.add z) (mem_add.mpr (Or.inl rfl))
      exact ⟨y, hy, S.same_trans (S.same_symm hz) hzy⟩
    · exact ih (mem_add.mpr (Or.inr ⟨h, by simpa using hz⟩))

theorem exists_same_of_mem {x : α} {xs : List α} {l : SortedList S} (h : x ∈ xs) :
    ∃ y ∈ l.addAll xs, S.same x y = true := by
  induction xs generalizing l with
  | nil => simp at h
  | cons z xs ih =>
    rcases List.mem_cons.mp h with rfl | h
    · exact exists_same_addAll xs (mem_add.mpr (Or.inl rfl))
    · exact ih h

/-- Items that are pairwise different all stay, next to those of the list that differ from all. -/
theorem mem_addAll_of_distinct {xs : List α} (hxs : xs.Pairwise fun x y => S.same x y = false)
    {y : α} {l : SortedList S} :
    y ∈ l.addAll xs ↔ y ∈ xs ∨ y ∈ l ∧ ∀ x ∈ xs, S.same x y = false := by
  induction xs generalizing l with
  | nil => simp
  | cons x xs ih =>
    obtain ⟨hx, hxs⟩ := List.pairwise_cons.mp hxs
    have hnot : ∀ z ∈ xs, S.same z x = false := fun z hz => by
      by_contra hzx
      have hxz := S.same_symm (by simpa using hzx)
      rw [hx z hz] at hxz
      exact absurd hxz (by decide)
    rw [addAll_cons, ih hxs, mem_add, List.mem_cons, List.forall_mem_cons]
    constructor
    · rintro (hy | ⟨rfl | ⟨hy, hxy⟩, h⟩)
      · exact Or.inl (Or.inr hy)
      · exact Or.inl (Or.inl rfl)
      · exact Or.inr ⟨hy, hxy, h⟩
    · rintro ((rfl | hy) | ⟨hy, hxy, h⟩)
      · exact Or.inr ⟨Or.inl rfl, hnot⟩
      · exact Or.inl hy
      · exact Or.inr ⟨Or.inr ⟨hy, hxy⟩, h⟩

/-- The items of a sorted list, added to an empty one, are all there. -/
theorem mem_addAll_items (l : SortedList S) {y : α} :
    y ∈ (empty : SortedList S).addAll l.items ↔ y ∈ l := by
  rw [mem_addAll_of_distinct l.distinct]
  simp [mem_def, empty]

end SortedList

end Reactive
