import Mathlib.Data.List.Sort
import Mathlib.Order.Lattice

/-!
The smallest elements of a list by a key. A sort fixes the order of elements up to ties
(`Sorts`), so what it puts first depends on how it breaks them. Sorting by a coarser key
than the one asked for gives the smallest elements whatever the sort does exactly when no
tie reaches the part that is kept (`take_smallest_iff`).
-/
namespace TunnelCat.Selection
open List
universe u v w
variable {α : Type u}

/-- A function sorts by `less`, in any order of the elements that `less` does not tell apart. -/
structure Sorts (less : α → α → Bool) (sort : List α → List α) : Prop where
  perm : ∀ l, (sort l).Perm l
  sorted : ∀ l, (sort l).Pairwise (fun a b => less b a = false)

def lessBy {κ : Type v} [LinearOrder κ] (key : α → κ) (a b : α) : Bool := decide (key a < key b)

def insertSort {κ : Type v} [LinearOrder κ] (key : α → κ) (l : List α) : List α :=
  l.insertionSort (fun a b => key a ≤ key b)

/-- The `n` smallest elements of a list, in order. -/
structure Smallest {κ : Type v} [LinearOrder κ] (key : α → κ) (n : Nat) (all out : List α) : Prop where
  count : out.length = min n all.length
  sorted : out.Pairwise (fun a b => key a ≤ key b)
  rest : ∃ others, (out ++ others).Perm all ∧ ∀ a ∈ out, ∀ b ∈ others, key a ≤ key b

section
variable {κ : Type v} [LinearOrder κ] {key : α → κ} {n : Nat} {all : List α}

theorem insertSort_perm (key : α → κ) (l : List α) : (insertSort key l).Perm l := perm_insertionSort _ l

theorem insertSort_pairwise (key : α → κ) (l : List α) : (insertSort key l).Pairwise (fun a b => key a ≤ key b) := by
  exact pairwise_insertionSort _ l

theorem insertSort_sorts (key : α → κ) : Sorts (lessBy key) (insertSort key) :=
  ⟨insertSort_perm key,fun l => (insertSort_pairwise key l).imp (fun le => by simpa [lessBy] using le)⟩

theorem smallest_take {l : List α} (perm : l.Perm all)
    (ordered : ∀ i j (_ : i < l.length) (_ : j < l.length), i < j → i < n → key l[i] ≤ key l[j]) :
    Smallest key n all (l.take n) := by
  refine ⟨by rw [length_take,perm.length_eq],?_,l.drop n,by rw [take_append_drop]; exact perm,?_⟩
  · rw [pairwise_iff_getElem]
    grind
  · intro a kept b dropped
    obtain ⟨i,low,rfl⟩ := mem_iff_getElem.mp kept
    obtain ⟨j,high,rfl⟩ := mem_iff_getElem.mp dropped
    rw [length_take] at low
    rw [length_drop] at high
    simpa using ordered i (n + j) (by omega) (by omega) (by omega) (by omega)

theorem smallest_head {before after : List α} {x : α} (perm : (before ++ x :: after).Perm all)
    (kept : before.length < n) (smallest : Smallest key n all ((before ++ x :: after).take n)) :
    ∀ y ∈ after, key x ≤ key y := by
  obtain ⟨m,rfl⟩ : ∃ m, n = before.length + (m + 1) := ⟨n - before.length - 1,by omega⟩
  have cut : (before ++ x :: after).take (before.length + (m + 1)) = before ++ x :: after.take m := by
    simp [take_append,take_of_length_le]
  rw [cut] at smallest
  obtain ⟨_,sorted,others,split,larger⟩ := smallest
  -- what is dropped is what the statement calls the others
  have same : others.Perm (after.drop m) := by
    have whole : (before ++ x :: after.take m ++ others).Perm (before ++ x :: after.take m ++ after.drop m) := by
      refine split.trans (perm.symm.trans ?_)
      simp
    exact (perm_append_left_iff _).mp whole
  intro y later
  rw [← take_append_drop m after,mem_append] at later
  rcases later with near | far
  · have tail := (pairwise_append.mp sorted).2.1
    exact (pairwise_cons.mp tail).1 y near
  · exact larger x (by simp) y (same.mem_iff.mpr far)

end

section
variable {κ : Type v} {κ' : Type w} [LinearOrder κ] [LinearOrder κ'] {coarse : α → κ} {fine : α → κ'} {all : List α}

def Tied (coarse : α → κ) (n : Nat) (all : List α) (a b : α) : Prop :=
  a ∈ all ∧ b ∈ all ∧ a ≠ b ∧ coarse a = coarse b ∧ (all.filter (fun c => coarse c < coarse a)).length < n

theorem count_below {l : List α} (sorted : l.Pairwise (fun a b => coarse a ≤ coarse b)) {i : Nat} (inside : i < l.length) :
    (l.filter (fun c => coarse c < coarse l[i])).length ≤ i := by
  have none : (l.drop i).filter (fun c => coarse c < coarse l[i]) = [] := by
    rw [filter_eq_nil_iff]
    intro b later
    rw [drop_eq_getElem_cons inside,mem_cons] at later
    rcases later with rfl | later
    · simp
    · have tail : (l.drop i).Pairwise (fun a b => coarse a ≤ coarse b) := sorted.drop
      rw [drop_eq_getElem_cons inside] at tail
      simpa using (pairwise_cons.mp tail).1 b later
  have split : l.filter (fun c => coarse c < coarse l[i]) = (l.take i).filter (fun c => coarse c < coarse l[i]) ++
      (l.drop i).filter (fun c => coarse c < coarse l[i]) := by rw [← filter_append,take_append_drop]
  grind

theorem take_smallest (refines : ∀ a b, coarse a < coarse b → fine a < fine b) (nodup : all.Nodup) {n : Nat}
    (untied : ∀ a b, ¬ Tied coarse n all a b) {sort : List α → List α} (sorts : Sorts (lessBy coarse) sort) :
    Smallest fine n all ((sort all).take n) := by
  have perm := sorts.perm all
  have sorted :=
    (sorts.sorted all).imp (fun le => by simpa [lessBy] using le)
  refine smallest_take perm ?_
  intro i j low high before kept
  rcases lt_or_eq_of_le (pairwise_iff_getElem.mp sorted i j low high before) with below | tie
  · exact le_of_lt (refines _ _ below)
  · exfalso
    refine untied (sort all)[i] (sort all)[j] ⟨perm.mem_iff.mp (getElem_mem _),perm.mem_iff.mp (getElem_mem _),?_,
      tie,?_⟩
    · grind [List.Nodup.getElem_inj_iff]
    · rw [← (perm.filter _).length_eq]
      exact Nat.lt_of_le_of_lt (count_below sorted _) kept

theorem exists_sorts_tied {n : Nat} {a b : α} (tied : Tied coarse n all a b) :
    ∃ sort before after, Sorts (lessBy coarse) sort ∧ sort all = before ++ a :: b :: after ∧ before.length < n := by
  classical
  obtain ⟨ofA,ofB,differ,tie,few⟩ := tied
  let below := all.filter (fun c => coarse c < coarse a)
  let others := ((all.filter (fun c => !decide (coarse c < coarse a))).erase a).erase b
  let out := insertSort coarse below ++ a :: b :: insertSort coarse others
  have perm : out.Perm all := by
    have keeps : ∀ c, c ∈ all → coarse c = coarse a → c ∈ all.filter (fun c => !decide (coarse c < coarse a)) := by
      intro c member same
      simp [mem_filter,member,same]
    have second :=
      (mem_erase_of_ne differ.symm).mpr (keeps b ofB tie.symm)
    have rest :=
      (((insertSort_perm coarse others).cons b).trans (perm_cons_erase second).symm |>.cons a).trans
        (perm_cons_erase (keeps a ofA rfl)).symm
    exact ((insertSort_perm coarse below).append rest).trans (filter_append_perm _ all)
  have sorted : out.Pairwise (fun a b => coarse a ≤ coarse b) := by
    have low : ∀ c ∈ insertSort coarse below, coarse c < coarse a := by
      intro c member
      have := (insertSort_perm coarse below).mem_iff.mp member
      simpa [below,mem_filter] using (mem_filter.mp this).2
    have high : ∀ c ∈ insertSort coarse others, coarse a ≤ coarse c := by
      grind [insertSort_perm]
    refine pairwise_append.mpr ⟨insertSort_pairwise coarse below,?_,?_⟩
    · refine pairwise_cons.mpr ⟨?_,pairwise_cons.mpr ⟨fun c later => tie ▸ high c later,
        insertSort_pairwise coarse others⟩⟩
      grind
    · intro c member d later
      refine le_of_lt (lt_of_lt_of_le (low c member) ?_)
      simp only [mem_cons] at later
      rcases later with rfl | rfl | later
      · exact le_refl _
      · exact le_of_eq tie
      · exact high d later
  refine ⟨fun l => if l = all then out else insertSort coarse l,insertSort coarse below,insertSort coarse others,⟨?_,?_⟩,
    if_pos rfl,?_⟩
  · intro l
    by_cases same : l = all
    · simpa [same] using perm
    · simpa [same] using insertSort_perm coarse l
  · intro l
    by_cases same : l = all
    · simpa [same,lessBy] using sorted
    · simpa [same] using (insertSort_sorts coarse).sorted l
  · rw [(insertSort_perm coarse below).length_eq]
    exact few

/-- The first `n` elements of a list sorted by a coarse key are the `n` smallest by a finer
    one, however the sort breaks ties, exactly when no tie reaches them. -/
theorem take_smallest_iff (refines : ∀ a b, coarse a < coarse b → fine a < fine b)
    (distinct : ∀ a ∈ all, ∀ b ∈ all, fine a = fine b → a = b) (nodup : all.Nodup) (n : Nat) :
    (∀ sort, Sorts (lessBy coarse) sort → Smallest fine n all ((sort all).take n)) ↔ ∀ a b, ¬ Tied coarse n all a b := by
  constructor
  · intro smallest a b tied
    obtain ⟨ofA,ofB,differ,tie,few⟩ := tied
    -- one sort puts `a` first and another `b`, so neither is larger than the other
    have ordered (x y : α) (tied : Tied coarse n all x y) : fine x ≤ fine y := by
      obtain ⟨sort,before,after,sorts,same,kept⟩ := exists_sorts_tied tied
      have out := smallest sort sorts
      have perm := sorts.perm all
      rw [same] at out perm
      exact smallest_head perm kept out y mem_cons_self
    exact differ (distinct a ofA b ofB (le_antisymm (ordered a b ⟨ofA,ofB,differ,tie,few⟩)
      (ordered b a ⟨ofB,ofA,differ.symm,tie.symm,tie ▸ few⟩)))
  grind [take_smallest]

end

end TunnelCat.Selection
