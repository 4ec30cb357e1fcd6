import Mathlib.Algebra.BigOperators.Group.List.Basic
import Mathlib.Algebra.Order.BigOperators.Group.List
import Mathlib.Algebra.Order.Group.Defs
import Mathlib.Data.List.Nodup

/-!
The walk along a list that takes the weight of each element from a target and stops where
nothing is left of it. What it stops at depends on the order of the list, except where one
element is heavier than the target and the others together are lighter (`walk_of_dominates`).
With two or more distinct elements there is no other exception (`dominates_of_walk`).
-/
namespace TunnelCat.Cumulative
universe u v
variable {α : Type u} {K : Type v} [AddCommGroup K] (weight : α → K)

def total (l : List α) : K := (l.map weight).sum

variable {weight}

theorem total_perm {l l' : List α} (perm : l.Perm l') : total weight l = total weight l' := (perm.map weight).sum_eq

variable [LinearOrder K]

def reach (weight : α → K) : List α → K → Option α
  | [], _ => none
  | x :: rest, target => if target - weight x ≤ 0 then some x else reach weight rest (target - weight x)

def walk (weight : α → K) (l : List α) (target : K) : Option α := (reach weight l target).or l.getLast?

structure Dominates [DecidableEq α] (weight : α → K) (l : List α) (target : K) (x : α) : Prop where
  mem : x ∈ l
  others : total weight (l.filter (· ≠ x)) < target
  heavy : target ≤ weight x

variable {target : K} {x : α}

theorem Dominates.perm [DecidableEq α] {l l' : List α} (dominates : Dominates weight l target x)
    (perm : l.Perm l') : Dominates weight l' target x :=
  ⟨perm.mem_iff.mp dominates.mem,(total_perm (perm.filter _)).symm.trans_lt dominates.others,dominates.heavy⟩

variable {l : List α}

theorem walk_some (weight : α → K) (more : l ≠ []) (target : K) : ∃ x, walk weight l target = some x := by
  cases reached : reach weight l target with
  | none => exact ⟨l.getLast more,by simp [walk,reached,List.getLast?_eq_some_getLast more]⟩
  | some x => exact ⟨x,by simp [walk,reached]⟩

variable [IsOrderedAddMonoid K]

theorem total_nonneg (nonneg : ∀ x ∈ l, 0 ≤ weight x) : 0 ≤ total weight l :=
  List.sum_nonneg (by simpa using nonneg)

theorem reach_cons_of_le {rest : List α} (heavy : target ≤ weight x) :
    reach weight (x :: rest) target = some x := by
  rw [reach,if_pos (sub_nonpos.mpr heavy)]

theorem reach_cons_of_lt {rest : List α} (light : weight x < target) :
    reach weight (x :: rest) target = reach weight rest (target - weight x) := by
  rw [reach,if_neg (not_le.mpr (sub_pos.mpr light))]

theorem mem_of_reach (found : reach weight l target = some x) : x ∈ l := by
  induction l generalizing target with
  | nil => cases found
  | cons y rest ih =>
    by_cases heavy : target ≤ weight y
    · rw [reach_cons_of_le heavy] at found
      exact Option.some.inj found ▸ List.mem_cons_self
    · rw [reach_cons_of_lt (not_le.mp heavy)] at found
      exact List.mem_cons_of_mem _ (ih found)

theorem mem_of_walk (found : walk weight l target = some x) : x ∈ l := by
  rcases Option.or_eq_some_iff.mp found with reached | ⟨-,last⟩
  · exact mem_of_reach reached
  · exact List.mem_of_getLast? last

theorem total_lt_of_reach_none (some_ : l ≠ []) (none_ : reach weight l target = none) :
    total weight l < target := by
  induction l generalizing target with
  | nil => exact absurd rfl some_
  | cons y rest ih =>
    by_cases heavy : target ≤ weight y
    · rw [reach_cons_of_le heavy] at none_
      cases none_
    · have light := not_le.mp heavy
      rw [reach_cons_of_lt light] at none_
      rcases eq_or_ne rest [] with rfl | more
      · simpa [total] using light
      · exact lt_sub_iff_add_lt'.mp (ih more none_)

theorem reach_append_of_none {l l' : List α} (found : reach weight (l ++ l') target = some x)
    (new : x ∉ l) : reach weight l target = none := by
  induction l generalizing target with
  | nil => rfl
  | cons y rest ih =>
    rw [List.cons_append] at found
    by_cases heavy : target ≤ weight y
    · rw [reach_cons_of_le heavy] at found
      exact absurd (Option.some.inj found ▸ List.mem_cons_self) new
    · rw [reach_cons_of_lt (not_le.mp heavy)] at found ⊢
      exact ih found (fun later => new (List.mem_cons_of_mem _ later))

theorem reach_none_of_append {l l' : List α} (none_ : reach weight (l ++ l') target = none) :
    reach weight l target = none := by
  induction l generalizing target with
  | nil => rfl
  | cons y rest ih =>
    rw [List.cons_append] at none_
    by_cases heavy : target ≤ weight y
    · rw [reach_cons_of_le heavy] at none_
      cases none_
    · rw [reach_cons_of_lt (not_le.mp heavy)] at none_ ⊢
      exact ih none_

variable [DecidableEq α]

theorem walk_of_dominates (nonneg : ∀ y ∈ l, 0 ≤ weight y)
    (dominates : Dominates weight l target x) : walk weight l target = some x := by
  have reached : reach weight l target = some x := by
    obtain ⟨mem,others,heavy⟩ := dominates
    induction l generalizing target with
    | nil => cases mem
    | cons y rest ih =>
      have nonneg' : ∀ z ∈ rest, 0 ≤ weight z := fun z later => nonneg z (List.mem_cons_of_mem _ later)
      by_cases same : y = x
      · subst same
        exact reach_cons_of_le heavy
      · -- an element before it takes its weight from both sides of the bound on the others
        rw [List.filter_cons_of_pos (by simpa using same)] at others
        have rest_nonneg : 0 ≤ total weight (rest.filter (· ≠ x)) :=
          total_nonneg (fun z member => nonneg' z (List.mem_filter.mp member).1)
        rw [reach_cons_of_lt ((le_add_of_nonneg_right rest_nonneg).trans_lt others)]
        refine ih nonneg' ((List.mem_cons.mp mem).resolve_left (Ne.symm same)) (lt_sub_iff_add_lt'.mpr others) ?_
        exact (sub_le_self target (nonneg y List.mem_cons_self)).trans heavy
  rw [walk,reached,Option.some_or]

theorem dominates_of_walk (distinct : l.Nodup) (more : 2 ≤ l.length)
    (same : ∀ l', l'.Perm l → walk weight l' target = walk weight l target) : ∃ x, Dominates weight l target x := by
  have filled : l ≠ [] := List.ne_nil_of_length_pos (by omega)
  obtain ⟨x,found⟩ := walk_some weight filled target
  have mem := mem_of_walk found
  have perm := List.perm_cons_erase mem
  have others : l.filter (· ≠ x) = l.erase x := by
    rw [distinct.erase_eq_filter]
    exact List.filter_congr (fun y _ => by simp [bne,beq_eq_decide])
  have gone : x ∉ l.erase x := distinct.not_mem_erase
  have some_ : l.erase x ≠ [] := by
    intro none_
    have length := List.length_erase_of_mem mem
    rw [none_] at length
    simp only [List.length_nil] at length
    omega
  refine ⟨x,mem,?_,?_⟩
  · -- the element stands last, and the walk passes all the others
    have last :=
      (same _ ((List.perm_append_singleton _ _).trans perm.symm)).trans found
    rw [others]
    refine total_lt_of_reach_none some_ ?_
    rcases Option.or_eq_some_iff.mp last with reached | ⟨none_,-⟩
    · exact reach_append_of_none reached gone
    · exact reach_none_of_append none_
  · -- the element stands first, and the walk does not go on
    have first := (same _ perm.symm).trans found
    by_contra light
    have light := not_le.mp light
    rw [walk,reach_cons_of_lt light,List.getLast?_cons_of_ne_nil some_] at first
    exact gone (mem_of_walk first)

end TunnelCat.Cumulative
