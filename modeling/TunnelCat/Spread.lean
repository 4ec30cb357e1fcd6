import Mathlib.Algebra.Order.Group.Defs
import Mathlib.Algebra.BigOperators.Group.List.Basic
import Mathlib.Data.List.Flatten
import Mathlib.Tactic.Abel

/-!
How far the values of a list are apart. Where lists come one after another, so that no value of
one exceeds a value of a later one, their spreads add up to no more than the spread of all values,
and to just that exactly when each begins where the one before it ends (`sum_spread_eq_iff`).
-/
namespace TunnelCat.Spread
open List
universe u
variable {α : Type u} [LinearOrder α]

structure Successive (groups : List (List α)) : Prop where
  filled : ∀ g ∈ groups, g ≠ []
  ordered : groups.Pairwise (fun g g' => ∀ a ∈ g, ∀ b ∈ g', a ≤ b)

variable {groups : List (List α)} {g g' : List α} {a : α}

variable (successive : Successive (g :: groups))
include successive

theorem Successive.tail : Successive groups :=
  ⟨fun g' member => successive.filled g' (mem_cons_of_mem _ member),(pairwise_cons.mp successive.ordered).2⟩

theorem Successive.le {b : α} (first : a ∈ g)
    (later : b ∈ groups.flatten) : a ≤ b := by
  obtain ⟨g',inside,member⟩ := mem_flatten.mp later
  exact (pairwise_cons.mp successive.ordered).1 g' inside a first b member

theorem Successive.flatten_ne :
    (g :: groups).flatten ≠ [] := by
  exact append_ne_nil_of_left_ne_nil (successive.filled g mem_cons_self) _

omit successive

variable [AddCommGroup α]

variable (l : List α)

def lowest : α := l.min?.getD 0

def highest : α := l.max?.getD 0

def spread : α := highest l - lowest l

@[simp] theorem spread_nil : spread ([] : List α) = 0 := by simp [spread,lowest,highest]

variable {l}

variable (filled : l ≠ [])
include filled

theorem lowest_eq_iff : lowest l = a ↔ a ∈ l ∧ ∀ b ∈ l, a ≤ b := by
  obtain ⟨m,found⟩ := Option.ne_none_iff_exists'.mp (mt min?_eq_none_iff.mp filled)
  rw [← min?_eq_some_iff,lowest,found,Option.getD_some,Option.some.injEq]

theorem highest_eq_iff : highest l = a ↔ a ∈ l ∧ ∀ b ∈ l, b ≤ a := by
  obtain ⟨m,found⟩ := Option.ne_none_iff_exists'.mp (mt max?_eq_none_iff.mp filled)
  rw [← max?_eq_some_iff,highest,found,Option.getD_some,Option.some.injEq]

theorem lowest_mem : lowest l ∈ l := ((lowest_eq_iff filled).mp rfl).1

theorem highest_mem : highest l ∈ l := ((highest_eq_iff filled).mp rfl).1

omit filled

theorem lowest_le (member : a ∈ l) : lowest l ≤ a :=
  ((lowest_eq_iff (ne_nil_of_mem member)).mp rfl).2 a member

theorem le_highest (member : a ∈ l) : a ≤ highest l :=
  ((highest_eq_iff (ne_nil_of_mem member)).mp rfl).2 a member

theorem spread_congr {l l' : List α} (same : ∀ a, a ∈ l ↔ a ∈ l') : spread l = spread l' := by
  by_cases filled : l = []
  · have empty : l' = [] := eq_nil_iff_forall_not_mem.mpr (fun a member => by simpa [filled] using (same a).mpr member)
    rw [filled,empty]
  · have filled' : l' ≠ [] := ne_nil_of_mem ((same _).mp (lowest_mem filled))
    have low : lowest l = lowest l' :=
      (lowest_eq_iff filled).mpr ⟨(same _).mpr (lowest_mem filled'),fun b member => lowest_le ((same b).mp member)⟩
    have high : highest l = highest l' :=
      (highest_eq_iff filled).mpr ⟨(same _).mpr (highest_mem filled'),fun b member => le_highest ((same b).mp member)⟩
    rw [spread,spread,low,high]

theorem Successive.lowest (successive : Successive (g :: groups)) :
    lowest (g :: groups).flatten = lowest g := by
  have filled := successive.filled g mem_cons_self
  refine (lowest_eq_iff successive.flatten_ne).mpr ⟨mem_append_left _ (lowest_mem filled),?_⟩
  intro b member
  rcases mem_append.mp member with own | later
  · exact lowest_le own
  · exact successive.le (lowest_mem filled) later

theorem Successive.highest (successive : Successive (g :: g' :: groups)) :
    highest (g :: g' :: groups).flatten = highest (g' :: groups).flatten := by
  have rest := successive.tail.flatten_ne
  refine (highest_eq_iff successive.flatten_ne).mpr ⟨mem_append_right _ (highest_mem rest),?_⟩
  intro b member
  rcases mem_append.mp member with own | later
  · exact successive.le own (highest_mem rest)
  · exact le_highest later

theorem Successive.spread_cons (successive : Successive (g :: g' :: groups)) :
    spread (g :: g' :: groups).flatten =
      spread g + (Spread.lowest g' - Spread.highest g) + spread (g' :: groups).flatten := by
  simp only [spread,successive.lowest,successive.highest,successive.tail.lowest]
  abel

variable [IsOrderedAddMonoid α]

theorem spread_nonneg (l : List α) : 0 ≤ spread l := by
  by_cases filled : l = []
  · simp [filled]
  · exact sub_nonneg.mpr (lowest_le (highest_mem filled))

theorem spread_mono {l l' : List α} (sub : l ⊆ l') : spread l ≤ spread l' := by
  by_cases filled : l = []
  · rw [filled,spread_nil]
    exact spread_nonneg l'
  · exact sub_le_sub (le_highest (sub (highest_mem filled))) (lowest_le (sub (lowest_mem filled)))

theorem Successive.gap_nonneg (successive : Successive (g :: g' :: groups)) :
    0 ≤ Spread.lowest g' - Spread.highest g := by
  have first := highest_mem (successive.filled g mem_cons_self)
  have second := lowest_mem (successive.tail.filled g' mem_cons_self)
  exact sub_nonneg.mpr (successive.le first (mem_append_left _ second))

theorem sum_spread_le (successive : Successive groups) :
    (groups.map spread).sum ≤ spread groups.flatten := by
  induction groups with
  | nil => simp
  | cons g rest ih =>
    cases rest with
    | nil => simp
    | cons g' rest =>
      rw [successive.spread_cons]
      exact add_le_add (le_add_of_nonneg_right successive.gap_nonneg) (ih successive.tail)

theorem sum_spread_eq_iff (successive : Successive groups) :
    (groups.map spread).sum = spread groups.flatten ↔ groups.IsChain (fun g g' => highest g = lowest g') := by
  induction groups with
  | nil => simp
  | cons g rest ih =>
    cases rest with
    | nil => simp
    | cons g' rest =>
      have later := ih successive.tail
      have least := sum_spread_le successive.tail
      have gap := successive.gap_nonneg
      rw [successive.spread_cons,map_cons,sum_cons,isChain_cons_cons,← later]
      constructor
      · intro same
        have closed : lowest g' - highest g = 0 := by
          refine le_antisymm ?_ gap
          have beyond : spread g + (lowest g' - highest g) + spread (g' :: rest).flatten ≤
              spread g + 0 + spread (g' :: rest).flatten := by
            rw [← same,add_zero]
            exact add_le_add_right least _
          exact (add_le_add_iff_left _).mp ((add_le_add_iff_right _).mp beyond)
        rw [closed,add_zero] at same
        exact ⟨(sub_eq_zero.mp closed).symm,add_left_cancel same⟩
      · rintro ⟨closed,same⟩
        rw [closed,sub_self,add_zero,same]

end TunnelCat.Spread
