import TunnelCat.Bytes

/-!
Byte strings that are read by position, as slices are in Go: `none` is a panic.

A reader is `∃`-total when every position that it reads is in range (`total_bind`, `total_guard`). What
it reads in a string of known parts follows from where a part begins (`l.drop i = a ++ c`), and a string
that was cut reads the same up to the cut.
-/
namespace TunnelCat.Slices
open Bytes List

abbrev Data := List UInt8

variable (l : Data)

def slice (i j : Nat) : Option Data := if i ≤ j ∧ j ≤ l.length then some ((l.take j).drop i) else none

def sliceFrom (i : Nat) : Option Data := if i ≤ l.length then some (l.drop i) else none

def sliceTo (j : Nat) : Option Data := if j ≤ l.length then some (l.take j) else none

/-- The number in the `k` bytes at `i`. -/
def uint (k : Nat) (l : Data) (i : Nat) : Option Nat := (slice l i (i + k)).map beNat

variable {a c r : Data} {l} {b : UInt8} {i j k m n : Nat} {α β : Type}

theorem sliceFrom_eq (inside : i ≤ l.length) : sliceFrom l i = some (l.drop i) := if_pos inside

theorem sliceTo_eq (inside : j ≤ l.length) : sliceTo l j = some (l.take j) := if_pos inside

theorem sliceFrom_total (inside : i ≤ l.length) : ∃ r, sliceFrom l i = some r := ⟨_,sliceFrom_eq inside⟩

theorem sliceTo_total (inside : j ≤ l.length) : ∃ r, sliceTo l j = some r := ⟨_,sliceTo_eq inside⟩

variable (inside : i + k ≤ l.length)
include inside

theorem slice_eq : slice l i (i + k) = some ((l.drop i).take k) := by
  rw [slice,if_pos ⟨Nat.le_add_right i k,inside⟩,drop_take,Nat.add_sub_cancel_left]

theorem uint_eq : uint k l i = some (beNat ((l.drop i).take k)) := by
  rw [uint,slice_eq inside,Option.map_some]

theorem slice_total : ∃ r, slice l i (i + k) = some r := ⟨_,slice_eq inside⟩

theorem uint_total : ∃ n, uint k l i = some n := ⟨_,uint_eq inside⟩

omit inside

theorem at_total (inside : i < l.length) : ∃ b, l[i]? = some b := ⟨_,getElem?_eq_getElem inside⟩

theorem length_sliceFrom (cut : sliceFrom l i = some r) : r.length + i = l.length := by
  unfold sliceFrom at cut
  split_ifs at cut
  rw [← Option.some.inj cut,length_drop]
  omega

theorem total_bind {x : Option α} {f : α → Option β} (first : ∃ a, x = some a)
    (rest : ∀ a, x = some a → ∃ b, f a = some b) : ∃ b, (x >>= f) = some b := by
  obtain ⟨a,found⟩ := first
  obtain ⟨b,more⟩ := rest a found
  exact ⟨b,by rw [found]; exact more⟩

theorem total_guard {p : Prop} [Decidable p] {b : β} {x : Option β} (rest : ¬ p → ∃ r, x = some r) :
    ∃ r, (if p then pure b else x) = some r := by
  split
  · exact ⟨b,rfl⟩
  · next fine => exact rest fine

theorem drop_byte (here : l.drop i = b :: c) : l.drop (i + 1) = c := by
  rw [← drop_drop,here]
  rfl

theorem drop_part (here : l.drop i = a ++ c) : l.drop (i + a.length) = c := by
  rw [← drop_drop,here,drop_left]

theorem drop_field (here : l.drop i = beBytes k n ++ c) : l.drop (i + k) = c := by
  have next := drop_part here
  rwa [length_beBytes] at next

theorem at_drop (here : l.drop i = b :: c) : l[i]? = some b := by
  have first : (l.drop i)[0]? = some b := by rw [here]; rfl
  simpa using first

theorem slice_drop (here : l.drop i = a ++ c) (inside : i ≤ l.length) : slice l i (i + a.length) = some a := by
  have size := congrArg List.length here
  simp only [length_drop,length_append] at size
  rw [slice,if_pos (by omega),drop_take,here]
  simp

theorem lt_of_drop (here : l.drop i = a ++ c) (filled : a ≠ []) : i < l.length := by
  by_contra outside
  rw [drop_eq_nil_of_le (by omega)] at here
  simp [filled] at here

theorem uint_drop_mod (here : l.drop i = beBytes (k + 1) n ++ c) : uint (k + 1) l i = some (n % 256 ^ (k + 1)) := by
  have inside := lt_of_drop here (ne_nil_of_length_pos (by simp))
  have read := slice_drop here (by omega)
  rw [length_beBytes] at read
  rw [uint,read,Option.map_some,beNat_beBytes]

theorem uint_drop (here : l.drop i = beBytes (k + 1) n ++ c) (small : n < 256 ^ (k + 1)) : uint (k + 1) l i = some n := by
  rw [uint_drop_mod here,Nat.mod_eq_of_lt small]

/-- A part behind its length. -/
theorem prefixed_drop (here : l.drop i = beBytes (k + 1) a.length ++ (a ++ c)) (small : a.length < 256 ^ (k + 1)) :
    uint (k + 1) l i = some a.length ∧ slice l (i + (k + 1)) (i + (k + 1) + a.length) = some a ∧
      l.drop (i + (k + 1) + a.length) = c := by
  have start := lt_of_drop here (ne_nil_of_length_pos (by simp))
  have size := congrArg List.length here
  have part := drop_field here
  simp only [length_drop,length_append,length_beBytes] at size
  exact ⟨uint_drop here small,slice_drop part (by omega),drop_part part⟩

theorem sliceTo_append (here : j = a.length) : sliceTo (a ++ c) j = some a := by
  subst here
  simp [sliceTo]

/-- A part behind a head and a byte that tells its kind. -/
theorem tagged_part {p : Data} (split : l = p ++ (b :: (a ++ c))) : sliceTo l p.length = some p ∧ l[p.length]? = some b ∧
    slice l (p.length + 1) (p.length + 1 + a.length) = some a ∧ l.drop (p.length + 1 + a.length) = c ∧
    l.length = p.length + 1 + (a.length + c.length) := by
  have here : l.drop p.length = b :: (a ++ c) := by rw [split,drop_left]
  have part := drop_byte here
  have size : l.length = p.length + 1 + (a.length + c.length) := by simp [split]; omega
  exact ⟨by rw [split,sliceTo_append rfl],at_drop here,slice_drop part (by omega),drop_part part,size⟩

/-- What is read of a part whose length field has room for less than `m`. -/
theorem take_mod_iff (positive : 0 < m) : a.take (a.length % m) = a ↔ a.length < m := by
  have below := Nat.mod_lt a.length positive
  constructor
  · intro whole
    have sizes := congrArg List.length whole
    rw [length_take] at sizes
    omega
  · intro small
    rw [Nat.mod_eq_of_lt small,take_length]

theorem slice_take (inside : j ≤ m) : slice (l.take m) i j = slice l i j := by
  simp only [slice,length_take,take_take]
  rw [Nat.min_eq_left inside]
  congr 1
  simp [inside]

theorem uint_take (inside : i + k ≤ m) : uint k (l.take m) i = uint k l i := by
  rw [uint,slice_take inside,uint]

theorem sliceFrom_append (here : i = a.length) : sliceFrom (a ++ c) i = some c := by
  subst here
  simp [sliceFrom]

end TunnelCat.Slices
