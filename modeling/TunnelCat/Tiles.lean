import Mathlib.Data.List.Basic
import TunnelCat.Table

/-!
Lists cut into pieces of one length, of which only the last may be shorter, and tables that point
to such pieces. The pieces join to the list (`flatten_tiles`), and the elements at a piece's offset
are the piece (`slice_placed`). A table that is filled entry by entry has an entry for every key,
and holds only what was entered (`of_lookup_enter`, `lookup_enter`).
-/
namespace TunnelCat.Tiles
open List
universe u v
variable {α : Type u}

def tiles (n : Nat) (l : List α) : List (List α) :=
  if n = 0 ∨ l.length = 0 then [] else l.take n :: tiles n (l.drop n)
termination_by l.length
decreasing_by rw [length_drop]; omega

def slice (l : List α) (offset size : Nat) : List α := (l.drop offset).take size

def placed : Nat → List (List α) → List (Nat × List α)
  | _, [] => []
  | offset, t :: rest => (offset,t) :: placed (offset + t.length) rest

variable {n : Nat} {l : List α}

theorem tiles_nil : tiles n ([] : List α) = [] := by
  rw [tiles,if_pos (.inr rfl)]

theorem tiles_step (pos : 0 < n) (more : l.length ≠ 0) : tiles n l = l.take n :: tiles n (l.drop n) := by
  rw [tiles,if_neg (by omega)]

theorem tiles_short (pos : 0 < n) (more : l.length ≠ 0) (short : l.length ≤ n) : tiles n l = [l] := by
  rw [tiles_step pos more,drop_of_length_le short,tiles_nil,take_of_length_le short]

theorem flatten_tiles (pos : 0 < n) : (tiles n l).flatten = l := by
  fun_induction tiles n l with
  | case1 l ends => exact (eq_nil_of_length_eq_zero (by omega)).symm
  | case2 l goes ih => rw [flatten_cons,ih,take_append_drop]

variable {t : List α} {ts : List (List α)}

theorem length_tile (mem : t ∈ tiles n l) : 0 < t.length ∧ t.length ≤ n := by
  fun_induction tiles n l with
  | case1 l ends => simp at mem
  | case2 l goes ih =>
    rcases mem_cons.mp mem with rfl | later
    · rw [length_take]
      omega
    · exact ih later

theorem length_tile_inner (mem : t ∈ (tiles n l).dropLast) : t.length = n := by
  fun_induction tiles n l with
  | case1 l ends => simp at mem
  | case2 l goes ih =>
    by_cases last : tiles n (l.drop n) = []
    · simp [last] at mem
    · rw [dropLast_cons_of_ne_nil last] at mem
      rcases mem_cons.mp mem with rfl | later
      · -- there is a next piece, so the list is longer than this one
        rcases Nat.lt_or_ge n l.length with long | short
        · rw [length_take]
          omega
        · exact absurd (by rw [drop_of_length_le short,tiles_nil]) last
      · exact ih later

theorem mem_of_mem_placed {offset first : Nat} (mem : (offset,t) ∈ placed first ts) :
    t ∈ ts := by
  induction ts generalizing first with
  | nil => simp [placed] at mem
  | cons t' rest ih =>
    rcases mem_cons.mp mem with here | later
    · cases here
      exact mem_cons_self
    · exact mem_cons_of_mem _ (ih later)

theorem slice_placed {before : List α} {offset : Nat}
    (mem : (offset,t) ∈ placed before.length ts) : slice (before ++ ts.flatten) offset t.length = t := by
  induction ts generalizing before with
  | nil => simp [placed] at mem
  | cons t' rest ih =>
    rcases mem_cons.mp mem with here | later
    · cases here
      rw [slice,drop_left,flatten_cons,take_left]
    · have later' : (offset,t) ∈ placed (before ++ t').length rest := by simpa using later
      simpa using ih later'

section
variable {κ : Type u} {ν : Type v} [DecidableEq κ]

def enter (entries : List (κ × ν)) (t : Table κ ν) : Table κ ν := entries.foldl (fun t e => t.insert e.1 e.2) t

theorem enter_append (first second : List (κ × ν)) (t : Table κ ν) :
    enter (first ++ second) t = enter second (enter first t) := foldl_append

variable {entries : List (κ × ν)} {t : Table κ ν}

theorem of_lookup_enter {k : κ} {v : ν}
    (found : (enter entries t).lookup k = some v) : (k,v) ∈ entries ∨ t.lookup k = some v := by
  induction entries generalizing t with
  | nil => exact .inr found
  | cons e rest ih =>
    rcases ih found with mem | before
    · exact .inl (mem_cons_of_mem _ mem)
    · rcases Table.of_lookup_insert before with ⟨rfl,rfl⟩ | ⟨-,old⟩
      · exact .inl mem_cons_self
      · exact .inr old

theorem lookup_enter {k : κ}
    (entered : k ∈ entries.map Prod.fst ∨ (t.lookup k).isSome) : ((enter entries t).lookup k).isSome := by
  induction entries generalizing t with
  | nil => simpa [enter] using entered
  | cons e rest ih =>
    refine ih ?_
    rw [Table.lookup_insert_of]
    by_cases same : k = e.1
    · exact .inr (by simp [same])
    · simpa [same] using entered

end
end TunnelCat.Tiles
