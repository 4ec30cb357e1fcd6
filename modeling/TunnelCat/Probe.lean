import Mathlib.Order.Lattice
import Mathlib.Data.List.Basic

/-!
One probe into a sorted list of blocks: a binary search for the last block that
starts at or before an address, and a look at that block alone. Blocks that are
nested or disjoint (`Laminar`) are found by the probe whenever some block holds
the address exactly when what follows an inner block is held by blocks that
start after it (`Resumed`).
-/
namespace TunnelCat.Probe
universe u v

def probeLoop (below : Nat → Bool) : Nat → Int → Int → Int → Int
  | 0, _, _, idx => idx
  | fuel+1, lo, hi, idx =>
    if lo ≤ hi then
      if below ((lo + hi) / 2).toNat then probeLoop below fuel ((lo + hi) / 2 + 1) hi ((lo + hi) / 2)
      else probeLoop below fuel lo ((lo + hi) / 2 - 1) idx
    else idx

def probe (below : Nat → Bool) (n : Nat) : Int := probeLoop below n 0 (n - 1) (-1)

structure Searching (below : Nat → Bool) (n : Nat) (lo hi idx : Int) : Prop where
  start : 0 ≤ lo
  stop : hi < n
  close : lo ≤ hi + 1
  last : idx = lo - 1
  before : ∀ i : Nat, (i : Int) < lo → below i = true
  after : ∀ i : Nat, hi < i → i < n → below i = false

variable {below : Nat → Bool} {n : Nat}

theorem searching_done {lo hi idx : Int} (search : Searching below n lo hi idx)
    (done : hi < lo) : -1 ≤ idx ∧ idx < n ∧ ∀ i : Nat, i < n → (below i = true ↔ (i : Int) ≤ idx) := by
  obtain ⟨start,stop,close,last,before,after⟩ := search
  grind

theorem probeLoop_correct
    (sorted : ∀ i j : Nat, i ≤ j → j < n → below j = true → below i = true) :
    ∀ (fuel : Nat) (lo hi idx : Int), Searching below n lo hi idx → hi + 1 - lo ≤ fuel →
      -1 ≤ probeLoop below fuel lo hi idx ∧ probeLoop below fuel lo hi idx < n ∧
        ∀ i : Nat, i < n → (below i = true ↔ (i : Int) ≤ probeLoop below fuel lo hi idx) := by
  intro fuel
  induction fuel with
  | zero =>
    intro lo hi idx search enough
    exact searching_done search (by omega)
  | succ fuel ih =>
    intro lo hi idx search enough
    have ⟨start,stop,close,last,before,after⟩ := search
    by_cases left : lo ≤ hi
    · cases yes : below ((lo + hi) / 2).toNat with
      | true =>
        simp only [probeLoop,if_pos left,yes]
        refine ih _ _ _ ⟨by omega,stop,by omega,by omega,?_,after⟩ (by omega)
        intro i upto
        exact sorted i ((lo + hi) / 2).toNat (by omega) (by omega) yes
      | false =>
        simp only [probeLoop,if_pos left,yes]
        refine ih _ _ _ ⟨start,by omega,by omega,last,before,?_⟩ (by omega)
        grind
    · simp only [probeLoop,if_neg left]
      exact searching_done search (by omega)

theorem probe_correct
    (sorted : ∀ i j : Nat, i ≤ j → j < n → below j = true → below i = true) :
    -1 ≤ probe below n ∧ probe below n < n ∧ ∀ i : Nat, i < n → (below i = true ↔ (i : Int) ≤ probe below n) := by
  refine probeLoop_correct sorted n 0 (n - 1) (-1) ⟨by omega,by omega,by omega,by omega,?_,?_⟩ (by omega)
  · omega
  · omega

section
variable {ι : Type u} {α : Type v} [LinearOrder α] (first last : ι → α)

def Holds (e : ι) (x : α) : Prop := first e ≤ x ∧ x ≤ last e

def Laminar (es : List ι) : Prop :=
  ∀ p ∈ es, ∀ q ∈ es, first p ≤ first q → first q ≤ last p →
    last q ≤ last p ∨ (first q = first p ∧ last p ≤ last q)

/-- What lies after the end of an inner block and is asked for lies at or after
    the start of a block that starts after that end. -/
def Resumed (asked : α → Prop) (es : List ι) : Prop :=
  ∀ p ∈ es, ∀ q ∈ es, first p ≤ first q → last q ≤ last p →
    ∀ x, Holds first last p x → asked x → last q < x → ∃ r ∈ es, last q < first r ∧ first r ≤ x

/-- The block is one of those that start last at or before the address. -/
structure Probed (es : List ι) (x : α) (e : ι) : Prop where
  member : e ∈ es
  starts : first e ≤ x
  latest : ∀ o ∈ es, first o ≤ x → first o ≤ first e

variable {first last} {asked : α → Prop} {es : List ι} {x : α} {e p : ι}

theorem probed_holds (proper : ∀ o ∈ es, first o ≤ last o) (laminar : Laminar first last es)
    (resumed : Resumed first last asked es) (probed : Probed first es x e) (member : p ∈ es)
    (inside : Holds first last p x) (wanted : asked x) : Holds first last e x := by
  refine ⟨probed.starts,?_⟩
  by_contra beyond
  have later : first p ≤ first e := probed.latest p member inside.1
  have nested : last e ≤ last p := by
    rcases laminar p member e probed.member later (le_trans probed.starts inside.2) with nested | ⟨_,outer⟩
    · exact nested
    · exact absurd (le_trans inside.2 outer) beyond
  obtain ⟨r,listed,starts,upto⟩ := resumed p member e probed.member later nested x inside wanted (not_le.mp beyond)
  have earlier : first r ≤ last e := le_trans (probed.latest r listed upto) (proper e probed.member)
  exact absurd starts (not_lt.mpr earlier)

/-- When the smallest of the blocks that start last is looked at, the address is
    only found everywhere if the list is resumed after every inner block. -/
theorem resumed_of_probed (proper : ∀ o ∈ es, first o ≤ last o) (laminar : Laminar first last es)
    (found : ∀ x, asked x → (∃ p ∈ es, Holds first last p x) →
      ∃ e, Probed first es x e ∧ (∀ o ∈ es, first o = first e → last e ≤ last o) ∧ Holds first last e x) :
    Resumed first last asked es := by
  intro p member q inner _ _ x inside wanted after
  obtain ⟨e,probed,smallest,holds⟩ := found x wanted ⟨p,member,inside⟩
  have upto : first q ≤ x := le_trans (proper q inner) after.le
  refine ⟨e,probed.member,?_,probed.starts⟩
  by_contra early
  have start := probed.latest q inner upto
  have within : last e ≤ last q := by
    rcases laminar q inner e probed.member start (not_lt.mp early) with within | ⟨same,_⟩
    · exact within
    · exact smallest q inner same.symm
  exact absurd (le_trans holds.2 within) (not_le.mpr after)

end

end TunnelCat.Probe
