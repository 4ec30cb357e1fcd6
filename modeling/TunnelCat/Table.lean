import Mathlib.Data.List.AList

/-!
Go maps as association lists with one entry a key. Mathlib's `AList` has the
lookups, insertions and deletions; this module adds the loop that deletes every
entry of some kind, the number of entries, and the order in which a `range` loop
meets them.
-/
namespace TunnelCat
open Option
universe u v w

/-- A Go map from `κ` to `ν`. -/
abbrev Table (κ : Type u) (ν : Type v) := AList (fun _ : κ => ν)

namespace Table
variable {κ : Type u} {ν : Type v}

variable (t : Table κ ν)

def filter (keep : κ → ν → Bool) (t : Table κ ν) : Table κ ν where
  entries := t.entries.filter (fun e => keep e.1 e.2)
  nodupKeys := t.nodupKeys.sublist List.filter_sublist

def map {μ : Type w} (f : ν → μ) (t : Table κ ν) : Table κ μ where
  entries := t.entries.map (fun e => ⟨e.1,f e.2⟩)
  nodupKeys := by
    have keys := t.nodupKeys
    unfold List.NodupKeys List.keys at keys ⊢
    rwa [List.map_map]

def size : Nat := t.entries.length

theorem size_eq : t.size = t.keys.length := by
  simp [size,AList.keys,List.keys]

/-- The order in which a `range` loop meets the entries of a map: any. -/
structure Range (κ : Type u) (ν : Type v) where
  order : List (Sigma fun _ : κ => ν) → List (Sigma fun _ : κ => ν)
  perm : ∀ entries, (order entries).Perm entries

/-- A loop that meets the entries as they are kept. -/
def Range.asKept (κ : Type u) (ν : Type v) : Range κ ν := ⟨id,fun _ => .refl _⟩

def Range.entries (range : Range κ ν) (t : Table κ ν) : List (Sigma fun _ : κ => ν) := range.order t.entries

theorem Range.entries_perm (range : Range κ ν) (t : Table κ ν) : (range.entries t).Perm t.entries := range.perm _

theorem Range.nodup_keys (range : Range κ ν) (t : Table κ ν) : ((range.entries t).map Sigma.fst).Nodup :=
  ((range.entries_perm t).map Sigma.fst).nodup_iff.mpr t.nodupKeys

variable [DecidableEq κ] {t} {k : κ}

theorem size_erase {v : ν} (found : t.lookup k = some v) : size (t.erase k) + 1 = t.size := by
  have member : k ∈ t.keys := AList.mem_keys.mp (AList.lookup_isSome.mp (by simp [found]))
  have positive := List.length_pos_of_mem member
  rw [size_eq,size_eq,AList.keys_erase,List.length_erase_of_mem member]
  omega

@[grind =] theorem lookup_filter (keep : κ → ν → Bool) (t : Table κ ν) (k : κ) :
    (t.filter keep).lookup k = (t.lookup k).filter (keep k) := by
  ext v
  rw [mem_def.symm,mem_def.symm,AList.mem_lookup_iff,mem_filter_iff,AList.mem_lookup_iff]
  simp [filter]

@[grind =] theorem lookup_map {μ : Type w} (f : ν → μ) (t : Table κ ν) (k : κ) : (t.map f).lookup k = (t.lookup k).map f := by
  ext v
  rw [mem_def.symm,mem_def.symm,AList.mem_lookup_iff,mem_def,map_eq_some_iff]
  simp only [← mem_def,AList.mem_lookup_iff,map,List.mem_map,Sigma.mk.injEq]
  constructor
  · rintro ⟨e,member,rfl,value⟩
    exact ⟨e.2,member,eq_of_heq value⟩
  · rintro ⟨x,member,rfl⟩
    exact ⟨⟨k,x⟩,member,rfl,HEq.rfl⟩

@[grind =] theorem lookup_insert_of (t : Table κ ν) (k k' : κ) (v : ν) :
    (t.insert k v).lookup k' = if k' = k then some v else t.lookup k' := by
  split
  case isTrue same => subst same; exact AList.lookup_insert t
  case isFalse other => exact AList.lookup_insert_ne other

@[grind =] theorem lookup_erase_of (t : Table κ ν) (k k' : κ) :
    (t.erase k).lookup k' = if k' = k then none else t.lookup k' := by
  split
  case isTrue same => subst same; exact AList.lookup_erase _ t
  case isFalse other => exact AList.lookup_erase_ne other

theorem of_lookup_insert {k' : κ} {v w : ν} (found : (t.insert k v).lookup k' = some w) :
    k' = k ∧ w = v ∨ k' ≠ k ∧ t.lookup k' = some w := by
  rw [lookup_insert_of] at found
  by_cases same : k' = k
  · rw [if_pos same] at found
    exact .inl ⟨same,(Option.some.inj found).symm⟩
  · rw [if_neg same] at found
    exact .inr ⟨same,found⟩

theorem of_lookup_erase {k' : κ} {w : ν} (found : (t.erase k).lookup k' = some w) :
    k' ≠ k ∧ t.lookup k' = some w := by
  rw [lookup_erase_of] at found
  by_cases same : k' = k
  · simp [same] at found
  · rw [if_neg same] at found
    exact ⟨same,found⟩

end Table
end TunnelCat
