import Mathlib.Logic.Function.Basic
import TunnelCat.Table

/-!
Files on a disk, by name and by node. A name leads to a node, which holds the bytes; an open
file writes to its node, whatever has become of the name. So two that open one name share a
node, and a file can be written to after it was renamed or removed.

Each operation has one lemma on the files with other names, which it leaves as they are.
-/
namespace TunnelCat
open Table
universe u

/-- Files with names in `π`. No two names lead to one node, and new nodes are new. -/
structure Disk (π : Type u) [DecidableEq π] where
  names : Table π Nat
  data : Nat → List UInt8
  nodes : Nat
  single : ∀ p q n, names.lookup p = some n → names.lookup q = some n → p = q
  below : ∀ p n, names.lookup p = some n → n < nodes

namespace Disk
variable {π : Type u} [DecidableEq π]

def empty : Disk π where
  names := ∅
  data _ := []
  nodes := 0
  single := fun _ _ _ found => by cases found
  below := fun _ _ found => by cases found

def read (d : Disk π) (p : π) : Option (List UInt8) := (d.names.lookup p).map d.data

def write (d : Disk π) (node offset : Nat) (bytes : List UInt8) : Disk π :=
  let old := d.data node
  let before := (old ++ List.replicate (offset - old.length) 0).take offset
  { d with data := Function.update d.data node (before ++ bytes ++ old.drop (offset + bytes.length)) }

variable {d : Disk π}

theorem single_insert (p : π) (a b : π) (n : Nat) (first : (d.names.insert p d.nodes).lookup a = some n)
    (second : (d.names.insert p d.nodes).lookup b = some n) : a = b := by
  rcases of_lookup_insert first with ⟨rfl,rfl⟩ | ⟨-,old⟩
  · rcases of_lookup_insert second with ⟨rfl,-⟩ | ⟨-,old'⟩
    · rfl
    · exact absurd (d.below b d.nodes old') (Nat.lt_irrefl _)
  · rcases of_lookup_insert second with ⟨rfl,rfl⟩ | ⟨-,old'⟩
    · exact absurd (d.below a d.nodes old) (Nat.lt_irrefl _)
    · exact d.single a b n old old'

theorem below_insert (p : π) (q : π) (n : Nat) (found : (d.names.insert p d.nodes).lookup q = some n) :
    n < d.nodes + 1 := by
  rcases of_lookup_insert found with ⟨-,rfl⟩ | ⟨-,old⟩
  · exact Nat.lt_succ_self _
  · exact Nat.lt_succ_of_lt (d.below q n old)

def openTrunc (d : Disk π) (p : π) : Disk π × Nat :=
  match d.names.lookup p with
  | some n => ({ d with data := Function.update d.data n [] },n)
  | none =>
    ({ names := d.names.insert p d.nodes
       data := Function.update d.data d.nodes []
       nodes := d.nodes + 1
       single := single_insert p
       below := below_insert p },d.nodes)

def remove (d : Disk π) (p : π) : Disk π where
  names := d.names.erase p
  data := d.data
  nodes := d.nodes
  single a b n first second := d.single a b n (of_lookup_erase first).2 (of_lookup_erase second).2
  below q n found := d.below q n (of_lookup_erase found).2

theorem single_rename {p q : π} {n : Nat} (there : d.names.lookup p = some n) (a b : π) (m : Nat)
    (first : ((d.names.erase p).insert q n).lookup a = some m)
    (second : ((d.names.erase p).insert q n).lookup b = some m) : a = b := by
  rcases of_lookup_insert first with ⟨rfl,rfl⟩ | ⟨-,old⟩
  · rcases of_lookup_insert second with ⟨rfl,-⟩ | ⟨-,old'⟩
    · rfl
    · obtain ⟨other,found⟩ := of_lookup_erase old'
      exact absurd (d.single b p m found there) other
  · obtain ⟨other,found⟩ := of_lookup_erase old
    rcases of_lookup_insert second with ⟨rfl,rfl⟩ | ⟨-,old'⟩
    · exact absurd (d.single a p m found there) other
    · exact d.single a b m found (of_lookup_erase old').2

theorem below_rename {p q : π} {n : Nat} (there : d.names.lookup p = some n) (a : π) (m : Nat)
    (found : ((d.names.erase p).insert q n).lookup a = some m) : m < d.nodes := by
  rcases of_lookup_insert found with ⟨-,rfl⟩ | ⟨-,old⟩
  · exact d.below p m there
  · exact d.below a m (of_lookup_erase old).2

def rename (d : Disk π) (p q : π) : Option (Disk π) :=
  match there : d.names.lookup p with
  | none => none
  | some n =>
    some
      { names := (d.names.erase p).insert q n
        data := d.data
        nodes := d.nodes
        single := single_rename there
        below := below_rename there }

def writeFile (d : Disk π) (p : π) (bytes : List UInt8) : Disk π :=
  (d.openTrunc p).1.write (d.openTrunc p).2 0 bytes

section
variable {d : Disk π} {p q : π}

theorem lookup_openTrunc : (d.openTrunc p).1.names.lookup p = some (d.openTrunc p).2 := by
  unfold openTrunc
  cases there : d.names.lookup p with
  | some n => exact there
  | none => exact AList.lookup_insert d.names

theorem data_openTrunc : (d.openTrunc p).1.data (d.openTrunc p).2 = [] := by
  unfold openTrunc
  cases d.names.lookup p <;> simp

theorem read_of_lookup {n : Nat} (there : d.names.lookup p = some n) : d.read p = some (d.data n) := by
  simp [read,there]

def SameAt (d d' : Disk π) (q : π) : Prop :=
  d'.names.lookup q = d.names.lookup q ∧ ∀ n, d.names.lookup q = some n → d'.data n = d.data n

theorem SameAt.refl (d : Disk π) (q : π) : SameAt d d q := ⟨rfl,fun _ _ => rfl⟩

variable {d' : Disk π} {node : Nat}

theorem SameAt.trans {d'' : Disk π} (first : SameAt d d' q) (second : SameAt d' d'' q) : SameAt d d'' q := by
  refine ⟨second.1.trans first.1,?_⟩
  intro n there
  exact (second.2 n (first.1.trans there)).trans (first.2 n there)

theorem SameAt.read (same : SameAt d d' q) : d'.read q = d.read q := by
  simp only [Disk.read,same.1]
  cases found : d.names.lookup q with
  | none => rfl
  | some n => rw [Option.map_some,Option.map_some,same.2 n found]

theorem sameAt_openTrunc (other : q ≠ p) : SameAt d (d.openTrunc p).1 q := by
  unfold openTrunc
  cases there : d.names.lookup p with
  | some n =>
    refine ⟨rfl,?_⟩
    intro m found
    have apart : m ≠ n := fun same => other (d.single q p n (same ▸ found) there)
    exact Function.update_of_ne apart _ _
  | none =>
    refine ⟨AList.lookup_insert_ne other,?_⟩
    intro m found
    have apart : m ≠ d.nodes := Nat.ne_of_lt (d.below q m found)
    exact Function.update_of_ne apart _ _

theorem sameAt_write (there : d.names.lookup p = some node) (other : q ≠ p) (offset : Nat) (bytes : List UInt8) :
    SameAt d (d.write node offset bytes) q := by
  refine ⟨rfl,?_⟩
  intro m found
  have apart : m ≠ node := fun same => other (d.single q p node (same ▸ found) there)
  exact Function.update_of_ne apart _ _

theorem sameAt_remove (other : q ≠ p) : SameAt d (d.remove p) q := ⟨AList.lookup_erase_ne other,fun _ _ => rfl⟩

theorem rename_same {p q : π} (renamed : d.rename p q = some d') :
    d'.read q = d.read p ∧ ∀ r, r ≠ p → r ≠ q → SameAt d d' r := by
  unfold rename at renamed
  split at renamed
  case h_1 => cases renamed
  case h_2 n there =>
    cases renamed
    refine ⟨by simp [Disk.read,there],?_⟩
    intro r fromOther toOther
    exact ⟨(AList.lookup_insert_ne toOther).trans (AList.lookup_erase_ne fromOther),fun _ _ => rfl⟩

theorem read_openTrunc (other : q ≠ p) : (d.openTrunc p).1.read q = d.read q := (sameAt_openTrunc other).read

theorem read_write (there : d.names.lookup p = some node) (other : q ≠ p) (offset : Nat) (bytes : List UInt8) :
    (d.write node offset bytes).read q = d.read q :=
  (sameAt_write there other offset bytes).read

theorem data_write_end {node : Nat} (bytes : List UInt8) :
    (d.write node (d.data node).length bytes).data node = d.data node ++ bytes := by
  simp [write]

theorem read_write_empty (there : d.names.lookup p = some node) (empty : d.data node = []) (bytes : List UInt8) :
    (d.write node 0 bytes).read p = some bytes := by
  have whole := @data_write_end _ _ d node bytes
  rw [empty,List.length_nil,List.nil_append] at whole
  rw [read_of_lookup (d := d.write node 0 bytes) there,whole]

theorem sameAt_writeFile (other : q ≠ p) (bytes : List UInt8) : SameAt d (d.writeFile p bytes) q :=
  (sameAt_openTrunc other).trans (sameAt_write lookup_openTrunc other 0 bytes)

theorem read_writeFile_self (bytes : List UInt8) : (d.writeFile p bytes).read p = some bytes :=
  read_write_empty lookup_openTrunc data_openTrunc bytes

end

end Disk
end TunnelCat
