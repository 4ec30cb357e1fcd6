import Mathlib.Data.List.FinRange
import TunnelCat.Bytes
import TunnelCat.HostPort
import TunnelCat.Selection

/-!
The Kademlia routing table of the DHT (`dht/dht.go`): ids under the XOR metric, buckets of contacts by the
first bit in which an id differs from the node's own, and the query for the contacts closest to a target. The
query sorts by the first 64 bits of the distance only.
-/
namespace TunnelCat.Kademlia
open Bytes HostPort Selection List

def K : Nat := 8

structure ID where
  bytes : List UInt8
  size : bytes.length = 32
deriving DecidableEq

variable (a b target : ID)

def ID.xor : ID := ⟨List.zipWith (· ^^^ ·) a.bytes b.bytes,by simp [a.size,b.size]⟩

def leadingZeros8 (b : UInt8) : Nat := 7 - Nat.log2 b.toNat

def firstBit : Nat → List UInt8 → Nat
  | _, [] => 255
  | i, b :: rest => if b ≠ 0 then i * 8 + leadingZeros8 b else firstBit (i + 1) rest

theorem firstBit_lt (bytes : List UInt8) : ∀ i, i + bytes.length ≤ 32 → firstBit i bytes < 256 := by
  induction bytes with
  | nil =>
    simp [firstBit]
  | cons b rest ih =>
    grind [leadingZeros8,firstBit]

def ID.bucketIndex (d : ID) : Fin 256 := ⟨firstBit 0 d.bytes,firstBit_lt d.bytes 0 (by rw [d.size])⟩

def ID.closer : Bool := lessBytes (a.xor target).bytes (b.xor target).bytes

def ID.distance : Nat := beNat (a.xor target).bytes

def ID.distance64 : Nat := beNat ((a.xor target).bytes.take 8)

theorem ID.closer_iff : a.closer b target = true ↔ a.distance target < b.distance target :=
  lessBytes_iff (by rw [(a.xor target).size,(b.xor target).size])

variable {a b}

theorem ID.ext (same : a.bytes = b.bytes) : a = b := by
  cases a
  cases b
  simpa using same

private theorem zipWith_xor_cancel : ∀ {as bs ts : List UInt8}, as.length = ts.length → bs.length = ts.length →
    zipWith (· ^^^ ·) as ts = zipWith (· ^^^ ·) bs ts → as = bs
  | [], [], _, _, _, _ => rfl
  | [], _ :: _, [], _, second, _ => by simp at second
  | [], _ :: _, _ :: _, first, _, _ => by simp at first
  | _ :: _, [], [], first, _, _ => by simp at first
  | _ :: _, [], _ :: _, _, second, _ => by simp at second
  | _ :: _, _ :: _, [], first, _, _ => by simp at first
  | a :: as, b :: bs, t :: ts, first, second, same => by
    simp only [zipWith_cons_cons,List.cons.injEq] at same
    have head : a = b := by
      have := congrArg (· ^^^ t) same.1
      simpa [UInt8.xor_assoc] using this
    rw [head,zipWith_xor_cancel (by simpa using first) (by simpa using second) same.2]

theorem ID.distance_inj {target : ID} (same : a.distance target = b.distance target) : a = b := by
  have bytes := beNat_inj (by rw [(a.xor target).size,(b.xor target).size]) same
  exact ID.ext (zipWith_xor_cancel (by rw [a.size,target.size]) (by rw [b.size,target.size]) bytes)

theorem ID.distance_lt {target : ID} (less : a.distance64 target < b.distance64 target) :
    a.distance target < b.distance target := by
  have split (d : ID) : beNat d.bytes = beNat (d.bytes.take 8) * 256 ^ 24 + beNat (d.bytes.drop 8) := by
    grind [beNat_concat,take_append_drop,d.size]
  have low (d : ID) : beNat (d.bytes.drop 8) < 256 ^ 24 := by
    have bound := beNat_lt (d.bytes.drop 8)
    rwa [length_drop,d.size] at bound
  grind [ID.distance,ID.distance64]

theorem ID.distance64_eq_iff (a b target : ID) :
    a.distance64 target = b.distance64 target ↔ a.bytes.take 8 = b.bytes.take 8 := by
  have eight (d : ID) : (d.bytes.take 8).length = 8 := by simp [d.size]
  have parts (d : ID) : (d.xor target).bytes.take 8 = zipWith (· ^^^ ·) (d.bytes.take 8) (target.bytes.take 8) :=
    take_zipWith
  constructor
  · intro same
    have bytes := beNat_inj (by rw [eight,eight]) same
    grind [zipWith_xor_cancel]
  · intro same
    rw [ID.distance64,ID.distance64,parts,parts,same]

structure Contact where
  id : ID
  addr : Text
  lastSeen : Nat
  missedPings : Nat
  suspect : Bool
deriving DecidableEq

def maxMissedPings : Nat := 4

def atFirst (id : ID) (f : Contact → Option Contact) : List Contact → List Contact
  | [] => []
  | e :: rest => if e.id = id then (f e).toList ++ rest else e :: atFirst id f rest

def Keeps (id : ID) (f : Contact → Option Contact) : Prop := ∀ e e', e.id = id → f e = some e' → e'.id = id

def bucketAdd (c : Contact) (contacts : List Contact) : List Contact :=
  if c.id ∈ contacts.map (fun e => e.id) then atFirst c.id (fun _ => some c) contacts
  else (if K ≤ contacts.length then contacts.drop 1 else contacts) ++ [c]

def missed (e : Contact) : Option Contact :=
  if maxMissedPings ≤ e.missedPings + 1 then none else some { e with missedPings := e.missedPings + 1, suspect := true }

def reset (e : Contact) : Option Contact := some { e with missedPings := 0, suspect := false }

section
variable {id : ID} {f : Contact → Option Contact}

theorem keeps_missed (id : ID) : Keeps id missed := by
  intro e e' same changed
  grind [missed]

theorem keeps_reset (id : ID) : Keeps id reset := by
  intro e e' same changed
  rw [← Option.some.inj changed]
  exact same

theorem atFirst_ids (keeps : Keeps id f) (contacts : List Contact) :
    ((atFirst id f contacts).map (fun e => e.id)).Sublist (contacts.map (fun e => e.id)) := by
  induction contacts with
  | nil => simp [atFirst]
  | cons e rest ih =>
    unfold atFirst
    by_cases same : e.id = id
    · rw [if_pos same]
      cases changed : f e with
      | none => simp
      | some e' => simp [keeps e e' same changed,same]
    · rw [if_neg same]
      exact ih.cons_cons _

theorem find_atFirst_self (keeps : Keeps id f) {contacts : List Contact}
    (distinct : (contacts.map (fun e => e.id)).Nodup) :
    (atFirst id f contacts).find? (fun c => c.id = id) = (contacts.find? (fun c => c.id = id)).bind f := by
  induction contacts with
  | nil => rfl
  | cons e rest ih =>
    rw [map_cons,nodup_cons] at distinct
    unfold atFirst
    by_cases same : e.id = id
    · have gone : rest.find? (fun c => c.id = id) = none := by
        grind
      cases changed : f e with
      | none => simp [same,changed,gone]
      | some e' => simp [same,changed,keeps e e' same changed]
    · simp [same,ih distinct.2]

theorem find_atFirst_other (keeps : Keeps id f) {other : ID} (differs : other ≠ id) (contacts : List Contact) :
    (atFirst id f contacts).find? (fun c => c.id = other) = contacts.find? (fun c => c.id = other) := by
  induction contacts with
  | nil => rfl
  | cons e rest ih =>
    unfold atFirst
    by_cases same : e.id = id
    · cases changed : f e with
      | none => simp [same,differs.symm]
      | some e' => simp [same,keeps e e' same changed,differs.symm]
    grind

end

structure Fits (own : ID) (i : Fin 256) (contacts : List Contact) : Prop where
  placed : ∀ c ∈ contacts, c.id ≠ own ∧ (own.xor c.id).bucketIndex = i
  distinct : (contacts.map (fun c => c.id)).Nodup
  small : contacts.length ≤ K

/-- A routing table: each contact is in the bucket of its id, once, and none is the node itself. -/
structure RoutingTable where
  self : ID
  buckets : Fin 256 → List Contact
  fits : ∀ i, Fits self i (buckets i)

theorem fits_nil (own : ID) (i : Fin 256) : Fits own i [] := ⟨by simp,by simp,by simp⟩

def RoutingTable.new (self : ID) : RoutingTable := ⟨self,fun _ => [],fits_nil self⟩

namespace RoutingTable

def index (rt : RoutingTable) (id : ID) : Fin 256 := (rt.self.xor id).bucketIndex

def update (rt : RoutingTable) (i : Fin 256) (contacts : List Contact) (fits : Fits rt.self i contacts) : RoutingTable where
  self := rt.self
  buckets := fun j => if j = i then contacts else rt.buckets j
  fits := by
    intro j
    by_cases same : j = i
    · subst same
      simpa using fits
    · simpa [same] using rt.fits j

variable {contacts : List Contact} {c : Contact} {rt : RoutingTable}

theorem fits_atFirst {own id : ID} {f : Contact → Option Contact} (keeps : Keeps id f) {i : Fin 256} (fits : Fits own i contacts) : Fits own i (atFirst id f contacts) := by
  have ids := atFirst_ids keeps contacts
  refine ⟨?_,fits.distinct.sublist ids,?_⟩
  · grind [mem_map_of_mem,fits.placed]
  grind [length_map,fits.small]

theorem fits_add {own : ID} {i : Fin 256} (foreign : c.id ≠ own)
    (here : (own.xor c.id).bucketIndex = i) (fits : Fits own i contacts) : Fits own i (bucketAdd c contacts) := by
  unfold bucketAdd
  by_cases known : c.id ∈ contacts.map (fun e => e.id)
  · rw [if_pos known]
    refine fits_atFirst ?_ fits
    intro e e' _ same
    rw [← Option.some.inj same]
  · rw [if_neg known]
    have part : (if K ≤ contacts.length then contacts.drop 1 else contacts).Sublist contacts := by
      grind
    have room : (if K ≤ contacts.length then contacts.drop 1 else contacts).length + 1 ≤ K := by
      grind [fits.small,K]
    refine ⟨?_,?_,by simpa using room⟩
    · intro e member
      rcases mem_append.mp member with old | own_
      · exact fits.placed e (part.subset old)
      · rw [mem_singleton.mp own_]
        exact ⟨foreign,here⟩
    · rw [map_append,nodup_append]
      refine ⟨fits.distinct.sublist (part.map _),by simp,?_⟩
      grind

def add (rt : RoutingTable) (c : Contact) : RoutingTable :=
  if own : c.id = rt.self then rt
  else rt.update (rt.index c.id) (bucketAdd c (rt.buckets (rt.index c.id))) (fits_add own rfl (rt.fits _))

def onContact (rt : RoutingTable) (id : ID) (f : Contact → Option Contact) (keeps : Keeps id f) : RoutingTable :=
  rt.update (rt.index id) (atFirst id f (rt.buckets (rt.index id))) (fits_atFirst keeps (rt.fits _))

def markMissed (rt : RoutingTable) (id : ID) : RoutingTable := rt.onContact id missed (keeps_missed id)

def resetMissed (rt : RoutingTable) (id : ID) : RoutingTable := rt.onContact id reset (keeps_reset id)

def all (rt : RoutingTable) : List Contact := (List.finRange 256).flatMap rt.buckets

def suspectContacts (rt : RoutingTable) : List Contact := rt.all.filter (fun c => c.suspect)

def live (rt : RoutingTable) : List Contact := rt.all.filter (fun c => !c.suspect)

/-- The comparison that `Closest` sorts by: the first 64 bits of the distances. -/
def less (target : ID) : Contact → Contact → Bool := lessBy (fun c => c.id.distance64 target)

/-- `Closest`, with `sort.Slice` as a parameter. -/
def closest (sort : (Contact → Contact → Bool) → List Contact → List Contact) (rt : RoutingTable) (target : ID)
    (n : Nat) : List Contact :=
  (sort (less target) rt.live).take n

def find (rt : RoutingTable) (id : ID) : Option Contact := (rt.buckets (rt.index id)).find? (fun c => c.id = id)

def pushesOut (rt : RoutingTable) (c : Contact) (id : ID) : Bool :=
  c.id ≠ rt.self && (rt.find c.id).isNone && K ≤ (rt.buckets (rt.index c.id)).length &&
    (rt.buckets (rt.index c.id)).head?.map (fun e => e.id) = some id

theorem mem_all : c ∈ rt.all ↔ c ∈ rt.buckets (rt.index c.id) := by
  simp only [all,mem_flatMap,mem_finRange,true_and]
  constructor
  · rintro ⟨i,member⟩
    rw [index,((rt.fits i).placed c member).2]
    exact member
  · intro member
    exact ⟨_,member⟩

theorem eq_of_id {a b : Contact} (ofA : a ∈ rt.all) (ofB : b ∈ rt.all) (same : a.id = b.id) :
    a = b := by
  rw [mem_all] at ofA ofB
  rw [← same] at ofB
  exact inj_on_of_nodup_map (rt.fits _).distinct ofA ofB same

theorem all_nodup (rt : RoutingTable) : rt.all.Nodup := by
  refine nodup_flatMap.mpr ⟨fun i _ => (rt.fits i).distinct.of_map _,?_⟩
  refine (nodup_finRange 256).imp ?_
  intro i j differ c first second
  exact differ (((rt.fits i).placed c first).2.symm.trans ((rt.fits j).placed c second).2)

section
variable {rt : RoutingTable} {id : ID}

theorem find_update {i : Fin 256} {contacts : List Contact} {fits : Fits rt.self i contacts} :
    (rt.update i contacts fits).find id = if rt.index id = i then contacts.find? (fun c => c.id = id) else rt.find id := by
  have bucket : (rt.update i contacts fits).buckets ((rt.update i contacts fits).index id) =
      if rt.index id = i then contacts else rt.buckets (rt.index id) := rfl
  rw [find,bucket]
  split_ifs
  · rfl
  · rfl

theorem find_onContact_other {other : ID} {f : Contact → Option Contact} {keeps : Keeps id f} (differs : other ≠ id) :
    (rt.onContact id f keeps).find other = rt.find other := by
  rw [onContact,find_update]
  by_cases here : rt.index other = rt.index id
  · rw [if_pos here,find_atFirst_other keeps differs,find,here]
  · rw [if_neg here]

theorem find_eq_none : rt.find id = none ↔ id ∉ (rt.buckets (rt.index id)).map (fun e => e.id) := by
  simp [find]

theorem find_add_other {c : Contact} (differs : id ≠ c.id) :
    (rt.add c).find id = if rt.pushesOut c id then none else rt.find id := by
  by_cases own : c.id = rt.self
  · simp [add,own,pushesOut]
  by_cases here : rt.index id = rt.index c.id
  · rw [add,dif_neg own,find_update,bucketAdd]
    by_cases known : c.id ∈ (rt.buckets (rt.index c.id)).map (fun e => e.id)
    · have keeps : Keeps c.id (fun _ => some c) := fun e e' _ same => by rw [← Option.some.inj same]
      have listed : (rt.find c.id).isNone = false := by
        rw [Option.isNone_eq_false_iff,Option.isSome_iff_ne_none]
        exact mt find_eq_none.mp (not_not.mpr known)
      rw [if_pos known,find_atFirst_other keeps differs,pushesOut,listed,find,here]
      simp
    · have new : (rt.find c.id).isNone = true := by simpa using find_eq_none.mpr known
      have distinct := (rt.fits (rt.index c.id)).distinct
      rw [if_neg known,pushesOut,new,find,here]
      generalize rt.buckets (rt.index c.id) = contacts at distinct
      by_cases full : K ≤ contacts.length
      · cases contacts with
        | nil => simp [K] at full
        | cons e rest =>
          rw [map_cons,nodup_cons] at distinct
          grind
      · simp [full,differs.symm]
  · rw [add,dif_neg own,find_update,if_neg here]
    have elsewhere : rt.pushesOut c id = false := by
      by_contra pushed
      simp only [pushesOut,Bool.not_eq_false,Bool.and_eq_true,decide_eq_true_eq,Option.map_eq_some_iff] at pushed
      obtain ⟨_,e,head,same⟩ := pushed
      exact here (same ▸ ((rt.fits _).placed e (mem_of_head? head)).2)
    rw [elsewhere]
    simp

end

end RoutingTable

inductive TableOp where
  | add (c : Contact)
  | remove (id : ID)
  | markMissed (id : ID)
  | resetMissed (id : ID)

def RoutingTable.remove (rt : RoutingTable) (id : ID) : RoutingTable := rt.onContact id (fun _ => none) (by simp [Keeps])

def RoutingTable.apply (rt : RoutingTable) : TableOp → RoutingTable
  | .add c => rt.add c
  | .remove id => rt.remove id
  | .markMissed id => rt.markMissed id
  | .resetMissed id => rt.resetMissed id

def TableOp.Clean : TableOp → Prop
  | .add c => c.missedPings = 0 ∧ c.suspect = false
  | _ => True

def Contact.Sound (c : Contact) : Prop := c.missedPings < maxMissedPings ∧ (c.suspect = true ↔ 0 < c.missedPings)

structure TableInvariants (self : ID) (rt : RoutingTable) : Prop where
  placed : ∀ i, ∀ c ∈ rt.buckets i, (self.xor c.id).bucketIndex = i
  distinct : (rt.all.map Contact.id).Nodup
  foreign : ∀ c ∈ rt.all, c.id ≠ self
  small : ∀ i, (rt.buckets i).length ≤ K
  sound : ∀ c ∈ rt.all, c.Sound

variable {f : Contact → Option Contact} {contacts : List Contact} {c e : Contact} {rt : RoutingTable}

theorem mem_atFirst {id : ID}
    (mem : c ∈ atFirst id f contacts) : c ∈ contacts ∨ ∃ e ∈ contacts, f e = some c := by
  induction contacts with
  | nil => simp [atFirst] at mem
  | cons e rest ih =>
    grind [atFirst]

theorem mem_bucketAdd (mem : e ∈ bucketAdd c contacts) : e = c ∨ e ∈ contacts := by
  unfold bucketAdd at mem
  grind [mem_atFirst]

theorem sound_missed (changed : missed e = some c) : c.Sound := by
  unfold missed at changed
  split_ifs at changed with few
  rw [← Option.some.inj changed]
  exact ⟨Nat.lt_of_not_le few,by simp⟩

theorem sound_reset (changed : reset e = some c) : c.Sound := by
  rw [← Option.some.inj changed]
  exact ⟨Nat.succ_pos 3,by simp⟩

theorem mem_update {i j : Fin 256} {fits : Fits rt.self i contacts}
    (mem : c ∈ (rt.update i contacts fits).buckets j) : c ∈ contacts ∨ c ∈ rt.buckets j := by
  grind [RoutingTable.update]

theorem sound_onContact {id : ID} (keeps : Keeps id f)
    (sound : ∀ i, ∀ c ∈ rt.buckets i, c.Sound) (makes : ∀ e c, f e = some c → c.Sound) :
    ∀ i, ∀ c ∈ (rt.onContact id f keeps).buckets i, c.Sound := by
  intro i c mem
  rcases mem_update mem with changed | old
  · grind [mem_atFirst]
  · exact sound i c old

theorem sound_apply {op : TableOp} (clean : op.Clean) (sound : ∀ i, ∀ c ∈ rt.buckets i, c.Sound) :
    ∀ i, ∀ c ∈ (rt.apply op).buckets i, c.Sound := by
  intro i c mem
  cases op with
  | add e =>
    have new : e.Sound := by simp [Contact.Sound,clean.1,clean.2,maxMissedPings]
    simp only [RoutingTable.apply,RoutingTable.add] at mem
    split_ifs at mem
    · exact sound i c mem
    · rcases mem_update mem with added | old
      · grind [mem_bucketAdd]
      · exact sound i c old
  | remove id => exact sound_onContact (by simp [Keeps]) sound (by simp) i c mem
  | markMissed id => exact sound_onContact (keeps_missed id) sound (fun _ _ => sound_missed) i c mem
  | resetMissed id => exact sound_onContact (keeps_reset id) sound (fun _ _ => sound_reset) i c mem

theorem self_apply (rt : RoutingTable) (op : TableOp) : (rt.apply op).self = rt.self := by
  cases op with
  | add c =>
    simp only [RoutingTable.apply,RoutingTable.add]
    split_ifs <;> rfl
  | remove id => rfl
  | markMissed id => rfl
  | resetMissed id => rfl

theorem run_sound {ops : List TableOp} (clean : ∀ op ∈ ops, op.Clean)
    (sound : ∀ i, ∀ c ∈ rt.buckets i, c.Sound) :
    (ops.foldl RoutingTable.apply rt).self = rt.self ∧ ∀ i, ∀ c ∈ (ops.foldl RoutingTable.apply rt).buckets i, c.Sound := by
  induction ops generalizing rt with
  | nil => exact ⟨rfl,sound⟩
  | cons op rest ih =>
    obtain ⟨self,later⟩ := ih (fun o mem => clean o (by simp [mem])) (sound_apply (clean op (by simp)) sound)
    exact ⟨self.trans (self_apply rt op),later⟩

/-- From the empty table on, the table is well formed and its miss counts say who is suspect. -/
theorem table_invariants (self : ID) {ops : List TableOp} (clean : ∀ op ∈ ops, op.Clean) :
    TableInvariants self (ops.foldl RoutingTable.apply (.new self)) := by
  have empty : ∀ i, ∀ c ∈ (RoutingTable.new self).buckets i, c.Sound := by simp [RoutingTable.new]
  obtain ⟨own,sound⟩ := run_sound clean empty
  generalize ops.foldl RoutingTable.apply (.new self) = rt at own sound
  have own : rt.self = self := own
  constructor
  · intro i c mem
    rw [← own]
    exact ((rt.fits i).placed c mem).2
  · exact rt.all_nodup.map_on (fun a first b second same => RoutingTable.eq_of_id first second same)
  · intro c mem
    rw [← own]
    exact ((rt.fits _).placed c (RoutingTable.mem_all.mp mem)).1
  · exact fun i => (rt.fits i).small
  · exact fun c mem => sound _ c (RoutingTable.mem_all.mp mem)

def sampleID (first last : UInt8) : ID := ⟨first :: List.replicate 30 0 ++ [last],by simp⟩

def sampleContact (id : ID) : Contact := ⟨id,[],0,0,false⟩

theorem table_invariants_missed : (([.add (sampleContact (sampleID 0 1)),.markMissed (sampleID 0 1)] : List TableOp).foldl
      RoutingTable.apply (.new (sampleID 255 0))).all.map Contact.missedPings = [1] ∧
    TableInvariants (sampleID 255 0) (([.add (sampleContact (sampleID 0 1)),.markMissed (sampleID 0 1)] : List TableOp).foldl
      RoutingTable.apply (.new (sampleID 255 0))) :=
  ⟨by decide +kernel,table_invariants _ (by simp [TableOp.Clean,sampleContact])⟩

/-- No contact that is among the first `n` by the first 64 bits of the distance shares the
    first eight bytes of its id with another. -/
def NoTie (rt : RoutingTable) (target : ID) (n : Nat) : Prop :=
  ∀ a ∈ rt.live, ∀ b ∈ rt.live, a.id ≠ b.id → a.id.bytes.take 8 = b.id.bytes.take 8 →
    n ≤ (rt.live.filter (fun c => c.id.distance64 target < a.id.distance64 target)).length

/-- `Closer` compares the full distances. The query returns the contacts with the smallest
    of them, in order and whatever the sort does with ties, exactly when no tie reaches what
    it returns. -/
theorem closest_iff (rt : RoutingTable) (target : ID) (n : Nat) :
    (∀ a b : ID, a.closer b target = true ↔ a.distance target < b.distance target) ∧
    ((∀ sort, Sorts (RoutingTable.less target) (sort (RoutingTable.less target)) →
        Smallest (fun c => c.id.distance target) n rt.live (rt.closest sort target n)) ↔
      NoTie rt target n) := by
  refine ⟨fun a b => a.closer_iff b target,?_⟩
  have known (c : Contact) (member : c ∈ rt.live) : c ∈ rt.all := (mem_filter.mp member).1
  have refines : ∀ a b : Contact, a.id.distance64 target < b.id.distance64 target →
      a.id.distance target < b.id.distance target := fun _ _ => ID.distance_lt
  have distinct : ∀ a ∈ rt.live, ∀ b ∈ rt.live, a.id.distance target = b.id.distance target → a = b :=
    fun a ofA b ofB same => RoutingTable.eq_of_id (known a ofA) (known b ofB) (ID.distance_inj same)
  have general := take_smallest_iff refines distinct (rt.all_nodup.filter _) n
  constructor
  · intro smallest a ofA b ofB differ shared
    by_contra few
    refine general.mp (fun sort sorts => smallest (fun _ => sort) sorts) a b ⟨ofA,ofB,?_,?_,Nat.lt_of_not_le few⟩
    · exact fun equal => differ (congrArg Contact.id equal)
    · exact (ID.distance64_eq_iff _ _ _).mpr shared
  · intro noTie sort sorts
    refine general.mpr ?_ (sort (RoutingTable.less target)) sorts
    rintro a b ⟨ofA,ofB,differ,tie,few⟩
    have differs : a.id ≠ b.id := fun same => differ (RoutingTable.eq_of_id (known a ofA) (known b ofB) same)
    exact absurd (noTie a ofA b ofB differs ((ID.distance64_eq_iff _ _ _).mp tie)) (Nat.not_le.mpr few)

def tiedTable : RoutingTable :=
  ((RoutingTable.new (sampleID 255 0)).add (sampleContact (sampleID 0 2))).add (sampleContact (sampleID 0 1))

/-- Asked for the contact closest to zero, the table returns the farther one. -/
theorem closest_tied : ¬ ∀ (rt : RoutingTable) (target : ID) (n : Nat),
    ∀ sort, Sorts (RoutingTable.less target) (sort (RoutingTable.less target)) →
      Smallest (fun c => c.id.distance target) n rt.live (rt.closest sort target n) := by
  intro all
  obtain ⟨_,_,others,split,larger⟩ := all tiedTable (sampleID 0 0) 1
    (fun _ => insertSort (fun c => c.id.distance64 (sampleID 0 0))) (insertSort_sorts _)
  have listed : tiedTable.live = [sampleContact (sampleID 0 2),sampleContact (sampleID 0 1)] := by decide +kernel
  have returned : tiedTable.closest (fun _ => insertSort (fun c => c.id.distance64 (sampleID 0 0))) (sampleID 0 0) 1 =
      [sampleContact (sampleID 0 2)] := by
    rw [RoutingTable.closest,listed]
    decide +kernel
  rw [returned,listed,singleton_append,perm_cons] at split
  rw [returned] at larger
  have less := larger (sampleContact (sampleID 0 2)) (by simp) (sampleContact (sampleID 0 1)) (split.mem_iff.mpr (by simp))
  exact absurd less (by decide +kernel)

end TunnelCat.Kademlia
