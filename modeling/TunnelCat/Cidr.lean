import Mathlib.Data.List.Permutation
import TunnelCat.NetIP
import TunnelCat.Probe

/-!
Two lookups of an address in one CIDR list: the client's, one probe into sorted
arrays (`snc/core/cidr.go`), and the exit's, which asks every network
(`snc-exit/cidr_cache.go`). `sort.Slice` leaves networks with one start in any
order, so the client is compared under every order.
-/
namespace TunnelCat.Cidr
open NetIP Probe List

structure CIDRSet where
  starts4 : List (BitVec 32)
  masks4 : List (BitVec 32)
  starts6 : List (BitVec 128)
  masks6 : List (BitVec 128)

/-- What `sort.Slice` by the start may do: the networks in an order in which the
    starts do not decrease. -/
structure StartSort where
  sort : ∀ {w : Nat}, List (Net w) → List (Net w)
  perm : ∀ {w : Nat} (entries : List (Net w)), (sort entries).Perm entries
  sorted : ∀ {w : Nat} (entries : List (Net w)), (sort entries).Pairwise (fun a b => a.ip ≤ b.ip)

def four? : IPNet → Option (Net 32)
  | .four net => some net
  | .sixteen _ => none

def sixteen? : IPNet → Option (Net 128)
  | .four _ => none
  | .sixteen net => some net

variable (s : CIDRSet) (cidrs : List String)

def entries4 : List (Net 32) := (cidrs.filterMap parseCIDR).filterMap four?

def entries6 : List (Net 128) := (cidrs.filterMap parseCIDR).filterMap sixteen?

def parseCIDRs (slice : StartSort) (cidrs : List String) : CIDRSet where
  starts4 := (slice.sort (entries4 cidrs)).map (·.ip)
  masks4 := (slice.sort (entries4 cidrs)).map (·.mask)
  starts6 := (slice.sort (entries6 cidrs)).map (·.ip)
  masks6 := (slice.sort (entries6 cidrs)).map (·.mask)

def containsAt {w : Nat} (starts masks : List (BitVec w)) (addr : BitVec w) : Bool :=
  if starts.length = 0 then false
  else
    let idx := probe (fun i => starts.getD i 0 ≤ addr) starts.length
    if idx < 0 then false else addr &&& masks.getD idx.toNat 0 = starts.getD idx.toNat 0

def contains4 (addr : BitVec 32) : Bool := containsAt s.starts4 s.masks4 addr

def contains6 (addr : BitVec 128) : Bool := containsAt s.starts6 s.masks6 addr

def CIDRSet.contains (ip : IP) : Bool :=
  match ip.to4, ip with
  | some ip4, _ => contains4 s ip4
  | none, .sixteen addr => contains6 s addr
  | none, .four _ => false

structure CidrNet where
  nets : List IPNet

def parseCIDRNet : CidrNet := ⟨cidrs.filterMap parseCIDR⟩

def CidrNet.contains (c : CidrNet) (ip : IP) : Bool := c.nets.any (·.contains ip)

theorem cidrNet_contains_iff {cidrs : List String} {ip : IP} : (parseCIDRNet cidrs).contains ip = true ↔
    (∃ net ∈ entries4 cidrs, (IPNet.four net).contains ip = true) ∨
      ∃ net ∈ entries6 cidrs, (IPNet.sixteen net).contains ip = true := by
  simp only [CidrNet.contains,any_eq_true,entries4,entries6,mem_filterMap (f := four?),
    mem_filterMap (f := sixteen?)]
  constructor
  · rintro ⟨n,listed,holds⟩
    cases n with
    | four net => exact .inl ⟨net,⟨_,listed,rfl⟩,holds⟩
    | sixteen net => exact .inr ⟨net,⟨_,listed,rfl⟩,holds⟩
  · rintro (⟨net,⟨n,listed,kind⟩,holds⟩ | ⟨net,⟨n,listed,kind⟩,holds⟩)
    all_goals
      cases n <;> simp only [four?,sixteen?,Option.some.injEq,reduceCtorEq] at kind
      subst kind
      exact ⟨_,listed,holds⟩

section
variable {w : Nat} {es : List (Net w)}

theorem containsAt_probes {R : Net w → Net w → Prop} (sorted : es.Pairwise R)
    (orders : ∀ a b, R a b → a.ip ≤ b.ip) (addr : BitVec w) :
    (containsAt (es.map (·.ip)) (es.map (·.mask)) addr = false ∧ ∀ o ∈ es, addr.toNat < o.first) ∨
      ∃ e ∈ es, e.first ≤ addr.toNat ∧ (∀ o ∈ es, o.first ≤ addr.toNat → o = e ∨ R o e) ∧
        (containsAt (es.map (·.ip)) (es.map (·.mask)) addr = true ↔ Holds Net.first Net.last e addr.toNat) := by
  have start : ∀ i (inside : i < es.length), (es.map (·.ip)).getD i 0 = es[i].ip := by
    intro i inside
    simp [inside]
  have mask : ∀ i (inside : i < es.length), (es.map (·.mask)).getD i 0 = es[i].mask := by
    intro i inside
    simp [inside]
  have monotone : ∀ i j : Nat, i ≤ j → j < es.length →
      decide ((es.map (·.ip)).getD j 0 ≤ addr) = true → decide ((es.map (·.ip)).getD i 0 ≤ addr) = true := by
    intro i j upto inside below
    rcases Nat.eq_or_lt_of_le upto with rfl | earlier
    · exact below
    · rw [start j inside] at below
      rw [start i (by omega)]
      have order : es[i].ip ≤ es[j].ip := orders _ _ (pairwise_iff_getElem.mp sorted i j _ _ earlier)
      grind
  obtain ⟨low,high,found⟩ := probe_correct monotone
  have bound : ∀ i (inside : i < es.length), es[i].first ≤ addr.toNat ↔
      (i : Int) ≤ probe (fun i => (es.map (·.ip)).getD i 0 ≤ addr) es.length := by
    intro i inside
    rw [← found i inside,start i inside,decide_eq_true_eq]
    rfl
  unfold containsAt
  rw [length_map]
  by_cases empty : es.length = 0
  · rw [length_eq_zero_iff] at empty
    simp [empty]
  rw [if_neg empty]
  by_cases none : probe (fun i => (es.map (·.ip)).getD i 0 ≤ addr) es.length < 0
  · left
    refine ⟨by simp only [none,if_true],?_⟩
    intro o member
    obtain ⟨i,inside,rfl⟩ := getElem_of_mem member
    have := bound i inside
    omega
  · right
    obtain ⟨i,index⟩ := Int.eq_ofNat_of_zero_le (Int.not_lt.mp none)
    have inside : i < es.length := by omega
    refine ⟨es[i],getElem_mem _,(bound i inside).mpr (by omega),?_,?_⟩
    · intro o member upto
      obtain ⟨j,inside',rfl⟩ := getElem_of_mem member
      have before := (bound j inside').mp upto
      rcases Nat.lt_or_ge j i with earlier | same
      · exact .inr (pairwise_iff_getElem.mp sorted j i _ _ earlier)
      · have : j = i := by omega
        subst this
        exact .inl rfl
    · obtain ⟨_,_,_,holds⟩ := es[i].block
      simp only [index,Int.toNat_natCast,start i inside,mask i inside]
      rw [if_neg (by omega),decide_eq_true_eq]
      exact holds addr

def smallestLast (a b : Net w) : Bool := a.first < b.first || (a.first = b.first && b.last ≤ a.last)

theorem smallestLast_iff (a b : Net w) :
    smallestLast a b = true ↔ a.first < b.first ∨ (a.first = b.first ∧ b.last ≤ a.last) := by
  simp [smallestLast]

theorem smallestLast_start (a b : Net w) (order : smallestLast a b = true) : a.ip ≤ b.ip := by
  rw [smallestLast_iff] at order
  change a.first ≤ b.first
  omega

theorem smallestLast_sorted (es : List (Net w)) :
    (es.mergeSort smallestLast).Pairwise (fun a b => smallestLast a b = true) := by
  grind [pairwise_mergeSort,smallestLast_iff]

def smallestLastSort : StartSort where
  sort entries := entries.mergeSort smallestLast
  perm entries := mergeSort_perm entries _
  sorted entries := (smallestLast_sorted entries).imp (smallestLast_start _ _)

theorem laminar (es : List (Net w)) : Laminar Net.first Net.last es :=
  fun p _ q _ after inside => Net.nested p q after inside

/-- The probe finds every address that is asked for and that some network holds,
    under every order of the networks with one start, exactly when the list is
    resumed after every inner network. -/
theorem containsAt_complete_iff (es : List (Net w)) (asked : Nat → Prop) :
    (∀ (slice : StartSort) (addr : BitVec w), asked addr.toNat → (∃ p ∈ es, Holds Net.first Net.last p addr.toNat) →
        containsAt ((slice.sort es).map (·.ip)) ((slice.sort es).map (·.mask)) addr = true) ↔
      Resumed Net.first Net.last asked es := by
  constructor
  · intro complete
    refine resumed_of_probed (fun o _ => o.first_le_last) (laminar es) ?_
    rintro x wanted ⟨p,member,inside⟩
    have value : (BitVec.ofNat w x).toNat = x :=
      BitVec.toNat_ofNat _ _ ▸ Nat.mod_eq_of_lt (lt_of_le_of_lt inside.2 p.last_lt)
    have yes := complete smallestLastSort (BitVec.ofNat w x) (value.symm ▸ wanted) ⟨p,member,value.symm ▸ inside⟩
    rcases containsAt_probes (smallestLast_sorted es) smallestLast_start (BitVec.ofNat w x) with
      ⟨no,_⟩ | ⟨e,member',starts,latest,holds⟩
    · exact absurd (yes.symm.trans no) (by decide)
    · rw [value] at starts latest holds
      have same : ∀ o, o ∈ smallestLastSort.sort es ↔ o ∈ es := fun o => (smallestLastSort.perm es).mem_iff
      refine ⟨e,⟨(same e).mp member',starts,?_⟩,?_,holds.mp yes⟩
      · intro o listed upto
        rcases latest o ((same o).mpr listed) upto with rfl | order
        · exact le_refl _
        · rw [smallestLast_iff] at order
          omega
      · intro o listed equal
        rcases latest o ((same o).mpr listed) (by omega) with rfl | order
        · exact le_refl _
        · rw [smallestLast_iff] at order
          omega
  · rintro resumed slice addr wanted ⟨p,member,inside⟩
    have same : ∀ o, o ∈ slice.sort es ↔ o ∈ es := fun o => (slice.perm es).mem_iff
    rcases containsAt_probes (slice.sorted es) (fun _ _ order => order) addr with
      ⟨_,none⟩ | ⟨e,member',starts,latest,holds⟩
    · have := none p ((same p).mpr member)
      have := inside.1
      omega
    · refine holds.mpr (probed_holds (fun o _ => o.first_le_last) (laminar es) resumed
        ⟨(same e).mp member',starts,?_⟩ member inside wanted)
      intro o listed upto
      rcases latest o ((same o).mpr listed) upto with rfl | order
      · exact le_refl _
      · exact order

theorem containsAt_sound (slice : StartSort) {addr : BitVec w}
    (found : containsAt ((slice.sort es).map (·.ip)) ((slice.sort es).map (·.mask)) addr = true) :
    ∃ p ∈ es, Holds Net.first Net.last p addr.toNat := by
  rcases containsAt_probes (slice.sorted es) (fun _ _ order => order) addr with ⟨no,_⟩ | ⟨e,member,_,_,holds⟩
  · exact absurd (found.symm.trans no) (by decide)
  · exact ⟨e,(slice.perm es).mem_iff.mp member,holds.mp found⟩

end

theorem four_contains_iff (net : Net 32) (addr : BitVec 32) :
    (IPNet.four net).contains (.four addr) = true ↔ Holds Net.first Net.last net addr.toNat := by
  obtain ⟨_,_,_,holds⟩ := net.block
  obtain ⟨_,_,_,cleared⟩ := net.valid
  simp only [IPNet.contains,networkNumberAndMask,IP.to4,cleared,decide_eq_true_eq]
  rw [eq_comm]
  exact holds addr

theorem contains_of_to4 {ip : IP} {addr : BitVec 32} (short : ip.to4 = some addr) (n : IPNet) :
    n.contains ip = n.contains (.four addr) := by
  simp only [IPNet.contains,short]
  cases networkNumberAndMask n with
  | four number mask => rfl
  | sixteen number mask => rfl

variable {addr : BitVec 128}

theorem sixteen_contains_iff (net : Net 128) (long : mapped addr = false) :
    (IPNet.sixteen net).contains (.sixteen addr) = true ↔ Holds Net.first Net.last net addr.toNat := by
  obtain ⟨_,_,_,holds⟩ := net.block
  obtain ⟨_,_,_,cleared⟩ := net.valid
  simp only [IPNet.contains,networkNumberAndMask,IP.to4,long,Bool.false_eq_true,if_false]
  by_cases start : mapped net.ip = true
  · -- such a network only holds addresses that are looked up as IPv4
    simp only [start,if_true,Bool.false_eq_true,false_iff]
    intro inside
    have short := mapped_of_holds start ((holds addr).mpr inside)
    exact absurd (short.symm.trans long) (by decide)
  · simp only [start,if_false,cleared,decide_eq_true_eq,Bool.false_eq_true]
    rw [eq_comm]
    exact holds addr

theorem four_contains_long (net : Net 32) (long : mapped addr = false) :
    (IPNet.four net).contains (.sixteen addr) = false := by
  simp [IPNet.contains,networkNumberAndMask,IP.to4,long]

/-- No network hides what an outer one holds after it, and the networks written
    as `::ffff:a.b.c.d/n` hold only IPv4 addresses that an IPv4 network holds. -/
structure Unhidden (cidrs : List String) : Prop where
  four : Resumed Net.first Net.last (fun _ => True) (entries4 cidrs)
  six : Resumed Net.first Net.last (fun x => x / 2 ^ 32 ≠ 0xffff) (entries6 cidrs)
  mapped : ∀ net ∈ entries6 cidrs, ∀ addr : BitVec 32, (IPNet.sixteen net).contains (.four addr) = true →
    ∃ net' ∈ entries4 cidrs, (IPNet.four net').contains (.four addr) = true

theorem exit_four_iff (addr : BitVec 32) : (parseCIDRNet cidrs).contains (.four addr) = true ↔
    (∃ p ∈ entries4 cidrs, Holds Net.first Net.last p addr.toNat) ∨
      ∃ net ∈ entries6 cidrs, (IPNet.sixteen net).contains (.four addr) = true := by
  simp only [cidrNet_contains_iff,four_contains_iff]

theorem exit_six_iff (long : mapped addr = false) :
    (parseCIDRNet cidrs).contains (.sixteen addr) = true ↔
      ∃ p ∈ entries6 cidrs, Holds Net.first Net.last p addr.toNat := by
  simp only [cidrNet_contains_iff,four_contains_long _ long,sixteen_contains_iff _ long]
  simp

theorem mapped_false_iff (addr : BitVec 128) : mapped addr = false ↔ addr.toNat / 2 ^ 32 ≠ 0xffff := by
  rw [← Bool.not_eq_true,mapped_iff]

/-- For every list of CIDR strings, client and exit agree on every address,
    whatever order the sort leaves, exactly when no network is hidden. -/
theorem contains_agree_iff (cidrs : List String) :
    (∀ (slice : StartSort) (ip : IP), (parseCIDRs slice cidrs).contains ip = (parseCIDRNet cidrs).contains ip) ↔
      Unhidden cidrs := by
  constructor
  · intro agree
    have four :=
      fun slice addr => agree slice (.four addr)
    refine ⟨(containsAt_complete_iff _ _).mp ?_,(containsAt_complete_iff _ _).mp ?_,?_⟩
    · intro slice addr _ some
      exact (four slice addr).trans ((exit_four_iff cidrs addr).mpr (.inl some))
    · intro slice addr asked some
      have long := (mapped_false_iff addr).mpr asked
      have same := agree slice (.sixteen addr)
      simp only [CIDRSet.contains,IP.to4,long,Bool.false_eq_true,if_false] at same
      exact same.trans ((exit_six_iff cidrs long).mpr some)
    · intro net member addr holds
      have found := (four smallestLastSort addr).trans ((exit_four_iff cidrs addr).mpr (.inr ⟨net,member,holds⟩))
      obtain ⟨p,listed,inside⟩ := containsAt_sound smallestLastSort found
      exact ⟨p,listed,(four_contains_iff p addr).mpr inside⟩
  · intro unhidden slice ip
    rw [Bool.eq_iff_iff]
    cases short : ip.to4 with
    | some addr =>
      have same : (parseCIDRNet cidrs).contains ip = (parseCIDRNet cidrs).contains (.four addr) := by
        simp only [CidrNet.contains,contains_of_to4 short]
      simp only [CIDRSet.contains,short]
      rw [same,exit_four_iff]
      constructor
      · intro found
        exact .inl (containsAt_sound slice found)
      · rintro (some | ⟨net,member,holds⟩)
        · exact (containsAt_complete_iff _ _).mpr unhidden.four slice addr trivial some
        · obtain ⟨p,listed,inside⟩ := unhidden.mapped net member addr holds
          exact (containsAt_complete_iff _ _).mpr unhidden.four slice addr trivial
            ⟨p,listed,(four_contains_iff p addr).mp inside⟩
    | none =>
      cases ip with
      | four addr => simp [IP.to4] at short
      | sixteen addr =>
        have long : mapped addr = false := by simpa [IP.to4] using short
        simp only [CIDRSet.contains,short]
        rw [exit_six_iff cidrs long]
        constructor
        · exact containsAt_sound slice
        · exact (containsAt_complete_iff _ _).mpr unhidden.six slice addr ((mapped_false_iff addr).mp long)

def Exact (slice : StartSort) : Prop :=
  ∀ (cidrs : List String) (ip : IP), (parseCIDRs slice cidrs).contains ip = (parseCIDRNet cidrs).contains ip

/-- Inside `10.0.0.0/8`, `10.1.0.0/16` hides `10.2.0.1`. -/
theorem not_exact : ¬ ∃ slice, Exact slice := by
  rintro ⟨slice,exact_⟩
  have listed := exact_ ["10.0.0.0/8","10.1.0.0/16"] (.four 0x0a020001)
  have exit : (parseCIDRNet ["10.0.0.0/8","10.1.0.0/16"]).contains (.four 0x0a020001) = true := by decide
  have entries : entries4 ["10.0.0.0/8","10.1.0.0/16"] =
      [Net.of 0x0a000000 8 (by decide),Net.of 0x0a010000 16 (by decide)] := by rfl
  have order := slice.sorted (entries4 ["10.0.0.0/8","10.1.0.0/16"])
  have client : contains4 (parseCIDRs slice ["10.0.0.0/8","10.1.0.0/16"]) 0x0a020001 = false := by
    have perm := slice.perm (entries4 ["10.0.0.0/8","10.1.0.0/16"])
    rw [entries,perm_pair] at perm
    rw [entries] at order
    simp only [contains4,parseCIDRs,entries]
    rcases perm with sorted | sorted
    · rw [sorted]
      decide
    · rw [sorted] at order
      exact absurd order (by decide)
  have agree : contains4 (parseCIDRs slice ["10.0.0.0/8","10.1.0.0/16"]) 0x0a020001 = _ := listed
  rw [client,exit] at agree
  exact absurd agree (by decide)

end TunnelCat.Cidr
