import Mathlib.Algebra.Order.BigOperators.Group.Finset
import Mathlib.Algebra.Order.Group.Int
import Mathlib.Data.List.Sort
import TunnelCat.Spread
import TunnelCat.Traffic

/-!
The statistics that the arbiter computes from its traffic samples (`nodeStatsRange` and `networkStatsRange` in
`snc-arbiter/db.go`), by groups of ten minutes. What a node transfers between the last sample of a group and
the first of the next is in no group. Averages and the database's own differences are exact here.
-/
namespace TunnelCat.TrafficStats
open Nodes Traffic Spread List

def bucketOf (ts : Int) : Int := ts.tdiv 600 * 600

variable (rows traffic : List Sample) (nodeID : Int) (nodeType : NodeType) (bucket cutoff : Int)

def buckets : List Int := ((rows.map (fun s => bucketOf s.ts)).dedup).insertionSort (· ≤ ·)

def inBucket : List Sample := rows.filter (fun s => bucketOf s.ts = bucket)

def totals : List Int := rows.map (fun s => s.bytesCum.toInt)

def avg (values : List Rat) : Rat := values.sum / values.length

structure NodeStatsBucket where
  ts : Int
  rttMs : Rat
  routingRTTms : Rat
  bwMbps : Rat
  cpuPct : Rat
  memPct : Rat
  diskPct : Rat
  bytesTransferred : Int

def nodeStatsBucket : NodeStatsBucket :=
  let group := inBucket rows bucket
  ⟨bucket,avg (group.map Sample.rttMs),avg (group.map Sample.routingRTTms),avg (group.map Sample.bwMbps),
    avg (group.map Sample.cpuPct),avg (group.map Sample.memPct),avg (group.map Sample.diskPct),spread (totals group)⟩

def nodeRows : List Sample :=
  traffic.filter (fun s => s.nodeID = nodeID && cutoff ≤ s.ts)

def nodeStatsRange : List NodeStatsBucket × Int :=
  let rows := nodeRows traffic nodeID cutoff
  ((buckets rows).map (nodeStatsBucket rows),spread (totals rows))

structure NetworkStatsBucket where
  ts : Int
  rttMs : Rat
  routingRTTms : Rat
  cpuPct : Rat
  memPct : Rat
  diskPct : Rat
  onlineCount : Nat
  bytesTransferred : Int

def networkStatsBucket : NetworkStatsBucket :=
  let group := inBucket rows bucket
  ⟨bucket,avg (group.map Sample.rttMs),avg (group.map Sample.routingRTTms),avg (group.map Sample.cpuPct),
    avg (group.map Sample.memPct),avg (group.map Sample.diskPct),((group.map Sample.nodeID).dedup).length,0⟩

def cell : List Sample :=
  rows.filter (fun s => s.nodeID = nodeID && bucketOf s.ts = bucket)

def deltas : List (Int × Int) :=
  ((rows.map (fun s => (s.nodeID,bucketOf s.ts))).dedup).map (fun g => (g.2,spread (totals (cell rows g.1 g.2))))

def byteRows : List (Int × Int) :=
  (((deltas rows).map Prod.fst).dedup).map (fun b => (b,(((deltas rows).filter (fun d => d.1 = b)).map Prod.snd).sum))

def typeRows : List Sample :=
  traffic.filter (fun s => s.nodeType = some nodeType && cutoff ≤ s.ts)

def networkBuckets : List NetworkStatsBucket :=
  let rows := typeRows traffic nodeType cutoff
  (buckets rows).map (fun b => { networkStatsBucket rows b with bytesTransferred := ((byteRows rows).lookup b).getD 0 })

/-- `SUM` is an error of the query where it does not fit 64 bits; the total of the loop wraps. -/
def networkStatsRange :
    Option (List NetworkStatsBucket × Int64) :=
  let out := networkBuckets traffic nodeType cutoff
  if ∀ b ∈ out, b.bytesTransferred < 2 ^ 63 then
    some (out,out.foldl (fun totalBytes b => totalBytes + .ofInt b.bytesTransferred) 0)
  else none

theorem lt_of_bucketOf {ts ts' : Int} (less : bucketOf ts < bucketOf ts') : ts < ts' := by
  unfold bucketOf at less
  grind

variable {rows}

theorem mem_buckets {b : Int} : b ∈ buckets rows ↔ ∃ s ∈ rows, bucketOf s.ts = b := by
  simp [buckets]

theorem buckets_sorted (rows : List Sample) : (buckets rows).Pairwise (· < ·) := by
  have ordered : (buckets rows).Pairwise (· ≤ ·) := pairwise_insertionSort (· ≤ ·) _
  have apart : (buckets rows).Nodup := (perm_insertionSort (· ≤ ·) _).nodup_iff.mpr (nodup_dedup _)
  exact ordered.imp₂ (fun _ _ le ne => lt_of_le_of_ne le ne) apart

/-- The totals of a node never go down. -/
def NonDecreasing : Prop :=
  ∀ s ∈ traffic, ∀ s' ∈ traffic, s.nodeID = s'.nodeID → s.ts < s'.ts → s.bytesCum.toInt ≤ s'.bytesCum.toInt

def groups (rows : List Sample) : List (List Int) := (buckets rows).map (fun b => totals (inBucket rows b))

theorem mem_groups_flatten {a : Int} : a ∈ (groups rows).flatten ↔ a ∈ totals rows := by
  simp only [groups,totals,mem_flatten,mem_map,mem_buckets]
  constructor
  · rintro ⟨l,⟨b,-,rfl⟩,member⟩
    obtain ⟨s,inside,total⟩ := mem_map.mp member
    exact ⟨s,mem_of_mem_filter inside,total⟩
  · rintro ⟨s,inside,total⟩
    refine ⟨_,⟨bucketOf s.ts,⟨s,inside,rfl⟩,rfl⟩,?_⟩
    exact mem_map.mpr ⟨s,mem_filter.mpr ⟨inside,by simp⟩,total⟩

theorem groups_successive (same : ∀ s ∈ rows, ∀ s' ∈ rows, s.nodeID = s'.nodeID)
    (ordered : NonDecreasing rows) : Successive (groups rows) := by
  constructor
  · intro g member
    obtain ⟨b,there,rfl⟩ := mem_map.mp member
    obtain ⟨s,inside,own⟩ := mem_buckets.mp there
    have shown : s ∈ inBucket rows b := mem_filter.mpr ⟨inside,by simpa using own⟩
    exact ne_nil_of_mem (mem_map_of_mem shown)
  · rw [groups,pairwise_map]
    refine (buckets_sorted rows).imp ?_
    intro b b' less a first a' second
    obtain ⟨s,inside,rfl⟩ := mem_map.mp first
    obtain ⟨s',inside',rfl⟩ := mem_map.mp second
    obtain ⟨row,own⟩ := mem_filter.mp inside
    obtain ⟨row',own'⟩ := mem_filter.mp inside'
    have earlier : s.ts < s'.ts := by
      refine lt_of_bucketOf ?_
      rwa [of_decide_eq_true own,of_decide_eq_true own']
    exact ordered s row s' row' (same s row s' row') earlier

/-- What a node has transferred when a bucket ends is what it has when its next one begins. -/
def Gapless (rows : List Sample) : Prop := (groups rows).IsChain (fun g g' => highest g = lowest g')

section
variable {traffic : List Sample} {nodeID cutoff : Int}

theorem nodeRows_subset : nodeRows traffic nodeID cutoff ⊆ traffic := filter_subset_self _

variable {type : NodeType} {rows : List Sample} {b : Int} {N : Finset Int}

theorem typeRows_subset : typeRows traffic type cutoff ⊆ traffic := filter_subset_self _

theorem nodeRows_same : ∀ s ∈ nodeRows traffic nodeID cutoff, ∀ s' ∈ nodeRows traffic nodeID cutoff, s.nodeID = s'.nodeID := by
  grind [nodeRows]

theorem nodeRows_ordered (ordered : NonDecreasing traffic) : NonDecreasing (nodeRows traffic nodeID cutoff) :=
  fun s member s' member' => ordered s (nodeRows_subset member) s' (nodeRows_subset member')

theorem nodeRows_successive (ordered : NonDecreasing traffic) : Successive (groups (nodeRows traffic nodeID cutoff)) :=
  groups_successive nodeRows_same (nodeRows_ordered ordered)

def bucketSum (traffic : List Sample) (nodeID cutoff : Int) : Int :=
  ((nodeStatsRange traffic nodeID cutoff).1.map NodeStatsBucket.bytesTransferred).sum

theorem bucketSum_eq : bucketSum traffic nodeID cutoff = ((groups (nodeRows traffic nodeID cutoff)).map spread).sum := by
  simp only [bucketSum,nodeStatsRange,groups,map_map,nodeStatsBucket,Function.comp_def]

theorem range_eq : (nodeStatsRange traffic nodeID cutoff).2 = spread (groups (nodeRows traffic nodeID cutoff)).flatten :=
  spread_congr (fun _ => mem_groups_flatten.symm)

theorem bucketSum_eq_range_iff (ordered : NonDecreasing traffic) :
    bucketSum traffic nodeID cutoff = (nodeStatsRange traffic nodeID cutoff).2 ↔ Gapless (nodeRows traffic nodeID cutoff) := by
  rw [bucketSum_eq,range_eq]
  exact sum_spread_eq_iff (nodeRows_successive ordered)

def delta (rows : List Sample) (nodeID bucket : Int) : Int := spread (totals (cell rows nodeID bucket))

theorem delta_of_absent {n : Int} (absent : ∀ s ∈ rows, s.nodeID = n → bucketOf s.ts ≠ b) :
    delta rows n b = 0 := by
  have none : cell rows n b = [] := by
    refine filter_eq_nil_iff.mpr ?_
    grind
  rw [delta,none]
  rfl

theorem delta_typed_le (type : NodeType) (n b : Int) :
    delta (typeRows traffic type cutoff) n b ≤ delta (nodeRows traffic n cutoff) n b := by
  refine spread_mono ?_
  intro a member
  obtain ⟨s,inside,rfl⟩ := mem_map.mp member
  refine mem_map_of_mem ?_
  simp only [cell,typeRows,nodeRows,mem_filter,Bool.and_eq_true] at inside ⊢
  exact ⟨⟨inside.1.1,inside.2.1,inside.1.2.2⟩,inside.2⟩

theorem bucketSum_eq_delta {B : Finset Int} (inside : ∀ s ∈ nodeRows traffic nodeID cutoff, bucketOf s.ts ∈ B) :
    bucketSum traffic nodeID cutoff = ∑ b ∈ B, delta (nodeRows traffic nodeID cutoff) nodeID b := by
  have apart : (buckets (nodeRows traffic nodeID cutoff)).Nodup := (buckets_sorted _).imp ne_of_lt
  have whole : ∀ b, inBucket (nodeRows traffic nodeID cutoff) b = cell (nodeRows traffic nodeID cutoff) nodeID b := by
    intro b
    refine filter_congr ?_
    grind [nodeRows]
  have listed : bucketSum traffic nodeID cutoff =
      ∑ b ∈ (buckets (nodeRows traffic nodeID cutoff)).toFinset, delta (nodeRows traffic nodeID cutoff) nodeID b := by
    grind [sum_toFinset,bucketSum_eq,groups,map_congr_left,delta]
  rw [listed]
  refine Finset.sum_subset ?_ ?_
  · intro b member
    obtain ⟨s,row,rfl⟩ := mem_buckets.mp (mem_toFinset.mp member)
    exact inside s row
  · intro b _ absent
    refine delta_of_absent ?_
    intro s row _ same
    exact absent (mem_toFinset.mpr (mem_buckets.mpr ⟨s,row,same⟩))

theorem lookup_graph {f : Int → Int} {keys : List Int} (member : b ∈ keys) :
    (keys.map (fun k => (k,f k))).lookup b = some (f b) := by
  induction keys with
  | nil => cases member
  | cons k rest ih =>
    grind

theorem sum_pairs {pairs : List (Int × Int)} (inside : ∀ g ∈ pairs, g.1 ∈ N) (b : Int) (f : Int × Int → Int) :
    ((pairs.dedup.filter (fun g => g.2 = b)).map f).sum = ∑ n ∈ N with (n,b) ∈ pairs, f (n,b) := by
  have nodes : (pairs.dedup.filter (fun g => g.2 = b)).toFinset = {n ∈ N | (n,b) ∈ pairs}.image (fun n => (n,b)) := by
    grind [mem_toFinset,mem_dedup]
  rw [← sum_toFinset f ((nodup_dedup pairs).filter _),nodes,Finset.sum_image]
  rintro n - n' - same
  exact (Prod.mk.inj same).1

theorem byteRows_lookup (member : b ∈ buckets rows)
    (inside : ∀ s ∈ rows, s.nodeID ∈ N) : ((byteRows rows).lookup b).getD 0 = ∑ n ∈ N, delta rows n b := by
  have there : b ∈ ((deltas rows).map Prod.fst).dedup := by
    obtain ⟨s,row,own⟩ := mem_buckets.mp member
    simp only [deltas,mem_dedup,map_map,mem_map]
    exact ⟨(s.nodeID,bucketOf s.ts),⟨s,row,rfl⟩,own⟩
  have known : ∀ g ∈ rows.map (fun s => (s.nodeID,bucketOf s.ts)), g.1 ∈ N := by
    grind
  rw [byteRows,lookup_graph (f := fun b => (((deltas rows).filter (fun d => d.1 = b)).map Prod.snd).sum) there,
    deltas,filter_map,map_map]
  refine (sum_pairs known b (fun g => delta rows g.1 g.2)).trans ?_
  -- A node without a sample in the bucket adds nothing.
  refine Finset.sum_subset (Finset.filter_subset _ _) ?_
  intro n known absent
  refine delta_of_absent ?_
  rintro s row rfl rfl
  exact absent (Finset.mem_filter.mpr ⟨known,mem_map.mpr ⟨s,row,rfl⟩⟩)

def networkSum (traffic : List Sample) (type : NodeType) (cutoff : Int) : Int :=
  ((networkBuckets traffic type cutoff).map NetworkStatsBucket.bytesTransferred).sum

theorem networkTotal_eq {B : Finset Int} (nodes : ∀ s ∈ typeRows traffic type cutoff, s.nodeID ∈ N)
    (inside : ∀ s ∈ typeRows traffic type cutoff, bucketOf s.ts ∈ B) :
    networkSum traffic type cutoff = ∑ n ∈ N, ∑ b ∈ B, delta (typeRows traffic type cutoff) n b := by
  have apart : (buckets (typeRows traffic type cutoff)).Nodup := (buckets_sorted _).imp ne_of_lt
  have listed : networkSum traffic type cutoff =
      ∑ b ∈ (buckets (typeRows traffic type cutoff)).toFinset, ∑ n ∈ N, delta (typeRows traffic type cutoff) n b := by
    grind [sum_toFinset,networkSum,networkBuckets,map_congr_left,byteRows_lookup]
  rw [listed,Finset.sum_comm]
  refine Finset.sum_congr rfl ?_
  intro n _
  refine Finset.sum_subset ?_ ?_
  · intro b member
    obtain ⟨s,row,rfl⟩ := mem_buckets.mp (mem_toFinset.mp member)
    exact inside s row
  · intro b _ absent
    refine delta_of_absent ?_
    intro s row _ same
    exact absent (mem_toFinset.mpr (mem_buckets.mpr ⟨s,row,same⟩))

def nodesOf (traffic : List Sample) (type : NodeType) : List Int :=
  ((traffic.filter (fun s => s.nodeType = some type)).map Sample.nodeID).dedup

/-- A node's buckets show the same bytes when only samples of the type are looked at. -/
def SameTyped (traffic : List Sample) (cutoff : Int) (type : NodeType) (n : Int) : Prop :=
  ∀ b, delta (typeRows traffic type cutoff) n b = delta (nodeRows traffic n cutoff) n b

def allBuckets (traffic : List Sample) : Finset Int := (traffic.map (fun s => bucketOf s.ts)).toFinset

theorem mem_allBuckets {s : Sample} (member : s ∈ traffic) : bucketOf s.ts ∈ allBuckets traffic :=
  mem_toFinset.mpr (mem_map.mpr ⟨s,member,rfl⟩)

theorem delta_outside (sub : rows ⊆ traffic) (outside : b ∉ allBuckets traffic) (n : Int) :
    delta rows n b = 0 :=
  delta_of_absent (fun _ member _ same => outside (same ▸ mem_allBuckets (sub member)))

theorem networkTotal_eq_all (type : NodeType) :
    networkSum traffic type cutoff =
      ∑ n ∈ (nodesOf traffic type).toFinset, ∑ b ∈ allBuckets traffic, delta (typeRows traffic type cutoff) n b := by
  refine networkTotal_eq ?_ (fun s member => mem_allBuckets (typeRows_subset member))
  grind [typeRows,nodesOf,mem_toFinset,mem_dedup]

/-- Where the buckets of the nodes add up, the nodes of a type add up to the network exactly when
    their samples of other types do not count. -/
theorem networkTotal_eq_iff (ordered : NonDecreasing traffic) (gapless : ∀ node, Gapless (nodeRows traffic node cutoff))
    (type : NodeType) :
    networkSum traffic type cutoff =
        ((nodesOf traffic type).map (fun node => (nodeStatsRange traffic node cutoff).2)).sum ↔
      ∀ node ∈ nodesOf traffic type, SameTyped traffic cutoff type node := by
  have range : ∀ node, (nodeStatsRange traffic node cutoff).2 =
      ∑ b ∈ allBuckets traffic, delta (nodeRows traffic node cutoff) node b := by
    intro node
    rw [← (bucketSum_eq_range_iff ordered).mpr (gapless node)]
    grind [bucketSum_eq_delta,mem_allBuckets,nodeRows_subset]
  have apart : (nodesOf traffic type).Nodup := nodup_dedup _
  -- every node, and then every bucket, has at most its share, so equal sums have equal summands
  rw [networkTotal_eq_all,← sum_toFinset _ apart,Finset.sum_congr rfl (fun node _ => range node),
    Finset.sum_eq_sum_iff_of_le (fun node _ => Finset.sum_le_sum (fun b _ => delta_typed_le type node b))]
  simp only [mem_toFinset]
  refine forall₂_congr ?_
  intro node _
  rw [Finset.sum_eq_sum_iff_of_le (fun b _ => delta_typed_le type node b)]
  constructor
  · intro same b
    grind [delta_outside,typeRows_subset,nodeRows_subset]
  · exact fun same b _ => same b

/-- The counts are not negative, and what the nodes of a type have transferred fits 64 bits. -/
structure Fits (traffic : List Sample) (cutoff : Int) : Prop where
  counts : ∀ s ∈ traffic, 0 ≤ s.bytesCum.toInt
  total : ∀ type, ((nodesOf traffic type).map (fun node => (nodeStatsRange traffic node cutoff).2)).sum < 2 ^ 63

theorem networkSum_le (ordered : NonDecreasing traffic) (type : NodeType) : networkSum traffic type cutoff ≤
    ((nodesOf traffic type).map (fun node => (nodeStatsRange traffic node cutoff).2)).sum := by
  have apart : (nodesOf traffic type).Nodup := nodup_dedup _
  rw [networkTotal_eq_all,← sum_toFinset _ apart]
  refine Finset.sum_le_sum ?_
  intro node _
  calc ∑ b ∈ allBuckets traffic, delta (typeRows traffic type cutoff) node b
      ≤ ∑ b ∈ allBuckets traffic, delta (nodeRows traffic node cutoff) node b :=
        Finset.sum_le_sum (fun b _ => delta_typed_le type node b)
    _ = bucketSum traffic node cutoff :=
        (bucketSum_eq_delta (fun s member => mem_allBuckets (nodeRows_subset member))).symm
    _ ≤ (nodeStatsRange traffic node cutoff).2 := by
        rw [bucketSum_eq,range_eq]
        exact sum_spread_le (nodeRows_successive ordered)

theorem networkBuckets_nonneg {type : NodeType} {out : NetworkStatsBucket} (member : out ∈ networkBuckets traffic type cutoff) :
    0 ≤ out.bytesTransferred := by
  obtain ⟨b,there,rfl⟩ := mem_map.mp member
  show 0 ≤ ((byteRows (typeRows traffic type cutoff)).lookup b).getD 0
  rw [byteRows_lookup there (fun s row => mem_toFinset.mpr (mem_map_of_mem row))]
  exact Finset.sum_nonneg (fun n _ => spread_nonneg _)

theorem foldl_exact {out : List NetworkStatsBucket} (nonneg : ∀ b ∈ out, 0 ≤ b.bytesTransferred) :
    ∀ {acc : Int64}, 0 ≤ acc.toInt → acc.toInt + (out.map NetworkStatsBucket.bytesTransferred).sum < 2 ^ 63 →
      (out.foldl (fun totalBytes b => totalBytes + .ofInt b.bytesTransferred) acc).toInt =
        acc.toInt + (out.map NetworkStatsBucket.bytesTransferred).sum := by
  induction out with
  | nil => simp
  | cons b rest ih =>
    intro acc low high
    have own := nonneg b mem_cons_self
    have others : 0 ≤ (rest.map NetworkStatsBucket.bytesTransferred).sum :=
      sum_nonneg (by simpa using fun b member => nonneg b (mem_cons_of_mem _ member))
    rw [map_cons,sum_cons] at high ⊢
    have read : (Int64.ofInt b.bytesTransferred).toInt = b.bytesTransferred := by
      rw [Int64.toInt_ofInt_of_le] <;> omega
    have next : (acc + .ofInt b.bytesTransferred).toInt = acc.toInt + b.bytesTransferred := by
      rw [toInt_add_of_fits low (by omega),read]
    rw [foldl_cons,ih (fun b member => nonneg b (mem_cons_of_mem _ member)) (by omega) (by omega),next]
    omega

theorem networkStatsRange_total (ordered : NonDecreasing traffic) (fits : Fits traffic cutoff) (type : NodeType) :
    (networkStatsRange traffic type cutoff).map (fun r => r.2.toInt) = some (networkSum traffic type cutoff) := by
  have small : networkSum traffic type cutoff < 2 ^ 63 := lt_of_le_of_lt (networkSum_le ordered type) (fits.total type)
  have each : ∀ b ∈ networkBuckets traffic type cutoff, b.bytesTransferred < 2 ^ 63 := by
    intro b member
    refine lt_of_le_of_lt (single_le_sum ?_ _ (mem_map_of_mem member)) small
    simpa using fun b member => networkBuckets_nonneg member
  simp only [networkStatsRange,if_pos each,Option.map_some,Option.some.injEq]
  have high : (0 : Int64).toInt + networkSum traffic type cutoff < 2 ^ 63 := by simpa using small
  rw [foldl_exact (fun b member => networkBuckets_nonneg member) (by decide) high]
  exact Int.zero_add _

end

/-- The buckets of every node add up to its range, and the nodes of every type to the network,
    exactly when no node transfers anything from one of its buckets to the next, and the samples
    that a node has of another type do not show more than those of the type. -/
theorem ranges_consistent_iff (traffic : List Sample) (cutoff : Int) (ordered : NonDecreasing traffic)
    (fits : Fits traffic cutoff) :
    ((∀ node, ((nodeStatsRange traffic node cutoff).1.map NodeStatsBucket.bytesTransferred).sum =
        (nodeStatsRange traffic node cutoff).2) ∧
      ∀ type, (networkStatsRange traffic type cutoff).map (fun r => r.2.toInt) =
        some (((nodesOf traffic type).map (fun node => (nodeStatsRange traffic node cutoff).2)).sum)) ↔
    (∀ node, Gapless (nodeRows traffic node cutoff)) ∧
      ∀ type, ∀ node ∈ nodesOf traffic type, SameTyped traffic cutoff type node := by
  have own : (∀ node, ((nodeStatsRange traffic node cutoff).1.map NodeStatsBucket.bytesTransferred).sum =
      (nodeStatsRange traffic node cutoff).2) ↔ ∀ node, Gapless (nodeRows traffic node cutoff) :=
    forall_congr' (fun node => bucketSum_eq_range_iff ordered)
  rw [own]
  refine and_congr_right (fun gapless => forall_congr' (fun type => ?_))
  rw [networkStatsRange_total ordered fits,Option.some.injEq]
  exact networkTotal_eq_iff ordered gapless type

def sampleRow (node ts : Int) (total : Int64) : Sample := ⟨node,ts,total,total,some .exit,0,0,0,0,0,0⟩

instance (traffic : List Sample) : Decidable (NonDecreasing traffic) :=
  inferInstanceAs (Decidable (∀ s ∈ traffic, ∀ s' ∈ traffic, s.nodeID = s'.nodeID → s.ts < s'.ts →
    s.bytesCum.toInt ≤ s'.bytesCum.toInt))

def sampleTraffic : List Sample := [sampleRow 1 0 5,sampleRow 1 30 9]

theorem sampleTraffic_fits : Fits sampleTraffic 0 :=
  ⟨by decide +kernel,by intro type; cases type <;> decide +kernel⟩

theorem ranges_consistent_one_bucket :
    ((∀ node, ((nodeStatsRange sampleTraffic node 0).1.map NodeStatsBucket.bytesTransferred).sum =
        (nodeStatsRange sampleTraffic node 0).2) ∧
      ∀ type, (networkStatsRange sampleTraffic type 0).map (fun r => r.2.toInt) =
        some (((nodesOf sampleTraffic type).map (fun node => (nodeStatsRange sampleTraffic node 0).2)).sum)) ↔
    (∀ node, Gapless (nodeRows sampleTraffic node 0)) ∧
      ∀ type, ∀ node ∈ nodesOf sampleTraffic type, SameTyped sampleTraffic 0 type node :=
  ranges_consistent_iff sampleTraffic 0 (by decide +kernel) sampleTraffic_fits

/-- 100 bytes between two buckets. -/
theorem bytes_between_buckets :
    ¬ ∀ (traffic : List Sample) (cutoff : Int), NonDecreasing traffic →
      (∀ node, ((nodeStatsRange traffic node cutoff).1.map NodeStatsBucket.bytesTransferred).sum =
        (nodeStatsRange traffic node cutoff).2) ∧
      ∀ type, (networkStatsRange traffic type cutoff).map (fun r => r.2.toInt) =
        some (((nodesOf traffic type).map (fun node => (nodeStatsRange traffic node cutoff).2)).sum) := by
  intro consistent
  have node := (consistent [sampleRow 1 0 0,sampleRow 1 600 100] 0 (by decide +kernel)).1 1
  exact absurd node (by decide +kernel)

end TunnelCat.TrafficStats
