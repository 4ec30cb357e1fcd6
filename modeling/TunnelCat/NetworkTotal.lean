import TunnelCat.Archive
import TunnelCat.TrafficStats

/-!
The bytes that all nodes of a type have transferred (`networkBytesTotal` in `snc-arbiter/db.go`): the
sum of the highest total of each node in the table, from which the archive takes old samples. It
never goes down where each node with old samples also has a young one when a pass begins, reports are
not negative and within 64 bits, and the clock does not go back (`network_total_monotone`).
-/
namespace TunnelCat.NetworkTotal
open Nodes hiding DB
open Runs Spread Traffic TrafficStats
open Archive (Around)

variable (traffic : List Sample) (nodes : List Node) (now : Int) (type : NodeType)

def samplesOf (nodeID : Int) : List Sample :=
  traffic.filter (fun s => s.nodeType = some type && s.nodeID = nodeID)

def latest (nodeID : Int) : Int := highest (totals (samplesOf traffic type nodeID))

def sumOfLatest : Int := ((nodesOf traffic type).map (latest traffic type)).sum

def networkBytesTotal : Int :=
  if -2 ^ 63 ≤ sumOfLatest traffic type ∧ sumOfLatest traffic type < 2 ^ 63 then sumOfLatest traffic type else 0

structure State where
  nodes : List Node
  arbiter : Archive.Arbiter

structure Heartbeat where
  token : String
  rttMs : Rat
  routingRTTms : Rat
  bwMbps : Rat
  bytesTotal : Int64
  fingerprint : String
  dataPlaneOK : Option Bool
  cpuPct : Rat
  memPct : Rat
  diskPct : Rat

structure Fails where
  update : Bool
  select : Bool
  record : Bool

inductive Input
  | heartbeat (now : Int) (h : Heartbeat) (fails : Fails)
  | register (n : Node)
  | decommissionNode (nodeID : Int)
  | deleteNode (nodeID : Int)
  | pass (a : Around)

variable (s : State) (h : Heartbeat)

def takes (n : Node) : Bool := n.token = some h.token && n.status = .approved

def updated (n : Node) : Node :=
  if takes h n then
    { n with
      lastHeartbeat := some now
      rttMs := h.rttMs
      fingerprint := if h.fingerprint = "" then n.fingerprint else h.fingerprint
      dataPlaneOK := h.dataPlaneOK }
  else n

def reportOf (fails : Fails) : Option Report :=
  if fails.update || !nodes.any (takes h) then none
  else
    match if fails.select then none else nodes.find? (fun n => n.token = some h.token) with
    | none => none
    | some n =>
      if 0 < n.id then
        some ⟨n.id,now,h.bytesTotal,n.type,h.bwMbps,h.rttMs,h.routingRTTms,h.cpuPct,h.memPct,h.diskPct⟩
      else none

def withReport (db : DB) (report : Option Report) (fails : Bool) : DB :=
  match report with
  | none => db
  | some r => recordNodeTrafficSample db r fails

def updateHeartbeat (now : Int) (h : Heartbeat) (fails : Fails) : State :=
  { nodes := if fails.update then s.nodes else s.nodes.map (updated now h)
    arbiter := { s.arbiter with db := withReport s.arbiter.db (reportOf s.nodes now h fails) fails.record } }

def step (w : Archive.World) (s : State) : Input → State × Unit
  | .heartbeat now h fails => (updateHeartbeat s now h fails,())
  | .register n => ({ s with nodes := s.nodes ++ [n] },())
  | .decommissionNode nodeID =>
    ({ s with nodes := s.nodes.map (fun n => if n.id = nodeID then { n with status := .decommissioned } else n) },())
  | .deleteNode nodeID => ({ s with nodes := s.nodes.filter (fun n => n.id ≠ nodeID) },())
  | .pass a => ({ s with arbiter := Archive.archiveOldNodeStats w a s.arbiter },())

def start : State := ⟨nodes,Archive.start ⟨∅,[]⟩⟩

def State.total (type : NodeType) : Int := networkBytesTotal s.arbiter.db.traffic type

structure Advances (db : DB) (r : Report) : Prop where
  nonneg : 0 ≤ r.rawBytesTotal.toInt
  fits : ∀ c ∈ db.counters.lookup r.nodeID,
    (if r.rawBytesTotal < c.lastRaw then c.offset.toInt + c.lastRaw.toInt else c.offset.toInt) + r.rawBytesTotal.toInt < 2 ^ 63
  clock : ∀ s ∈ db.traffic, s.nodeID = r.nodeID → s.ts ≤ r.ts

def Heard (cutoff : Int) : Prop :=
  ∀ s ∈ traffic, s.nodeType = some type → s.ts < cutoff →
    ∃ s' ∈ traffic, s'.nodeType = some type ∧ s'.nodeID = s.nodeID ∧ cutoff ≤ s'.ts

def Allows : Input → Prop
  | .heartbeat now h fails => ∀ r ∈ reportOf s.nodes now h fails, Advances s.arbiter.db r
  | .pass a => Heard s.arbiter.db.traffic type a.cutoff
  | .register _ | .decommissionNode _ | .deleteNode _ => True

/-- A step that is allowed, and leaves a sum that fits into 64 bits. -/
def Steady (w : Archive.World) (type : NodeType) (s : State) (i : Input) : Prop :=
  Allows type s i ∧ sumOfLatest (step w s i).1.arbiter.db.traffic type < 2 ^ 63

structure Ordered (db : DB) : Prop where
  counters : ∀ node c, db.counters.lookup node = some c →
    0 ≤ c.offset.toInt ∧ 0 ≤ c.lastRaw.toInt ∧ c.offset.toInt + c.lastRaw.toInt < 2 ^ 63
  bounded : ∀ s ∈ db.traffic, 0 ≤ s.bytesCum.toInt ∧
    ∃ c, db.counters.lookup s.nodeID = some c ∧ s.bytesCum.toInt ≤ c.offset.toInt + c.lastRaw.toInt
  rising : NonDecreasing db.traffic

section
variable {db : DB}

theorem sample_bounds (ordered : Ordered db) {r : Report} (advances : Advances db r) :
    0 ≤ (r.offset db).toInt ∧ (r.offset db).toInt + r.rawBytesTotal.toInt < 2 ^ 63 ∧
      (r.sample db).bytesCum.toInt = (r.offset db).toInt + r.rawBytesTotal.toInt ∧
      ∀ c, db.counters.lookup r.nodeID = some c → c.offset.toInt + c.lastRaw.toInt ≤ (r.sample db).bytesCum.toInt := by
  have raw := advances.nonneg
  have cum : ∀ low : 0 ≤ (r.offset db).toInt, (r.offset db).toInt + r.rawBytesTotal.toInt < 2 ^ 63 →
      (r.sample db).bytesCum.toInt = (r.offset db).toInt + r.rawBytesTotal.toInt := fun low fits => toInt_add_of_fits low fits
  cases known : db.counters.lookup r.nodeID with
  | none =>
    have offset : (r.offset db).toInt = 0 := by simp [Report.offset,nextOffset,known]
    grind [r.rawBytesTotal.toInt_lt]
  | some c =>
    obtain ⟨offset,last,_⟩ := ordered.counters _ c known
    have fits := advances.fits c known
    have next : (r.offset db).toInt = if r.rawBytesTotal < c.lastRaw then c.offset.toInt + c.lastRaw.toInt
        else c.offset.toInt := by
      simp only [Report.offset,nextOffset,known]
      split
      · next restarted =>
        exact toInt_add_of_fits offset (by omega)
      · rfl
    grind [Int64.lt_iff_toInt_lt]

section
variable {r : Report} (ordered : Ordered db) (advances : Advances db r)
include ordered advances

theorem record_bounded : ∀ s ∈ db.traffic ++ [r.sample db], 0 ≤ s.bytesCum.toInt ∧
    ∃ c, (db.counters.insert r.nodeID ⟨r.offset db,r.rawBytesTotal⟩).lookup s.nodeID = some c ∧
      s.bytesCum.toInt ≤ c.offset.toInt + c.lastRaw.toInt := by
  obtain ⟨low,-,cum,above⟩ := sample_bounds ordered advances
  have raw := advances.nonneg
  intro s member
  rcases List.mem_append.mp member with old | new
  · obtain ⟨nonneg,c,found,le⟩ := ordered.bounded s old
    grind
  · obtain rfl := List.mem_singleton.mp new
    exact ⟨by omega,_,AList.lookup_insert _,by dsimp only; omega⟩

theorem record_rising : NonDecreasing (db.traffic ++ [r.sample db]) := by
  obtain ⟨-,-,-,above⟩ := sample_bounds ordered advances
  intro s member s' member' same earlier
  rcases List.mem_append.mp member with old | new
  · rcases List.mem_append.mp member' with old' | new'
    · exact ordered.rising s old s' old' same earlier
    · obtain rfl := List.mem_singleton.mp new'
      obtain ⟨-,c,found,le⟩ := ordered.bounded s old
      have own : db.counters.lookup r.nodeID = some c := (show s.nodeID = r.nodeID from same) ▸ found
      exact le.trans (above c own)
  · obtain rfl := List.mem_singleton.mp new
    rcases List.mem_append.mp member' with old' | new'
    · have clock := advances.clock s' old' same.symm
      exact absurd earlier (not_lt.mpr clock)
    · rw [List.mem_singleton.mp new']

theorem record_ordered (fails : Bool) : Ordered (recordNodeTrafficSample db r fails) := by
  cases fails with
  | true => exact ordered
  | false =>
    refine ⟨?_,record_bounded ordered advances,record_rising ordered advances⟩
    intro node c found
    rcases Table.of_lookup_insert found with ⟨-,rfl⟩ | ⟨-,old⟩
    · obtain ⟨low,high,-,-⟩ := sample_bounds ordered advances
      exact ⟨low,advances.nonneg,high⟩
    · exact ordered.counters node c old

end

variable {traffic : List Sample} {node : Int} {traffic' : List Sample}

theorem mem_samplesOf {type : NodeType} {s : Sample} :
    s ∈ samplesOf traffic type node ↔ s ∈ traffic ∧ s.nodeType = some type ∧ s.nodeID = node := by
  simp [samplesOf]

theorem latest_le {type : NodeType} {bound : Int} (zero : 0 ≤ bound)
    (all : ∀ s ∈ samplesOf traffic type node, s.bytesCum.toInt ≤ bound) : latest traffic type node ≤ bound := by
  by_cases none : totals (samplesOf traffic type node) = []
  · rw [latest,none]
    exact zero
  · obtain ⟨s,member,total⟩ := List.mem_map.mp (highest_mem none)
    calc latest traffic type node = s.bytesCum.toInt := total.symm
      _ ≤ bound := all s member

theorem le_latest {type : NodeType} {s : Sample}
    (member : s ∈ samplesOf traffic type node) : s.bytesCum.toInt ≤ latest traffic type node :=
  le_highest (List.mem_map_of_mem member)

theorem latest_absent {type : NodeType} (absent : node ∉ nodesOf traffic type) :
    latest traffic type node = 0 := by
  have none : samplesOf traffic type node = [] := by
    refine List.eq_nil_iff_forall_not_mem.mpr ?_
    intro s member
    obtain ⟨row,own,rfl⟩ := mem_samplesOf.mp member
    exact absent (by simpa [nodesOf] using ⟨s,⟨row,own⟩,rfl⟩)
  rw [latest,none]
  rfl

theorem latest_nonneg (ordered : Ordered db) (type : NodeType) (node : Int) : 0 ≤ latest db.traffic type node := by
  by_cases none : samplesOf db.traffic type node = []
  · rw [latest,none]
    exact le_refl _
  · obtain ⟨s,member⟩ := List.exists_mem_of_ne_nil _ none
    exact (ordered.bounded s (mem_samplesOf.mp member).1).1.trans (le_latest member)

theorem sumOfLatest_eq {type : NodeType} {N : Finset Int} (inside : ∀ n ∈ nodesOf traffic type, n ∈ N) :
    sumOfLatest traffic type = ∑ n ∈ N, latest traffic type n := by
  have apart : (nodesOf traffic type).Nodup := List.nodup_dedup _
  rw [sumOfLatest,← List.sum_toFinset _ apart]
  grind [Finset.sum_subset,List.mem_toFinset,latest_absent]

theorem sumOfLatest_mono {traffic : List Sample} {type : NodeType}
    (each : ∀ n, latest traffic type n ≤ latest traffic' type n) : sumOfLatest traffic type ≤ sumOfLatest traffic' type := by
  let N := (nodesOf traffic type).toFinset ∪ (nodesOf traffic' type).toFinset
  rw [sumOfLatest_eq (N := N) (fun n member => Finset.mem_union_left _ (List.mem_toFinset.mpr member)),
    sumOfLatest_eq (N := N) (fun n member => Finset.mem_union_right _ (List.mem_toFinset.mpr member))]
  exact Finset.sum_le_sum (fun n _ => each n)

theorem sumOfLatest_nonneg (ordered : Ordered db) (type : NodeType) : 0 ≤ sumOfLatest db.traffic type := by
  refine List.sum_nonneg ?_
  intro x member
  obtain ⟨n,-,rfl⟩ := List.mem_map.mp member
  exact latest_nonneg ordered type n

theorem latest_mono {traffic : List Sample} {type : NodeType} (zero : 0 ≤ latest traffic' type node)
    (each : ∀ s ∈ samplesOf traffic type node, ∃ s' ∈ samplesOf traffic' type node, s.bytesCum.toInt ≤ s'.bytesCum.toInt) :
    latest traffic type node ≤ latest traffic' type node := by
  refine latest_le zero ?_
  intro s member
  obtain ⟨s',member',le⟩ := each s member
  exact le.trans (le_latest member')

theorem latest_record (ordered : Ordered db) {r : Report} (advances : Advances db r) (fails : Bool) (type : NodeType) (node : Int) :
    latest db.traffic type node ≤ latest (recordNodeTrafficSample db r fails).traffic type node := by
  refine latest_mono (latest_nonneg (record_ordered ordered advances fails) type node) ?_
  intro s member
  obtain ⟨row,own⟩ := mem_samplesOf.mp member
  refine ⟨s,mem_samplesOf.mpr ⟨?_,own⟩,le_refl _⟩
  cases fails with
  | true => exact row
  | false => exact List.mem_append_left _ row

structure Left (db : DB) (cutoff : Int) (db' : DB) : Prop where
  counters : db'.counters = db.counters
  rows : db'.traffic ⊆ db.traffic
  young : ∀ s ∈ db.traffic, cutoff ≤ s.ts → s ∈ db'.traffic

theorem turn_left (w : Archive.World) {a : Around} {s : Archive.Arbiter} {nodeID : Int} (left : Left db a.cutoff s.db) :
    Left db a.cutoff (Archive.turn w a s nodeID).1.db := by
  unfold Archive.turn Archive.archiveNode
  dsimp only
  split
  · exact left
  · split
    · exact left
    · split
      · exact left
      · split
        · exact left
        · refine ⟨left.counters,fun x member => left.rows (List.mem_of_mem_filter member),?_⟩
          intro x member young
          have old : Archive.isOld nodeID a.cutoff x = false := by simp [Archive.isOld,young]
          exact List.mem_filter.mpr ⟨left.young x member young,by simp [old]⟩

theorem pass_left (w : Archive.World) (a : Around) (s : Archive.Arbiter) :
    Left s.db a.cutoff (Archive.archiveOldNodeStats w a s).db :=
  state_run (P := fun s' : Archive.Arbiter => Left s.db a.cutoff s'.db) (fun _ _ left => turn_left w left) _
    ⟨rfl,List.Subset.refl _,fun _ member _ => member⟩

theorem Left.ordered {db' : DB} {cutoff : Int} (left : Left db cutoff db') (ordered : Ordered db) : Ordered db' := by
  refine ⟨?_,?_,?_⟩
  · rw [left.counters]
    exact ordered.counters
  · rw [left.counters]
    exact fun s member => ordered.bounded s (left.rows member)
  · exact fun s member s' member' => ordered.rising s (left.rows member) s' (left.rows member')

theorem latest_left {db' : DB} {cutoff : Int} (left : Left db cutoff db') (ordered : Ordered db) {type : NodeType}
    (heard : Heard db.traffic type cutoff) (node : Int) : latest db.traffic type node ≤ latest db'.traffic type node := by
  refine latest_mono (latest_nonneg (left.ordered ordered) type node) ?_
  intro s member
  obtain ⟨row,typed,rfl⟩ := mem_samplesOf.mp member
  by_cases young : cutoff ≤ s.ts
  · exact ⟨s,mem_samplesOf.mpr ⟨left.young s row young,typed,rfl⟩,le_refl _⟩
  · obtain ⟨s',row',typed',same,young'⟩ := heard s row typed (not_le.mp young)
    refine ⟨s',mem_samplesOf.mpr ⟨left.young s' row' young',typed',same⟩,?_⟩
    exact ordered.rising s row s' row' same.symm (by omega)

end

variable {w : Archive.World} {type} {s} {i : Input}

theorem step_db (w : Archive.World) (s : State) (i : Input) :
    (∃ now h fails r, i = .heartbeat now h fails ∧ reportOf s.nodes now h fails = some r ∧
        (step w s i).1.arbiter.db = recordNodeTrafficSample s.arbiter.db r fails.record) ∨
      (∃ a, i = .pass a ∧ Left s.arbiter.db a.cutoff (step w s i).1.arbiter.db) ∨
      (step w s i).1.arbiter.db = s.arbiter.db := by
  cases i with
  | heartbeat now h fails =>
    simp only [step,updateHeartbeat]
    cases sent : reportOf s.nodes now h fails with
    | none => exact .inr (.inr rfl)
    | some r => exact .inl ⟨now,h,fails,r,rfl,sent,rfl⟩
  | pass a => exact .inr (.inl ⟨a,rfl,pass_left w a s.arbiter⟩)
  | register n => exact .inr (.inr rfl)
  | decommissionNode nodeID => exact .inr (.inr rfl)
  | deleteNode nodeID => exact .inr (.inr rfl)

theorem step_ordered (allows : Allows type s i) (ordered : Ordered s.arbiter.db) : Ordered (step w s i).1.arbiter.db := by
  obtain ⟨now,h,fails,r,rfl,sent,same⟩ | ⟨a,rfl,left⟩ | same := step_db w s i
  · rw [same]
    exact record_ordered ordered (allows r sent) fails.record
  · exact left.ordered ordered
  · rwa [same]

theorem step_latest (allows : Allows type s i) (ordered : Ordered s.arbiter.db) (node : Int) :
    latest s.arbiter.db.traffic type node ≤ latest (step w s i).1.arbiter.db.traffic type node := by
  obtain ⟨now,h,fails,r,rfl,sent,same⟩ | ⟨a,rfl,left⟩ | same := step_db w s i
  · rw [same]
    exact latest_record ordered (allows r sent) fails.record type node
  · exact latest_left left ordered allows node
  · rw [same]

def Counted (type : NodeType) (s : State) : Prop := Ordered s.arbiter.db ∧ sumOfLatest s.arbiter.db.traffic type < 2 ^ 63

theorem Counted.total (counted : Counted type s) : s.total type = sumOfLatest s.arbiter.db.traffic type := by
  have nonneg := sumOfLatest_nonneg counted.1 type
  exact if_pos ⟨by omega,counted.2⟩

theorem step_counted (steady : Steady w type s i) (counted : Counted type s) : Counted type (step w s i).1 :=
  ⟨step_ordered steady.1 counted.1,steady.2⟩

theorem step_total (steady : Steady w type s i) (counted : Counted type s) : s.total type ≤ (step w s i).1.total type := by
  rw [counted.total,(step_counted steady counted).total]
  exact sumOfLatest_mono (step_latest steady.1 counted.1)

theorem start_counted (type : NodeType) (nodes : List Node) : Counted type (start nodes) := by
  refine ⟨⟨?_,?_,?_⟩,?_⟩
  · intro node c found
    cases found
  · intro s member
    cases member
  · intro s member
    cases member
  · exact Int.pow_pos (by decide)

theorem network_total_monotone (w : Archive.World) (type : NodeType) (nodes : List Node) (first rest : List Input)
    (steady : Along (step w) (Steady w type) (start nodes) (first ++ rest)) :
    (final (step w) (start nodes) first).total type ≤ (final (step w) (start nodes) (first ++ rest)).total type := by
  obtain ⟨before,after⟩ := (along_append first).mp steady
  have counted :=
    state_along (fun _ _ meets holds => step_counted meets holds) before (start_counted type nodes)
  rw [final_append]
  -- Along the rest the sum is counted, and at or above what it was before.
  let P := fun s : State => Counted type s ∧ (final (step w) (start nodes) first).total type ≤ s.total type
  have kept : P (final (step w) (final (step w) (start nodes) first) rest) := by
    refine state_along ?_ after ⟨counted,le_refl _⟩
    intro s i meets holds
    exact ⟨step_counted meets holds.1,holds.2.trans (step_total meets holds.1)⟩
  exact kept.2

instance (db : DB) (r : Report) : Decidable (Advances db r) :=
  decidable_of_iff (0 ≤ r.rawBytesTotal.toInt ∧ (∀ c ∈ db.counters.lookup r.nodeID,
      (if r.rawBytesTotal < c.lastRaw then c.offset.toInt + c.lastRaw.toInt else c.offset.toInt) + r.rawBytesTotal.toInt < 2 ^ 63) ∧
      ∀ s ∈ db.traffic, s.nodeID = r.nodeID → s.ts ≤ r.ts)
    ⟨fun ⟨nonneg,fits,clock⟩ => ⟨nonneg,fits,clock⟩,fun a => ⟨a.nonneg,a.fits,a.clock⟩⟩

instance (traffic : List Sample) (type : NodeType) (cutoff : Int) : Decidable (Heard traffic type cutoff) :=
  inferInstanceAs (Decidable (∀ s ∈ traffic, s.nodeType = some type → s.ts < cutoff →
    ∃ s' ∈ traffic, s'.nodeType = some type ∧ s'.nodeID = s.nodeID ∧ cutoff ≤ s'.ts))

instance (type : NodeType) (s : State) : ∀ i, Decidable (Allows type s i)
  | .heartbeat now h fails => inferInstanceAs (Decidable (∀ r ∈ reportOf s.nodes now h fails, Advances s.arbiter.db r))
  | .pass a => inferInstanceAs (Decidable (Heard s.arbiter.db.traffic type a.cutoff))
  | .register _ | .decommissionNode _ | .deleteNode _ => isTrue trivial

instance (w : Archive.World) (type : NodeType) (s : State) (i : Input) : Decidable (Steady w type s i) :=
  inferInstanceAs (Decidable (Allows type s i ∧ sumOfLatest (step w s i).1.arbiter.db.traffic type < 2 ^ 63))

def sampleNode : Node := ⟨1,1,.exit,"198.51.100.1:443","",some "t",.approved,none,0,0,none,"","",false,none⟩

def sampleHeartbeat (raw : Int64) : Input := .heartbeat now ⟨"t",0,0,0,raw,"",none,0,0,0⟩ ⟨false,false,false⟩

/-- The node restarts between its reports, and is deleted. -/
theorem network_total_monotone_deleted :
    (final (step .plain) (start [sampleNode]) [sampleHeartbeat 1 5]).total .exit ≤
      (final (step .plain) (start [sampleNode]) ([sampleHeartbeat 1 5] ++
        [sampleHeartbeat 60 3,.pass (.quiet (Archive.statsRetention + 2)),.deleteNode 1])).total .exit :=
  network_total_monotone .plain .exit [sampleNode] [sampleHeartbeat 1 5]
    [sampleHeartbeat 60 3,.pass (.quiet (Archive.statsRetention + 2)),.deleteNode 1] (by decide +kernel)

/-- A node is decommissioned, and 30 days later its only sample is archived. -/
theorem network_total_forgets :
    (final (step .plain) (start [sampleNode]) [sampleHeartbeat 1 5,.decommissionNode 1]).total .exit = 5 ∧
      (final (step .plain) (start [sampleNode]) ([sampleHeartbeat 1 5,.decommissionNode 1] ++
        [.pass (.quiet (Archive.statsRetention + 2))])).total .exit = 0 := by
  decide +kernel

end TunnelCat.NetworkTotal
