import Mathlib.Algebra.BigOperators.Group.Finset.Basic
import TunnelCat.Nodes
import TunnelCat.Runs
import TunnelCat.Table

/-!
The traffic samples of the arbiter (`recordNodeTrafficSample` in `snc-arbiter/db.go`). A node reports the
bytes since its process started. A report that is smaller than the one before it means a restart: what the
node had reported last is added to its offset, and offset and report together are its lifetime total. The
counters are those of the code, with 64 bits.
-/
namespace TunnelCat.Traffic
open Nodes Runs List

/-- A row of `node_traffic`. Rows from before there was a column for the type have none. -/
structure Sample where
  nodeID : Int
  ts : Int
  bytesTotal : Int64
  bytesCum : Int64
  nodeType : Option NodeType
  bwMbps : Rat
  rttMs : Rat
  routingRTTms : Rat
  cpuPct : Rat
  memPct : Rat
  diskPct : Rat

structure CounterState where
  offset : Int64
  lastRaw : Int64

structure DB where
  counters : Table Int CounterState
  traffic : List Sample

structure Report where
  nodeID : Int
  ts : Int
  rawBytesTotal : Int64
  nodeType : NodeType
  bwMbps : Rat
  rttMs : Rat
  routingRTTms : Rat
  cpuPct : Rat
  memPct : Rat
  diskPct : Rat

def nextOffset (raw : Int64) : Option CounterState → Int64
  | none => 0
  | some c => if raw < c.lastRaw then c.offset + c.lastRaw else c.offset

variable (raw : Nat → Int) (db : DB) (r : Report) (k : Nat)

def Report.offset (db : DB) : Int64 := nextOffset r.rawBytesTotal (db.counters.lookup r.nodeID)

def Report.sample (db : DB) : Sample :=
  ⟨r.nodeID,r.ts,r.rawBytesTotal,r.offset db + r.rawBytesTotal,some r.nodeType,r.bwMbps,r.rttMs,r.routingRTTms,r.cpuPct,
    r.memPct,r.diskPct⟩

def recordNodeTrafficSample (fails : Bool) : DB :=
  if fails then db
  else ⟨db.counters.insert r.nodeID ⟨r.offset db,r.rawBytesTotal⟩,db.traffic ++ [r.sample db]⟩

structure Call where
  report : Report
  fails : Bool

def step (i : Call) : DB × Unit := (recordNodeTrafficSample db i.report i.fails,())

def DB.of (node : Int) : List Sample := db.traffic.filter (fun s => s.nodeID = node)

def recorded (node : Int) (inputs : List Call) : List Int :=
  (inputs.filter (fun i => !i.fails && i.report.nodeID = node)).map (fun i => i.report.rawBytesTotal.toInt)

def banked : Int := ∑ j ∈ Finset.range k with raw (j + 1) < raw j, raw j

def lifetime : Int := raw k + banked raw k

@[simp] theorem banked_zero : banked raw 0 = 0 := by simp [banked]

theorem banked_succ :
    banked raw (k + 1) = banked raw k + if raw (k + 1) < raw k then raw k else 0 := by
  simp only [banked,Finset.sum_filter,Finset.sum_range_succ]

variable {raw} {k} {node : Int}

theorem banked_nonneg (nonneg : ∀ j < k, 0 ≤ raw j) : 0 ≤ banked raw k := by
  induction k with
  | zero => simp
  | succ k ih =>
    grind [banked_succ]

theorem lifetime_le_succ (next : 0 ≤ raw (k + 1)) :
    lifetime raw k ≤ lifetime raw (k + 1) := by
  unfold lifetime
  rw [banked_succ]
  split <;> omega

theorem toInt_add_of_fits {a b : Int64} (low : 0 ≤ a.toInt) (high : a.toInt + b.toInt < 2 ^ 63) :
    (a + b).toInt = a.toInt + b.toInt := by
  grind [b.le_toInt,Int64.toInt_add]

def Follows (raw : Nat → Int) : Nat → Option CounterState → Prop
  | 0, state => state = none
  | k + 1, state => ∃ c, state = some c ∧ c.offset.toInt = banked raw k ∧ c.lastRaw.toInt = raw k

theorem nextOffset_follows {state : Option CounterState} {r : Int64}
    (follows : Follows raw k state) (own : r.toInt = raw k) (nonneg : ∀ j ≤ k, 0 ≤ raw j)
    (fits : lifetime raw k < 2 ^ 63) : (nextOffset r state).toInt = banked raw k := by
  cases k with
  | zero =>
    rw [show state = none from follows]
    simp [nextOffset]
  | succ k =>
    obtain ⟨c,rfl,offset,last⟩ := follows
    have before := banked_nonneg (k := k) (fun j less => nonneg j (by omega))
    have next := nonneg (k + 1) (by omega)
    unfold lifetime at fits
    rw [banked_succ] at fits ⊢
    simp only [nextOffset,Int64.lt_iff_toInt_lt,own,last]
    split
    case isTrue restarted =>
      rw [toInt_add_of_fits (by omega) (by omega),offset,last]
    case isFalse running => rw [offset,add_zero]

theorem sample_follows {db : DB} {r : Report} (follows : Follows raw k (db.counters.lookup r.nodeID))
    (own : r.rawBytesTotal.toInt = raw k) (nonneg : ∀ j ≤ k, 0 ≤ raw j) (fits : lifetime raw k < 2 ^ 63) :
    (r.offset db).toInt = banked raw k ∧ (r.sample db).bytesCum.toInt = lifetime raw k := by
  have offset : (r.offset db).toInt = banked raw k := nextOffset_follows follows own nonneg fits
  have before := banked_nonneg (k := k) (fun j less => nonneg j (by omega))
  unfold lifetime at fits ⊢
  refine ⟨offset,?_⟩
  rw [show (r.sample db).bytesCum = r.offset db + r.rawBytesTotal from rfl,toInt_add_of_fits (by omega) (by omega),offset,own,
    Int.add_comm]

theorem step_of_other {i : Call} (other : (!i.fails && i.report.nodeID = node) = false) :
    (step db i).1.of node = db.of node ∧ (step db i).1.counters.lookup node = db.counters.lookup node := by
  unfold step recordNodeTrafficSample
  grind [DB.of,Report.sample]

theorem step_of_own {i : Call} (own : (!i.fails && i.report.nodeID = node) = true) :
    (step db i).1.of node = db.of node ++ [i.report.sample db] ∧
      (step db i).1.counters.lookup node = some ⟨i.report.offset db,i.report.rawBytesTotal⟩ := by
  grind [step,recordNodeTrafficSample,DB.of,Report.sample]

/-- Every further report of a node is stored with the bytes of all its lives. The induction is on
    the calls; `k` reports of the node have been recorded before them. -/
theorem stored_from (inputs : List Call) :
    ∀ (db : DB) (k n : Nat), Follows raw k (db.counters.lookup node) →
      recorded node inputs = (List.range' k n).map raw → (∀ j < k + n, 0 ≤ raw j) → (∀ j < k + n, lifetime raw j < 2 ^ 63) →
      ∃ stored, (final step db inputs).of node = db.of node ++ stored ∧
        stored.map (fun s => s.bytesCum.toInt) = (List.range' k n).map (lifetime raw) := by
  induction inputs with
  | nil =>
    intro db k n _ reports _ _
    have none : n = 0 := by simpa [recorded] using reports.symm
    exact ⟨[],by simp,by simp [none]⟩
  | cons i rest ih =>
    intro db k n follows reports nonneg fits
    cases whose : (!i.fails && decide (i.report.nodeID = node)) with
    | false =>
      obtain ⟨rows,counter⟩ := step_of_other db whose
      rw [recorded,filter_cons_of_neg (by simp [whose])] at reports
      rw [← rows]
      exact ih (step db i).1 k n (counter ▸ follows) reports nonneg fits
    | true =>
      obtain ⟨rows,counter⟩ := step_of_own db whose
      rw [recorded,filter_cons_of_pos (by simp only [whose])] at reports
      obtain ⟨n,rfl⟩ : ∃ m, n = m + 1 := by
        cases n with
        | zero => simp at reports
        | succ m => exact ⟨m,rfl⟩
      obtain ⟨own,later⟩ := List.cons.inj reports
      obtain ⟨-,same⟩ : i.fails = false ∧ i.report.nodeID = node := by simpa using whose
      obtain ⟨offset,cum⟩ := sample_follows (same ▸ follows) own (fun j le => nonneg j (by omega)) (fits k (by omega))
      obtain ⟨stored,all,totals⟩ := ih (step db i).1 (k + 1) n (counter ▸ ⟨_,rfl,offset,own⟩) later
        (fun j less => nonneg j (by omega)) (fun j less => fits j (by omega))
      refine ⟨i.report.sample db :: stored,?_,?_⟩
      · rw [final_cons,all,rows]
        simp
      · rw [List.range'_succ,map_cons,map_cons,cum,totals]

def rawOf (node : Int) (inputs : List Call) (k : Nat) : Int := (recorded node inputs).getD k 0

theorem recorded_eq_range (node : Int) (inputs : List Call) :
    recorded node inputs = (List.range' 0 (recorded node inputs).length).map (rawOf node inputs) := by
  refine ext_getElem (by simp) ?_
  intro k inside _
  simp [rawOf,inside]

/-- Where a node has no state, its reports are not negative and its totals fit into 64 bits, the
    rows that are added for it have in order the bytes of all its lives, which never go down. -/
theorem lifetime_counter (db : DB) (node : Int) (inputs : List Call) (unknown : db.counters.lookup node = none)
    (nonneg : ∀ raw ∈ recorded node inputs, 0 ≤ raw)
    (fits : ∀ k < (recorded node inputs).length, lifetime (rawOf node inputs) k < 2 ^ 63) :
    ∃ stored, (final step db inputs).of node = db.of node ++ stored ∧
      stored.map (fun s => s.bytesCum.toInt) =
        (List.range (recorded node inputs).length).map (fun k => rawOf node inputs k +
          ∑ j ∈ Finset.range k with rawOf node inputs (j + 1) < rawOf node inputs j, rawOf node inputs j) ∧
      (stored.map (fun s => s.bytesCum.toInt)).Pairwise (· ≤ ·) := by
  have positive : ∀ j < 0 + (recorded node inputs).length, 0 ≤ rawOf node inputs j := by
    intro j less
    have inside : j < (recorded node inputs).length := by omega
    rw [rawOf,getD_eq_getElem?_getD,getElem?_eq_getElem inside]
    exact nonneg _ (getElem_mem inside)
  obtain ⟨stored,rows,totals⟩ := stored_from inputs db 0 _ unknown (recorded_eq_range node inputs) positive
    (fun j less => fits j (by omega))
  rw [← range_eq_range'] at totals
  refine ⟨stored,rows,totals,?_⟩
  have ordered : ∀ j k, j ≤ k → k < (recorded node inputs).length →
      lifetime (rawOf node inputs) j ≤ lifetime (rawOf node inputs) k := by
    intro j k le inside
    induction k, le using Nat.le_induction with
    | base => exact le_refl _
    | succ k le ih => exact (ih (by omega)).trans (lifetime_le_succ (positive (k + 1) (by omega)))
  rw [totals,pairwise_map]
  refine (pairwise_lt_range).imp_of_mem ?_
  intro j k _ inside less
  exact ordered j k (by omega) (mem_range.mp inside)

def sampleReport (node ts : Int) (raw : Int64) (type : NodeType) : Report := ⟨node,ts,raw,type,0,0,0,0,0,0⟩

def sampleCalls : List Call := [5,7,3,2].map (fun raw => ⟨sampleReport 1 0 raw .exit,false⟩)

theorem lifetime_counter_restarts :
    recorded 1 sampleCalls = [5,7,3,2] ∧
    ∃ stored, (final step ⟨∅,[]⟩ sampleCalls).of 1 = [] ++ stored ∧
      stored.map (fun s => s.bytesCum.toInt) =
        (List.range 4).map (fun k => rawOf 1 sampleCalls k +
          ∑ j ∈ Finset.range k with rawOf 1 sampleCalls (j + 1) < rawOf 1 sampleCalls j, rawOf 1 sampleCalls j) ∧
      (stored.map (fun s => s.bytesCum.toInt)).Pairwise (· ≤ ·) :=
  ⟨by decide +kernel,lifetime_counter ⟨∅,[]⟩ 1 sampleCalls rfl (by decide +kernel) (by decide +kernel)⟩

end TunnelCat.Traffic
