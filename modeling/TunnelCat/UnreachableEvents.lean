import TunnelCat.Runs
import TunnelCat.StatsRing

/-!
How a control that a client cannot reach is counted: a stat record in the client's ring, a snapshot
of the ring in every chunk of a log upload (`snc/core/log_upload.go`), and a row for each control-dead
record (`snc-arbiter/log_client_stats.go`, `db_unreachable.go`).

A snapshot takes nothing out of the ring, so two uploads count a record twice unless it was
overwritten between them. `origins` remembers for each row where its frame ended (`rows_have_frames`).
-/
namespace TunnelCat.UnreachableEvents
open Runs Binlog StatsRing List

def statsRingSize : Nat := 32 * 1024
def maxStatsEntryBytes : Nat := 256 * 1024
def tagControlDead : UInt8 := 8

structure Member where
  name : String
  contents : List UInt8

def controlDead (r : Record) : Bool := r.tag = tagControlDead ∧ r.payload.length > 0

def controlDeadAddrsFromClientUpload (archive : List Member) : List (List UInt8) :=
  match archive.find? (fun f => f.name = "stats") with
  | none => []
  | some f =>
    if f.contents.length > maxStatsEntryBytes then []
    else
      match decodeRecords f.contents with
      | some (.ok (records, _)) => (records.filter controlDead).map Record.payload
      | _ => []

inductive NodeKind
  | client
  | control
  | exit

structure Row where
  ts : Int
  reporterType : NodeKind
  targetType : NodeKind
  targetNodeID : Option Int
  targetAddr : List UInt8

abbrev Nodes := List (List UInt8 × Int)

variable (nodes : Nodes) (fails : Option Nat)

def nodeIDByAddr (addr : List UInt8) : Option Int := nodes.lookup addr

def inserted (l : List α) : List α :=
  match fails with
  | none => l
  | some n => l.take n

def recordUnreachableEvents (reporterType targetType : NodeKind) (addrs : List (List UInt8)) (ts : Int)
    (fails : Option Nat) : List Row :=
  (inserted fails addrs).map (fun addr => ⟨ts,reporterType,targetType,nodeIDByAddr nodes addr,addr⟩)

def placesLoop (data : List UInt8) : Nat → Int → List (Nat × Record)
  | 0, _ => []
  | turns+1, i =>
    if i < data.length then
      match turn data i with
      | .ok (.bad next) => placesLoop data turns next
      | .ok (.record r next) => (next.toNat,r) :: placesLoop data turns next
      | _ => []
    else []

def places (data : List UInt8) : List (Nat × Record) := placesLoop data (data.length + 1) 0

theorem decodeLoop_places {data : List UInt8} : ∀ turns i records corrupt rs c,
    decodeLoop data turns i records corrupt = some (.ok (rs,c)) →
      rs = records ++ (placesLoop data turns i).map Prod.snd := by
  intro turns
  induction turns with
  | zero => intro i records corrupt rs c none_; cases none_
  | succ turns ih =>
    grind [decodeLoop,placesLoop]

theorem placesLoop_spec {data : List UInt8} (fits : data.length ≤ maxAlloc) : ∀ (turns i : Nat), i ≤ data.length →
    ((placesLoop data turns (i : Nat)).map Prod.fst).Pairwise (· < ·) ∧
      ∀ p ∈ placesLoop data turns (i : Nat), i < p.1 ∧ p.1 ≤ data.length ∧
        ∃ k, FrameAt (data.drop k) p.2 (data.drop p.1) := by
  intro turns
  induction turns with
  | zero => intro i _; exact ⟨List.Pairwise.nil,fun p none_ => by cases none_⟩
  | succ turns ih =>
    intro i inside
    rw [placesLoop]
    by_cases more : (i : Int) < data.length
    · rw [if_pos more]
      rcases turn_spec fits inside with ⟨none_,-⟩ | ⟨k,-,marked,⟨bad,-⟩ | ⟨r,n,found,some_,short,frame⟩⟩
      · simp only [none_]
        exact ⟨List.Pairwise.nil,fun p none_ => by cases none_⟩
      · simp only [bad]
        have two := marked.two
        rw [length_drop] at two
        obtain ⟨ordered,frames⟩ := ih (i + k + 1) (by omega)
        refine ⟨ordered,fun p member => ?_⟩
        obtain ⟨after,rest⟩ := frames p member
        exact ⟨by omega,rest⟩
      · simp only [found]
        obtain ⟨ordered,frames⟩ := ih (i + k + n) short
        constructor
        · refine pairwise_cons.mpr ⟨?_,ordered⟩
          intro q member
          obtain ⟨p,there,rfl⟩ := mem_map.mp member
          exact (frames p there).1
        · intro p member
          rcases mem_cons.mp member with rfl | later
          · exact ⟨by omega,short,i + k,frame⟩
          · obtain ⟨after,rest⟩ := frames p later
            exact ⟨by omega,rest⟩
    · rw [if_neg more]
      exact ⟨List.Pairwise.nil,fun p none_ => by cases none_⟩

structure State where
  ring : RingBuffer
  table : List Row
  /-- The records that were written, in order. -/
  written : List Record
  /-- How many bytes had been written at the last upload. -/
  sent : Nat
  /-- For each row of the table, the place of its frame. -/
  origins : List Nat

def start : State := ⟨newRingBuffer statsRingSize,[],[],0,[]⟩

variable (s : State)

def State.dead : List (Nat × Record) :=
  ((places s.ring.snapshot).filter (fun p => controlDead p.2)).map
    (fun p => ((framed s.written).length - s.ring.snapshot.length + p.1,p.2))

def State.rowsAt (place : Nat) : List Row :=
  ((s.table.zip s.origins).filter (fun x => x.2 = place)).map Prod.fst

/-- The rows of a record, counted from the first that was written. -/
def State.rowsOf (k : Nat) : List Row := s.rowsAt (framed (s.written.take (k + 1))).length

inductive Input
  /-- A stat record is written. -/
  | writeRecord (r : Record)
  /-- A chunk of an upload, with the part of the log it carries, which the arbiter answers
      with 200. -/
  | uploadOneChunk (logData : List UInt8) (ts : Int) (nodes : Nodes) (fails : Option Nat)

def step : Input → State × Unit
  | .writeRecord r => ({ s with ring := s.ring.writeRecord r, written := s.written ++ [r] },())
  | .uploadOneChunk logData ts nodes fails =>
    if logData.length = 0 ∧ s.ring.snapshot.length = 0 then (s,())
    else
      ({ s with
          table := s.table ++ recordUnreachableEvents nodes .client .control
            (controlDeadAddrsFromClientUpload [⟨"log",logData⟩,⟨"stats",s.ring.snapshot⟩]) ts fails
          sent := (framed s.written).length
          origins := s.origins ++ inserted fails (s.dead.map Prod.fst) },())

/-- No control-dead record that an upload carries was in the ring at the upload before. -/
def Fresh : Input → Prop
  | .writeRecord _ => True
  | .uploadOneChunk _ _ _ _ => ∀ p ∈ s.dead, s.sent < p.1

theorem inserted_map (f : α → β) (l : List α) :
    inserted fails (l.map f) = (inserted fails l).map f := by
  cases fails with
  | none => rfl
  | some n => exact map_take.symm

theorem inserted_sublist (l : List α) : (inserted fails l).Sublist l := by
  cases fails with
  | none => exact List.Sublist.refl l
  | some n => exact take_sublist n l

theorem append_frame {b rest : List UInt8} {r : Record} (frame : FrameAt b r rest) (more : List UInt8) :
    FrameAt (b ++ more) r (rest ++ more) := by
  obtain ⟨v,encodes,rfl⟩ := frame
  exact ⟨v,encodes,by simp only [append_assoc]⟩

structure Ring (s : State) : Prop where
  ring : s.ring = (newRingBuffer statsRingSize).writeRecords s.written

namespace Ring
variable {s : State} (holds : Ring s)
include holds

theorem suffix : s.ring.snapshot <:+ framed s.written := by
  rw [holds.ring]
  exact snapshot_suffix statsRingSize s.written

theorem short : s.ring.snapshot.length ≤ statsRingSize := by
  grind [writeRecords_keeps,holds.ring,length_snapshot]

theorem addrs (logData : List UInt8) :
    controlDeadAddrsFromClientUpload [⟨"log",logData⟩,⟨"stats",s.ring.snapshot⟩] = s.dead.map (fun p => p.2.payload) := by
  have short := holds.short
  obtain ⟨records,corrupt,returned,-⟩ := decode_returns
    ⟨s.ring.snapshot,short.trans (by rw [statsRingSize,maxAlloc]; omega)⟩
  have placed :=
    (decodeLoop_places _ _ _ _ _ _ returned).trans (nil_append _)
  have entry : ¬ s.ring.snapshot.length > maxStatsEntryBytes := by
    rw [maxStatsEntryBytes]
    rw [statsRingSize] at short
    omega
  simp only [controlDeadAddrsFromClientUpload,List.find?,show decide ("log" = "stats") = false by decide,decide_true,
    entry,returned,placed,State.dead,filter_map,map_map]
  rfl

theorem dead_spec : (s.dead.map Prod.fst).Pairwise (· < ·) ∧ ∀ p ∈ s.dead, p.1 ≤ (framed s.written).length ∧
    controlDead p.2 ∧ ∃ k, FrameAt ((framed s.written).drop k) p.2 ((framed s.written).drop p.1) := by
  have short := holds.short
  obtain ⟨ordered,frames⟩ := placesLoop_spec (short.trans (by rw [statsRingSize,maxAlloc]; omega))
    (s.ring.snapshot.length + 1) 0 (Nat.zero_le _)
  have part := suffix_iff_eq_drop.mp holds.suffix
  have inside := holds.suffix.length_le
  constructor
  · rw [State.dead,map_map,pairwise_map]
    refine ((pairwise_map.mp ordered).filter _).imp ?_
    simp only [Function.comp_apply]
    omega
  · intro p member
    obtain ⟨q,there,rfl⟩ := mem_map.mp member
    obtain ⟨found,dead⟩ := mem_filter.mp there
    obtain ⟨-,upto,k,frame⟩ := frames q found
    refine ⟨by omega,dead,(framed s.written).length - s.ring.snapshot.length + k,?_⟩
    rw [← drop_drop,← drop_drop,← part]
    exact frame

end Ring

variable (i : Input)

theorem ring_step (holds : Ring s) : Ring (step s i).1 := by
  cases i with
  | writeRecord r => exact ⟨by rw [step,writeRecords_append_one,← holds.ring]⟩
  | uploadOneChunk logData ts nodes fails =>
    rw [step]
    split
    · exact holds
    · exact ⟨holds.ring⟩

def Behind (stream : List UInt8) (row : Row) (place : Nat) : Prop :=
  place ≤ stream.length ∧ ∃ k, FrameAt (stream.drop k) ⟨tagControlDead,row.targetAddr⟩ (stream.drop place)

theorem Behind.more {stream : List UInt8} {row : Row} {place : Nat} (behind : Behind stream row place)
    (more : List UInt8) : Behind (stream ++ more) row place := by
  obtain ⟨inside,k,frame⟩ := behind
  have start_ : k ≤ stream.length := by
    have two := frame.marked.two
    rw [length_drop] at two
    omega
  refine ⟨by rw [length_append]; omega,k,?_⟩
  grind [append_frame]

theorem new_rows {s : State} (holds : Ring s) (logData : List UInt8) (ts : Int) (nodes : Nodes) (fails : Option Nat) :
    List.Forall₂ (Behind (framed s.written))
      (recordUnreachableEvents nodes .client .control
        (controlDeadAddrsFromClientUpload [⟨"log",logData⟩,⟨"stats",s.ring.snapshot⟩]) ts fails)
      (inserted fails (s.dead.map Prod.fst)) := by
  rw [holds.addrs,recordUnreachableEvents,inserted_map,inserted_map,map_map,forall₂_map_left_iff,
    forall₂_map_right_iff,forall₂_same]
  intro p member
  obtain ⟨inside,dead,k,frame⟩ := holds.dead_spec.2 p ((inserted_sublist fails _).subset member)
  have tag : p.2.tag = tagControlDead := (decide_eq_true_iff.mp dead).1
  refine ⟨inside,k,?_⟩
  rw [← tag]
  exact frame

structure Traced (s : State) : Prop where
  ring : Ring s
  rows : List.Forall₂ (Behind (framed s.written)) s.table s.origins

theorem traced_step (traced : Traced s) : Traced (step s i).1 := by
  refine ⟨ring_step s i traced.ring,?_⟩
  cases i with
  | writeRecord r =>
    rw [step,framed_append_one]
    exact traced.rows.imp (fun row place behind => behind.more _)
  | uploadOneChunk logData ts nodes fails =>
    rw [step]
    split
    · exact traced.rows
    · exact rel_append traced.rows (new_rows traced.ring logData ts nodes fails)

theorem rows_have_frames (inputs : List Input) : Traced (final step start inputs) :=
  @invariant_run _ _ _ step (fun _ s => Traced s) (fun _ s i => traced_step s i) inputs [] start ⟨⟨rfl⟩,.nil⟩

structure Once (s : State) : Prop where
  traced : Traced s
  sent : s.sent ≤ (framed s.written).length
  nodup : s.origins.Nodup
  before : ∀ place ∈ s.origins, place ≤ s.sent

theorem once_step (fresh : Fresh s i) (once : Once s) : Once (step s i).1 := by
  have traced := traced_step s i once.traced
  cases i with
  | writeRecord r =>
    refine ⟨traced,?_,once.nodup,once.before⟩
    grind [step,framed_append_one,once.sent]
  | uploadOneChunk logData ts nodes fails =>
    rw [step] at traced ⊢
    split
    · exact once
    · rename_i sends
      rw [if_neg sends] at traced
      obtain ⟨ordered,dead⟩ := once.traced.ring.dead_spec
      have new : ∀ place ∈ inserted fails (s.dead.map Prod.fst), s.sent < place ∧ place ≤ (framed s.written).length := by
        intro place member
        obtain ⟨p,there,rfl⟩ := mem_map.mp ((inserted_sublist fails _).subset member)
        exact ⟨fresh p there,(dead p there).1⟩
      refine ⟨traced,Nat.le_refl _,?_,?_⟩
      · refine nodup_append.mpr ⟨once.nodup,?_,?_⟩
        · exact ((ordered.imp Nat.ne_of_lt).sublist (inserted_sublist fails _))
        · intro place old other later same
          have upto := once.before place old
          have after := (new other later).1
          omega
      · intro place member
        rcases mem_append.mp member with old | later
        · exact (once.before place old).trans once.sent
        · exact (new place later).2

theorem length_rowsAt {s : State} (traced : Traced s) (place : Nat) : (s.rowsAt place).length = s.origins.count place := by
  have all :=
    map_snd_zip (Nat.le_of_eq traced.rows.length_eq.symm)
  rw [State.rowsAt,length_map,← countP_eq_length_filter]
  nth_rewrite 2 [← all]
  rw [List.count,countP_map]
  rfl

/-- Every record leads to one row at most in a run where no upload carries a control-dead
    record that was in the ring at the upload before. -/
theorem counted_once {inputs : List Input} (fresh : Along step Fresh start inputs) (k : Nat) :
    ((final step start inputs).rowsOf k).length ≤ 1 := by
  have once : Once (final step start inputs) := by
    refine state_along once_step fresh ⟨⟨⟨rfl⟩,.nil⟩,Nat.le_refl _,nodup_nil,?_⟩
    intro place none_
    cases none_
  rw [State.rowsOf,length_rowsAt once.traced]
  exact nodup_iff_count_le_one.mp once.nodup _

/-- While the ring has not come round, an upload carries all that was written. -/
theorem dead_written {inputs : List Input} {records : List Record} (written : (final step start inputs).written = records)
    (less : (framed records).length < statsRingSize) :
    (final step start inputs).dead = (places (framed records)).filter (fun p => controlDead p.2) := by
  subst written
  simp [State.dead,(rows_have_frames inputs).ring.ring,snapshot_all less]

def sample : Record := ⟨tagControlDead,[0x61]⟩
def other : Record := ⟨1,[]⟩

theorem dead_sample : (step start (.writeRecord sample)).1.dead = [(9,sample)] := by
  have all := @dead_written [.writeRecord sample] [sample] (by decide +kernel) (by decide +kernel)
  rw [final_cons,final_nil] at all
  rw [all]
  decide +kernel

def laterRecord : List Input := [.writeRecord other,.uploadOneChunk [1] 0 [] none,.writeRecord sample]

theorem dead_later : (final step start laterRecord).dead = [(17,sample)] := by
  rw [@dead_written laterRecord [other,sample] (by decide +kernel) (by decide +kernel)]
  decide +kernel

/-- The control-dead record is written after the first of two uploads. -/
theorem counted_once_sample :
    ((final step start (laterRecord ++ [.uploadOneChunk [] 1 [] none])).rowsOf 1).length ≤ 1 := by
  have before : (final step start [.writeRecord other]).dead = [] := by
    rw [dead_written rfl (by decide +kernel)]
    decide +kernel
  refine counted_once ?_ 1
  refine ⟨trivial,fun p member => ?_,trivial,fun p member => ?_,trivial⟩
  · cases before ▸ member
  · obtain rfl := mem_singleton.mp (dead_later ▸ member)
    decide +kernel

theorem step_upload {s : State} (records : s.ring.snapshot.length ≠ 0) (ts : Int) (nodes : Nodes) :
    ∃ s', (step s (.uploadOneChunk [] ts nodes none)).1 = s' ∧ s'.ring = s.ring ∧ s'.written = s.written ∧
      s'.origins = s.origins ++ s.dead.map Prod.fst := by
  rw [step,if_neg (fun empty => records empty.2)]
  exact ⟨_,rfl,rfl,rfl,rfl⟩

theorem uploaded_twice {s : State} (records : s.ring.snapshot.length ≠ 0) (ts : Int) (nodes : Nodes) :
    ∃ s', final step s [.uploadOneChunk [] ts nodes none,.uploadOneChunk [] ts nodes none] = s' ∧
      s'.written = s.written ∧ s'.origins = s.origins ++ s.dead.map Prod.fst ++ s.dead.map Prod.fst := by
  obtain ⟨first,first_,ring,written,origins⟩ := step_upload records ts nodes
  rw [← ring] at records
  obtain ⟨second,second_,-,written',origins'⟩ := step_upload records ts nodes
  grind [State.dead,final_cons,final_nil]

/-- One record and two uploads after it. -/
theorem counted_twice : ¬ ∀ (inputs : List Input) (k : Nat), ((final step start inputs).rowsOf k).length ≤ 1 := by
  intro all
  have once := all [.writeRecord sample,.uploadOneChunk [] 0 [] none,.uploadOneChunk [] 0 [] none] 0
  have records : (step start (.writeRecord sample)).1.ring.snapshot.length ≠ 0 := by
    intro empty
    have none_ := dead_sample
    simp [State.dead,length_eq_zero_iff.mp empty,places,placesLoop] at none_
  obtain ⟨s,after,written,origins⟩ := uploaded_twice records 0 []
  rw [State.rowsOf,length_rowsAt (rows_have_frames _),final_cons,after,written,origins,dead_sample] at once
  have counted : List.count (framed [sample]).length [9,9] ≤ 1 := once
  exact absurd counted (by decide +kernel)

end TunnelCat.UnreachableEvents
