import Mathlib.Data.List.Induction
import TunnelCat.Reorder
import TunnelCat.Runs

/-!
The upload path end to end: the client numbers every frame it sends
(`snc/core/session.go`), the exit delivers the frames that carry bytes in the
order of their numbers (`snc-exit/handler.go`). Polls and empty writes take a
number on the client and no turn on the exit, and a number that is 0 modulo
2 ^ 32 is taken for a connect frame: so the target gets the writes in order
exactly when neither stands before the last byte (`upload_exact_iff`).
-/
namespace TunnelCat.Upload
open Frames Reorder Runs List

structure TunnelConn where
  connID : ConnID
  target : List UInt8
  seq : Nat

inductive Op
  | write (p : List UInt8)
  | poll

def Op.payload : Op → List UInt8
  | .write p => p
  | .poll => []

variable (c : TunnelConn) (connID : ConnID) (ps : List (List UInt8))

def send (s : Nat) (payload : List UInt8) : List UInt8 :=
  buildUploadPlain c.connID s (if s = 0 then c.target else []) payload

def sendNext (op : Op) : TunnelConn × List UInt8 :=
  ({ c with seq := c.seq + 1 },send c c.seq op.payload)

def frames (target : List UInt8) (ops : List Op) : List (List UInt8) :=
  trace sendNext ⟨connID,target,1⟩ ops

theorem frames_getElem? (ops : List Op) (i : Nat) :
    (trace sendNext c ops)[i]? = (ops[i]?).map (fun op => send c (c.seq + i) op.payload) := by
  induction ops generalizing c i with
  | nil => simp
  | cons op rest ih =>
    cases i with
    | zero => simp [sendNext]
    | succ i =>
      have numbered : c.seq + (i + 1) = c.seq + 1 + i := by omega
      simp only [trace_cons,List.getElem?_cons_succ,ih,numbered]
      rfl

structure Reply where
  status : Nat
  wrote : List UInt8

section
-- the connect path with a target: dialling it and storing the session

variable (connect : Table ConnID Session → UploadFrame → Table ConnID Session × Nat)

variable (pool : Table ConnID Session)

def handleUpload (plain : List UInt8) : Table ConnID Session × Reply :=
  match parseUploadFrame plain with
  | .error _ => (pool,⟨404,[]⟩)
  | .ok f =>
    if f.seq = 0 then
      if f.target = [] then (pool,⟨404,[]⟩) else ((connect pool f).1,⟨(connect pool f).2,[]⟩)
    else
      match pool.lookup f.connID with
      | none => (pool,⟨404,[]⟩)
      | some sess =>
        if f.payload = [] then (pool,⟨200,[]⟩)
        else
          let d := deliverInOrder sess f.seq f.payload
          match d.error with
          | some _ => (pool.erase f.connID,⟨404,d.wrote⟩)
          | none =>
            (pool.insert f.connID { d.session with bytesUp := d.session.bytesUp + f.payload.length },⟨200,d.wrote⟩)

def written (plains : List (List UInt8)) : List UInt8 :=
  (trace (handleUpload connect) pool plains).flatMap (·.wrote)

theorem written_append (first second : List (List UInt8)) :
    written connect pool (first ++ second) =
      written connect pool first ++ written connect (final (handleUpload connect) pool first) second := by
  simp [written,trace_append]

theorem written_cons (plain : List UInt8) (rest : List (List UInt8)) :
    written connect pool (plain :: rest) =
      (handleUpload connect pool plain).2.wrote ++ written connect (handleUpload connect pool plain).1 rest := by
  simp [written]

end

def established : Table ConnID Session := (∅ : Table ConnID Session).insert connID Session.fresh

def waits (arrived : List Nat) (i : Nat) : Bool := (List.range i).any (fun j => j ∉ arrived)

/-- Each of `n` frames arrives once, and never do `reorderBufMax` of them wait. -/
structure Arrives (n : Nat) (order : List Nat) : Prop where
  perm : order.Perm (List.range n)
  few : ∀ arrived rest, order = arrived ++ rest → (arrived.filter (waits arrived)).length < reorderBufMax

def arrivals (target : List UInt8) (ops : List Op) (order : List Nat) : List (List UInt8) :=
  order.map (fun i => (frames connID target ops).getD i [])

section
variable (ps : List (List UInt8))

def chunks : List (List UInt8) := ps.filter (fun p => p ≠ [])

def rank (i : Nat) : Nat := (ps.take i).countP (fun p => p ≠ [])

def turn (i : Nat) : Option Nat :=
  match ps[i]? with
  | none => none
  | some p => if p = [] then none else some (rank ps i)

variable {ps} {i k : Nat}

theorem turn_eq_some :
    turn ps i = some k ↔ ∃ p, ps[i]? = some p ∧ p ≠ [] ∧ rank ps i = k := by
  grind [turn]

theorem rank_succ {p : List UInt8} (found : ps[i]? = some p) :
    rank ps (i + 1) = rank ps i + if p = [] then 0 else 1 := by
  grind [rank,take_add_one]

theorem rank_mono (qs : List (List UInt8)) {j : Nat} (le : i ≤ j) : rank qs i ≤ rank qs j :=
  (take_sublist_take_left le).countP_le

theorem turn_injective {j : Nat} (left : turn ps i = some k) (right : turn ps j = some k) : i = j := by
  obtain ⟨p,foundP,someP,rankP⟩ := turn_eq_some.mp left
  obtain ⟨q,foundQ,someQ,rankQ⟩ := turn_eq_some.mp right
  have afterI := rank_succ foundP
  have afterJ := rank_succ foundQ
  rw [if_neg someP] at afterI
  rw [if_neg someQ] at afterJ
  rcases Nat.lt_trichotomy i j with less | same | greater
  · have := rank_mono ps (show i + 1 ≤ j from less)
    omega
  · exact same
  · have := rank_mono ps (show j + 1 ≤ i from greater)
    omega

theorem turn_chunk (at_ : turn ps i = some k) : (chunks ps)[k]? = ps[i]? := by
  obtain ⟨p,found,carries,rfl⟩ := turn_eq_some.mp at_
  obtain ⟨inside,value⟩ := List.getElem?_eq_some_iff.mp found
  have split : ps = ps.take i ++ p :: ps.drop (i + 1) := by
    rw [← value,getElem_cons_drop,take_append_drop]
  have filtered : chunks ps = (ps.take i).filter (fun p => p ≠ []) ++ p :: (ps.drop (i + 1)).filter (fun p => p ≠ []) := by
    unfold chunks
    conv_lhs => rw [split]
    simp [carries]
  rw [filtered,found,rank,countP_eq_length_filter]
  simp

theorem exists_turn {n : Nat} (below : n < rank ps i) : ∃ j < i, turn ps j = some n := by
  induction i with
  | zero => simp [rank] at below
  | succ i ih =>
    cases found : ps[i]? with
    | none =>
      grind [rank,take_add_one]
    | some p =>
      have step := rank_succ found
      by_cases empty : p = []
      · grind
      · rw [if_neg empty] at step
        rcases Nat.lt_or_ge n (rank ps i) with low | high
        · obtain ⟨j,before,at_⟩ := ih low
          exact ⟨j,by omega,at_⟩
        · exact ⟨i,by omega,turn_eq_some.mpr ⟨p,found,empty,by omega⟩⟩

theorem chunks_length : (chunks ps).length = rank ps ps.length := by
  simp [chunks,rank,countP_eq_length_filter]

theorem chunks_flatten : (chunks ps).flatten = ps.flatten := by
  induction ps with
  | nil => rfl
  | cons p rest ih =>
    grind [chunks]

end

/-- Before every frame that carries bytes the client has sent empty ones only in
    multiples of 2 ^ 32, and fewer than 2 ^ 32 frames carry bytes. -/
def InStep (lengths : List Nat) : Prop :=
  ∀ i n, lengths[i]? = some n → n ≠ 0 →
    (lengths.take i).countP (fun n => n = 0) % 2 ^ 32 = 0 ∧ (lengths.take i).countP (fun n => n ≠ 0) + 1 < 2 ^ 32

theorem countP_nonzero (i : Nat) :
    ((ps.map List.length).take i).countP (fun n => n ≠ 0) = rank ps i := by
  rw [← map_take,countP_map]
  refine countP_congr fun p _ => ?_
  simp

theorem countP_zero (i : Nat) (inside : i ≤ ps.length) :
    ((ps.map List.length).take i).countP (fun n => n = 0) + rank ps i = i := by
  have whole := length_eq_countP_add_countP (fun n : Nat => decide (n = 0)) (l := (ps.map List.length).take i)
  have rest := countP_nonzero ps i
  rw [length_take,length_map] at whole
  have others : ((ps.map List.length).take i).countP (fun a => decide ¬ decide (a = 0) = true) =
      ((ps.map List.length).take i).countP (fun n => n ≠ 0) := countP_congr fun n _ => by simp
  omega

theorem inStep_iff : InStep (ps.map List.length) ↔
    ∀ i k, turn ps i = some k → (1 + i) % 2 ^ 32 = k + 1 := by
  constructor
  · intro step i k at_
    obtain ⟨p,found,carries,rfl⟩ := turn_eq_some.mp at_
    have inside : i < ps.length := (List.getElem?_eq_some_iff.mp found).1
    obtain ⟨multiple,few⟩ := step i p.length (by simp [found]) (by simpa using carries)
    have split := countP_zero ps i (Nat.le_of_lt inside)
    rw [countP_nonzero] at few
    omega
  · intro turns i n found carries
    obtain ⟨p,foundP,rfl⟩ : ∃ p, ps[i]? = some p ∧ p.length = n := by simpa using found
    have inside : i < ps.length := (List.getElem?_eq_some_iff.mp foundP).1
    have at_ := turns i _ (turn_eq_some.mpr ⟨p,foundP,by simpa using carries,rfl⟩)
    have split := countP_zero ps i (Nat.le_of_lt inside)
    rw [countP_nonzero]
    omega

theorem inStep_few {ps : List (List UInt8)} (step : InStep (ps.map List.length)) : (chunks ps).length < 2 ^ 32 := by
  grind [chunks_length,exists_turn,inStep_iff]

section
variable (connect : Table ConnID Session → UploadFrame → Table ConnID Session × Nat) (c : ConnID) (target : List UInt8)

def Delivered (ps : List (List UInt8)) (arrived : List Nat) (n : Nat) (pool : Table ConnID Session)
    (out : List UInt8) : Prop :=
  ∃ sess, pool.lookup c = some sess ∧ Held (chunks ps) (arrived.filterMap (turn ps)) n sess ∧
    Missing (arrived.filterMap (turn ps)) n ∧ out = ((chunks ps).take n).flatten

theorem delivered_established (ps : List (List UInt8)) : Delivered c ps [] 0 (established c) [] := by
  refine ⟨Session.fresh,AList.lookup_insert _,⟨rfl,rfl,?_⟩,⟨by omega,by simp⟩,by simp⟩
  simp [Session.fresh]

variable {ops : List Op} {i n : Nat} {p plain : List UInt8} {ps : List (List UInt8)}
variable {arrived order lengths : List Nat}

theorem frame_parse (found : (ops.map Op.payload)[i]? = some p) :
    parseUploadFrame ((frames c target ops).getD i []) = .ok ⟨c,(1 + i) % 2 ^ 32,[],p⟩ := by
  obtain ⟨op,foundOp,rfl⟩ : ∃ op, ops[i]? = some op ∧ op.payload = p := by simpa using found
  have frame : (frames c target ops)[i]? = some (send ⟨c,target,1⟩ (1 + i) op.payload) := by
    rw [frames,frames_getElem?,foundOp]
    rfl
  grind [send,parse_build]

theorem handle_empty (pool : Table ConnID Session) {f : UploadFrame}
    (parsed : parseUploadFrame plain = .ok f) (empty : f.payload = []) (bare : f.target = []) :
    (handleUpload connect pool plain).1 = pool ∧ (handleUpload connect pool plain).2.wrote = [] := by
  grind [handleUpload]

variable {pool : Table ConnID Session}

theorem handle_chunk {k : Nat} (few : (chunks ps).length < 2 ^ 32)
    (inside : ∀ k ∈ arrived.filterMap (turn ps), k < (chunks ps).length)
    (delivered : Delivered c ps arrived n pool (((chunks ps).take n).flatten))
    (room : ((arrived.filterMap (turn ps)).filter (fun k => n < k)).length < reorderBufMax)
    (new : k ∉ arrived.filterMap (turn ps)) (at_ : turn ps i = some k) (found : ps[i]? = some p)
    (parsed : parseUploadFrame plain = .ok ⟨c,k + 1,[],p⟩) :
    ∃ m, Delivered c ps (arrived ++ [i]) m (handleUpload connect pool plain).1
      (((chunks ps).take n).flatten ++ (handleUpload connect pool plain).2.wrote) := by
  obtain ⟨sess,lookup,held,missing,_⟩ := delivered
  have chunk : (chunks ps)[k]? = some p := (turn_chunk at_).trans found
  obtain ⟨m,missing',held',error,wrote⟩ := deliver_correct few inside missing held new chunk
    (fun _ => Nat.lt_of_le_of_lt (held_size missing.first held) room)
  obtain ⟨_,found',carries,_⟩ := turn_eq_some.mp at_
  have bytes : p ≠ [] := by
    rw [found] at found'
    rw [Option.some.inj found']
    exact carries
  have extended : (arrived ++ [i]).filterMap (turn ps) = arrived.filterMap (turn ps) ++ [k] := by
    simp [at_]
  have step : handleUpload connect pool plain =
      (pool.insert c { (deliverInOrder sess (k + 1) p).session with
        bytesUp := (deliverInOrder sess (k + 1) p).session.bytesUp + p.length },
        ⟨200,(deliverInOrder sess (k + 1) p).wrote⟩) := by
    simp [handleUpload,parsed,lookup,bytes,error]
  rw [step]
  refine ⟨m,_,AList.lookup_insert _,?_,?_,wrote⟩
  · rw [extended]
    exact ⟨held'.writable,held'.next,held'.buffered⟩
  · rw [extended]
    exact missing'

theorem waiting_chunks
    (missing : Missing (arrived.filterMap (turn ps)) n) :
    ((arrived.filterMap (turn ps)).filter (fun k => n < k)).length ≤ (arrived.filter (waits arrived)).length := by
  rw [← countP_eq_length_filter,← countP_eq_length_filter,countP_filterMap]
  refine countP_mono_left fun i _ later => ?_
  cases at_ : turn ps i with
  | none => simp [at_] at later
  | some k =>
    have above : n < rank ps i := by
      obtain ⟨_,_,_,rfl⟩ := turn_eq_some.mp at_
      simpa [at_] using later
    obtain ⟨j,before,first⟩ := exists_turn above
    refine any_eq_true.mpr ⟨j,mem_range.mpr before,?_⟩
    grind [missing.first]

theorem run_delivered (step : InStep ((ops.map Op.payload).map List.length))
    (arrives : Arrives ops.length order) : ∀ arrived rest, order = arrived ++ rest →
    ∃ n, Delivered c (ops.map Op.payload) arrived n
      (final (handleUpload connect) (established c) (arrivals c target ops arrived))
      (written connect (established c) (arrivals c target ops arrived)) := by
  have turns := (inStep_iff _).mp step
  have chunkTurn : ∀ i k, turn (ops.map Op.payload) i = some k → k < (chunks (ops.map Op.payload)).length := by
    intro i k at_
    obtain ⟨p,found,_⟩ := turn_eq_some.mp at_
    exact (List.getElem?_eq_some_iff.mp ((turn_chunk at_).trans found)).1
  have few := inStep_few step
  intro arrived
  -- induction over the arrived frames from the first one on, the last one being the step
  induction arrived using reverseRecOn with
  | nil =>
    intro rest _
    exact ⟨0,by simpa [arrivals,written] using delivered_established c (ops.map Op.payload)⟩
  | append_singleton arrived i ih =>
    intro rest split
    obtain ⟨n,delivered⟩ := ih (i :: rest) (by simpa using split)
    have nodup : (arrived ++ [i]).Nodup := by
      grind [arrives.perm.nodup_iff,nodup_range]
    have inside : i < ops.length := by
      have member : i ∈ order := by rw [split]; simp
      exact mem_range.mp (arrives.perm.mem_iff.mp member)
    have requests : arrivals c target ops (arrived ++ [i]) =
        arrivals c target ops arrived ++ [(frames c target ops).getD i []] := by simp [arrivals]
    obtain ⟨p,found⟩ : ∃ p, (ops.map Op.payload)[i]? = some p := ⟨_,List.getElem?_eq_getElem (by simpa using inside)⟩
    have parsed := frame_parse c target found
    rw [requests,final_append,written_append]
    simp only [final_cons,written_cons]
    generalize final (handleUpload connect) (established c) (arrivals c target ops arrived) = pool at delivered ⊢
    have output : written connect (handleUpload connect pool ((frames c target ops).getD i [])).1 [] = [] := rfl
    rw [output,append_nil]
    have same := delivered.choose_spec.2.2.2
    have missing := delivered.choose_spec.2.2.1
    rw [same] at delivered ⊢
    cases at_ : turn (ops.map Op.payload) i with
    | none =>
      have empty : p = [] := by
        by_contra carries
        have := turn_eq_some.mpr ⟨p,found,carries,rfl⟩
        simp [at_] at this
      obtain ⟨pool',wrote⟩ := handle_empty connect pool parsed empty rfl
      rw [pool',wrote,append_nil]
      have arrivedTurns : (arrived ++ [i]).filterMap (turn (ops.map Op.payload)) =
          arrived.filterMap (turn (ops.map Op.payload)) := by simp [at_]
      refine ⟨n,?_⟩
      unfold Delivered
      rw [arrivedTurns]
      exact delivered
    | some k =>
      have numbered := turns i k at_
      rw [numbered] at parsed
      refine handle_chunk connect c few ?_ delivered ?_ ?_ at_ found parsed
      · intro j member
        obtain ⟨i',_,turn'⟩ := mem_filterMap.mp member
        exact chunkTurn i' j turn'
      · exact Nat.lt_of_le_of_lt (waiting_chunks missing) (arrives.few arrived (i :: rest) (by simpa using split))
      · intro member
        obtain ⟨i',arrived',turn'⟩ := mem_filterMap.mp member
        rw [turn_injective turn' at_] at arrived'
        exact (nodup_append.mp nodup).2.2 i arrived' i (by simp) rfl

theorem delivered_all
    {out : List UInt8} (perm : order.Perm (List.range ps.length)) (delivered : Delivered c ps order n pool out) :
    n = (chunks ps).length ∧ out = ps.flatten := by
  obtain ⟨_,_,_,missing,wrote⟩ := delivered
  have all : ∀ k, k < (chunks ps).length → k ∈ order.filterMap (turn ps) := by
    grind [chunks_length,exists_turn]
  have complete : n = (chunks ps).length := by
    rcases Nat.lt_trichotomy n (chunks ps).length with less | same | greater
    · exact absurd (all n less) missing.first
    · exact same
    · obtain ⟨i,_,at_⟩ := mem_filterMap.mp (missing.before _ greater)
      obtain ⟨p,found,_⟩ := turn_eq_some.mp at_
      have := (List.getElem?_eq_some_iff.mp ((turn_chunk at_).trans found)).1
      omega
  refine ⟨complete,?_⟩
  rw [wrote,complete,take_length,chunks_flatten]

theorem handle_wrote (pool : Table ConnID Session) (plain : List UInt8) :
    (handleUpload connect pool plain).2.wrote = [] ∨
      ∃ f rest, parseUploadFrame plain = .ok f ∧ f.payload ≠ [] ∧
        (handleUpload connect pool plain).2.wrote = f.payload ++ rest := by
  unfold handleUpload
  cases parsed : parseUploadFrame plain with
  | error message => exact .inl rfl
  | ok f =>
    grind [deliverInOrder]

theorem handle_other {seq : Nat} {sess : Session}
    (parsed : parseUploadFrame plain = .ok ⟨c,seq,[],p⟩) (lookup : pool.lookup c = some sess)
    (other : seq = 0 ∨ seq ≠ sess.reorderNext) : (handleUpload connect pool plain).2.wrote = [] := by
  unfold handleUpload
  grind [deliverInOrder]

/-- The first byte that a run writes is the first byte of one of its frames: a
    frame that waited only follows one that came. -/
theorem written_head {b : UInt8} : ∀ (plains : List (List UInt8)) (pool : Table ConnID Session),
    (∀ plain ∈ plains, ∀ f, parseUploadFrame plain = .ok f → ∀ x ∈ f.payload, x = b) →
    ∀ x ∈ (written connect pool plains).head?, x = b := by
  intro plains
  induction plains with
  | nil => intro pool _ x first; simp [written] at first
  | cons plain rest ih =>
    intro pool uniform x first
    rw [written_cons] at first
    rcases handle_wrote connect pool plain with nothing | ⟨f,more,parsed,carries,wrote⟩
    · grind
    · obtain ⟨y,ys,payload⟩ := exists_cons_of_ne_nil carries
      grind

theorem arrives_range (n : Nat) : Arrives n (List.range n) := by
  refine ⟨List.Perm.refl _,?_⟩
  intro arrived rest split
  have initial : arrived = List.range arrived.length := by
    grind [take_left]
  have none : arrived.filter (waits arrived) = [] := by
    refine filter_eq_nil_iff.mpr fun i member => ?_
    grind [waits]
  rw [none]
  decide

def marked (lengths : List Nat) (i : Nat) : List Op :=
  lengths.mapIdx (fun j n => .write (List.replicate n (if j = i then 1 else 0)))

theorem marked_payload (lengths : List Nat) (i j : Nat) : ((marked lengths i).map Op.payload)[j]? =
    (lengths[j]?).map (fun n => replicate n (if j = i then (1 : UInt8) else 0)) := by
  simp only [marked,List.getElem?_map,List.getElem?_mapIdx,Option.map_map]
  rfl

theorem marked_lengths (lengths : List Nat) (i : Nat) :
    ((marked lengths i).map Op.payload).map List.length = lengths := by
  refine ext_getElem? fun j => ?_
  rw [List.getElem?_map,marked_payload]
  cases lengths[j]? <;> simp

theorem marked_others (absent : i ∉ order) :
    ∀ plain ∈ arrivals c target (marked lengths i) order, ∀ f, parseUploadFrame plain = .ok f →
      ∀ x ∈ f.payload, x = 0 := by
  intro plain member f parsed x carried
  obtain ⟨j,listed,rfl⟩ := mem_map.mp member
  have other : j ≠ i := fun same => absent (same ▸ listed)
  cases found : lengths[j]? with
  | none =>
    grind [frames,marked,frames_getElem?,parseUploadFrame]
  | some n =>
    have payload : ((marked lengths i).map Op.payload)[j]? = some (replicate n 0) := by
      rw [marked_payload,found,if_neg other]
      rfl
    rw [frame_parse c target payload] at parsed
    grind

theorem arrivals_append (ops : List Op) (first : List Nat) (i : Nat) (rest : List Nat) :
    arrivals c target ops (first ++ i :: rest) =
      arrivals c target ops first ++ (frames c target ops).getD i [] :: arrivals c target ops rest := by
  simp [arrivals]

/-- After the first `i` frames, sent in step and arrived in order, the session
    waits for the next chunk and has written all before it. -/
theorem run_before (inside : i ≤ ops.length)
    (step : InStep (((ops.take i).map Op.payload).map List.length)) :
    ∃ sess, (final (handleUpload connect) (established c) (arrivals c target ops (List.range i))).lookup c = some sess ∧
      sess.reorderNext = (rank (ops.map Op.payload) i + 1) % 2 ^ 32 ∧ rank (ops.map Op.payload) i < 2 ^ 32 ∧
      written connect (established c) (arrivals c target ops (List.range i)) =
        ((ops.map Op.payload).take i).flatten := by
  have length : (ops.take i).length = i := by simp [inside]
  have requests : arrivals c target (ops.take i) (List.range i) = arrivals c target ops (List.range i) := by
    refine map_congr_left fun j member => ?_
    grind [frames,frames_getElem?]
  have arrives : Arrives (ops.take i).length (List.range i) := length.symm ▸ arrives_range i
  obtain ⟨n,delivered⟩ := run_delivered connect c target step arrives (List.range i) [] (by simp)
  rw [requests] at delivered
  obtain ⟨all,wrote⟩ := delivered_all c (by simp [inside]) delivered
  obtain ⟨sess,lookup,held,_⟩ := delivered
  have few := inStep_few step
  have count : n = rank (ops.map Op.payload) i := by
    rw [all,chunks_length,rank,rank,take_length,map_take]
  refine ⟨sess,lookup,count ▸ held.next,?_,?_⟩
  · omega
  · rw [wrote,map_take]

/-- The first frame out of step is lost: in the order of sending, nothing is
    written at its turn, and its bytes do not come next. -/
theorem inStep_of_exact
    (exact_ : written connect (established c)
        (arrivals c target (marked lengths i) (List.range (marked lengths i).length)) =
      ((marked lengths i).map Op.payload).flatten)
    (before : InStep (lengths.take i)) (found : lengths[i]? = some n) (carries : n ≠ 0) :
    (lengths.take i).countP (fun n => n = 0) % 2 ^ 32 = 0 ∧ (lengths.take i).countP (fun n => n ≠ 0) + 1 < 2 ^ 32 := by
  have inside : i < (marked lengths i).length := by
    have := (List.getElem?_eq_some_iff.mp found).1
    simpa [marked] using this
  have foundP : ((marked lengths i).map Op.payload)[i]? = some (replicate n 1) := by
    rw [marked_payload,found]
    simp
  have early : InStep ((((marked lengths i).take i).map Op.payload).map List.length) := by
    rwa [map_take,map_take,marked_lengths]
  obtain ⟨sess,lookup,next,few,wrote⟩ := run_before connect c target (Nat.le_of_lt inside) early
  have split := countP_zero ((marked lengths i).map Op.payload) i (by simpa using Nat.le_of_lt inside)
  have carrying := countP_nonzero ((marked lengths i).map Op.payload) i
  rw [marked_lengths] at split carrying
  by_contra outOfStep
  have other : (1 + i) % 2 ^ 32 = 0 ∨ (1 + i) % 2 ^ 32 ≠ sess.reorderNext := by omega
  have nothing := handle_other connect c (frame_parse c target foundP) lookup other
  have order : List.range (marked lengths i).length =
      List.range i ++ i :: (List.range (marked lengths i).length).drop (i + 1) := by
    conv_lhs => rw [← take_append_drop i (List.range (marked lengths i).length)]
    rw [take_range,Nat.min_eq_left (Nat.le_of_lt inside),drop_eq_getElem_cons (by simpa using inside)]
    simp
  have payloads : ((marked lengths i).map Op.payload).flatten = (((marked lengths i).map Op.payload).take i).flatten ++
      (replicate n 1 ++ (((marked lengths i).map Op.payload).drop (i + 1)).flatten) := by
    conv_lhs => rw [← take_append_drop i ((marked lengths i).map Op.payload)]
    grind [drop_eq_getElem_cons,flatten_append,Option.some.inj]
  have later : i ∉ (List.range (marked lengths i).length).drop (i + 1) := by
    rw [range_eq_range',drop_range']
    simp only [mem_range'_1]
    omega
  rw [order,arrivals_append,written_append,written_cons,wrote,nothing,nil_append,payloads] at exact_
  have rest := append_cancel_left exact_
  obtain ⟨m,rfl⟩ := Nat.exists_eq_succ_of_ne_zero carries
  have first := written_head connect _ _ (marked_others c target later) 1 (by rw [rest]; simp [replicate_succ])
  exact absurd first (by decide)

theorem upload_exact_iff (lengths : List Nat) :
    (∀ ops : List Op, (ops.map Op.payload).map List.length = lengths → ∀ order, Arrives ops.length order →
        written connect (established c) (arrivals c target ops order) = (ops.map Op.payload).flatten) ↔
      InStep lengths := by
  constructor
  · intro exact_ i
    induction i using Nat.strong_induction_on with
    | _ i ih =>
      intro n found carries
      refine inStep_of_exact connect c target (exact_ _ (marked_lengths lengths i) _ (arrives_range _)) ?_ found carries
      intro j m foundJ carriesJ
      rw [List.getElem?_take] at foundJ
      by_cases earlier : j < i
      · rw [if_pos earlier] at foundJ
        rw [take_take,Nat.min_eq_left (Nat.le_of_lt earlier)]
        exact ih j earlier m foundJ carriesJ
      · simp [earlier] at foundJ
  · intro step ops same order arrives
    subst same
    obtain ⟨n,delivered⟩ := run_delivered connect c target step arrives order [] (by simp)
    exact (delivered_all c (by simpa using arrives.perm) delivered).2

end

/-- Every sequence of writes reaches the target as it was written. -/
def UploadExact : Prop :=
  ∀ (connect : Table ConnID Session → UploadFrame → Table ConnID Session × Nat) (c : ConnID) (target : List UInt8)
    (ops : List Op) (order : List Nat), Arrives ops.length order →
    written connect (established c) (arrivals c target ops order) = (ops.map Op.payload).flatten

/-- An empty write between two others: the second never reaches the target. -/
theorem upload_not_exact : ¬ UploadExact := by
  intro exact_
  have whole := exact_ (fun pool _ => (pool,404)) ⟨replicate 16 0,rfl⟩ [] [.write [97],.write [],.write [98]]
    [0,1,2] (arrives_range 3)
  exact absurd whole (by decide)

end TunnelCat.Upload
