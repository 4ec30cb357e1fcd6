import Mathlib.Algebra.Order.Group.Multiset
import Mathlib.Tactic.Abel
import TunnelCat.Reconnects

/-!
The uploads of a client that keeps several frames under way (`snc/core/session.go`), and the exit that puts
them in order (`snc-exit/sessions.go`, `handler.go`). The exit answers a frame that is early as soon as it has
buffered it, so the slots of `Write` do not bound how far the client gets ahead.
-/
namespace TunnelCat.Pipeline
open Egress Frames Goroutines Reconnects Reorder Runs List Option

def tunnelPipelineWidth : Nat := 8

/-- A connection that `Dial` has established: the client's counter, the slots in use and
    whether a send has failed; the frames that have not reached the exit; the handlers there;
    and the answers that have not reached the client. -/
structure Net where
  seq : Nat
  slots : Nat
  pipeErr : Bool
  wire : List UploadFrame
  exit : Pool Exit Point
  replies : List Nat

def established : Net := ⟨1,0,false,[],⟨⟨[.fresh],some 0,[],[],[]⟩,[]⟩,[]⟩

inductive Event
  | write (p : List UInt8)
  | arrive (k : Nat) (a : Attempt)
  | run (k : Nat)
  | ack (k : Nat)
  | reset

def Net.ready (n : Net) : Bool := !n.pipeErr && n.slots < tunnelPipelineWidth

def frame (connID : ConnID) (seq : Nat) (p : List UInt8) : UploadFrame := ⟨connID,seq % 2 ^ 32,[],p⟩

def statuses (shown : List Shown) : List Nat :=
  shown.filterMap (fun o => match o with
    | .answered status => some status
    | .failed _ => none)

variable (S : Strings) (connID : ConnID)

def step (n : Net) : Event → Net × List Shown
  | .write p =>
    if n.ready then ({ n with seq := n.seq + 1, slots := n.slots + 1, wire := n.wire ++ [frame connID n.seq p] },[])
    else (n,[])
  | .arrive k a =>
    match n.wire[k]? with
    | none => (n,[])
    | some f => ({ n with wire := n.wire.eraseIdx k, exit := (Reconnects.step S n.exit (.request a f)).1 },[])
  | .run k =>
    let ran := Reconnects.step S n.exit (.run k)
    ({ n with exit := ran.1, replies := n.replies ++ statuses ran.2 },ran.2)
  | .ack k =>
    match n.replies[k]? with
    | none => (n,[])
    | some status =>
      ({ n with replies := n.replies.eraseIdx k, slots := n.slots - 1, pipeErr := n.pipeErr || status ≠ 200 },[])
  | .reset => ({ n with exit := (Reconnects.step S n.exit (.reset 0)).1 },[])

def full : Shown → Bool
  | .failed (.bufferFull _ _) => true
  | _ => false

/-- A frame gets a number of 32 bits, at most `reorderBufMax` above the one that the exit waits
    for. -/
def InReach (n : Net) : Event → Prop
  | .write _ => n.ready = true → n.seq < 2 ^ 32 ∧ ∀ s ∈ n.exit.state.sessions, n.seq ≤ s.reorderNext + reorderBufMax
  | _ => True

instance InReach.decidable (n : Net) : ∀ i, Decidable (InReach n i)
  | .write _ => inferInstanceAs (Decidable (n.ready = true → _))
  | .arrive _ _ => isTrue trivial
  | .run _ => isTrue trivial
  | .ack _ => isTrue trivial
  | .reset => isTrue trivial

variable {t : Table Nat (List UInt8)}

theorem key_of_lookup {n : Nat} {data : List UInt8} (found : t.lookup n = some data) :
    n ∈ t.keys := AList.mem_keys.mp (AList.lookup_isSome.mp (by simp [found]))

theorem not_key_of_lookup {n : Nat} (missing : t.lookup n = none) : n ∉ t.keys := by
  grind [AList.lookup_isSome,AList.mem_keys]

theorem drain_numbers (fuel : Nat) : ∀ (s : Session) (a : Nat), s.reorderNext = a % 2 ^ 32 → a ≤ 2 ^ 32 →
    (∀ y ∈ s.reorderBuf.keys, a ≤ y ∧ y < 2 ^ 32) → s.reorderBuf.size ≤ fuel →
    ∃ m, a ≤ m ∧ m ≤ 2 ^ 32 ∧ (drain fuel s).session.reorderNext = m % 2 ^ 32 ∧
      (drain fuel s).session.reorderBuf.keys.Sublist s.reorderBuf.keys ∧
      (∀ y, a ≤ y → y < m → y ∈ s.reorderBuf.keys) ∧ ∀ y ∈ (drain fuel s).session.reorderBuf.keys, m < y := by
  -- the loop ends where nothing waits under the next number
  have stop : ∀ (s : Session) (a : Nat), s.reorderNext = a % 2 ^ 32 → a ≤ 2 ^ 32 →
      (∀ y ∈ s.reorderBuf.keys, a ≤ y ∧ y < 2 ^ 32) → s.reorderNext ∉ s.reorderBuf.keys →
      ∀ y ∈ s.reorderBuf.keys, a < y := by
    grind
  induction fuel with
  | zero =>
    intro s a next few range size
    have empty : s.reorderBuf.keys = [] := eq_nil_of_length_eq_zero (by rw [← Table.size_eq]; omega)
    refine ⟨a,le_refl a,few,next,List.Sublist.refl _,fun y low high => by omega,?_⟩
    exact stop s a next few range (by simp [empty])
  | succ fuel ih =>
    intro s a next few range size
    cases found : s.reorderBuf.lookup s.reorderNext with
    | none =>
      rw [show drain (fuel + 1) s = ⟨s,[],none⟩ by simp [drain,found]]
      refine ⟨a,le_refl a,few,next,List.Sublist.refl _,fun y low high => by omega,?_⟩
      exact stop s a next few range (not_key_of_lookup found)
    | some data =>
      have member := key_of_lookup found
      have inside : a < 2 ^ 32 := by
        have := range _ member
        omega
      rw [Nat.mod_eq_of_lt inside] at next
      have erased : (s.reorderBuf.erase s.reorderNext).keys.Sublist s.reorderBuf.keys := by
        rw [AList.keys_erase]
        exact erase_sublist
      have later : ∀ y ∈ (s.reorderBuf.erase s.reorderNext).keys, a < y ∧ y < 2 ^ 32 := by
        grind [AList.keys_erase,s.reorderBuf.keys_nodup.mem_erase_iff]
      by_cases failed : data ≠ [] ∧ s.writable = false
      · rw [show drain (fuel + 1) s =
          ⟨{ s with reorderBuf := s.reorderBuf.erase s.reorderNext },[],some .writeFailed⟩ by simp [drain,found,failed]]
        exact ⟨a,le_refl a,few,by rw [Nat.mod_eq_of_lt inside]; exact next,erased,fun y low high => by omega,
          fun y still => (later y still).1⟩
      · let taken : Session :=
          { s with reorderBuf := s.reorderBuf.erase s.reorderNext, reorderNext := (s.reorderNext + 1) % 2 ^ 32 }
        have session : (drain (fuel + 1) s).session = (drain fuel taken).session := by
          simp only [drain,found,failed,if_false,taken]
        have smaller := Table.size_erase found
        obtain ⟨m,from_,upto,next',sub,between,above⟩ := ih taken (a + 1) (by simp only [taken,next]) (by omega)
          (fun y still => later y still) (by simp only [taken]; omega)
        rw [session]
        refine ⟨m,by omega,upto,next',sub.trans erased,?_,above⟩
        intro y low high
        rcases Nat.eq_or_lt_of_le low with rfl | after
        · rw [← next]
          exact member
        · exact erased.subset (between y after high)

structure Ahead (s : Session) : Prop where
  word : s.reorderNext < 2 ^ 32
  later : ∀ y ∈ s.reorderBuf.keys, s.reorderNext < y ∧ y < 2 ^ 32

theorem deliver_numbers {s : Session} (ahead : Ahead s) {x : Nat} (payload : List UInt8) (notPast : s.reorderNext ≤ x)
    (new : x ∉ s.reorderBuf.keys) :
    ((deliverInOrder s x payload).session = s) ∨
    (s.reorderNext < x ∧ (deliverInOrder s x payload).session.reorderNext = s.reorderNext ∧
      (deliverInOrder s x payload).session.reorderBuf.keys = x :: s.reorderBuf.keys) ∨
    (x = s.reorderNext ∧ ∃ m, x < m ∧ m ≤ 2 ^ 32 ∧ (deliverInOrder s x payload).session.reorderNext = m % 2 ^ 32 ∧
      (deliverInOrder s x payload).session.reorderBuf.keys.Sublist s.reorderBuf.keys ∧
      (∀ y, x < y → y < m → y ∈ s.reorderBuf.keys) ∧
      ∀ y ∈ (deliverInOrder s x payload).session.reorderBuf.keys, m < y) := by
  have word := ahead.word
  unfold deliverInOrder
  rw [if_neg (Nat.not_lt.mpr notPast)]
  split
  · grind [AList.keys_insert,erase_of_not_mem]
  · have now : x = s.reorderNext := by omega
    split
    · exact .inl rfl
    · refine .inr (.inr ⟨now,?_⟩)
      obtain ⟨m,from_,upto,next,sub,between,above⟩ := drain_numbers s.reorderBuf.size
        { s with reorderNext := (s.reorderNext + 1) % 2 ^ 32 } (s.reorderNext + 1) rfl (by omega)
        (fun y waits => ahead.later y waits) (le_refl _)
      exact ⟨m,by omega,upto,next,sub,fun y low high => between y (by omega) high,above⟩

theorem drain_error (fuel : Nat) (s : Session) (next arrived : Nat) :
    (drain fuel s).error ≠ some (.bufferFull next arrived) := by
  induction fuel generalizing s with
  | zero => simp [drain]
  | succ fuel ih =>
    grind [drain]

theorem deliver_room {s : Session} {x : Nat} (payload : List UInt8) (next arrived : Nat) (new : x ∉ s.reorderBuf.keys)
    (reach : ∀ y ∈ x :: s.reorderBuf.keys, y ≤ s.reorderNext + reorderBufMax)
    (later : ∀ y ∈ s.reorderBuf.keys, s.reorderNext < y) :
    (deliverInOrder s x payload).error ≠ some (.bufferFull next arrived) := by
  unfold deliverInOrder
  split
  · simp
  · split
    · rename_i early
      have listed : x :: s.reorderBuf.keys ⊆ List.range' (s.reorderNext + 1) reorderBufMax := by
        grind
      have distinct : (x :: s.reorderBuf.keys).Nodup := nodup_cons.mpr ⟨new,s.reorderBuf.keys_nodup⟩
      have few := (subperm_of_subset distinct listed).length_le
      rw [length_cons,length_range',← Table.size_eq] at few
      rw [if_neg (by omega)]
      simp
    · split
      · simp
      · exact drain_error _ _ _ _

def number : Point → Option Nat
  | .handle _ f => some f.seq
  | .deliver _ seq _ => some seq
  | _ => none

def underWay (n : Net) (s : Session) : Multiset Nat :=
  (n.wire.map UploadFrame.seq : Multiset Nat) + (n.exit.running.filterMap number : Multiset Nat) + (s.reorderBuf.keys : Multiset Nat)

def Uploads : Point → Prop
  | .handle _ _ => True
  | .deliver k _ _ => k = 0
  | .close => True
  | .addBytesUp _ => True
  | _ => False

structure Within (n : Net) (s : Session) : Prop where
  session : n.exit.state.sessions = [s]
  current : ∀ j, n.exit.state.current = some j → j = 0
  handlers : ∀ t ∈ n.exit.running, Uploads t
  nodup : (underWay n s).Nodup
  range : ∀ x ∈ underWay n s, 0 < x ∧ x < n.seq ∧ s.reorderNext ≤ x ∧ x ≤ s.reorderNext + reorderBufMax
  later : ∀ y ∈ s.reorderBuf.keys, s.reorderNext < y
  word : s.reorderNext < 2 ^ 32
  sent : s.reorderNext ≤ n.seq
  few : 0 < n.seq ∧ n.seq ≤ 2 ^ 32

theorem within_established : Within established .fresh where
  session := rfl
  current j now := (Option.some.inj now).symm
  handlers := by simp [established]
  nodup := by simp [underWay,established,Session.fresh]
  range := by simp [underWay,established,Session.fresh]
  later := by simp [Session.fresh]
  word := by decide
  sent := by decide
  few := by decide

section
variable {n n' : Net} {s s' : Session}

theorem Within.ahead (within : Within n s) : Ahead s := by
  refine ⟨within.word,fun y waits => ⟨within.later y waits,?_⟩⟩
  have inside := within.range y (Multiset.mem_add.mpr (.inr waits))
  have few := within.few
  omega

theorem Within.less (within : Within n s) (session : n'.exit.state.sessions = [s'])
    (current : ∀ j, n'.exit.state.current = some j → n.exit.state.current = some j)
    (handlers : ∀ t ∈ n'.exit.running, Uploads t) (sub : underWay n' s' ≤ underWay n s) (seq : n'.seq = n.seq)
    (next : s'.reorderNext = s.reorderNext) (later : ∀ y ∈ s'.reorderBuf.keys, s.reorderNext < y) : Within n' s' where
  session := session
  current j now := within.current j (current j now)
  handlers := handlers
  nodup := Multiset.nodup_of_le sub within.nodup
  range := by
    intro x member
    rw [seq,next]
    exact within.range x (Multiset.mem_of_le sub member)
  later := by
    rw [next]
    exact later
  word := next ▸ within.word
  sent := by
    rw [next,seq]
    exact within.sent
  few := seq ▸ within.few

theorem Within.write (within : Within n s) (connID : ConnID) (p : List UInt8) (small : n.seq < 2 ^ 32)
    (reach : n.seq ≤ s.reorderNext + reorderBufMax) :
    Within { n with seq := n.seq + 1, slots := n.slots + 1, wire := n.wire ++ [frame connID n.seq p] } s := by
  have own : (frame connID n.seq p).seq = n.seq := Nat.mod_eq_of_lt small
  have more : underWay { n with seq := n.seq + 1, slots := n.slots + 1, wire := n.wire ++ [frame connID n.seq p] } s =
      n.seq ::ₘ underWay n s := by
    simp only [underWay,map_append,map_cons,map_nil,own,← Multiset.coe_add,← Multiset.singleton_add]
    rw [Multiset.coe_singleton]
    abel
  have few := within.few
  have sent := within.sent
  refine ⟨within.session,within.current,within.handlers,?_,?_,within.later,within.word,by simp only; omega,by simp only; omega⟩
  · grind [Multiset.nodup_cons,within.nodup,within.range]
  · rw [more]
    intro x member
    simp only
    rcases Multiset.mem_cons.mp member with rfl | old
    · omega
    · have := within.range x old
      omega

variable {f : UploadFrame} {t : Point} {next : Option Point} {e : Exit}

theorem Within.arrive (within : Within n s) {k : Nat} (there : n.wire[k]? = some f) (a : Attempt) :
    Within { n with wire := n.wire.eraseIdx k, exit := n.exit.start [.handle a f] } s := by
  obtain ⟨inside,rfl⟩ := List.getElem?_eq_some_iff.mp there
  refine within.less within.session (fun _ now => now) ?_ (le_of_eq ?_) rfl rfl within.later
  · intro t member
    rcases mem_append.mp member with old | new
    · exact within.handlers t old
    · rw [mem_singleton.mp new]
      trivial
  · have moved : (n.wire.map UploadFrame.seq : Multiset Nat) =
        {n.wire[k].seq} + ((n.wire.eraseIdx k).map UploadFrame.seq : Multiset Nat) := by
      rw [Multiset.singleton_add,Multiset.cons_coe,Multiset.coe_eq_coe]
      exact ((getElem_cons_eraseIdx_perm inside).map UploadFrame.seq).symm
    simp only [underWay,moved,Pool.start,filterMap_append,filterMap_cons,filterMap_nil,number,
      ← Multiset.coe_add,Multiset.coe_singleton]
    abel

theorem underWay_ran (next : Option Point) {others : List Point} (perm : n.exit.running.Perm (next.toList ++ others)) :
    underWay n s = (n.wire.map UploadFrame.seq : Multiset Nat) + (others.filterMap number : Multiset Nat) +
      (((next.bind number).toList : Multiset Nat) + (s.reorderBuf.keys : Multiset Nat)) := by
  have numbers : (n.exit.running.filterMap number).Perm ((next.bind number).toList ++ others.filterMap number) := by
    refine (perm.filterMap number).trans ?_
    cases next with
    | none => exact List.Perm.refl _
    | some t => cases found : number t <;> simp [found]
  rw [underWay,Multiset.coe_eq_coe.mpr numbers,← Multiset.coe_add]
  abel

variable {others running : List Point} {replies : List Nat}

theorem Within.ran (within : Within n s)
    (before : n.exit.running.Perm (t :: others)) (after : running.Perm (next.toList ++ others))
    (ready : ∀ t' ∈ next, Uploads t') (session : e.sessions = [s'])
    (current : ∀ j, e.current = some j → n.exit.state.current = some j)
    (sub : ((next.bind number).toList : Multiset Nat) + (s'.reorderBuf.keys : Multiset Nat) ≤
      ((number t).toList : Multiset Nat) + (s.reorderBuf.keys : Multiset Nat))
    (same : s'.reorderNext = s.reorderNext) (later : ∀ y ∈ s'.reorderBuf.keys, s.reorderNext < y) :
    Within { n with exit := ⟨e,running⟩, replies := replies } s' := by
  refine within.less session current ?_ ?_ rfl same later
  · grind [within.handlers]
  · rw [underWay_ran _ after,underWay_ran (some t) before]
    exact add_le_add_right sub _

theorem Within.turned (within : Within n s)
    {m : Nat} (before : n.exit.running.Perm (t :: others))
    (after : running.Perm (next.toList ++ others)) (own : number t = some s.reorderNext) (done : next.bind number = none)
    (ready : ∀ t' ∈ next, Uploads t') (session : e.sessions = [s'])
    (current : ∀ j, e.current = some j → n.exit.state.current = some j) (from_ : s.reorderNext < m) (upto : m ≤ 2 ^ 32)
    (turn : s'.reorderNext = m % 2 ^ 32) (sub : s'.reorderBuf.keys.Sublist s.reorderBuf.keys)
    (between : ∀ y, s.reorderNext < y → y < m → y ∈ s.reorderBuf.keys) (above : ∀ y ∈ s'.reorderBuf.keys, m < y) :
    Within { n with exit := ⟨e,running⟩, replies := replies } s' := by
  set rest : Multiset Nat := (n.wire.map UploadFrame.seq : Multiset Nat) + (others.filterMap number : Multiset Nat) with rest_
  have was : underWay n s = s.reorderNext ::ₘ (rest + (s.reorderBuf.keys : Multiset Nat)) := by
    rw [underWay_ran (some t) before,bind_some,own,toList_some,Multiset.coe_singleton,
      ← Multiset.singleton_add,rest_]
    abel
  have is_ : underWay { n with exit := ⟨e,running⟩, replies := replies } s' = rest + (s'.reorderBuf.keys : Multiset Nat) := by
    rw [underWay_ran _ after,done,toList_none,Multiset.coe_nil,zero_add]
  have less : rest + (s'.reorderBuf.keys : Multiset Nat) ≤ rest + (s.reorderBuf.keys : Multiset Nat) :=
    add_le_add_right (Multiset.coe_le.mpr sub.subperm) _
  have distinct := within.nodup
  rw [was,Multiset.nodup_cons] at distinct
  obtain ⟨gone,distinct⟩ := distinct
  -- what is still under way comes after the numbers that were written
  have beyond : ∀ x ∈ rest + (s'.reorderBuf.keys : Multiset Nat), m ≤ x ∧ 0 < x ∧ x < n.seq ∧ x ≤ s.reorderNext + reorderBufMax := by
    intro x member
    have still := Multiset.mem_of_le less member
    obtain ⟨pos,small,low,reach⟩ := within.range x (was ▸ Multiset.mem_cons_of_mem still)
    by_contra early
    have notThis : x ≠ s.reorderNext := fun same => gone (same ▸ still)
    have waited := between x (by omega) (by omega)
    rcases Multiset.mem_add.mp member with elsewhere | waits
    · exact Multiset.disjoint_left.mp (Multiset.nodup_add.mp distinct).2.2 elsewhere waited
    · have := above x waits
      omega
  have few := within.few
  have sent : m ≤ n.seq := by
    by_cases one : m = s.reorderNext + 1
    · have := (within.range s.reorderNext (was ▸ Multiset.mem_cons_self _ _)).2.1
      omega
    · have last := between (m - 1) (by omega) (by omega)
      have := (within.range (m - 1) (was ▸ Multiset.mem_cons_of_mem (Multiset.mem_add.mpr (.inr last)))).2.1
      omega
  refine ⟨session,fun j now => within.current j (current j now),?_,?_,?_,?_,?_,?_,few⟩
  · intro t' member
    rcases mem_append.mp (after.mem_iff.mp member) with new | old
    · exact ready t' (mem_toList.mp new)
    · exact within.handlers t' (before.mem_iff.mpr (mem_cons_of_mem t old))
  · rw [is_]
    exact Multiset.nodup_of_le less distinct
  · rw [is_]
    intro x member
    have := beyond x member
    simp only
    omega
  · intro y waits
    have := above y waits
    omega
  · rw [turn]
    exact Nat.mod_lt _ (by decide)
  · rw [turn]
    simp only
    omega

theorem deliver_leaves {k : Nat} (x : Nat) (payload : List UInt8) (there : e.sessions[k]? = some s) :
    (deliver e k x payload).state.sessions = e.sessions.set k (deliverInOrder s x payload).session ∧
      (deliver e k x payload).state.current = e.current ∧
      (∃ t, (deliver e k x payload).next = some t ∧ number t = none ∧ Uploads t) ∧
      (deliver e k x payload).started = [] ∧
      ∀ o ∈ (deliver e k x payload).shown, ∃ error, (deliverInOrder s x payload).error = some error ∧ o = .failed error := by
  unfold deliver
  simp only [there]
  cases failed : (deliverInOrder s x payload).error with
  | none => exact ⟨rfl,rfl,⟨_,rfl,rfl,trivial⟩,rfl,fun o none_ => by cases none_⟩
  | some error => exact ⟨rfl,rfl,⟨_,rfl,rfl,trivial⟩,rfl,fun o member => ⟨error,rfl,mem_singleton.mp member⟩⟩

theorem within_deliver (within : Within n s) {x : Nat} {payload : List UInt8} (before : n.exit.running.Perm (.deliver 0 x payload :: others))
    (after : running.Perm ((deliver n.exit.state 0 x payload).next.toList ++ others)) :
    (∃ s', Within { n with exit := ⟨(deliver n.exit.state 0 x payload).state,running⟩, replies := replies } s') ∧
      ∀ o ∈ (deliver n.exit.state 0 x payload).shown, full o = false := by
  have there : n.exit.state.sessions[0]? = some s := by rw [within.session]; rfl
  have split : underWay n s = _ := underWay_ran (some (.deliver 0 x payload)) before
  have under : x ∈ underWay n s := by
    rw [split]
    simp [number]
  have new : x ∉ s.reorderBuf.keys := by
    have distinct := within.nodup
    rw [split,bind_some,number,toList_some,Multiset.coe_singleton,Multiset.singleton_add] at distinct
    exact (Multiset.nodup_cons.mp (Multiset.nodup_of_le (Multiset.le_add_left _ _) distinct)).1
  have room (next arrived : Nat) : (deliverInOrder s x payload).error ≠ some (.bufferFull next arrived) := by
    refine deliver_room payload next arrived new ?_ within.later
    intro y member
    rcases mem_cons.mp member with rfl | waits
    · exact (within.range y under).2.2.2
    · exact (within.range y (Multiset.mem_add.mpr (.inr waits))).2.2.2
  obtain ⟨sessions,current,⟨t,goes,none_,ready⟩,-,shown⟩ := deliver_leaves x payload there
  have session : (deliver n.exit.state 0 x payload).state.sessions = [(deliverInOrder s x payload).session] := by
    rw [sessions,within.session]
    rfl
  have current' : ∀ j, (deliver n.exit.state 0 x payload).state.current = some j → n.exit.state.current = some j :=
    fun j now => current ▸ now
  have ready' : ∀ t' ∈ (deliver n.exit.state 0 x payload).next, Uploads t' := by
    grind
  have done : (deliver n.exit.state 0 x payload).next.bind number = none := by rw [goes,bind_some,none_]
  constructor
  · rcases deliver_numbers within.ahead payload (within.range x under).2.2.1 new with
      same | ⟨early,next,keys⟩ | ⟨own,m,from_,upto,next,sub,between,above⟩
    · refine ⟨_,within.ran before after ready' session current' ?_ (by rw [same]) (by rw [same]; exact within.later)⟩
      rw [done,same]
      exact Multiset.le_add_left _ _
    · refine ⟨_,within.ran before after ready' session current' ?_ next ?_⟩
      · rw [done,keys,toList_none,Multiset.coe_nil,zero_add,number,toList_some,Multiset.coe_singleton,
          Multiset.singleton_add,Multiset.cons_coe]
      · rw [keys]
        intro y member
        rcases mem_cons.mp member with rfl | waits
        · exact early
        · exact within.later y waits
    · subst own
      exact ⟨_,within.turned before after rfl done ready' session current' from_ upto next sub between above⟩
  · intro o member
    obtain ⟨error,failed,rfl⟩ := shown o member
    cases error with
    | writeFailed => rfl
    | bufferFull next arrived => exact absurd failed (room next arrived)

theorem within_upload (within : Within n s) {a : Attempt} (before : n.exit.running.Perm (.handle a f :: others))
    (after : running.Perm ((upload n.exit.state f).next.toList ++ others)) :
    Within { n with exit := ⟨(upload n.exit.state f).state,running⟩, replies := replies } s ∧
      ∀ o ∈ (upload n.exit.state f).shown, full o = false := by
  have fewer : (([] : List Nat) : Multiset Nat) + (s.reorderBuf.keys : Multiset Nat) ≤
      ((number (.handle a f)).toList : Multiset Nat) + (s.reorderBuf.keys : Multiset Nat) := by
    exact Multiset.le_add_left _ _
  unfold upload at after ⊢
  cases now : n.exit.state.current with
  | none =>
    simp only [now] at after ⊢
    exact ⟨within.ran before after (fun t' none_ => by cases none_) within.session (fun _ same => same) fewer rfl within.later,
      fun o member => by rw [mem_singleton.mp member]; rfl⟩
  | some k =>
    obtain rfl := within.current k now
    simp only [now] at after ⊢
    by_cases empty : f.payload = []
    · simp only [empty] at after ⊢
      exact ⟨within.ran before after (fun t' none_ => by cases none_) within.session (fun _ same => same) fewer rfl within.later,
        fun o member => by rw [mem_singleton.mp member]; rfl⟩
    · simp only [empty] at after ⊢
      refine ⟨within.ran before after ?_ within.session (fun _ same => same) (le_refl _) rfl within.later,
        fun o none_ => by cases none_⟩
      intro t' same
      rw [← Option.some.inj same]
      rfl

theorem within_end (within : Within n s)
    (silent : number t = none) (before : n.exit.running.Perm (t :: others)) (after : running.Perm others)
    (session : e.sessions = [s']) (current : ∀ j, e.current = some j → n.exit.state.current = some j)
    (next : s'.reorderNext = s.reorderNext) (buffer : s'.reorderBuf = s.reorderBuf) :
    Within { n with exit := ⟨e,running⟩, replies := replies } s' := by
  have ends : running.Perm ((none : Option Point).toList ++ others) := after
  grind [within.ran,within.later]

variable {S : Strings} {connID : ConnID}

theorem within_run (within : Within n s) (k : Nat) (replies : List Nat) :
    (∃ s', Within { n with exit := (runAt (act S) n.exit k).1, replies := replies } s') ∧
      ∀ o ∈ (runAt (act S) n.exit k).2, full o = false := by
  cases there : n.exit.running[k]? with
  | none =>
    rw [runAt_none there]
    exact ⟨⟨s,within.less within.session (fun _ now => now) within.handlers (le_refl _) rfl rfl within.later⟩,
      fun o none_ => by cases none_⟩
  | some t =>
    obtain ⟨before,after⟩ := runAt_perm (act S) there
    have shown : (runAt (act S) n.exit k).2 = (act S n.exit.state t).shown := runAt_shown there
    have pool : (runAt (act S) n.exit k).1 = ⟨(act S n.exit.state t).state,(runAt (act S) n.exit k).1.running⟩ := by
      rw [← runAt_state there]
    rw [pool,shown]
    have uploads := within.handlers t (mem_of_getElem? there)
    cases t with
    | handle a f =>
      have pos : f.seq ≠ 0 := by
        have under : f.seq ∈ underWay n s := by
          rw [underWay_ran (some (.handle a f)) before]
          simp [number]
        exact Nat.pos_iff_ne_zero.mp (within.range f.seq under).1
      have same : act S n.exit.state (.handle a f) = upload n.exit.state f := if_neg pos
      rw [same] at after ⊢
      have alone : (upload n.exit.state f).started = [] := by
        unfold upload
        split
        · rfl
        · split <;> rfl
      rw [alone,append_nil] at after
      obtain ⟨kept,fine⟩ := within_upload within before after
      exact ⟨⟨s,kept⟩,fine⟩
    | deliver j x payload =>
      obtain rfl : j = 0 := uploads
      have there' : n.exit.state.sessions[0]? = some s := by rw [within.session]; rfl
      have alone : (act S n.exit.state (.deliver 0 x payload)).started = [] :=
        (deliver_leaves x payload there').2.2.2.1
      rw [alone,append_nil] at after
      exact within_deliver within before after
    | close =>
      obtain ⟨sessions,current⟩ : (∃ s', (close n.exit.state).sessions = [s'] ∧ s'.reorderNext = s.reorderNext ∧
          s'.reorderBuf = s.reorderBuf) ∧ (close n.exit.state).current = none := by
        grind [close,Exit.closeCurrent,within.session,Exit.closeConn]
      obtain ⟨s',session,next,buffer⟩ := sessions
      refine ⟨⟨s',within_end within rfl before (by simpa [act,answer] using after) session ?_ next buffer⟩,?_⟩
      · intro j now
        exact absurd (current.symm.trans now) (by simp)
      · intro o member
        rw [mem_singleton.mp member]
        rfl
    | addBytesUp m =>
      obtain ⟨s',session,next,buffer,current⟩ : ∃ s', (addBytesUp n.exit.state m).sessions = [s'] ∧
          s'.reorderNext = s.reorderNext ∧ s'.reorderBuf = s.reorderBuf ∧
          (addBytesUp n.exit.state m).current = n.exit.state.current := by
        grind [addBytesUp,within.session]
      refine ⟨⟨s',within_end within rfl before (by simpa [act,answer] using after) session ?_ next buffer⟩,?_⟩
      · intro j now
        exact current ▸ now
      · intro o member
        rw [mem_singleton.mp member]
        rfl
    | lookup a port => exact absurd uploads id
    | dial a port => exact absurd uploads id
    | insert => exact absurd uploads id
    | store => exact absurd uploads id

theorem step_within (within : Within n s) {i : Event} (inReach : InReach n i) :
    (∃ s', Within (step S connID n i).1 s') ∧ ∀ o ∈ (step S connID n i).2, full o = false := by
  cases i with
  | write p =>
    rw [step]
    split
    · rename_i ready
      obtain ⟨small,reach⟩ := inReach ready
      exact ⟨⟨s,within.write connID p small (reach s (by simp [within.session]))⟩,fun o none_ => by cases none_⟩
    · exact ⟨⟨s,within⟩,fun o none_ => by cases none_⟩
  | arrive k a =>
    rw [step]
    split
    · exact ⟨⟨s,within⟩,fun o none_ => by cases none_⟩
    · rename_i f there
      exact ⟨⟨s,within.arrive there a⟩,fun o none_ => by cases none_⟩
  | run k => exact within_run within k _
  | ack k =>
    rw [step]
    split
    · exact ⟨⟨s,within⟩,fun o none_ => by cases none_⟩
    · exact ⟨⟨s,within.less within.session (fun _ now => now) within.handlers (le_refl _) rfl rfl within.later⟩,
        fun o none_ => by cases none_⟩
  | reset =>
    refine ⟨⟨{ s with writable := false },?_⟩,fun o none_ => by cases none_⟩
    refine within.less ?_ (fun _ now => now) within.handlers (le_refl _) rfl rfl within.later
    simp [step,Reconnects.step,Exit.closeConn,within.session]

end

/-- In every run of a client that keeps frames under way and of the exit, in which frames are
    late by any time, in any order, and the handlers interleave: as long as no frame gets a
    number out of reach, no delivery fails because the buffer is full. -/
theorem buffer_never_full (S : Strings) (connID : ConnID) (events : List Event)
    (inReach : Along (step S connID) InReach established events) :
    ∀ shown ∈ trace (step S connID) established events, ∀ o ∈ shown, full o = false :=
  outputs_along (P := fun n => ∃ s, Within n s)
    (fun _ _ meets ⟨_,within⟩ => step_within within meets) inReach ⟨_,within_established⟩

def sendsAndDelivers (k : Nat) : List Event :=
  [.write [7],.arrive k ⟨.bare,.alone,false⟩,.run 0,.run 0,.run 0,.ack 0]

def lateRun : List Event := .write [7] :: (List.replicate 33 (sendsAndDelivers 1)).flatten

/-- The 33rd frame after one that is late finds the buffer full, with two frames under way. -/
theorem buffer_overrun : ¬ ∀ S connID events, ∀ shown ∈ trace (step S connID) established events, ∀ o ∈ shown, full o = false := by
  intro all
  have found : (trace (step .ascii Tunnel.sampleID) established lateRun).flatten.any full = true := by decide +kernel
  obtain ⟨o,member,isFull⟩ := any_eq_true.mp found
  obtain ⟨shown,during,inside⟩ := mem_flatten.mp member
  rw [all .ascii Tunnel.sampleID lateRun shown during o inside] at isFull
  cases isFull

def reorderedRun : List Event :=
  .write [7] :: (sendsAndDelivers 1 ++ sendsAndDelivers 1 ++ [.arrive 0 ⟨.bare,.alone,false⟩,.run 0,.run 0,.run 0,.ack 0])

theorem buffer_never_full_reordered : Along (step .ascii Tunnel.sampleID) InReach established reorderedRun ∧
    ∀ shown ∈ trace (step .ascii Tunnel.sampleID) established reorderedRun, ∀ o ∈ shown, full o = false := by
  have inReach : Along (step .ascii Tunnel.sampleID) InReach established reorderedRun := by decide +kernel
  exact ⟨inReach,buffer_never_full .ascii Tunnel.sampleID reorderedRun inReach⟩

end TunnelCat.Pipeline
