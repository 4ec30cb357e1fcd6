import TunnelCat.Forwarding
import TunnelCat.Goroutines

/-!
The handlers of an exit for the requests of one connection id (`snc-exit/handler.go`, `sessions.go`), step by
step. A client repeats a connect frame whose answer it did not get, while the first handler goes on. A session
that is put after frames have been given another one replaces it.
-/
namespace TunnelCat.Reconnects
open Egress Frames Goroutines Reorder Runs List
open Tunnel (text dialable)

structure Attempt where
  cfg : Config
  around : Around
  isAnon : Bool

/-- The exit, as far as one connection id is concerned: all sessions that were ever made for
    it and the one that is in the pool. Each has a connection of its own, so that a number
    stands for both. The code does not keep the last three: the sessions that frames were
    given, the frames that were accepted by a session, and what was written to its connection. -/
structure Exit where
  sessions : List Session
  current : Option Nat
  given : List Nat
  accepted : List (Nat × Nat)
  wrote : List (Nat × List UInt8)

/-- The points of a handler between which others may run: at its beginning, in `getOrCreate`
    before its first look, its dial and its second look, before `store`, and of an upload
    before the delivery, before the session is closed and before its bytes are counted. -/
inductive Point
  | handle (a : Attempt) (f : UploadFrame)
  | lookup (a : Attempt) (port : Int)
  | dial (a : Attempt) (port : Int)
  | insert
  | store
  | deliver (k seq : Nat) (payload : List UInt8)
  | close
  | addBytesUp (n : Nat)

inductive Shown
  | answered (status : Nat)
  | failed (e : DeliverError)

variable (e : Exit) (k : Nat)

def Exit.put : Exit := { e with sessions := e.sessions ++ [.fresh], current := some e.sessions.length }

def Exit.closeConn : Exit :=
  { e with sessions := e.sessions.modify k (fun s => { s with writable := false }) }

def Exit.closeCurrent : Exit :=
  match e.current with
  | none => e
  | some k => e.closeConn k

def store : Exit := e.closeCurrent.put

def close : Exit := { e.closeCurrent with current := none }

def addBytesUp (n : Nat) : Exit :=
  match e.current with
  | none => e
  | some k => { e with sessions := e.sessions.modify k (fun s => { s with bytesUp := s.bytesUp + n }) }

def answer (status : Nat) : Ran Exit Point Shown := ⟨e,none,[],[.answered status]⟩

def goto (p : Point) : Ran Exit Point Shown := ⟨e,some p,[],[]⟩

def Exit.delivered (e : Exit) (k : Nat) (d : Delivery) : Exit :=
  { e with sessions := e.sessions.set k d.session, wrote := e.wrote ++ [(k,d.wrote)] }

def Exit.accept (seq : Nat) : Exit := { e with accepted := e.accepted ++ [(k,seq)] }

def Exit.give : Exit := { e with given := e.given ++ [k] }

section
variable (S : Strings)

variable (e : Exit)

def connect (a : Attempt) (f : UploadFrame) : Ran Exit Point Shown :=
  match hostAndPort (text f.target) with
  | none => answer e 404
  | some (host, port) =>
    match route S a.cfg a.around a.isAnon host port f.payload with
    | .refused => answer e 404
    | .peer _ => goto e .store
    | .primary => goto e (.lookup a port)

def upload (f : UploadFrame) : Ran Exit Point Shown :=
  match e.current with
  | none => answer e 404
  | some k => if f.payload = [] then answer e 200 else goto (e.give k) (.deliver k f.seq f.payload)

def deliver (k seq : Nat) (payload : List UInt8) : Ran Exit Point Shown :=
  match e.sessions[k]? with
  | none => answer e 404
  | some s =>
    let d := deliverInOrder s seq payload
    match d.error with
    | some error => ⟨e.delivered k d,some .close,[],[.failed error]⟩
    | none => goto ((e.delivered k d).accept k seq) (.addBytesUp payload.length)

def act : Point → Ran Exit Point Shown
  | .handle a f => if f.seq = 0 then connect S e a f else upload e f
  | .lookup a port =>
    match e.current with
    | some _ => answer e 200
    | none => goto e (.dial a port)
  | .dial a port =>
    if dialable port && a.around.connects then goto e .insert
    else
      match fallbackPeer S a.cfg a.around with
      | some _ => goto e .store
      | none => answer e 404
  | .insert =>
    match e.current with
    | some _ => answer e 200
    | none => answer e.put 200
  | .store => answer (store e) 200
  | .deliver k seq payload => deliver e k seq payload
  | .close => answer (close e) 404
  | .addBytesUp n => answer (addBytesUp e n) 200

inductive Input
  | request (a : Attempt) (f : UploadFrame)
  | run (k : Nat)
  | reset (k : Nat)
  | evict

def step (p : Pool Exit Point) : Input → Pool Exit Point × List Shown
  | .request a f => (p.start [.handle a f],[])
  | .run k => runAt (act S) p k
  | .reset k => ({ p with state := p.state.closeConn k },[])
  | .evict => ({ p with state := close p.state },[])

end

def start : Pool Exit Point := ⟨⟨[],none,[],[],[]⟩,[]⟩

/-- The turn of a number has come, or it waits for it. The counter is 0 when it has wrapped,
    after all numbers. -/
def Has (s : Session) (n : Nat) : Prop :=
  s.reorderNext = 0 ∨ n < s.reorderNext ∨ ∃ data, s.reorderBuf.lookup n = some data

/-- All that was written went to one connection. While the pool has a session whose connection
    takes writes, it has every frame that was accepted, and no handler is about to deliver to
    another one. -/
structure Stable (p : Pool Exit Point) : Prop where
  single : ∀ w ∈ p.state.wrote, ∀ w' ∈ p.state.wrote, w.2 ≠ [] → w'.2 ≠ [] → w.1 = w'.1
  kept : ∀ k seq, (k,seq) ∈ p.state.accepted → ∀ j s, p.state.current = some j → p.state.sessions[j]? = some s →
    s.writable = true → Has s seq
  held : ∀ k seq payload, .deliver k seq payload ∈ p.running → ∀ j, p.state.current = some j → j = k

def Exit.puts : Point → Bool
  | .store => true
  | .insert => e.current.isNone
  | _ => false

/-- A session is put into the pool only before any frame has been given one. -/
def Early (p : Pool Exit Point) : Input → Prop
  | .run k => ∀ point ∈ p.running[k]?, p.state.puts point = true → p.state.given = []
  | _ => True

instance Early.decidable (p : Pool Exit Point) : ∀ i, Decidable (Early p i)
  | .run k => inferInstanceAs (Decidable (∀ point ∈ p.running[k]?, p.state.puts point = true → p.state.given = []))
  | .request _ _ => isTrue trivial
  | .reset _ => isTrue trivial
  | .evict => isTrue trivial

structure Sound (s : Session) : Prop where
  word : s.reorderNext < 2 ^ 32
  zero : s.reorderBuf.lookup 0 = none

theorem sound_fresh : Sound .fresh := ⟨by decide,by simp [Session.fresh]⟩

section
variable {s s' : Session} {n seq : Nat} {payload : List UInt8}

theorem has_turned (sound : Sound s) (pos : s.reorderNext ≠ 0) (next : s'.reorderNext = (s.reorderNext + 1) % 2 ^ 32)
    (others : ∀ n, n ≠ s.reorderNext → s'.reorderBuf.lookup n = s.reorderBuf.lookup n)
    (has : Has s n ∨ n = s.reorderNext) : Has s' n := by
  have word := sound.word
  by_cases wraps : s.reorderNext + 1 = 2 ^ 32
  · exact .inl (by rw [next,wraps,Nat.mod_self])
  by_cases own : n = s.reorderNext
  · exact .inr (.inl (by omega))
  rcases has with (wrapped | past | ⟨data,waits⟩) | same
  · exact absurd wrapped pos
  · exact .inr (.inl (by omega))
  · exact .inr (.inr ⟨data,(others n own).trans waits⟩)
  · exact absurd same own

theorem drain_keeps (fuel : Nat) (sound : Sound s) (up : s.writable = true) :
    Sound (drain fuel s).session ∧ ∀ n, Has s n → Has (drain fuel s).session n := by
  induction fuel generalizing s with
  | zero => exact ⟨sound,fun _ has => has⟩
  | succ fuel ih =>
    cases found : s.reorderBuf.lookup s.reorderNext with
    | none =>
      grind [drain]
    | some next =>
      let taken : Session :=
        { s with reorderBuf := s.reorderBuf.erase s.reorderNext, reorderNext := (s.reorderNext + 1) % 2 ^ 32 }
      have session : (drain (fuel + 1) s).session = (drain fuel taken).session := by simp [drain,found,up,taken]
      have pos : s.reorderNext ≠ 0 := by
        intro first
        rw [first,sound.zero] at found
        cases found
      have turned : Sound taken := by
        refine ⟨Nat.mod_lt _ (by decide),?_⟩
        rw [Table.lookup_erase_of,sound.zero,ite_self]
      obtain ⟨later,kept⟩ := ih turned up
      rw [session]
      refine ⟨later,fun n has => kept n (has_turned sound pos rfl ?_ (.inl has))⟩
      intro n other
      exact (Table.lookup_erase_of _ _ _).trans (if_neg other)

theorem drain_writable (fuel : Nat) (s : Session) : (drain fuel s).session.writable = s.writable := by
  induction fuel generalizing s with
  | zero => rfl
  | succ fuel ih =>
    grind [drain]

theorem deliver_writable (s : Session) (seq : Nat) (payload : List UInt8) :
    (deliverInOrder s seq payload).session.writable = s.writable := by
  grind [deliverInOrder,drain_writable]

theorem deliver_keeps (sound : Sound s) (up : s.writable = true) (pos : seq ≠ 0) :
    Sound (deliverInOrder s seq payload).session ∧
      (∀ n, Has s n → Has (deliverInOrder s seq payload).session n) ∧
      ((deliverInOrder s seq payload).error = none → Has (deliverInOrder s seq payload).session seq) := by
  rcases Nat.lt_trichotomy seq s.reorderNext with old | now | early
  · rw [show deliverInOrder s seq payload = ⟨s,[],none⟩ by simp [deliverInOrder,old]]
    exact ⟨sound,fun _ has => has,fun _ => .inr (.inl old)⟩
  · let turned : Session := { s with reorderNext := (s.reorderNext + 1) % 2 ^ 32 }
    have session : (deliverInOrder s seq payload).session = (drain s.reorderBuf.size turned).session := by
      simp [deliverInOrder,now,up,turned]
    have sound' : Sound turned := ⟨Nat.mod_lt _ (by decide),sound.zero⟩
    grind [drain_keeps,has_turned]
  · have late : ¬ seq < s.reorderNext := by omega
    by_cases full : s.reorderBuf.size ≥ reorderBufMax
    · rw [show deliverInOrder s seq payload = ⟨s,[],some (.bufferFull s.reorderNext seq)⟩ by
        simp [deliverInOrder,late,early,full]]
      exact ⟨sound,fun _ has => has,fun none_ => by cases none_⟩
    · rw [show deliverInOrder s seq payload = ⟨{ s with reorderBuf := s.reorderBuf.insert seq payload },[],none⟩ by
        simp [deliverInOrder,late,early,full]]
      refine ⟨⟨sound.word,?_⟩,?_,fun _ => .inr (.inr ⟨payload,AList.lookup_insert _⟩)⟩
      · exact (AList.lookup_insert_ne (Ne.symm pos)).trans sound.zero
      · rintro n (wrapped | past | ⟨data,waits⟩)
        · exact .inl wrapped
        · exact .inr (.inl past)
        · by_cases own : n = seq
          · exact .inr (.inr ⟨payload,by rw [own]; exact AList.lookup_insert _⟩)
          · exact .inr (.inr ⟨data,(AList.lookup_insert_ne own).trans waits⟩)

end

/-- Frames were given one session, which is the pool's if that has any, and which has what it
    has accepted as long as its connection takes writes. -/
structure Given (e : Exit) : Prop where
  one : ∀ k ∈ e.given, ∀ j ∈ e.given, k = j
  current : ∀ k ∈ e.given, ∀ j, e.current = some j → j = k
  accepted : ∀ k seq, (k,seq) ∈ e.accepted → k ∈ e.given ∧ ∀ s, e.sessions[k]? = some s → s.writable = true → Has s seq
  wrote : ∀ w ∈ e.wrote, w.1 ∈ e.given
  sound : ∀ (k : Nat) (s : Session), e.sessions[k]? = some s → s.writable = true → Sound s

def At : Point → Prop
  | .deliver k seq _ => k ∈ e.given ∧ seq ≠ 0
  | _ => True

def Frame (e' : Exit) : Prop :=
  ∀ (k : Nat) (s' : Session), e'.sessions[k]? = some s' → s'.writable = true →
    ∃ s : Session, e.sessions[k]? = some s ∧ s.writable = true ∧ s'.reorderNext = s.reorderNext ∧ s'.reorderBuf = s.reorderBuf

section
variable {e e' : Exit}

theorem frame_refl (e : Exit) : Frame e e := fun _ s found up => ⟨s,found,up,rfl,rfl⟩

theorem frame_modify (k : Nat) (change : Session → Session) (up : ∀ s, (change s).writable = true → s.writable = true)
    (next : ∀ s, (change s).reorderNext = s.reorderNext) (buffer : ∀ s, (change s).reorderBuf = s.reorderBuf)
    (same : e'.sessions = e.sessions.modify k change) : Frame e e' := by
  intro j s' found writable
  rw [same,List.getElem?_modify] at found
  obtain ⟨s,old,rfl⟩ := Option.map_eq_some_iff.mp found
  grind

theorem frame_closeConn (e : Exit) (k : Nat) : Frame e (e.closeConn k) :=
  frame_modify k (fun s => { s with writable := false }) (fun _ up => absurd up Bool.false_ne_true) (fun _ => rfl)
    (fun _ => rfl) rfl

theorem frame_closeCurrent (e : Exit) : Frame e e.closeCurrent := by
  grind [Exit.closeCurrent,frame_refl,frame_closeConn]

theorem frame_addBytesUp (e : Exit) (n : Nat) : Frame e (addBytesUp e n) := by
  unfold addBytesUp
  split
  · exact frame_refl e
  · exact frame_modify _ (fun s => { s with bytesUp := s.bytesUp + n }) (fun _ up => up) (fun _ => rfl) (fun _ => rfl) rfl

theorem Given.frame (given : Given e) (frame : Frame e e') (same : e'.given = e.given) (accepted : e'.accepted = e.accepted)
    (wrote : e'.wrote = e.wrote) (current : ∀ j, e'.current = some j → e.current = some j) : Given e' where
  one := by
    rw [same]
    exact given.one
  current := by
    grind [given.current]
  accepted := by
    rw [same,accepted]
    intro k seq member
    obtain ⟨known,has⟩ := given.accepted k seq member
    refine ⟨known,?_⟩
    intro s' found up
    obtain ⟨s,old,writable,next,buffer⟩ := frame k s' found up
    have before := has s old writable
    rw [Has] at before ⊢
    rwa [next,buffer]
  wrote := by
    rw [same,wrote]
    exact given.wrote
  sound := by
    intro k s' found up
    obtain ⟨s,old,writable,next,buffer⟩ := frame k s' found up
    have before := given.sound k s old writable
    exact ⟨next ▸ before.word,buffer ▸ before.zero⟩

@[simp] theorem closeCurrent_given (e : Exit) : e.closeCurrent.given = e.given ∧ e.closeCurrent.accepted = e.accepted ∧
    e.closeCurrent.wrote = e.wrote ∧ e.closeCurrent.current = e.current := by
  unfold Exit.closeCurrent
  split <;> exact ⟨rfl,rfl,rfl,rfl⟩

variable (given : Given e)
include given

theorem given_close : Given (close e) := by
  obtain ⟨same,accepted,wrote,-⟩ := closeCurrent_given e
  exact given.frame (frame_closeCurrent e) same accepted wrote (fun _ none_ => by cases none_)

theorem given_addBytesUp (n : Nat) : Given (addBytesUp e n) := by
  have fields : (addBytesUp e n).given = e.given ∧ (addBytesUp e n).accepted = e.accepted ∧
      (addBytesUp e n).wrote = e.wrote ∧ (addBytesUp e n).current = e.current := by
    unfold addBytesUp
    split <;> exact ⟨rfl,rfl,rfl,rfl⟩
  grind [given.frame,frame_addBytesUp]

theorem given_put (early : e.given = []) : Given e.put where
  one := by simp [Exit.put,early]
  current := by simp [Exit.put,early]
  accepted k seq member := by
    have known := (given.accepted k seq member).1
    rw [early] at known
    cases known
  wrote w member := given.wrote w member
  sound := by
    grind [Exit.put,given.sound,sound_fresh]

theorem given_give {k : Nat} (now : e.current = some k) : Given (e.give k) := by
  have own : ∀ j ∈ e.given, j = k := fun j member => (given.current j member k now).symm
  have all : ∀ j ∈ (e.give k).given, j = k := by
    intro j member
    rcases mem_append.mp member with old | new
    · exact own j old
    · exact mem_singleton.mp new
  refine ⟨?_,?_,?_,?_,given.sound⟩
  · intro i first j second
    rw [all i first,all j second]
  · intro i member j now'
    rw [all i member]
    exact Option.some.inj (now'.symm.trans now)
  · intro j seq member
    obtain ⟨known,has⟩ := given.accepted j seq member
    exact ⟨mem_append_left _ known,has⟩
  · exact fun w member => mem_append_left _ (given.wrote w member)

theorem given_delivered (payload : List UInt8) {k seq : Nat} {s : Session} (there : e.sessions[k]? = some s)
    (own : k ∈ e.given) (pos : seq ≠ 0) :
    Given (e.delivered k (deliverInOrder s seq payload)) ∧
      ((deliverInOrder s seq payload).error = none →
        Given ((e.delivered k (deliverInOrder s seq payload)).accept k seq)) := by
  set d := deliverInOrder s seq payload with d_
  have inside := (List.getElem?_eq_some_iff.mp there).1
  have at_ : (e.delivered k d).sessions[k]? = some d.session := List.getElem?_set_self inside
  have up {s' : Session} (found : (e.delivered k d).sessions[k]? = some s') (writable : s'.writable = true) :
      s' = d.session ∧ s.writable = true := by
    obtain rfl : d.session = s' := Option.some.inj (at_.symm.trans found)
    exact ⟨rfl,(deliver_writable s seq payload).symm.trans writable⟩
  have delivered : Given (e.delivered k d) := by
    refine ⟨given.one,given.current,?_,?_,?_⟩
    · intro j n member
      obtain ⟨known,has⟩ := given.accepted j n member
      refine ⟨known,?_⟩
      grind [given.one,deliver_keeps,given.sound]
    · intro w member
      rcases mem_append.mp member with old | new
      · exact given.wrote w old
      · rw [mem_singleton.mp new]
        exact own
    · intro j s' found writable
      by_cases same : k = j
      · subst same
        obtain ⟨rfl,before⟩ := up found writable
        exact (deliver_keeps (given.sound k s there before) before pos).1
      · exact given.sound j s' ((List.getElem?_set_ne same).symm.trans found) writable
  refine ⟨delivered,fun fine => ⟨delivered.one,delivered.current,?_,delivered.wrote,delivered.sound⟩⟩
  intro j n member
  rcases mem_append.mp member with old | new
  · exact delivered.accepted j n old
  · obtain ⟨rfl,rfl⟩ := Prod.mk.inj (mem_singleton.mp new)
    refine ⟨own,?_⟩
    intro s' found writable
    obtain ⟨rfl,before⟩ := up found writable
    exact (deliver_keeps (given.sound j s there before) before pos).2.2 fine

end

section
variable {S : Strings} {e : Exit}

def Moves (e : Exit) (r : Ran Exit Point Shown) : Prop :=
  Given r.state ∧ (∀ k ∈ e.given, k ∈ r.state.given) ∧ (∀ t, r.next = some t → At r.state t) ∧ r.started = []

variable {e' : Exit} {t : Point} {p : Pool Exit Point}

theorem moves_answer (given : Given e') (kept : ∀ k ∈ e.given, k ∈ e'.given) (status : Nat) :
    Moves e (answer e' status) := by
  refine ⟨given,kept,?_,rfl⟩
  intro t none_
  cases none_

theorem moves_goto (given : Given e') (kept : ∀ k ∈ e.given, k ∈ e'.given) (ready : At e' t) :
    Moves e (goto e' t) := by
  refine ⟨given,kept,?_,rfl⟩
  intro t' same
  rw [← Option.some.inj same]
  exact ready

variable (given : Given e)
include given

theorem moves_connect (a : Attempt) (f : UploadFrame) : Moves e (connect S e a f) := by
  unfold connect
  split
  · exact moves_answer given (fun _ old => old) 404
  · split
    · exact moves_answer given (fun _ old => old) 404
    · exact moves_goto given (fun _ old => old) trivial
    · exact moves_goto given (fun _ old => old) trivial

theorem moves_upload {f : UploadFrame} (pos : f.seq ≠ 0) : Moves e (upload e f) := by
  unfold upload
  split
  · exact moves_answer given (fun _ old => old) 404
  · rename_i k now
    split
    · exact moves_answer given (fun _ old => old) 200
    · refine moves_goto (given_give given now) (fun _ old => mem_append_left _ old) ⟨?_,pos⟩
      exact mem_append_right _ (mem_singleton.mpr rfl)

theorem moves_deliver {k seq : Nat} (payload : List UInt8) (own : k ∈ e.given) (pos : seq ≠ 0) :
    Moves e (deliver e k seq payload) := by
  unfold deliver
  split
  · exact moves_answer given (fun _ old => old) 404
  · rename_i s there
    obtain ⟨delivered,accepted⟩ := given_delivered given payload there own pos
    simp only
    split
    · exact ⟨delivered,fun _ old => old,fun _ same => by rw [← Option.some.inj same]; trivial,rfl⟩
    · rename_i fine
      exact moves_goto (accepted fine) (fun _ old => old) trivial

theorem act_moves (ready : At e t) (early : e.puts t = true → e.given = []) :
    Moves e (act S e t) := by
  cases t with
  | handle a f =>
    grind [act,moves_connect,moves_upload]
  | lookup a port =>
    simp only [act]
    split
    · exact moves_answer given (fun _ old => old) 200
    · exact moves_goto given (fun _ old => old) trivial
  | dial a port =>
    simp only [act]
    split
    · exact moves_goto given (fun _ old => old) trivial
    · split
      · exact moves_goto given (fun _ old => old) trivial
      · exact moves_answer given (fun _ old => old) 404
  | insert =>
    grind [act,moves_answer,given_put,Exit.puts]
  | store =>
    obtain ⟨same,accepted,wrote,current⟩ := closeCurrent_given e
    have closed : Given e.closeCurrent :=
      given.frame (frame_closeCurrent e) same accepted wrote (fun j now => current ▸ now)
    have none_ : e.closeCurrent.given = [] := same.trans (early rfl)
    exact moves_answer (given_put closed none_) (fun k old => (show k ∈ e.closeCurrent.given from same ▸ old)) 200
  | deliver k seq payload => exact moves_deliver given payload ready.1 ready.2
  | close =>
    obtain ⟨same,-⟩ := closeCurrent_given e
    exact moves_answer (given_close given) (fun k old => (show k ∈ e.closeCurrent.given from same ▸ old)) 404
  | addBytesUp n =>
    refine moves_answer (given_addBytesUp given n) ?_ 200
    unfold addBytesUp
    split <;> exact fun _ old => old

omit given

theorem at_mono (kept : ∀ k ∈ e.given, k ∈ e'.given) (ready : At e t) : At e' t := by
  cases t with
  | deliver k seq payload => exact ⟨kept k ready.1,ready.2⟩
  | _ => trivial

theorem step_holds {i : Input} (early : Early p i) (holds : Holds Given At p) :
    Holds Given At (step S p i).1 := by
  cases i with
  | request a f =>
    refine start_kept holds ?_
    intro t member
    rw [mem_singleton.mp member]
    trivial
  | run k =>
    refine runAt_kept holds ?_
    intro t there
    obtain ⟨given,kept,next,alone⟩ := act_moves (S := S) holds.state (holds.points t (mem_of_getElem? there))
      (early t there)
    grind [at_mono]
  | reset k =>
    exact ⟨holds.state.frame (frame_closeConn _ k) rfl rfl rfl (fun _ now => now),
      fun t member => at_mono (fun _ old => old) (holds.points t member)⟩
  | evict =>
    obtain ⟨same,-⟩ := closeCurrent_given p.state
    exact ⟨given_close holds.state,fun t member =>
      at_mono (fun k old => (show k ∈ p.state.closeCurrent.given from same ▸ old)) (holds.points t member)⟩

theorem Given.stable (holds : Holds Given At p) : Stable p where
  single w member w' member' _ _ := holds.state.one _ (holds.state.wrote w member) _ (holds.state.wrote w' member')
  kept k seq member j s now there up := by
    obtain ⟨known,has⟩ := holds.state.accepted k seq member
    obtain rfl := holds.state.current k known j now
    exact has s there up
  held k seq payload member j now := holds.state.current k (holds.points _ member).1 j now

end

theorem holds_start : Holds Given At start :=
  ⟨⟨by simp [start],by simp [start],by simp [start],by simp [start],by simp [start]⟩,by simp [start]⟩

/-- After every run of handlers, in any interleaving, in which no session is put into the pool
    once a frame has been given one: all that was written went to one connection, the session
    in the pool has all frames that were accepted, and no handler delivers to another one. -/
theorem frames_on_one_connection (S : Strings) (inputs : List Input) (early : Along (step S) Early start inputs) :
    Stable (final (step S) start inputs) :=
  Given.stable (state_along (fun _ _ meets holds => step_holds meets holds) early holds_start)

def viaPeer : Attempt := ⟨Forwarding.sampleConfig "DE",Forwarding.sampleAround true true,false⟩

def uploadFrame (seq : Nat) (payload : List UInt8) : UploadFrame := ⟨Tunnel.sampleID,seq,[],payload⟩

/-- The client repeats its connect frame, and the second handler ends before the first has put
    its session into the pool, which it does after a frame. -/
def replacedRun : List Input :=
  [.request viaPeer Forwarding.sampleConnect,.request viaPeer Forwarding.sampleConnect,.run 0,.run 1,.run 1,
    .request viaPeer (uploadFrame 1 [7]),.run 1,.run 1,.run 1,.run 0]

/-- The frame that was accepted and written is not one of the session in the pool, which waits
    for it. -/
theorem session_replaced : ¬ ∀ S inputs, Stable (final (step S) start inputs) := by
  intro all
  have stable := all .ascii replacedRun
  have accepted : (final (step .ascii) start replacedRun).state.accepted = [(0,1)] := by decide
  have current : (final (step .ascii) start replacedRun).state.current = some 1 := by decide
  have session : ((final (step .ascii) start replacedRun).state.sessions[1]?).map
      (fun s => (s.writable,s.reorderNext,s.reorderBuf.lookup 1)) = some (true,1,none) := by decide
  obtain ⟨s,there,fields⟩ := Option.map_eq_some_iff.mp session
  obtain ⟨up,next,absent⟩ : s.writable = true ∧ s.reorderNext = 1 ∧ s.reorderBuf.lookup 1 = none := by
    simpa using fields
  rcases stable.kept 0 1 (by simp [accepted]) 1 s current there up with wrapped | past | ⟨data,waits⟩
  · omega
  · omega
  · rw [absent] at waits
    cases waits

def directRun : List Input :=
  let direct : Attempt := ⟨.bare,.alone,false⟩
  [.request direct Forwarding.sampleConnect,.request direct Forwarding.sampleConnect,.run 0,.run 1,.run 0,.run 1,.run 1,
    .run 0,.run 0,.run 0,.request direct (uploadFrame 2 [8]),.run 0,.run 0,.run 0,.request direct (uploadFrame 1 [7]),.run 0,
    .run 0,.run 0]

theorem frames_on_one_connection_direct : Along (step .ascii) Early start directRun ∧
    Stable (final (step .ascii) start directRun) := by
  have early : Along (step .ascii) Early start directRun := by decide
  exact ⟨early,frames_on_one_connection .ascii directRun early⟩

end TunnelCat.Reconnects
