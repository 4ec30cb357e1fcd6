import Mathlib.Data.List.Basic
import Mathlib.Order.Nat
import TunnelCat.Durations
import TunnelCat.Runs

/-!
Hole punching (`punch` in `snc/core/holepunch.go`). Each side sends a probe every 100 ms and reads until it hears
one, a `Read` fails or three seconds have passed; then it stops sending. So a side that hears a probe before it has
sent one leaves the other side waiting (`punch_disagrees`).

What a goroutine has to do is done in the moment it can be done, in any order with the others. The sockets are
connected: a probe that finds no socket may come back as an error of the sender's next `Read`.
-/
namespace TunnelCat.HolePunch
open Durations Runs

def PunchTimeout : Nat := 3000 * millisecond

def punchInterval : Nat := 100 * millisecond

/-- Every datagram takes at most so long. -/
def delivery : Nat := 50 * millisecond

/-- The calls are less than this apart. -/
def apart : Nat := PunchTimeout - 1000 * millisecond

def dhtMsgHolePunch : UInt8 := 0x0C

inductive Side
  | one
  | two
deriving DecidableEq

def Side.other : Side → Side
  | .one => .two
  | .two => .one

/-- Where a call is: `punch` is not called, it reads, it has read a probe or an error and will close `stop`, it will
    close the socket, it has returned. -/
inductive Point
  | idle
  | reading
  | heard
  | broke
  | closing
  | succeeded
  | failed
deriving DecidableEq

/-- A call and its sender. `refused` is the error that the socket holds. The code does not keep the last two: whether
    a probe was sent while the other side's socket was open and in time for its deadline, and whether a `Read` failed
    before the own deadline. -/
structure Party where
  main : Point
  start : Nat
  ticks : Nat
  sender : Bool
  stopped : Bool
  refused : Bool
  reached : Bool
  broken : Bool

variable (now : Nat) (p : Side) (x : Party)

def Party.isOpen : Bool := x.main ≠ .idle && x.main ≠ .failed

def Party.due : Nat := x.start + punchInterval * (x.ticks + 1)

def Party.deadline : Nat := x.start + PunchTimeout

structure Datagram where
  dst : Side
  sentAt : Nat

structure State where
  now : Nat
  party : Side → Party
  flight : List Datagram

variable (s : State)

def State.set (p : Side) (x : Party) : State := { s with party := Function.update s.party p x }

def start : State := ⟨now,fun _ => ⟨.idle,0,0,false,false,false,false,false⟩,[]⟩

inductive Input
  | call (p : Side)
  | tick (p : Side)
  | arrives (i : Nat)
  | stray (p : Side) (opened : Option UInt8)
  | expires (p : Side)
  | readError (p : Side)
  | runs (p : Side)
  | stops (p : Side)
  | wait (d : Nat)

def tick (p : Side) : State :=
  let x := s.party p
  let y := s.party p.other
  { s.set p { x with
      ticks := x.ticks + 1
      reached := x.reached || x.isOpen && y.isOpen && s.now + delivery < y.deadline } with
    flight := if x.isOpen then s.flight ++ [⟨p.other,s.now⟩] else s.flight }

def read (opened : Option UInt8) : Party :=
  if x.main = .reading ∧ opened = some dhtMsgHolePunch then { x with main := .heard } else x

def arrive (g : Datagram) : State :=
  if (s.party g.dst).isOpen then s.set g.dst (read (s.party g.dst) (some dhtMsgHolePunch))
  else s.set g.dst.other { s.party g.dst.other with refused := true }

def Party.run : Party :=
  match x.main with
  | .heard => { x with main := .succeeded, stopped := true }
  | .broke => { x with main := .closing, stopped := true }
  | .closing => { x with main := .failed }
  | _ => x

def step : Input → State × Unit
  | .call p => (s.set p { s.party p with main := .reading, start := s.now, sender := true },())
  | .tick p => (tick s p,())
  | .arrives i =>
    match s.flight[i]? with
    | none => (s,())
    | some g => ({ arrive s g with flight := s.flight.eraseIdx i },())
  | .stray p opened => (s.set p (read (s.party p) opened),())
  | .expires p => (s.set p { s.party p with main := .broke },())
  | .readError p => (s.set p { s.party p with main := .broke, refused := false, broken := true },())
  | .runs p => (s.set p (s.party p).run,())
  | .stops p => (s.set p { s.party p with sender := false },())
  | .wait d => ({ s with now := s.now + d },())

structure Party.Rests (x : Party) (time : Nat) : Prop where
  main : x.main = .idle ∨ x.main = .reading ∨ x.main = .succeeded ∨ x.main = .failed
  stop : x.sender = true → x.stopped = false
  tick : x.sender = true → time ≤ x.due
  deadline : x.main = .reading → time ≤ x.deadline

/-- What may happen in a state. A sender whose tick and whose `stop` are both there may take either; nothing but a
    probe of the other side opens as one; time passes only when nothing is left to do. -/
def Possible : Input → Prop
  | .call p => (s.party p).main = .idle ∧ ((s.party p.other).main ≠ .idle → s.now < (s.party p.other).start + apart)
  | .tick p => (s.party p).sender = true ∧ s.now = (s.party p).due
  | .arrives i => i < s.flight.length
  | .stray _ opened => opened ≠ some dhtMsgHolePunch
  | .expires p => (s.party p).main = .reading ∧ s.now = (s.party p).deadline
  | .readError p => (s.party p).main = .reading ∧ (s.party p).refused = true
  | .runs p => (s.party p).main = .heard ∨ (s.party p).main = .broke ∨ (s.party p).main = .closing
  | .stops p => (s.party p).sender = true ∧ (s.party p).stopped = true
  | .wait d => (∀ p, (s.party p).Rests (s.now + d)) ∧ ∀ g ∈ s.flight, s.now + d ≤ g.sentAt + delivery

@[simp] theorem Side.other_other : p.other.other = p := by cases p <;> rfl

@[simp] theorem Side.other_ne : p.other ≠ p := by cases p <;> decide

theorem Side.eq_or_other (r : Side) : r = p ∨ r = p.other := by cases p <;> cases r <;> decide

@[simp] theorem set_own (p : Side) (x : Party) : (s.set p x).party p = x := Function.update_self ..

@[simp] theorem set_other (p : Side) (x : Party) : (s.set p x).party p.other = s.party p.other :=
  Function.update_of_ne (Side.other_ne p) ..

@[simp] theorem set_now (p : Side) (x : Party) : (s.set p x).now = s.now := rfl

@[simp] theorem set_flight (p : Side) (x : Party) : (s.set p x).flight = s.flight := rfl

theorem forall_side {P : Side → Prop} (own : P p) (other : P p.other) : ∀ r, P r := by
  intro r
  rcases Side.eq_or_other p r with rfl | rfl
  · exact own
  · exact other

def Party.Told : Prop := x.main = .heard ∨ x.main = .succeeded

def Party.Returned : Prop := x.main = .succeeded ∨ x.main = .failed

/-- The side has heard a probe, or one is on its way and will be there before the deadline, unless a `Read` fails. -/
def Gets (p : Side) (flight : List Datagram) : Prop :=
  x.Told ∨ x.broken = true ∨ x.main = .reading ∧ ∃ g ∈ flight, g.dst = p ∧ g.sentAt + delivery < x.deadline

def Party.Late (now : Nat) : Prop := x.main = .broke ∨ x.main = .closing → x.broken = true ∨ x.deadline ≤ now

structure Linked (s : State) : Prop where
  flight : ∀ g ∈ s.flight, s.now ≤ g.sentAt + delivery
  late : ∀ p, (s.party p).Late s.now
  awaited : ∀ p, (s.party p.other).reached = true → Gets (s.party p) p s.flight

variable {s} {p} {x}

theorem Linked.back (linked : Linked s) (reached : (s.party p).reached = true) : Gets (s.party p.other) p.other s.flight :=
  linked.awaited p.other (by simpa using reached)

/-- One side changes. What it has sent is on its way, and what is on its way to it still matters to it. -/
theorem Linked.set (linked : Linked s) (sends : x.reached = true → Gets (s.party p.other) p.other s.flight)
    (gets : Gets (s.party p) p s.flight → Gets x p s.flight) (late : x.Late s.now) : Linked (s.set p x) := by
  refine ⟨linked.flight,forall_side p ?_ ?_,forall_side p ?_ ?_⟩
  · simpa using late
  · simpa using linked.late p.other
  · simpa using fun reached => gets (linked.awaited p reached)
  · simpa using sends

theorem Gets.mono {flight flight' : List Datagram} (gets : Gets x p flight)
    (kept : x.main = .reading → ∀ g ∈ flight, g.dst = p → g ∈ flight') : Gets x p flight' :=
  gets.imp_right (Or.imp_right fun ⟨reading,g,flies,there,inTime⟩ => ⟨reading,g,kept reading g flies there,there,inTime⟩)

variable (linked : Linked s)
include linked

theorem Linked.send (dst : Side) : Linked { s with flight := s.flight ++ [⟨dst,s.now⟩] } := by
  refine ⟨?_,linked.late,fun p reached => (linked.awaited p reached).mono fun _ g flies _ => List.mem_append_left _ flies⟩
  intro g member
  rcases List.mem_append.mp member with old | new
  · exact linked.flight g old
  · rw [List.mem_singleton.mp new]
    exact Nat.le_add_right s.now delivery

theorem Linked.erase {i : Nat} {g : Datagram} (found : s.flight[i]? = some g)
    (deaf : (s.party g.dst).main ≠ .reading) : Linked { s with flight := s.flight.eraseIdx i } := by
  refine ⟨fun g' left => linked.flight g' (List.mem_of_mem_eraseIdx left),linked.late,fun p reached => ?_⟩
  refine (linked.awaited p reached).mono fun reading g' flies there => ?_
  grind [List.mem_iff_getElem?,List.mem_eraseIdx_iff_getElem?]

/-- A probe that is sent to an open socket, in time for the deadline, will be heard. -/
theorem Linked.gets_sent (opened : (s.party p).isOpen = true) (inTime : s.now + delivery < (s.party p).deadline)
    (sent : ⟨p,s.now⟩ ∈ s.flight) : Gets (s.party p) p s.flight := by
  have late := linked.late p
  unfold Party.Late at late
  unfold Gets Party.Told
  cases at_ : (s.party p).main with
  | idle => simp [Party.isOpen,at_] at opened
  | failed => simp [Party.isOpen,at_] at opened
  | reading => exact .inr (.inr ⟨rfl,_,sent,rfl,inTime⟩)
  | heard => exact .inl (.inl rfl)
  | succeeded => exact .inl (.inr rfl)
  | broke => exact .inr (.inl ((late (.inl at_)).resolve_right (by omega)))
  | closing => exact .inr (.inl ((late (.inr at_)).resolve_right (by omega)))

theorem tick_linked : Linked (tick s p) := by
  cases opened : (s.party p).isOpen with
  | false =>
    simp only [tick,opened,Bool.false_and,Bool.or_false]
    exact linked.set (fun reached => linked.back reached) id (linked.late p)
  | true =>
    have sent := linked.send p.other
    simp only [tick,opened,Bool.true_and]
    refine sent.set (p := p) ?_ id (linked.late p)
    intro reached
    rcases Bool.or_eq_true_iff.mp reached with before | now
    · exact sent.back before
    · obtain ⟨other,inTime⟩ := Bool.and_eq_true_iff.mp now
      exact sent.gets_sent other (of_decide_eq_true inTime) (by simp)

theorem arrives_linked {i : Nat} {g : Datagram} (found : s.flight[i]? = some g) :
    Linked { arrive s g with flight := s.flight.eraseIdx i } := by
  by_cases reading : (s.party g.dst).main = .reading
  · have opened : (s.party g.dst).isOpen = true := by simp [Party.isOpen,reading]
    simp only [arrive,opened,read,reading]
    have heard : Linked (s.set g.dst { s.party g.dst with main := .heard }) :=
      linked.set (fun reached => linked.back reached) (fun _ => .inl (.inl rfl)) (by simp [Party.Late])
    exact heard.erase found (by simp)
  · unfold arrive
    split
    · have same : read (s.party g.dst) (some dhtMsgHolePunch) = s.party g.dst := if_neg fun hears => reading hears.1
      rw [same]
      exact (linked.set (fun reached => linked.back reached) id (linked.late _)).erase found (by simpa using reading)
    · have refused : Linked (s.set g.dst.other { s.party g.dst.other with refused := true }) :=
        linked.set (fun reached => linked.back reached) id (linked.late _)
      refine refused.erase found ?_
      have same := set_other s g.dst.other { s.party g.dst.other with refused := true }
      rw [Side.other_other] at same
      rwa [same]

omit linked

theorem step_linked {i : Input} (possible : Possible s i) (linked : Linked s) : Linked (step s i).1 := by
  cases i with
  | call p =>
    refine linked.set (fun reached => linked.back reached) ?_ (by simp [Party.Late])
    rintro (told | broken | ⟨reading,-⟩)
    · simp [Party.Told,possible.1] at told
    · exact .inr (.inl broken)
    · simp [possible.1] at reading
  | tick p => exact tick_linked linked
  | arrives i =>
    cases found : s.flight[i]? with
    | none => simpa [step,found] using linked
    | some g =>
      simp only [step,found]
      exact arrives_linked linked found
  | stray p opened =>
    have same : read (s.party p) opened = s.party p := if_neg fun hears => possible hears.2
    simp only [step,same]
    exact linked.set (fun reached => linked.back reached) id (linked.late p)
  | expires p =>
    refine linked.set (fun reached => linked.back reached) ?_ (fun _ => .inr possible.2.ge)
    rintro (told | broken | ⟨-,g,flies,-,inTime⟩)
    · simp [Party.Told,possible.1] at told
    · exact .inr (.inl broken)
    · have := linked.flight g flies
      have := possible.2
      omega
  | readError p => exact linked.set (fun reached => linked.back reached) (fun _ => .inr (.inl rfl)) (fun _ => .inl rfl)
  | runs p =>
    have late := linked.late p
    refine linked.set (fun reached => linked.back ?_) ?_ ?_
    all_goals
      simp only [Party.run,Gets,Party.Told,Party.Late,Party.deadline] at *
      grind
  | stops p => exact linked.set (fun reached => linked.back reached) id (linked.late p)
  | wait d =>
    refine ⟨possible.2,fun p at_ => ?_,linked.awaited⟩
    exact (linked.late p at_).imp_right fun late => Nat.le_trans late (Nat.le_add_right s.now d)

theorem start_linked : Linked (start now) :=
  ⟨by simp [start],by simp [start,Party.Late],by simp [start]⟩

/-- Two calls that have returned agree if each side sent a probe while the other's socket was open and in time for
    its deadline, and no `Read` failed before the deadline. -/
theorem punch_agreement (now : Nat) (inputs : List Input) (possible : Along step Possible (start now) inputs)
    (returned : ∀ p, ((final step (start now) inputs).party p).Returned)
    (reached : ∀ p, ((final step (start now) inputs).party p).reached = true)
    (unbroken : ∀ p, ((final step (start now) inputs).party p).broken = false) :
    (∀ p, ((final step (start now) inputs).party p).main = .succeeded) ∨
      ∀ p, ((final step (start now) inputs).party p).main = .failed := by
  have linked := state_along (fun _ _ meets holds => step_linked meets holds) possible (start_linked now)
  refine .inl fun p => (returned p).resolve_right fun failed => ?_
  rcases linked.awaited p (reached p.other) with told | broken | ⟨reading,-⟩
  · simp [Party.Told,failed] at told
  · simp [unbroken p] at broken
  · simp [failed] at reading

instance (P : Side → Prop) [DecidablePred P] : Decidable (∀ p, P p) :=
  decidable_of_iff (P .one ∧ P .two) ⟨fun both => forall_side .one both.1 both.2,fun all => ⟨all .one,all .two⟩⟩

instance (x : Party) (time : Nat) : Decidable (x.Rests time) :=
  decidable_of_iff ((x.main = .idle ∨ x.main = .reading ∨ x.main = .succeeded ∨ x.main = .failed) ∧
      (x.sender = true → x.stopped = false) ∧ (x.sender = true → time ≤ x.due) ∧ (x.main = .reading → time ≤ x.deadline))
    ⟨fun ⟨main,stop,tick,deadline⟩ => ⟨main,stop,tick,deadline⟩,fun r => ⟨r.main,r.stop,r.tick,r.deadline⟩⟩

instance (s : State) : ∀ i, Decidable (Possible s i)
  | .call p => inferInstanceAs (Decidable ((s.party p).main = .idle ∧
      ((s.party p.other).main ≠ .idle → s.now < (s.party p.other).start + apart)))
  | .tick p => inferInstanceAs (Decidable ((s.party p).sender = true ∧ s.now = (s.party p).due))
  | .arrives i => inferInstanceAs (Decidable (i < s.flight.length))
  | .stray _ opened => inferInstanceAs (Decidable (opened ≠ some dhtMsgHolePunch))
  | .expires p => inferInstanceAs (Decidable ((s.party p).main = .reading ∧ s.now = (s.party p).deadline))
  | .readError p => inferInstanceAs (Decidable ((s.party p).main = .reading ∧ (s.party p).refused = true))
  | .runs p => inferInstanceAs (Decidable ((s.party p).main = .heard ∨ (s.party p).main = .broke ∨ (s.party p).main = .closing))
  | .stops p => inferInstanceAs (Decidable ((s.party p).sender = true ∧ (s.party p).stopped = true))
  | .wait d => inferInstanceAs (Decidable ((∀ p, (s.party p).Rests (s.now + d)) ∧ ∀ g ∈ s.flight, s.now + d ≤ g.sentAt + delivery))

instance (x : Party) : Decidable x.Returned := inferInstanceAs (Decidable (x.main = .succeeded ∨ x.main = .failed))

def crossing : List Input :=
  [.call .one,.call .two,.wait punchInterval,.tick .one,.tick .two,.wait delivery,.arrives 0,.arrives 0,.runs .one,.stops .one,
    .runs .two,.stops .two]

theorem punch_agreement_crossing :
    (∀ p, ((final step (start 0) crossing).party p).main = .succeeded) ∨
      ∀ p, ((final step (start 0) crossing).party p).main = .failed :=
  punch_agreement 0 crossing (by decide +kernel) (by decide +kernel) (by decide +kernel) (by decide +kernel)

/-- The second call comes 50 ms after the first and hears the first probe before it sends one. -/
def overheard : List Input :=
  [.call .one,.wait delivery,.call .two,.wait delivery,.tick .one,.arrives 0,.runs .two,.stops .two] ++
  (List.replicate 29 [.wait punchInterval,.tick .one,.arrives 0]).flatten ++
  [.expires .one,.runs .one,.runs .one,.stops .one]

/-- All that is sent arrives at once at an open socket; one call succeeds and the other fails. -/
theorem punch_disagrees :
    ¬ ∀ (now : Nat) (inputs : List Input), Along step Possible (start now) inputs →
      (∀ p, ((final step (start now) inputs).party p).Returned) →
      (∀ p, ((final step (start now) inputs).party p).main = .succeeded) ∨
        ∀ p, ((final step (start now) inputs).party p).main = .failed := by
  intro always
  have agree := always 0 overheard (by decide +kernel) (by decide +kernel)
  exact absurd agree (by decide +kernel)

end TunnelCat.HolePunch
