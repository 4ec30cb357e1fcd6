import TunnelCat.Goroutines
import TunnelCat.Nodes
import TunnelCat.Runs

/-!
The membership numbers of a club (`snc-arbiter/db_clubs.go`): a member's number is the one of the first grant
that has one. A grant looks for it, else for the greatest number, and stores its event; nothing holds the
three statements together.
-/
namespace TunnelCat.ClubNumbers
open Goroutines Runs List Option
open Nodes (EventKind ClubMembershipEvent)

structure Event extends ClubMembershipEvent where
  actorUser : Option Int
  membershipNumber : Option Int

structure Log where
  events : List Event
  seq : Int

def Event.numbers (clubID targetUser : Int) (e : Event) : Bool :=
  e.clubID = clubID && e.targetUser = targetUser && e.kind = .granted && e.membershipNumber.isSome

/-- The number of the first grant that has one: the query of `MembershipNumber`, and the first
    of `assignMembershipNumber`. -/
def Log.numberOf (l : Log) (clubID targetUser : Int) : Option Int :=
  (l.events.find? (Event.numbers clubID targetUser)).bind Event.membershipNumber

def Log.maxNumber (l : Log) (clubID : Int) : Option Int :=
  ((l.events.filter (fun e => e.clubID = clubID && e.kind = .granted)).filterMap Event.membershipNumber).max?

structure Call where
  clubID : Int
  targetUser : Int
  actorUser : Int

def Log.insertClubEventWithNumber (l : Log) (c : Call) (kind : EventKind) (membershipNumber : Int) : Log where
  events := l.events ++ [{
    id := l.seq + 1, clubID := c.clubID, targetUser := c.targetUser, kind := kind
    actorUser := if c.actorUser > 0 then some c.actorUser else none
    membershipNumber := if membershipNumber > 0 then some membershipNumber else none }]
  seq := l.seq + 1

inductive Point
  | findsNumber (c : Call)
  | findsMax (c : Call)
  | stores (c : Call) (number : Int)
  | records (c : Call) (kind : EventKind)

abbrev Arbiter := Pool Log Point

def goesTo (l : Log) (t : Point) : Ran Log Point Bool := ⟨l,some t,[],[]⟩

def returns (l : Log) (error : Bool) : Ran Log Point Bool := ⟨l,none,[],[error]⟩

def Log.next (l : Log) (clubID : Int) : Int := ((l.maxNumber clubID).map (· + 1)).getD 1

def Log.afterNumber (l : Log) (c : Call) : Point :=
  match l.numberOf c.clubID c.targetUser with
  | some number => .stores c number
  | none => .findsMax c

variable (fails : Bool) (p : Arbiter)

/-- One statement of `GrantClubMembership` with `assignMembershipNumber`, or the one of the
    calls that record an event without a number. -/
def act (l : Log) : Point → Ran Log Point Bool
  | .findsNumber c => if fails then returns l true else goesTo l (l.afterNumber c)
  | .findsMax c => if fails then returns l true else goesTo l (.stores c (l.next c.clubID))
  | .stores c number => if fails then returns l true else returns (l.insertClubEventWithNumber c .granted number) false
  | .records c kind => if fails then returns l true else returns (l.insertClubEventWithNumber c kind 0) false

inductive Input
  | grantClubMembership (c : Call)
  | revokeClubMembership (c : Call)
  | inviteToClub (c : Call)
  | runs (k : Nat) (fails : Bool)

def step : Input → Arbiter × List Bool
  | .grantClubMembership c => (p.start [.findsNumber c],[])
  | .revokeClubMembership c => (p.start [.records c .revoked],[])
  | .inviteToClub c => (p.start [.records c .invite],[])
  | .runs k fails => runAt (act fails) p k

def fresh : Arbiter := ⟨⟨[],0⟩,[]⟩

/-- The members of a club have different numbers. -/
def Log.Distinct (l : Log) : Prop :=
  ∀ clubID u v n, l.numberOf clubID u = some n → l.numberOf clubID v = some n → u = v

/-- Two grants of a club between their `SELECT`s and their `INSERT`s, for members without a number,
    are for one member. -/
def Log.Apart (l : Log) : Point → Point → Prop
  | .stores c _, .stores c' _ => l.numberOf c.clubID c.targetUser = none → c'.clubID = c.clubID →
      l.numberOf c'.clubID c'.targetUser = none → c'.targetUser = c.targetUser
  | _, _ => True

/-- No grant stores the first number of a member between the `SELECT`s and the `INSERT` of a grant
    that will store another's. -/
def Apart : Input → Prop
  | .runs k false => ∀ t ∈ p.running[k]?, ∀ t' ∈ p.running, p.state.Apart t t'
  | _ => True

variable {l : Log} {c : Call} {kind : EventKind} {number clubID u : Int}

theorem numberOf_insert (l : Log) (c : Call) (kind : EventKind) (number clubID u : Int) :
    (l.insertClubEventWithNumber c kind number).numberOf clubID u =
      (l.numberOf clubID u).or
        (if c.clubID = clubID ∧ c.targetUser = u ∧ kind = .granted ∧ number > 0 then some number else none) := by
  unfold Log.numberOf Log.insertClubEventWithNumber
  rw [List.find?_append]
  cases found : l.events.find? (Event.numbers clubID u) with
  | some e =>
    obtain ⟨n,has⟩ : ∃ n, e.membershipNumber = some n := by
      have fits := List.find?_some found
      simp only [Event.numbers,Bool.and_eq_true] at fits
      exact isSome_iff_exists.mp fits.2
    simp [has]
  | none =>
    grind [Event.numbers]

theorem numberOf_mem (has : l.numberOf clubID u = some number) :
    ∃ e ∈ l.events, e.clubID = clubID ∧ e.targetUser = u ∧ e.kind = .granted ∧ e.membershipNumber = some number := by
  obtain ⟨e,found,own⟩ := bind_eq_some_iff.mp has
  grind [Event.numbers]

/-- What a statement does: it goes on without a change, or the call returns, and then its last
    statement has added an event, with a number only if the call is a grant. -/
theorem act_cases (l : Log) (t : Point) :
    (act fails l t).started = [] ∧
      ((act fails l t).state = l ∧ (∀ t', (act fails l t).next = some t' →
          ∃ c, t = .findsNumber c ∧ t' = l.afterNumber c ∨ t' = .stores c (l.next c.clubID)) ∨
        fails = false ∧ (act fails l t).next = none ∧
          ((∃ c number, t = .stores c number ∧ (act fails l t).state = l.insertClubEventWithNumber c .granted number) ∨
            ∃ c kind, t = .records c kind ∧ (act fails l t).state = l.insertClubEventWithNumber c kind 0)) := by
  cases fails with
  | true => cases t <;> exact ⟨rfl,.inl ⟨rfl,nofun⟩⟩
  | false =>
    cases t with
    | findsNumber c => exact ⟨rfl,.inl ⟨rfl,fun t' goes => ⟨c,.inl ⟨rfl,(Option.some.inj goes).symm⟩⟩⟩⟩
    | findsMax c => exact ⟨rfl,.inl ⟨rfl,fun t' goes => ⟨c,.inr (Option.some.inj goes).symm⟩⟩⟩
    | stores c number => exact ⟨rfl,.inr ⟨rfl,rfl,.inl ⟨c,number,rfl,rfl⟩⟩⟩
    | records c kind => exact ⟨rfl,.inr ⟨rfl,rfl,.inr ⟨c,kind,rfl,rfl⟩⟩⟩

theorem act_keeps (l : Log) (t : Point) (has : l.numberOf clubID u = some number) :
    (act fails l t).state.numberOf clubID u = some number := by
  grind [act_cases,numberOf_insert]

theorem step_keeps (i : Input) (has : p.state.numberOf clubID u = some number) :
    (step p i).1.state.numberOf clubID u = some number := by
  cases i with
  | grantClubMembership c => exact has
  | revokeClubMembership c => exact has
  | inviteToClub c => exact has
  | runs k fails =>
    show (runAt (act fails) p k).1.state.numberOf clubID u = some number
    grind [runAt_none,runAt_state,act_keeps]

def Log.Bounded (l : Log) : Prop := ∀ e ∈ l.events, ∀ n ∈ e.membershipNumber, 0 < n ∧ n ≤ l.events.length

/-- The number that a grant is about to store is within bounds, and nobody has it if the member has
    none. -/
def Log.At (l : Log) : Point → Prop
  | .stores c number => 0 < number ∧ number ≤ l.events.length + 1 ∧
      (l.numberOf c.clubID c.targetUser = none → ∀ u, l.numberOf c.clubID u ≠ some number)
  | _ => True

def Log.Sound (l : Log) : Prop := l.Bounded ∧ l.Distinct

theorem next_bounded (bounded : l.Bounded) (clubID : Int) : 0 < l.next clubID ∧ l.next clubID ≤ l.events.length + 1 := by
  unfold Log.next
  cases greatest : l.maxNumber clubID with
  | none => exact ⟨by decide,by simp⟩
  | some m =>
    obtain ⟨e,listed,own⟩ := mem_filterMap.mp (max?_mem greatest)
    have bound := bounded e (mem_of_mem_filter listed) m own
    simp only [map_some,getD_some]
    omega

theorem next_unclaimed (l : Log) (clubID u : Int) : l.numberOf clubID u ≠ some (l.next clubID) := by
  intro has
  obtain ⟨e,member,club,-,granted,own⟩ := numberOf_mem has
  have listed : l.next clubID ∈ (l.events.filter (fun e => e.clubID = clubID && e.kind = .granted)).filterMap Event.membershipNumber :=
    mem_filterMap.mpr ⟨e,mem_filter.mpr ⟨member,by simp [club,granted]⟩,own⟩
  obtain ⟨greatest,found⟩ := Option.ne_none_iff_exists'.mp (mt max?_eq_none_iff.mp (ne_nil_of_mem listed))
  have le := (max?_eq_some_iff.mp found).2 _ listed
  have next : l.next clubID = greatest + 1 := by simp [Log.next,Log.maxNumber,found]
  omega

theorem next_at (bounded : l.Bounded) (c : Call) : l.At (.stores c (l.next c.clubID)) :=
  ⟨(next_bounded bounded c.clubID).1,(next_bounded bounded c.clubID).2,fun _ u => next_unclaimed l c.clubID u⟩

theorem afterNumber_at (bounded : l.Bounded) (c : Call) : l.At (l.afterNumber c) := by
  unfold Log.afterNumber
  cases has : l.numberOf c.clubID c.targetUser with
  | none => trivial
  | some number =>
    obtain ⟨e,member,-,-,-,own⟩ := numberOf_mem has
    have bound := bounded e member number own
    exact ⟨bound.1,by omega,fun none_ => by simp [has] at none_⟩

theorem insert_length (l : Log) (c : Call) (kind : EventKind) (number : Int) :
    (l.insertClubEventWithNumber c kind number).events.length = l.events.length + 1 := by
  simp [Log.insertClubEventWithNumber]

theorem insert_bounded (bounded : l.Bounded) (fits : number ≤ l.events.length + 1) (c : Call) (kind : EventKind) :
    (l.insertClubEventWithNumber c kind number).Bounded := by
  intro e member n has
  rw [insert_length]
  rcases mem_append.mp member with old | new
  · have bound := bounded e old n has
    omega
  · grind

theorem insert_distinct (distinct : l.Distinct) (at_ : l.At (.stores c number)) :
    (l.insertClubEventWithNumber c .granted number).Distinct := by
  have other : ∀ clubID v n, (l.insertClubEventWithNumber c .granted number).numberOf clubID v = some n →
      l.numberOf clubID v = some n ∨
        l.numberOf c.clubID c.targetUser = none ∧ clubID = c.clubID ∧ v = c.targetUser ∧ n = number := by
    intro clubID v n has
    rw [numberOf_insert,or_eq_some_iff] at has
    grind
  intro clubID v w n hasV hasW
  rcases other clubID v n hasV with oldV | ⟨first,rfl,rfl,rfl⟩
  · rcases other clubID w n hasW with oldW | ⟨first,rfl,rfl,rfl⟩
    · exact distinct clubID v w n oldV oldW
    · exact absurd oldV (at_.2.2 first v)
  · rcases other c.clubID w n hasW with oldW | ⟨-,-,rfl,-⟩
    · exact absurd oldW (at_.2.2 first w)
    · rfl

theorem insert_unnumbered (clubID u : Int) :
    (l.insertClubEventWithNumber c kind 0).numberOf clubID u = l.numberOf clubID u := by
  simp [numberOf_insert]

theorem insert_at {c' : Call} {number' : Int} (other : l.At (.stores c' number'))
    (apart : l.Apart (.stores c number) (.stores c' number')) : (l.insertClubEventWithNumber c .granted number).At (.stores c' number') := by
  refine ⟨other.1,by rw [insert_length]; have := other.2.1; omega,?_⟩
  -- whoever still has no number is another member, and nobody of the club has got one
  intro none_ u has
  rw [numberOf_insert] at none_ has
  obtain ⟨unnumbered,outside⟩ := or_eq_none_iff.mp none_
  rcases or_eq_some_iff.mp has with old | ⟨own,new⟩
  · exact other.2.2 unnumbered u old
  · split_ifs at new with here
    obtain ⟨club,rfl,-,positive⟩ := here
    have same := apart (club ▸ own) club.symm unnumbered
    simp [club,same,positive] at outside

theorem insert_unnumbered_at {t : Point} (at_ : l.At t) : (l.insertClubEventWithNumber c kind 0).At t := by
  cases t with
  | stores c' number' =>
    refine ⟨at_.1,by rw [insert_length]; have := at_.2.1; omega,?_⟩
    simpa [insert_unnumbered] using at_.2.2
  | findsNumber c => trivial
  | findsMax c => trivial
  | records c kind => trivial

theorem step_sound {p : Arbiter} {i : Input} (apart : Apart p i) (holds : Holds Log.Sound Log.At p) :
    Holds Log.Sound Log.At (step p i).1 := by
  cases i with
  | grantClubMembership c => exact start_kept holds (by simp [Log.At])
  | revokeClubMembership c => exact start_kept holds (by simp [Log.At])
  | inviteToClub c => exact start_kept holds (by simp [Log.At])
  | runs k fails =>
    refine runAt_kept holds fun t there => ?_
    have at_ := holds.points t (mem_of_getElem? there)
    obtain ⟨alone,cases_⟩ := act_cases fails p.state t
    rw [alone]
    refine ⟨?_,?_,nofun,?_⟩
    · rcases cases_ with ⟨same,-⟩ | ⟨-,-,⟨c,n,rfl,same⟩ | ⟨c,kind,-,same⟩⟩
      · rw [same]
        exact holds.state
      · rw [same]
        exact ⟨insert_bounded holds.state.1 at_.2.1 c .granted,insert_distinct holds.state.2 at_⟩
      · rw [same]
        refine ⟨insert_bounded holds.state.1 (by omega) c kind,?_⟩
        simpa only [Log.Distinct,insert_unnumbered] using holds.state.2
    · intro t' next
      rcases cases_ with ⟨same,goes⟩ | ⟨-,ends,-⟩
      · rw [same]
        obtain ⟨c,⟨-,rfl⟩ | rfl⟩ := goes t' next
        · exact afterNumber_at holds.state.1 c
        · exact next_at holds.state.1 c
      · rw [ends] at next
        cases next
    · intro t' member other
      rcases cases_ with ⟨same,-⟩ | ⟨rfl,-,⟨c,n,rfl,same⟩ | ⟨c,kind,-,same⟩⟩
      · rw [same]
        exact other
      · rw [same]
        cases t' with
        | stores c' n' => exact insert_at other (apart _ there _ member)
        | findsNumber c' => trivial
        | findsMax c' => trivial
        | records c' kind => trivial
      · rw [same]
        exact insert_unnumbered_at other

theorem fresh_sound : Holds Log.Sound Log.At fresh := by
  refine ⟨⟨nofun,?_⟩,nofun⟩
  intro clubID u v n has
  cases has

/-- In every run the number of a member stays, and where grants of a club come apart, its members
    have different numbers all along. -/
theorem numbers_distinct (inputs first rest : List Input) (whole : inputs = first ++ rest) :
    (∀ clubID u n, (final step fresh first).state.numberOf clubID u = some n →
      (final step fresh inputs).state.numberOf clubID u = some n) ∧
    (Along step Apart fresh inputs → (final step fresh first).state.Distinct) := by
  subst whole
  constructor
  · intro clubID u n has
    rw [final_append]
    exact state_run (P := fun p => p.state.numberOf clubID u = some n) (fun p i => step_keeps p i) rest has
  · intro apart
    exact (state_along (fun _ _ => step_sound) ((along_append first).mp apart).1 fresh_sound).state.2

instance (l : Log) (t t' : Point) : Decidable (l.Apart t t') := by
  unfold Log.Apart
  split <;> infer_instance

instance (p : Arbiter) (i : Input) : Decidable (Apart p i) := by
  unfold Apart
  split <;> infer_instance

def inTurn : List Input :=
  [.grantClubMembership ⟨1,10,0⟩,.grantClubMembership ⟨1,20,0⟩,.runs 0 false,.runs 1 false,.runs 0 false,.runs 0 false,
    .runs 0 false,.runs 0 false]

/-- Both grants find no number, but the second reads the greatest when the first has stored its own. -/
theorem numbers_distinct_in_turn : (final step fresh inTurn).state.numberOf 1 20 = some 2 ∧
    (final step fresh inTurn).state.Distinct :=
  ⟨by decide,(numbers_distinct inTurn inTurn [] (append_nil _).symm).2 (by decide)⟩

def sampleOverlap : List Input :=
  [.grantClubMembership ⟨1,10,0⟩,.grantClubMembership ⟨1,20,0⟩,.runs 0 false,.runs 1 false,.runs 0 false,.runs 1 false,
    .runs 0 false,.runs 0 false]

/-- Both members get the number 1. -/
theorem numbers_collide :
    ¬ ∀ (inputs first rest : List Input), inputs = first ++ rest → (final step fresh first).state.Distinct ∧
      ∀ clubID u n, (final step fresh first).state.numberOf clubID u = some n →
        (final step fresh inputs).state.numberOf clubID u = some n := by
  intro always
  have both : (final step fresh sampleOverlap).state.numberOf 1 10 = some 1 ∧
      (final step fresh sampleOverlap).state.numberOf 1 20 = some 1 := by decide
  have same := (always sampleOverlap sampleOverlap [] (append_nil _).symm).1 1 10 20 1 both.1 both.2
  exact absurd same (by decide)

end TunnelCat.ClubNumbers
