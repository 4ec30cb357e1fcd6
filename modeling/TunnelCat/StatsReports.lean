import Mathlib.Algebra.BigOperators.Group.List.Basic
import Mathlib.Algebra.Group.Prod
import TunnelCat.Durations
import TunnelCat.Runs
import TunnelCat.Stats

/-!
The reports of an exit to the arbiter about its users (`snc-exit/stats.go`). `flush` takes the counts out of
the collector before it posts them, and a post that fails is not made again. Counts are natural numbers, as
in `Stats`.
-/
namespace TunnelCat.StatsReports
open Durations List
open HostPort (Text)
open Runs Stats

def sessionIdleTimeout : Int := 15 * 60 * second

structure CompletedSession where
  username : Text
  seconds : Int
  endedAt : Int

structure Collector extends StatsCollector where
  completedSessions : List CompletedSession
  rejectedSessions : Nat

structure StatsSessionEntry where
  username : Text
  seconds : Int
  endedAt : Int
deriving DecidableEq

structure StatsUserEntry where
  username : Text
  country : Text
  bytesUp : Nat
  bytesDown : Nat
  conns : Nat
  lastSeen : Int
deriving DecidableEq

structure StatsPayload where
  users : List StatsUserEntry
  sessions : List StatsSessionEntry
  rejectedSessions : Nat
deriving DecidableEq

inductive Flight
  | idle
  | swapped (rejected : Nat)
  | posting (payload : StatsPayload)
deriving DecidableEq

abbrev Amounts := Nat × Nat × Nat

/-- The collector and the flush that is under way. The code does not keep the rest: the payloads
    that were delivered, and all that was recorded of each user, of sessions that have ended and
    of sessions that were rejected. -/
structure Exit where
  clock : Int
  collector : Collector
  flight : Flight
  delivered : List StatsPayload
  recorded : Text → Amounts
  completed : List CompletedSession
  rejected : Nat

/-- A call of the collector, the next step of `flush` with the outcome of its post, if it comes
    to that, or time passes. -/
inductive Event
  | recordBytes (username country : Text) (bytesUp bytesDown : Nat)
  | recordRejectedSession
  | sweep (range : Table.Range Text ActiveSession)
  | flush (range : Table.Range Text UserAccum) (ok : Bool)
  | waits (d : Nat)

variable (c : Collector) (s : Exit) (username : Text) (now : Int) (range : Table.Range Text UserAccum)

def ActiveSession.completed (s : ActiveSession) : CompletedSession :=
  ⟨username,(s.lastActivity - s.start) / second,s.lastActivity⟩

def idle (range : Table.Range Text ActiveSession) : List CompletedSession :=
  ((range.entries c.sessions).filter (fun e => e.2.lastActivity < now - sessionIdleTimeout)).map
    (fun e => ActiveSession.completed e.1 e.2)

def sweep (range : Table.Range Text ActiveSession) : Collector :=
  { c with
    completedSessions := c.completedSessions ++ idle c now range
    sessions := Table.filter (fun _ s => !(s.lastActivity < now - sessionIdleTimeout)) c.sessions }

def UserAccum.entry (u : UserAccum) : StatsUserEntry :=
  ⟨username,u.country,u.bytesUp,u.bytesDown,u.conns,u.lastSeen / second⟩

def CompletedSession.entry (s : CompletedSession) : StatsSessionEntry := ⟨s.username,s.seconds,s.endedAt / second⟩

def payload (rejected : Nat) (range : Table.Range Text UserAccum) : StatsPayload :=
  ⟨(range.entries c.users).map (fun e => UserAccum.entry e.1 e.2),c.completedSessions.map CompletedSession.entry,rejected⟩

def collect (rejected : Nat) (range : Table.Range Text UserAccum) : Collector × Flight :=
  if c.users.size = 0 ∧ c.completedSessions = [] ∧ rejected = 0 then (c,.idle)
  else ({ c with users := ∅, completedSessions := [] },.posting (payload c rejected range))

def flush (ok : Bool) : Exit :=
  match s.flight with
  | .idle => { s with collector := { s.collector with rejectedSessions := 0 }, flight := .swapped s.collector.rejectedSessions }
  | .swapped rejected =>
    { s with collector := (collect s.collector rejected range).1, flight := (collect s.collector rejected range).2 }
  | .posting payload => { s with flight := .idle, delivered := if ok then s.delivered ++ [payload] else s.delivered }

def step : Event → Exit × Unit
  | .recordBytes username country bytesUp bytesDown =>
    ({ s with
      collector := { s.collector with
        toStatsCollector := recordBytes s.collector.toStatsCollector s.clock username country bytesUp bytesDown }
      recorded := fun u => s.recorded u + if u = username ∧ username ≠ [] then (bytesUp,bytesDown,1) else 0 },())
  | .recordRejectedSession =>
    ({ s with
      collector := { s.collector with rejectedSessions := s.collector.rejectedSessions + 1 }
      rejected := s.rejected + 1 },())
  | .sweep range =>
    ({ s with collector := sweep s.collector s.clock range, completed := s.completed ++ idle s.collector s.clock range },())
  | .flush range ok => (flush s range ok,())
  | .waits d => ({ s with clock := s.clock + d },())

def newCollector : Collector := ⟨newStatsCollector,[],0⟩

def start (clock : Int) : Exit := ⟨clock,newCollector,.idle,[],fun _ => 0,[],0⟩

def StatsUserEntry.amounts (e : StatsUserEntry) : Amounts := (e.bytesUp,e.bytesDown,e.conns)

def StatsPayload.of (p : StatsPayload) (u : Text) : Amounts :=
  (p.users.map (fun e => if e.username = u then e.amounts else 0)).sum

def Collector.of (u : Text) : Amounts :=
  ((c.users.lookup u).map (fun a => (a.bytesUp,a.bytesDown,a.conns))).getD 0

def Flight.of : Flight → Text → Amounts
  | .posting p, u => p.of u
  | _, _ => 0

def Flight.sessions : Flight → List StatsSessionEntry
  | .posting p => p.sessions
  | _ => []

def Flight.rejected : Flight → Nat
  | .idle => 0
  | .swapped n => n
  | .posting p => p.rejectedSessions

/-- What was delivered, what a flush has taken and what the collector holds is all that was
    recorded. -/
structure Balanced (s : Exit) : Prop where
  users : ∀ u, (s.delivered.map (fun p => p.of u)).sum + s.flight.of u + s.collector.of u = s.recorded u
  sessions : s.delivered.flatMap StatsPayload.sessions ++ s.flight.sessions ++ s.collector.completedSessions.map CompletedSession.entry =
    s.completed.map CompletedSession.entry
  rejected : (s.delivered.map StatsPayload.rejectedSessions).sum + s.flight.rejected + s.collector.rejectedSessions = s.rejected

/-- No post fails. -/
def Delivers : Event → Prop
  | .flush _ ok => ∀ p, s.flight = .posting p → ok = true
  | _ => True

theorem sum_lookup (t : Table Text UserAccum) (range : Table.Range Text UserAccum) (f : UserAccum → Amounts) (u : Text) :
    ((range.entries t).map (fun e => if e.1 = u then f e.2 else 0)).sum = ((t.lookup u).map f).getD 0 := by
  rw [((range.entries_perm t).map _).sum_eq]
  obtain ⟨entries,distinct⟩ := t
  show (entries.map _).sum = ((dlookup u entries).map f).getD 0
  induction entries with
  | nil => rfl
  | cons e rest ih =>
    obtain ⟨k,v⟩ := e
    obtain ⟨new,distinct⟩ := nodupKeys_cons.mp distinct
    have later := ih distinct
    rw [map_cons,sum_cons,later]
    by_cases own : k = u
    · subst own
      rw [dlookup_eq_none.mpr new]
      simp
    · rw [if_neg own,dlookup_cons_ne _ _ (Ne.symm own),zero_add]

theorem payload_of (rejected : Nat) (range : Table.Range Text UserAccum) (u : Text) :
    (payload c rejected range).of u = c.of u := by
  have entries := sum_lookup c.users range (fun a => (a.bytesUp,a.bytesDown,a.conns)) u
  rw [Collector.of,← entries,StatsPayload.of,payload,map_map]
  rfl

theorem of_recordBytes (username country : Text) (bytesUp bytesDown : Nat) (u : Text) :
    Collector.of { c with toStatsCollector := recordBytes c.toStatsCollector now username country bytesUp bytesDown } u =
      c.of u + if u = username ∧ username ≠ [] then (bytesUp,bytesDown,1) else 0 := by
  unfold recordBytes
  by_cases nobody : username = []
  · simp [nobody]
  · rw [if_neg nobody]
    simp only [Collector.of]
    by_cases same : u = username
    · subst same
      cases known : c.users.lookup u <;> simp [nobody]
    · simp [same]

def StatsPayload.Something (p : StatsPayload) : Prop :=
  (∃ u, 0 < (p.of u).2.2) ∨ p.sessions ≠ [] ∨ 0 < p.rejectedSessions

structure Counted (s : Exit) : Prop where
  held : ∀ u a, s.collector.users.lookup u = some a → 0 < a.conns
  posting : ∀ p, s.flight = .posting p → p.Something

theorem payload_something {c : Collector} {rejected : Nat}
    (held : ∀ u a, c.users.lookup u = some a → 0 < a.conns)
    (some_ : ¬ (c.users.size = 0 ∧ c.completedSessions = [] ∧ rejected = 0)) : (payload c rejected range).Something := by
  by_cases users : c.users.size = 0
  · by_cases sessions : c.completedSessions = []
    · exact .inr (.inr (Nat.pos_of_ne_zero (fun none_ => some_ ⟨users,sessions,none_⟩)))
    · exact .inr (.inl (by simpa [payload] using sessions))
  · left
    obtain ⟨e,member⟩ := exists_mem_of_length_pos (Nat.pos_of_ne_zero users)
    have found : c.users.lookup e.1 = some e.2 := AList.mem_lookup_iff.mpr member
    refine ⟨e.1,?_⟩
    rw [payload_of,Collector.of,found]
    exact held e.1 e.2 found

section
variable {s : Exit}

theorem counted_step (counted : Counted s) (i : Event) : Counted (step s i).1 := by
  cases i with
  | recordBytes username country bytesUp bytesDown =>
    refine ⟨?_,counted.posting⟩
    intro u a found
    simp only [step,recordBytes] at found
    split at found
    · exact counted.held u a found
    · rcases Table.of_lookup_insert found with ⟨-,rfl⟩ | ⟨-,old⟩
      · exact Nat.succ_pos _
      · exact counted.held u a old
  | recordRejectedSession => exact ⟨counted.held,counted.posting⟩
  | sweep range => exact ⟨counted.held,counted.posting⟩
  | waits d => exact ⟨counted.held,counted.posting⟩
  | flush range ok =>
    simp only [step,flush]
    cases flight : s.flight with
    | idle => exact ⟨counted.held,fun p other => by cases other⟩
    | posting p => exact ⟨counted.held,fun p other => by cases other⟩
    | swapped rejected =>
      simp only [collect]
      split
      · exact ⟨counted.held,fun p other => by cases other⟩
      · rename_i some_
        constructor
        · intro u a none_
          cases none_
        grind [payload_something,counted.held]

theorem balanced_collect (balanced : Balanced s) {rejected : Nat} (flight : s.flight = .swapped rejected)
    (range : Table.Range Text UserAccum) :
    Balanced { s with collector := (collect s.collector rejected range).1, flight := (collect s.collector rejected range).2 } := by
  obtain ⟨users,sessions,rejections⟩ := balanced
  simp only [flight] at users sessions rejections
  unfold collect
  split
  · rename_i nothing
    obtain ⟨-,-,rfl⟩ := nothing
    exact ⟨users,sessions,rejections⟩
  · refine ⟨?_,?_,rejections⟩
    · intro u
      simp only [Flight.of,payload_of] at users ⊢
      exact users u
    · simpa [Flight.sessions,payload] using sessions

theorem balanced_step (balanced : Balanced s) {i : Event} (delivers : Delivers s i) : Balanced (step s i).1 := by
  obtain ⟨users,sessions,rejections⟩ := balanced
  cases i with
  | recordBytes username country bytesUp bytesDown =>
    refine ⟨?_,sessions,rejections⟩
    intro u
    show _ + _ + Collector.of { s.collector with toStatsCollector := _ } u = s.recorded u + _
    rw [of_recordBytes,← users u,add_assoc,add_assoc,add_assoc]
    rfl
  | recordRejectedSession =>
    refine ⟨users,sessions,?_⟩
    simp only [step]
    omega
  | sweep range =>
    refine ⟨users,?_,rejections⟩
    simp only [step,sweep,map_append]
    rw [← append_assoc,sessions]
  | waits d => exact ⟨users,sessions,rejections⟩
  | flush range ok =>
    cases flight : s.flight with
    | idle =>
      simp only [flight,Flight.rejected] at users sessions rejections
      simp only [step,flush,flight]
      exact ⟨users,sessions,by simp only [Flight.rejected]; omega⟩
    | swapped rejected =>
      have kept := balanced_collect ⟨users,sessions,rejections⟩ flight range
      simp only [step,flush,flight]
      exact kept
    | posting p =>
      obtain rfl : ok = true := delivers p flight
      simp only [flight,Flight.sessions] at users sessions rejections
      simp only [step,flush,flight]
      refine ⟨?_,?_,?_⟩
      · intro u
        simpa [Flight.of] using users u
      · simpa [Flight.sessions] using sessions
      · simpa [Flight.rejected] using rejections

theorem delivers_of_balanced (counted : Counted s) (balanced : Balanced s) {i : Event} (after : Balanced (step s i).1) :
    Delivers s i := by
  cases i with
  | flush range ok =>
    intro p flight
    by_contra failed
    obtain rfl : ok = false := by simpa using failed
    obtain ⟨users,sessions,rejections⟩ := balanced
    obtain ⟨users',sessions',rejections'⟩ := after
    simp only [step,flush,flight,Flight.of,Flight.sessions,Flight.rejected] at users sessions rejections users' sessions' rejections'
    rcases counted.posting p flight with ⟨u,pos⟩ | some_ | pos
    · have lost : p.of u = 0 := by
        have same := (users u).trans (users' u).symm
        simpa using same
      rw [lost] at pos
      exact absurd pos (by decide)
    · have same := sessions.trans sessions'.symm
      exact some_ (by simpa using same)
    · grind
  | _ => trivial

end

/-- In a run of records, sweeps and flushes, what was delivered, taken or is held is all that
    was recorded at every moment, exactly if every post succeeds. -/
theorem delivered_and_held_iff (clock : Int) (events : List Event) :
    (∀ first rest, events = first ++ rest → Balanced (final step (start clock) first)) ↔
      Along step Delivers (start clock) events := by
  have balanced : Balanced (start clock) := ⟨fun u => rfl,rfl,rfl⟩
  have counted : Counted (start clock) := by
    constructor
    · intro u a none_
      cases none_
    · intro p other
      cases other
  exact states_iff_along (P := Balanced) (J := Counted)
    (fun s i holds side meets => ⟨balanced_step holds meets,counted_step side i⟩)
    (fun s i holds side after => delivers_of_balanced side holds after) events (start clock) balanced counted

def failedPost : List Event :=
  [.recordBytes ['u'] [] 5 7,.flush (.asKept _ _) false,.flush (.asKept _ _) false,.flush (.asKept _ _) false]

/-- What a failed post carried is neither delivered nor held. -/
theorem lost_with_post : ¬ ∀ clock events, Balanced (final step (start clock) events) := by
  intro all
  have users := (all 0 failedPost).users ['u']
  have held : (final step (start 0) failedPost).collector.of ['u'] = 0 := by decide
  have recorded : (final step (start 0) failedPost).recorded ['u'] = (5,7,1) := by decide
  have delivered : (final step (start 0) failedPost).delivered = [] := by decide
  have flight : (final step (start 0) failedPost).flight = .idle := by decide
  rw [held,recorded,delivered,flight] at users
  exact absurd users (by decide)

end TunnelCat.StatsReports
