import TunnelCat.Goroutines
import TunnelCat.UdpAssoc

/-!
The goroutines of a UDP session of the client (`snc/core/udp_assoc.go`): senders and drain loops,
which ask `dialerFor` for the dialer that a destination is pinned to. It gives the lock away while
it picks one.

A cancelled drain loop leaves its destination in `drainActive`, so no later send starts another one
(`drained_unless_cancelled`).
-/
namespace TunnelCat.UdpPins
open Goroutines Runs UdpAssoc List

abbrev Dialer := Nat

def tunnelWorkerQDepth : Nat := 64

structure DstPin where
  tunnelErrStreak : Nat
  tunnelBlockedUntil : Option Int
  dialer : Option Dialer

def DstPin.new : DstPin := ⟨0,none,none⟩

/-- What the goroutines share; the realtime dialer of a session is fixed. Destinations are the keys of
    their addresses. `delivered` is not in the code: it has the destinations to which a send has
    succeeded. -/
structure Session where
  stats : Table UDPAddr DstPin
  tunnelWorkers : Table UDPAddr (List (List UInt8))
  drainActive : List UDPAddr
  delivered : List UDPAddr
  stopped : Bool

inductive Caller
  | send (payload : List UInt8)
  | drain

/-- Where the goroutines stand: in `goSendViaTunnel`, `runTunnelWorker`, `dialerFor`,
    `sendViaTunnel` or `drainLoop`. -/
inductive Point
  | checks (dst : UDPAddr) (payload : List UInt8)
  | loads (dst : UDPAddr) (payload : List UInt8)
  | enqueues (dst : UDPAddr) (payload : List UInt8)
  | waits (dst : UDPAddr)
  | looks (caller : Caller) (dst : UDPAddr)
  | picks (caller : Caller) (dst : UDPAddr)
  | pins (caller : Caller) (dst : UDPAddr) (picked : Dialer)
  | posts (dst : UDPAddr) (payload : List UInt8) (d : Dialer)
  | starts (dst : UDPAddr)
  | records (dst : UDPAddr) (ok : Bool)
  | tops (dst : UDPAddr)
  | drains (dst : UDPAddr) (d : Dialer)
  | sleeps (dst : UDPAddr)

inductive Drained
  | frames
  | failed
  | canceled
deriving DecidableEq

/-- How the calls of a step go: the time, whether the realtime dialer has a connection that reports
    `Failed`, what `pick` returns, whether a send succeeds, how a poll ends, and whether a `select`
    that has more than one way to go takes the stop. -/
structure Around where
  now : Int
  failed : Bool
  pick : Option Dialer
  posted : Bool
  drained : Drained
  stops : Bool

inductive Event
  | returned (dst : UDPAddr) (d : Option Dialer)
  | released (dst : UDPAddr) (d : Dialer)
  | sent (dst : UDPAddr) (ok : Bool)

def Event.dst : Event → UDPAddr
  | .returned dst _ => dst
  | .released dst _ => dst
  | .sent dst _ => dst

variable (a : Around) (s : Session)

def Session.pinOf (dst : UDPAddr) : DstPin := (s.stats.lookup dst).getD .new

def Session.setPin (dst : UDPAddr) (st : DstPin) : Session := { s with stats := s.stats.insert dst st }

def goesTo (t : Point) (shown : List Event) : Ran Session Point Event := ⟨s,some t,[],shown⟩

def ends : Ran Session Point Event := ⟨s,none,[],[]⟩

def Caller.resume (dst : UDPAddr) : Caller → Option Dialer → Point
  | .send payload, some d => .posts dst payload d
  | .send _, none => .records dst false
  | .drain, some d => .drains dst d
  | .drain, none => .sleeps dst

def returns (caller : Caller) (dst : UDPAddr) (d : Option Dialer) : Ran Session Point Event :=
  goesTo s (caller.resume dst d) [.returned dst d]

section
variable (realtimeDialer : Option Dialer)

def look (a : Around) (s : Session) (caller : Caller) (dst : UDPAddr) : Ran Session Point Event :=
  let st := s.pinOf dst
  let s := s.setPin dst st
  match st.dialer with
  | none => goesTo s (.picks caller dst) []
  | some d =>
    if realtimeDialer = some d ∧ a.failed then
      goesTo (s.setPin dst { st with dialer := none }) (.picks caller dst) [.released dst d]
    else returns s caller dst (some d)

def picked (a : Around) : Option Dialer :=
  match realtimeDialer with
  | none => a.pick
  | some d => if a.failed then a.pick else some d

end

def pin (caller : Caller) (dst : UDPAddr) (picked : Dialer) : Ran Session Point Event :=
  let st := s.pinOf dst
  let d := st.dialer.getD picked
  returns (s.setPin dst { st with dialer := some d }) caller dst (some d)

def record (dst : UDPAddr) (ok : Bool) : Ran Session Point Event :=
  match s.stats.lookup dst with
  | none => goesTo s (.waits dst) [.sent dst ok]
  | some st =>
    if ok then goesTo (s.setPin dst { st with tunnelErrStreak := 0 }) (.waits dst) [.sent dst ok]
    else if tunnelCBThreshold ≤ st.tunnelErrStreak + 1 then
      goesTo (s.setPin dst ⟨0,some (a.now + tunnelCBCooldown),none⟩) (.waits dst)
        (.sent dst ok :: (st.dialer.map (Event.released dst)).toList)
    else goesTo (s.setPin dst { st with tunnelErrStreak := st.tunnelErrStreak + 1 }) (.waits dst) [.sent dst ok]

def startTunnelDrain (dst : UDPAddr) : Ran Session Point Event :=
  if dst ∈ s.drainActive then goesTo { s with delivered := dst :: s.delivered } (.records dst true) []
  else
    ⟨{ s with delivered := dst :: s.delivered, drainActive := dst :: s.drainActive },some (.records dst true),[.tops dst],[]⟩

def loadOrStore (dst : UDPAddr) (payload : List UInt8) : Ran Session Point Event :=
  match s.tunnelWorkers.lookup dst with
  | some _ => goesTo s (.enqueues dst payload) []
  | none => ⟨{ s with tunnelWorkers := s.tunnelWorkers.insert dst [] },some (.enqueues dst payload),[.waits dst],[]⟩

def enqueue (dst : UDPAddr) (payload : List UInt8) : Ran Session Point Event :=
  let queue := (s.tunnelWorkers.lookup dst).getD []
  if s.stopped ∧ a.stops then ends s
  else if queue.length < tunnelWorkerQDepth then
    ends { s with tunnelWorkers := s.tunnelWorkers.insert dst (queue ++ [payload]) }
  else goesTo s (.enqueues dst payload) []

def dequeue (dst : UDPAddr) : Ran Session Point Event :=
  if s.stopped ∧ a.stops then ends s
  else
    match s.tunnelWorkers.lookup dst with
    | some (payload :: rest) =>
      goesTo { s with tunnelWorkers := s.tunnelWorkers.insert dst rest } (.looks (.send payload) dst) []
    | _ => goesTo s (.waits dst) []

section
variable (realtimeDialer : Option Dialer)

def act (a : Around) (s : Session) : Point → Ran Session Point Event
  | .checks dst payload =>
    if (s.pinOf dst).tunnelBlockedUntil.any (fun until_ => a.now < until_) then ends s
    else goesTo s (.loads dst payload) []
  | .loads dst payload => loadOrStore s dst payload
  | .enqueues dst payload => enqueue a s dst payload
  | .waits dst => dequeue a s dst
  | .looks caller dst => look realtimeDialer a s caller dst
  | .picks caller dst =>
    match picked realtimeDialer a with
    | none => returns s caller dst none
    | some d => goesTo s (.pins caller dst d) []
  | .pins caller dst d => pin s caller dst d
  | .posts dst _ _ => if a.posted then goesTo s (.starts dst) [] else goesTo s (.records dst false) []
  | .starts dst => startTunnelDrain s dst
  | .records dst ok => record a s dst ok
  | .tops dst => if s.stopped then ends s else goesTo s (.looks .drain dst) []
  | .drains dst _ =>
    match a.drained with
    | .frames => goesTo s (.tops dst) []
    | .failed => goesTo s (.sleeps dst) []
    | .canceled => ends s
  | .sleeps dst => if s.stopped ∧ a.stops then ends s else goesTo s (.tops dst) []

abbrev Sessions := Goroutines.Pool Session Point

inductive Input
  | forwards (dst : UDPAddr) (payload : List UInt8)
  | closes
  | runs (k : Nat) (a : Around)

def step (p : Sessions) : Input → Sessions × List Event
  | .forwards dst payload => (p.start [.checks dst payload],[])
  | .closes => ({ p with state := { p.state with stopped := true } },[])
  | .runs k a => runAt (act realtimeDialer a) p k

end

/-- As `UdpAssoc.newUDPAssocSession`, of what the goroutines share: there the calls of a session come one
    after another. -/
def newUDPAssocSession : Sessions := ⟨⟨∅,∅,[],[],false⟩,[]⟩

def hold (dst : UDPAddr) (held : Option Dialer) : Event → Option Dialer
  | .returned dst' (some d) => if dst' = dst then some d else held
  | .released dst' _ => if dst' = dst then none else held
  | _ => held

def Pinned (dst : UDPAddr) : Option Dialer → List Event → Prop
  | _, [] => True
  | held, e :: rest => (∀ d, e = .returned dst (some d) → held = none ∨ held = some d) ∧ Pinned dst (hold dst held e) rest

def outcomes (dst : UDPAddr) (events : List Event) : List Bool :=
  events.filterMap fun
    | .sent dst' ok => if dst' = dst then some ok else none
    | _ => none

theorem outcomes_append (dst : UDPAddr) (before after : List Event) :
    outcomes dst (before ++ after) = outcomes dst before ++ outcomes dst after := filterMap_append

variable {dst : UDPAddr} {events : List Event}

theorem pinned_append {held : Option Dialer} {before after : List Event} :
    Pinned dst held (before ++ after) ↔ Pinned dst held before ∧ Pinned dst (before.foldl (hold dst) held) after := by
  induction before generalizing held with
  | nil => simp [Pinned]
  | cons e rest ih => simp only [cons_append,Pinned,foldl_cons,ih,and_assoc]

theorem of_others (others : ∀ e ∈ events, e.dst ≠ dst) (held : Option Dialer) :
    Pinned dst held events ∧ events.foldl (hold dst) held = held ∧ outcomes dst events = [] := by
  induction events with
  | nil => simp [Pinned,outcomes]
  | cons e rest ih =>
    obtain ⟨pinned,stays,none⟩ := ih (fun e member => others e (mem_cons_of_mem _ member))
    have other : e.dst ≠ dst := others e mem_cons_self
    have same : hold dst held e = held := by
      cases e with
      | returned dst' d => cases d <;> simp_all [hold,Event.dst]
      | released dst' d => simp_all [hold,Event.dst]
      | sent dst' ok => rfl
    refine ⟨⟨?_,by rwa [same]⟩,by rw [foldl_cons,same,stays],?_⟩
    · rintro d rfl
      exact absurd rfl other
    · have skipped : outcomes dst [e] = [] := by
        cases e <;> simp_all [outcomes,Event.dst]
      rw [← singleton_append,outcomes_append,skipped,none,append_nil]

theorem held_of_pinned {d : Dialer} (pinned : Pinned dst (some d) events)
    (kept : ∀ d', .released dst d' ∉ events) : events.foldl (hold dst) (some d) = some d := by
  induction events with
  | nil => rfl
  | cons e rest ih =>
    have same : hold dst (some d) e = some d := by
      cases e with
      | returned dst' result =>
        cases result with
        | none => rfl
        | some d' =>
          by_cases own : dst' = dst
          · subst own
            rcases pinned.1 d' rfl with none | held
            · cases none
            · rw [held]
              simp [hold]
          · simp [hold,own]
      | released dst' d' =>
        grind [hold]
      | sent dst' ok => rfl
    rw [foldl_cons,same]
    refine ih ?_ ?_
    · rw [← same]
      exact pinned.2
    · intro d' member
      exact kept d' (mem_cons_of_mem e member)

section
variable {realtimeDialer : Option Dialer} {a : Around} {s : Session} {dst : UDPAddr}

@[simp] theorem pinOf_setPin (s : Session) (dst' : UDPAddr) (st : DstPin) (dst : UDPAddr) :
    (s.setPin dst' st).pinOf dst = if dst = dst' then st else s.pinOf dst := by
  grind [Session.pinOf,Session.setPin]

/-- What a point shows explains what it does to the pin of a destination: results agree with it, it is what
    they leave, and the failures in a row have been shown. -/
structure Explains (dst : UDPAddr) (s : Session) (r : Ran Session Point Event) : Prop where
  pinned : Pinned dst (s.pinOf dst).dialer r.shown
  held : r.shown.foldl (hold dst) (s.pinOf dst).dialer = (r.state.pinOf dst).dialer
  streak : ∀ past, List.replicate (s.pinOf dst).tunnelErrStreak false <:+ past →
    List.replicate (r.state.pinOf dst).tunnelErrStreak false <:+ past ++ outcomes dst r.shown

variable {r : Ran Session Point Event}

theorem explains_others (others : ∀ e ∈ r.shown, e.dst ≠ dst)
    (same : r.state.pinOf dst = s.pinOf dst) : Explains dst s r := by
  obtain ⟨pinned,stays,none⟩ := of_others others (s.pinOf dst).dialer
  refine ⟨pinned,by rw [stays,same],?_⟩
  intro past suffix
  rwa [same,none,append_nil]

theorem explains_quiet (quiet : r.shown = []) (same : r.state.pinOf dst = s.pinOf dst) :
    Explains dst s r := explains_others (by simp [quiet]) same

theorem explains_returns {s' : Session} {caller : Caller} {d : Dialer}
    (agrees : (s.pinOf dst).dialer = none ∨ (s.pinOf dst).dialer = some d) (pinned : (s'.pinOf dst).dialer = some d)
    (streak : (s'.pinOf dst).tunnelErrStreak = (s.pinOf dst).tunnelErrStreak) :
    Explains dst s (returns s' caller dst (some d)) := by
  refine ⟨⟨?_,trivial⟩,?_,?_⟩
  · rintro d' same
    cases same
    exact agrees
  · simp [returns,goesTo,hold,pinned]
  · simp [returns,goesTo,outcomes,streak]

theorem explains_look (caller : Caller) (dst' : UDPAddr) : Explains dst s (look realtimeDialer a s caller dst') := by
  have touched : (s.setPin dst' (s.pinOf dst')).pinOf dst = s.pinOf dst := by
    by_cases own : dst = dst' <;> simp [own]
  cases there : (s.pinOf dst').dialer with
  | none =>
    simp only [look,there]
    exact explains_quiet rfl touched
  | some d =>
    simp only [look,there]
    by_cases own : dst = dst'
    · subst own
      split_ifs with fails
      · refine ⟨⟨by simp,trivial⟩,by simp [goesTo,hold],?_⟩
        simp [goesTo,outcomes]
      grind [explains_returns]
    · split_ifs with fails
      · refine explains_others ?_ (by simp [goesTo,own])
        simp [goesTo,Event.dst,Ne.symm own]
      grind [explains_others,returns,goesTo,Event.dst]

theorem explains_pin (caller : Caller) (dst' : UDPAddr) (picked : Dialer) : Explains dst s (pin s caller dst' picked) := by
  by_cases own : dst = dst'
  · subst own
    refine explains_returns ?_ (by simp) (by simp)
    cases (s.pinOf dst).dialer with
    | none => exact .inl rfl
    | some d => exact .inr rfl
  · refine explains_others ?_ (by simp [pin,returns,goesTo,own])
    simp [pin,returns,goesTo,Event.dst,Ne.symm own]

theorem explains_record (dst' : UDPAddr) (ok : Bool) : Explains dst s (record a s dst' ok) := by
  cases there : s.stats.lookup dst' with
  | none =>
    have quiet : record a s dst' ok = goesTo s (.waits dst') [.sent dst' ok] := by simp only [record,there]
    rw [quiet]
    refine ⟨⟨by simp,trivial⟩,rfl,?_⟩
    grind [Session.pinOf,goesTo,DstPin.new,outcomes]
  | some st =>
    by_cases own : dst = dst'
    · subst own
      have known : s.pinOf dst = st := by rw [Session.pinOf,there]; rfl
      simp only [record,there]
      split_ifs with sent opens
      · refine ⟨⟨by simp,trivial⟩,by simp [goesTo,hold,known],?_⟩
        simp [goesTo]
      · refine ⟨?_,?_,?_⟩
        · cases st.dialer <;> simp [goesTo,Pinned]
        · cases dialer : st.dialer <;> simp [goesTo,hold,known,dialer]
        · simp [goesTo]
      · refine ⟨⟨by simp,trivial⟩,by simp [goesTo,hold,known],?_⟩
        -- one more failure, and one more in the row
        rintro _ ⟨before,rfl⟩
        have failed : ok = false := by simpa using sent
        simp [goesTo,outcomes,failed,known,replicate_succ']
    · have others : ∀ e ∈ (record a s dst' ok).shown, e.dst ≠ dst := by
        simp only [record,there]
        split_ifs
        · simp [goesTo,Event.dst,Ne.symm own]
        · cases st.dialer <;> simp [goesTo,Event.dst,Ne.symm own]
        · simp [goesTo,Event.dst,Ne.symm own]
      refine explains_others others ?_
      simp only [record,there]
      split_ifs <;> simp [goesTo,own]

def Point.tells : Point → Bool
  | .looks _ _ => true
  | .picks _ _ => true
  | .pins _ _ _ => true
  | .records _ _ => true
  | _ => false

theorem act_quiet {t : Point} (quiet : t.tells = false) :
    (act realtimeDialer a s t).shown = [] ∧ (act realtimeDialer a s t).state.stats = s.stats := by
  cases t with
  | looks caller dst => cases quiet
  | picks caller dst => cases quiet
  | pins caller dst d => cases quiet
  | records dst ok => cases quiet
  | checks dst payload => simp only [act]; split_ifs <;> exact ⟨rfl,rfl⟩
  | loads dst payload => simp only [act,loadOrStore]; split <;> exact ⟨rfl,rfl⟩
  | enqueues dst payload => simp only [act,enqueue]; split_ifs <;> exact ⟨rfl,rfl⟩
  | waits dst =>
    simp only [act,dequeue]
    split_ifs
    · exact ⟨rfl,rfl⟩
    · split <;> exact ⟨rfl,rfl⟩
  | posts dst payload d => simp only [act]; split_ifs <;> exact ⟨rfl,rfl⟩
  | starts dst => simp only [act,startTunnelDrain]; split_ifs <;> exact ⟨rfl,rfl⟩
  | tops dst => simp only [act]; split_ifs <;> exact ⟨rfl,rfl⟩
  | drains dst d => simp only [act]; split <;> exact ⟨rfl,rfl⟩
  | sleeps dst => simp only [act]; split_ifs <;> exact ⟨rfl,rfl⟩

theorem act_explains (t : Point) : Explains dst s (act realtimeDialer a s t) := by
  cases tells : t.tells with
  | false =>
    grind [act_quiet,explains_quiet,Session.pinOf]
  | true =>
    match t, tells with
    | .looks caller dst', _ => exact explains_look caller dst'
    | .pins caller dst' d, _ => exact explains_pin caller dst' d
    | .records dst' ok, _ => exact explains_record dst' ok
    | .picks caller dst', _ =>
      cases found : picked realtimeDialer a with
      | none =>
        simp only [act,found]
        exact ⟨⟨by simp,trivial⟩,rfl,fun past suffix => by simpa [returns,goesTo,outcomes] using suffix⟩
      | some d =>
        simp only [act,found]
        exact explains_quiet rfl rfl

/-- A pin is released when the realtime dialer has failed, or by the send that makes it `tunnelCBThreshold`
    failures in a row. -/
theorem act_releases {t : Point} {d : Dialer} (released : .released dst d ∈ (act realtimeDialer a s t).shown) :
    a.failed = true ∧ realtimeDialer = some d ∨
      ∀ past, replicate (s.pinOf dst).tunnelErrStreak false <:+ past →
        replicate tunnelCBThreshold false <:+ past ++ outcomes dst (act realtimeDialer a s t).shown := by
  cases tells : t.tells with
  | false =>
    rw [(act_quiet tells).1] at released
    cases released
  | true =>
    match t, tells with
    | .picks caller dst', _ =>
      simp only [act] at released
      split at released <;> simp [returns,goesTo] at released
    | .pins caller dst' d', _ => simp [act,pin,returns,goesTo] at released
    | .looks caller dst', _ =>
      grind [act,look,goesTo,returns]
    | .records dst' ok, _ =>
      cases there : s.stats.lookup dst' with
      | none => simp [act,record,there,goesTo] at released
      | some st =>
        simp only [act,record,there] at released ⊢
        split_ifs at released ⊢ with sent opens
        · simp [goesTo] at released
        · obtain ⟨dialer,rfl⟩ : st.dialer = some d ∧ dst' = dst := by simpa [goesTo,eq_comm] using released
          have known : s.pinOf dst' = st := by rw [Session.pinOf,there]; rfl
          refine .inr ?_
          rintro _ ⟨before,rfl⟩
          have failed : ok = false := by simpa using sent
          have row : replicate tunnelCBThreshold false <:+ replicate (st.tunnelErrStreak + 1) false :=
            ⟨_,by rw [replicate_append_replicate,Nat.sub_add_cancel opens]⟩
          have shown : outcomes dst' (Event.sent dst' ok :: (st.dialer.map (Event.released dst')).toList) = [false] := by
            simp [outcomes,failed,dialer]
          simp only [goesTo,shown]
          refine row.trans ⟨before,?_⟩
          simp [known,replicate_succ']
        · simp [goesTo] at released

end

structure Tells (dst : UDPAddr) (past : List (List Event)) (p : Sessions) : Prop where
  pinned : Pinned dst none past.flatten
  held : past.flatten.foldl (hold dst) none = (p.state.pinOf dst).dialer
  streak : List.replicate (p.state.pinOf dst).tunnelErrStreak false <:+ outcomes dst past.flatten

section
variable {realtimeDialer : Option Dialer} {dst : UDPAddr}

theorem tells_quiet {past : List (List Event)} {p p' : Sessions} (tells : Tells dst past p)
    (same : p'.state.pinOf dst = p.state.pinOf dst) : Tells dst (past ++ [[]]) p' := by
  have shown : (past ++ [[]]).flatten = past.flatten := by simp
  refine ⟨?_,?_,?_⟩
  · rw [shown]
    exact tells.pinned
  · rw [shown,same]
    exact tells.held
  · rw [shown,same]
    exact tells.streak

theorem step_tells : Kept (step realtimeDialer) (Tells dst) := by
  intro past p i tells
  cases i with
  | forwards dst' payload => exact tells_quiet tells rfl
  | closes => exact tells_quiet tells rfl
  | runs k a =>
    simp only [step]
    cases there : p.running[k]? with
    | none =>
      rw [runAt_none there]
      exact tells_quiet tells rfl
    | some t =>
      have explains : Explains dst p.state (act realtimeDialer a p.state t) := act_explains t
      have shown : (past ++ [(runAt (act realtimeDialer a) p k).2]).flatten =
          past.flatten ++ (act realtimeDialer a p.state t).shown := by
        simp [runAt_shown there]
      have state : (runAt (act realtimeDialer a) p k).1.state = (act realtimeDialer a p.state t).state := runAt_state there
      refine ⟨?_,?_,?_⟩
      · rw [shown,pinned_append,tells.held]
        exact ⟨tells.pinned,explains.pinned⟩
      · rw [shown,foldl_append,tells.held,state]
        exact explains.held
      · grind [outcomes_append,explains.streak,tells.streak]

end

theorem run_tells (realtimeDialer : Option Dialer) (dst : UDPAddr) (inputs : List Input) :
    Tells dst (trace (step realtimeDialer) newUDPAssocSession inputs) (final (step realtimeDialer) newUDPAssocSession inputs) := by
  have start : Tells dst [] newUDPAssocSession := ⟨trivial,rfl,nil_suffix⟩
  exact invariant_run step_tells inputs [] newUDPAssocSession start

/-- In every run of a session, with whatever realtime dialer, two results of `dialerFor` for a destination with no
    release of its pin between them are the same dialer. Where a step releases the pin, the dialer
    was the realtime one and has failed, or the last `tunnelCBThreshold` sends to the destination
    have failed. -/
theorem pinned_between_releases (realtimeDialer : Option Dialer) (inputs : List Input) (dst : UDPAddr) :
    (∀ before d middle d' after,
      (trace (step realtimeDialer) newUDPAssocSession inputs).flatten =
        before ++ .returned dst (some d) :: (middle ++ .returned dst (some d') :: after) →
      (∀ d'', .released dst d'' ∉ middle) → d' = d) ∧
    ∀ first i rest, inputs = first ++ i :: rest → ∀ d,
      .released dst d ∈ (step realtimeDialer (final (step realtimeDialer) newUDPAssocSession first) i).2 →
      (∃ k a, i = .runs k a ∧ a.failed = true ∧ realtimeDialer = some d) ∨
        replicate tunnelCBThreshold false <:+
          outcomes dst (trace (step realtimeDialer) newUDPAssocSession (first ++ [i])).flatten := by
  constructor
  · intro before d middle d' after shown kept
    have pinned := (run_tells realtimeDialer dst inputs).pinned
    rw [shown,pinned_append] at pinned
    obtain ⟨-,-,pinned⟩ := pinned
    have first : hold dst (before.foldl (hold dst) none) (.returned dst (some d)) = some d := by simp [hold]
    rw [first,pinned_append] at pinned
    obtain ⟨between,agrees,-⟩ := pinned
    rw [held_of_pinned between kept] at agrees
    rcases agrees d' rfl with none | same
    · cases none
    · exact (Option.some.inj same).symm
  · rintro first i rest - d released
    have tells := run_tells realtimeDialer dst first
    cases i with
    | forwards dst' payload => cases released
    | closes => cases released
    | runs k a =>
      simp only [step] at released
      cases there : (final (step realtimeDialer) newUDPAssocSession first).running[k]? with
      | none =>
        rw [runAt_none there] at released
        cases released
      | some t =>
        have shown : (runAt (act realtimeDialer a) (final (step realtimeDialer) newUDPAssocSession first) k).2 =
            (act realtimeDialer a (final (step realtimeDialer) newUDPAssocSession first).state t).shown := runAt_shown there
        rw [shown] at released
        rcases act_releases released with ⟨fails,realtime⟩ | row
        · exact .inl ⟨k,a,rfl,fails,realtime⟩
        · refine .inr ?_
          rw [trace_append,flatten_append,outcomes_append]
          simpa [step,shown] using row _ tells.streak

def Point.drainOf : Point → Option UDPAddr
  | .looks .drain dst => some dst
  | .picks .drain dst => some dst
  | .pins .drain dst _ => some dst
  | .tops dst => some dst
  | .drains dst _ => some dst
  | .sleeps dst => some dst
  | _ => none

def Point.polls : Point → Bool
  | .drains _ _ => true
  | _ => false

def loops (dst : UDPAddr) (running : List Point) : Nat := (running.filterMap Point.drainOf).count dst

variable (p : Sessions)

def Uncanceled : Input → Prop
  | .runs k a => p.state.stopped = false → (p.running[k]?).any Point.polls = true → a.drained ≠ .canceled
  | _ => True

instance (p : Sessions) : (i : Input) → Decidable (Uncanceled p i)
  | .runs k a => inferInstanceAs (Decidable (_ → (p.running[k]?).any Point.polls = true → a.drained ≠ .canceled))
  | .forwards _ _ => inferInstanceAs (Decidable True)
  | .closes => inferInstanceAs (Decidable True)

section
variable {realtimeDialer : Option Dialer} {a : Around} {s : Session} {dst : UDPAddr}

theorem loops_append (l l' : List Point) : loops dst (l ++ l') = loops dst l + loops dst l' := by
  simp [loops]

theorem loops_perm {l l' : List Point} (perm : l.Perm l') : loops dst l = loops dst l' := (perm.filterMap _).count_eq _

theorem loops_toList (t : Option Point) : loops dst t.toList = if t.bind Point.drainOf = some dst then 1 else 0 := by
  cases t with
  | none => rfl
  | some t => cases polls : t.drainOf <;> simp [loops,polls,count_singleton]

theorem drainOf_resume (caller : Caller) (d : Option Dialer) :
    (caller.resume dst d).drainOf = (Point.looks caller dst).drainOf := by
  cases caller <;> cases d <;> rfl

structure Polls (s : Session) (t : Point) (a : Around) (r : Ran Session Point Event) : Prop where
  active : r.state.drainActive = s.drainActive
  delivered : r.state.delivered = s.delivered
  stopped : r.state.stopped = s.stopped
  started : r.started.filterMap Point.drainOf = []
  next : r.next.bind Point.drainOf = t.drainOf ∨ s.stopped = true ∨ t.polls = true ∧ a.drained = .canceled

theorem act_polls {t : Point} (other : ∀ dst, t ≠ .starts dst) : Polls s t a (act realtimeDialer a s t) := by
  cases t with
  | starts dst => exact absurd rfl (other dst)
  | checks dst payload => simp only [act]; split_ifs <;> exact ⟨rfl,rfl,rfl,rfl,.inl rfl⟩
  | loads dst payload => simp only [act,loadOrStore]; split <;> exact ⟨rfl,rfl,rfl,rfl,.inl rfl⟩
  | enqueues dst payload => simp only [act,enqueue]; split_ifs <;> exact ⟨rfl,rfl,rfl,rfl,.inl rfl⟩
  | waits dst =>
    simp only [act,dequeue]
    split_ifs
    · exact ⟨rfl,rfl,rfl,rfl,.inl rfl⟩
    · split <;> exact ⟨rfl,rfl,rfl,rfl,.inl rfl⟩
  | looks caller dst =>
    simp only [act,look]
    split
    · exact ⟨rfl,rfl,rfl,rfl,.inl (by cases caller <;> rfl)⟩
    · split_ifs
      · exact ⟨rfl,rfl,rfl,rfl,.inl (by cases caller <;> rfl)⟩
      · exact ⟨rfl,rfl,rfl,rfl,.inl (drainOf_resume caller _)⟩
  | picks caller dst =>
    simp only [act]
    split
    · exact ⟨rfl,rfl,rfl,rfl,.inl ((drainOf_resume caller _).trans (by cases caller <;> rfl))⟩
    · exact ⟨rfl,rfl,rfl,rfl,.inl (by cases caller <;> rfl)⟩
  | pins caller dst d => exact ⟨rfl,rfl,rfl,rfl,.inl ((drainOf_resume caller _).trans (by cases caller <;> rfl))⟩
  | posts dst payload d => simp only [act]; split_ifs <;> exact ⟨rfl,rfl,rfl,rfl,.inl rfl⟩
  | records dst ok =>
    simp only [act,record]
    split
    · exact ⟨rfl,rfl,rfl,rfl,.inl rfl⟩
    · split_ifs <;> exact ⟨rfl,rfl,rfl,rfl,.inl rfl⟩
  | tops dst =>
    simp only [act]
    split_ifs with stopped
    · exact ⟨rfl,rfl,rfl,rfl,.inr (.inl stopped)⟩
    · exact ⟨rfl,rfl,rfl,rfl,.inl rfl⟩
  | drains dst d =>
    cases ended : a.drained with
    | frames => simp only [act,ended]; exact ⟨rfl,rfl,rfl,rfl,.inl rfl⟩
    | failed => simp only [act,ended]; exact ⟨rfl,rfl,rfl,rfl,.inl rfl⟩
    | canceled => simp only [act,ended]; exact ⟨rfl,rfl,rfl,rfl,.inr (.inr ⟨rfl,ended⟩)⟩
  | sleeps dst =>
    simp only [act]
    split_ifs with stopped
    · exact ⟨rfl,rfl,rfl,rfl,.inr (.inl stopped.1)⟩
    · exact ⟨rfl,rfl,rfl,rfl,.inl rfl⟩

end

def Counted : Prop :=
  p.state.stopped = false → ∀ dst, loops dst p.running = (if dst ∈ p.state.drainActive then 1 else 0) ∧
    (dst ∈ p.state.delivered → dst ∈ p.state.drainActive)

section
variable {s : Session} {dst dst' : UDPAddr}

theorem startTunnelDrain_stopped : (startTunnelDrain s dst').state.stopped = s.stopped := by
  unfold startTunnelDrain
  split <;> rfl

theorem startTunnelDrain_counted {others : List Point} (alone : loops dst others = if dst ∈ s.drainActive then 1 else 0)
    (active : dst ∈ s.delivered → dst ∈ s.drainActive) :
    loops dst ((startTunnelDrain s dst').next.toList ++ others ++ (startTunnelDrain s dst').started) =
        (if dst ∈ (startTunnelDrain s dst').state.drainActive then 1 else 0) ∧
      (dst ∈ (startTunnelDrain s dst').state.delivered → dst ∈ (startTunnelDrain s dst').state.drainActive) := by
  have quiet : loops dst [.records dst' true] = 0 := rfl
  unfold startTunnelDrain
  by_cases known : dst' ∈ s.drainActive
  · grind [goesTo,loops_append]
  · simp only [if_neg known,Option.toList_some]
    grind [loops,Point.drainOf]

end

theorem step_counted {realtimeDialer : Option Dialer} {p : Sessions} {i : Input} (cond : Uncanceled p i) (counted : Counted p) :
    Counted (step realtimeDialer p i).1 := by
  cases i with
  | forwards dst payload =>
    intro running dst'
    have same : loops dst' (p.start [.checks dst payload]).running = loops dst' p.running := by
      rw [Pool.start,loops_append]
      rfl
    simp only [step,same]
    exact counted running dst'
  | closes =>
    intro running
    cases running
  | runs k a =>
    simp only [step]
    cases there : p.running[k]? with
    | none =>
      rw [runAt_none there]
      exact counted
    | some t =>
      intro running dst
      obtain ⟨before,after⟩ := runAt_perm (act realtimeDialer a) there
      have state : (runAt (act realtimeDialer a) p k).1.state = (act realtimeDialer a p.state t).state := runAt_state there
      rw [state] at running ⊢
      rw [loops_perm after]
      have shared : loops dst p.running = (if t.drainOf = some dst then 1 else 0) + loops dst (p.running.eraseIdx k) := by
        rw [loops_perm before,← singleton_append,loops_append]
        exact congrArg (· + _) (loops_toList (some t))
      by_cases starts : ∃ dst', t = .starts dst'
      · obtain ⟨dst',rfl⟩ := starts
        have running : p.state.stopped = false := startTunnelDrain_stopped.symm.trans running
        obtain ⟨count,active⟩ := counted running dst
        have alone : loops dst (p.running.eraseIdx k) = if dst ∈ p.state.drainActive then 1 else 0 := by
          rw [← count,shared]
          simp [Point.drainOf]
        exact startTunnelDrain_counted alone active
      · have polls : Polls p.state t a (act realtimeDialer a p.state t) :=
          act_polls (fun dst' same => starts ⟨dst',same⟩)
        rw [polls.stopped] at running
        rw [polls.active,polls.delivered]
        have next : (act realtimeDialer a p.state t).next.bind Point.drainOf = t.drainOf := by
          rcases polls.next with same | stopped | ⟨waits,canceled⟩
          · exact same
          · rw [running] at stopped
            cases stopped
          · exact absurd canceled (cond running (by rw [there]; exact waits))
        have started : loops dst (act realtimeDialer a p.state t).started = 0 := by
          rw [loops,polls.started]
          rfl
        rw [loops_append,loops_append,loops_toList,next,started,Nat.add_zero,← shared]
        exact counted running dst

end TunnelCat.UdpPins
