import TunnelCat.Durations
import TunnelCat.Runs
import TunnelCat.Table

/-!
The traffic monitor of the client (`snc/core/watchdog.go`), which reports the tunnel as stuck when every
connection that has sent lately looks one-sided. One whose last receipt is old counts as one-sided also when
it had nothing to be answered until a moment ago.
-/
namespace TunnelCat.Watchdog
open Durations Runs List Table

def tunnelStuckTimeout : Nat := 10 * second

def connActivityTTL : Nat := 120 * second

abbrev ConnID := List Char

inductive Mark
  | sent (time : Nat)
  | recv (time : Nat)

/-- The times of a connection, none for Go's zero time. `log` has what was sent and received
    since the entry was created, the newest first; the code does not keep it. -/
structure ConnActivity where
  firstSentAt : Option Nat
  lastSentAt : Option Nat
  lastGoodRecvAt : Option Nat
  log : List Mark

structure Monitor where
  clock : Nat
  conns : Table ConnID ConnActivity
  lastAnyRecvAt : Option Nat

def Monitor.fresh : Monitor := ⟨0,∅,none⟩

variable (now : Nat) (m : Monitor) (order : List ConnID) (log : List Mark) (connID : ConnID)

def longer (time : Option Nat) (d : Nat) : Bool :=
  match time with
  | none => true
  | some t => d < now - t

def entry : ConnActivity := (m.conns.lookup connID).getD ⟨none,none,none,[]⟩

def recordTunnelSent (n : Nat) : Monitor :=
  if n = 0 ∨ connID = [] then m
  else
    let c := entry m connID
    let first := if c.firstSentAt = none then some m.clock else c.firstSentAt
    { m with conns := m.conns.insert connID ⟨first,some m.clock,c.lastGoodRecvAt,.sent m.clock :: c.log⟩ }

def recordTunnelRecv (n : Nat) : Monitor :=
  if n = 0 ∨ connID = [] then m
  else
    let c := entry m connID
    { m with conns := m.conns.insert connID { c with lastGoodRecvAt := some m.clock, log := .recv m.clock :: c.log } }

def recordAnyResponse : Monitor := { m with lastAnyRecvAt := some m.clock }

def forget : Monitor :=
  if connID = [] then m else { m with conns := m.conns.erase connID }

inductive Verdict
  | stale
  | idle
  | alive
  | stuck
deriving DecidableEq

def judge (c : ConnActivity) : Verdict :=
  if longer now c.lastSentAt connActivityTTL then .stale
  else if longer now c.lastSentAt tunnelStuckTimeout then .idle
  else
    match c.lastGoodRecvAt with
    | none => if longer now c.firstSentAt tunnelStuckTimeout then .stuck else .alive
    | some r => if longer now (some r) tunnelStuckTimeout then .stuck else .alive

def scan (now : Nat) : List ConnID → Table ConnID ConnActivity → Bool → Table ConnID ConnActivity × Bool
  | [], conns, saw => (conns,saw)
  | connID :: rest, conns, saw =>
    match conns.lookup connID with
    | none => scan now rest conns saw
    | some c =>
      match judge now c with
      | .stale => scan now rest (conns.erase connID) saw
      | .idle => scan now rest conns saw
      | .alive => (conns,false)
      | .stuck => scan now rest conns true

def walk (conns : Table ConnID ConnActivity) : List ConnID :=
  if order.isPerm conns.keys then order else conns.keys

def isStuck : Monitor × Bool :=
  if longer m.clock m.lastAnyRecvAt tunnelStuckTimeout then
    let (conns, stuck) := scan m.clock (walk order m.conns) m.conns false
    ({ m with conns := conns },stuck)
  else (m,false)

inductive Event
  | sent (connID : ConnID) (n : Nat)
  | recv (connID : ConnID) (n : Nat)
  | response
  | forget (connID : ConnID)
  | reset
  | check (order : List ConnID)

structure Input where
  elapsed : Nat
  event : Event

def handle : Event → Monitor × Option Bool
  | .sent connID n => (recordTunnelSent m connID n,none)
  | .recv connID n => (recordTunnelRecv m connID n,none)
  | .response => (recordAnyResponse m,none)
  | .forget connID => (forget m connID,none)
  | .reset => ({ m with conns := ∅ },none)
  | .check order => ((isStuck m order).1,some (isStuck m order).2)

def Monitor.advance (elapsed : Nat) : Monitor := { m with clock := m.clock + elapsed }

def step (i : Input) : Monitor × Option Bool := handle (m.advance i.elapsed) i.event

def after (inputs : List Input) (elapsed : Nat) : Monitor := (final step .fresh inputs).advance elapsed

def sends : List Nat := log.filterMap (fun m => match m with | .sent t => some t | .recv _ => none)

def recvs : List Nat := log.filterMap (fun m => match m with | .sent _ => none | .recv t => some t)

def Mark.time : Mark → Nat
  | .sent t => t
  | .recv t => t

/-- The payloads sent since the last receipt, the newest first. -/
def pending : List Mark → List Nat
  | [] => []
  | .recv _ :: _ => []
  | .sent t :: rest => t :: pending rest

structure Exact (now : Nat) (c : ConnActivity) : Prop where
  first : c.firstSentAt = (sends c.log).getLast?
  last : c.lastSentAt = (sends c.log).head?
  recv : c.lastGoodRecvAt = (recvs c.log).head?
  ordered : (c.log.map Mark.time).Pairwise (· ≥ ·)
  past : ∀ m ∈ c.log, m.time ≤ now

def Monitor.Exact (m : Monitor) : Prop := ∀ connID c, m.conns.lookup connID = some c → Watchdog.Exact m.clock c

section
variable {now : Nat} {c : ConnActivity}

variable (t : Nat) (log : List Mark)

@[simp] theorem sends_sent : sends (.sent t :: log) = t :: sends log := rfl

@[simp] theorem sends_recv : sends (.recv t :: log) = sends log := rfl

@[simp] theorem recvs_sent : recvs (.sent t :: log) = recvs log := rfl

@[simp] theorem recvs_recv : recvs (.recv t :: log) = t :: recvs log := rfl

theorem sends_sublist : (sends log).Sublist (log.map Mark.time) := by
  induction log with
  | nil => simp [sends]
  | cons m rest ih =>
    cases m with
    | sent t => exact ih.cons_cons t
    | recv t => exact ih.cons t

theorem pending_sublist : (pending log).Sublist (sends log) := by
  induction log with
  | nil => simp [pending]
  | cons m rest ih =>
    cases m with
    | sent t => exact ih.cons_cons t
    | recv t => simp [pending]

theorem pending_all {log : List Mark} (none : recvs log = []) : pending log = sends log := by
  induction log with
  | nil => rfl
  | cons m rest ih =>
    cases m with
    | sent t => simp [pending,ih (by simpa using none)]
    | recv t => simp at none

theorem exact_new (now : Nat) : Exact now ⟨none,none,none,[]⟩ := ⟨rfl,rfl,rfl,by simp,by simp⟩

variable (exact : Exact now c)
include exact

theorem Exact.later {now' : Nat} (le : now ≤ now') : Exact now' c :=
  ⟨exact.first,exact.last,exact.recv,exact.ordered,fun m member => le_trans (exact.past m member) le⟩

theorem Exact.mark {m : Mark} (time : m.time = now) :
    ((m :: c.log).map Mark.time).Pairwise (· ≥ ·) ∧ ∀ m' ∈ m :: c.log, m'.time ≤ now := by
  grind [pairwise_cons,exact.ordered,exact.past]

theorem exact_sent :
    Exact now ⟨if c.firstSentAt = none then some now else c.firstSentAt,some now,c.lastGoodRecvAt,.sent now :: c.log⟩ := by
  obtain ⟨ordered,past⟩ := exact.mark (m := .sent now) rfl
  refine ⟨?_,rfl,exact.recv,ordered,past⟩
  rw [exact.first,sends_sent,getLast?_cons]
  cases (sends c.log).getLast? <;> simp

theorem exact_recv :
    Exact now { c with lastGoodRecvAt := some now, log := .recv now :: c.log } := by
  obtain ⟨ordered,past⟩ := exact.mark (m := .recv now) rfl
  exact ⟨exact.first,exact.last,rfl,ordered,past⟩

end

variable {connID} {c : ConnActivity} {m}

theorem scan_lookup {now : Nat} :
    ∀ {conns : Table ConnID ConnActivity} {saw : Bool}, (scan now order conns saw).1.lookup connID = some c →
      conns.lookup connID = some c := by
  induction order with
  | nil => intro conns saw found; exact found
  | cons first rest ih =>
    grind [scan]

theorem scan_true {now : Nat} :
    ∀ {conns : Table ConnID ConnActivity} {saw : Bool}, (scan now order conns saw).2 = true →
      (∀ connID ∈ order, ∀ c, conns.lookup connID = some c → judge now c ≠ .alive) ∧
      (saw = true ∨ ∃ connID c, conns.lookup connID = some c ∧ judge now c = .stuck) := by
  induction order with
  | nil => intro conns saw stuck; exact ⟨by simp,.inl stuck⟩
  | cons first rest ih =>
    intro conns saw stuck
    grind [scan]

theorem entry_exact (exact : m.Exact) (connID : ConnID) : Exact m.clock (entry m connID) := by
  unfold entry
  cases found : m.conns.lookup connID with
  | none => exact exact_new m.clock
  | some c => exact exact connID c found

theorem insert_exact (exact : m.Exact) (own : Exact m.clock c) :
    Monitor.Exact { m with conns := m.conns.insert connID c } := by
  intro other c' found
  rcases of_lookup_insert found with ⟨_,rfl⟩ | ⟨_,old⟩
  · exact own
  · exact exact other c' old

theorem handle_exact (exact : m.Exact) (e : Event) : (handle m e).1.Exact := by
  cases e with
  | sent connID n =>
    grind [handle,recordTunnelSent,insert_exact,exact_sent,entry_exact]
  | recv connID n =>
    grind [handle,recordTunnelRecv,insert_exact,exact_recv,entry_exact]
  | response => exact exact
  | forget connID =>
    unfold handle forget
    dsimp only
    split_ifs
    · exact exact
    · exact fun other c found => exact other c (of_lookup_erase found).2
  | reset => exact fun other c found => by simp [handle] at found
  | check order =>
    unfold handle isStuck
    split_ifs
    · exact fun other c found => exact other c (scan_lookup _ found)
    · exact exact

theorem advance_exact (exact : m.Exact) (elapsed : Nat) : (m.advance elapsed).Exact :=
  fun connID c found => (exact connID c found).later (Nat.le_add_right _ _)

theorem after_exact (inputs : List Input) (elapsed : Nat) : (after inputs elapsed).Exact := by
  have begins : Monitor.fresh.Exact := fun connID c found => by simp [Monitor.fresh] at found
  have kept : (final step .fresh inputs).Exact :=
    state_along (P := Monitor.Exact) (fun m i _ exact => handle_exact (advance_exact exact i.elapsed) i.event)
      (along_of_forall inputs (fun _ _ _ => trivial) _) begins
  exact advance_exact kept elapsed

def Recent : Prop := ∃ t ∈ sends log, now ≤ t + tunnelStuckTimeout

def Unanswered : Prop := ∃ t ∈ pending log, t + tunnelStuckTimeout < now

/-- A connection has sent payload lately, and every one that has is waiting for an answer
    for longer than `tunnelStuckTimeout`. -/
structure Sound (m : Monitor) : Prop where
  recent : ∃ connID c, m.conns.lookup connID = some c ∧ Recent m.clock c.log
  waiting : ∀ connID c, m.conns.lookup connID = some c → Recent m.clock c.log → Unanswered m.clock c.log

/-- A connection has been answered and took up sending again within the last `tunnelStuckTimeout`. -/
def Resumed : Prop :=
  recvs log ≠ [] ∧ ∃ t, (pending log).getLast? = some t ∧ now ≤ t + tunnelStuckTimeout

section
variable {now : Nat} {c : ConnActivity} {t : Nat} {times : List Nat}

theorem longer_some {d : Nat} : longer now (some t) d = true ↔ t + d < now := by
  simp only [longer,decide_eq_true_eq]
  omega

theorem le_head (ordered : times.Pairwise (· ≥ ·)) (newest : times.head? = some t) :
    ∀ s ∈ times, s ≤ t := by
  cases times with
  | nil => simp at newest
  | cons a rest =>
    have same : a = t := by simpa using newest
    subst same
    simpa using (pairwise_cons.mp ordered).1

theorem getLast_le (ordered : times.Pairwise (· ≥ ·)) (oldest : times.getLast? = some t) :
    ∀ s ∈ times, t ≤ s := by
  obtain ⟨before,rfl⟩ := getLast?_eq_some_iff.mp oldest
  intro s member
  rcases mem_append.mp member with old | own
  · exact (pairwise_append.mp ordered).2.2 s old t (by simp)
  · rw [mem_singleton.mp own]

theorem recent_iff (exact : Exact now c) : Recent now c.log ↔ longer now c.lastSentAt tunnelStuckTimeout = false := by
  have ordered : (sends c.log).Pairwise (· ≥ ·) := exact.ordered.sublist (sends_sublist c.log)
  rw [exact.last,Bool.eq_false_iff]
  cases newest : (sends c.log).head? with
  | none => simp [Recent,longer,List.head?_eq_none_iff.mp newest]
  | some t =>
    rw [ne_eq,longer_some]
    constructor
    · rintro ⟨s,member,recent⟩
      have := le_head ordered newest s member
      omega
    · intro recent
      exact ⟨t,mem_of_mem_head? newest,by omega⟩

theorem judge_recent (recent : longer now c.lastSentAt tunnelStuckTimeout = false) (dead : judge now c ≠ .alive) :
    judge now c = .stuck := by
  have kept : longer now c.lastSentAt connActivityTTL = false := by
    cases sent : c.lastSentAt with
    | none => simp [sent,longer] at recent
    | some t =>
      grind [longer_some,connActivityTTL,tunnelStuckTimeout]
  grind [judge]

theorem judge_stuck (judged : judge now c = .stuck) : longer now c.lastSentAt tunnelStuckTimeout = false ∧
    match c.lastGoodRecvAt with
    | none => longer now c.firstSentAt tunnelStuckTimeout = true
    | some r => longer now (some r) tunnelStuckTimeout = true := by
  unfold judge at judged
  grind

theorem unanswered_iff (exact : Exact now c) (judged : judge now c = .stuck) :
    Unanswered now c.log ↔ ¬ Resumed now c.log := by
  obtain ⟨sent,silent⟩ := judge_stuck judged
  have ordered : (sends c.log).Pairwise (· ≥ ·) := exact.ordered.sublist (sends_sublist c.log)
  cases received : (recvs c.log).head? with
  | none =>
    have nothing : recvs c.log = [] := List.head?_eq_none_iff.mp received
    rw [exact.recv,received,exact.first] at silent
    -- some payload was sent, and the first of it is too old
    obtain ⟨s,member,_⟩ := (recent_iff exact).mpr sent
    cases first : (sends c.log).getLast? with
    | none => simp [getLast?_eq_none_iff.mp first] at member
    | some t =>
      rw [first] at silent
      refine ⟨fun _ resumed => resumed.1 nothing,fun _ => ⟨t,?_,longer_some.mp silent⟩⟩
      rw [pending_all nothing]
      exact mem_of_getLast? first
  | some r =>
    rw [exact.recv,received] at silent
    have before := longer_some.mp silent
    have answered : recvs c.log ≠ [] := by
      intro none
      simp [none] at received
    obtain ⟨s,member,recent⟩ := (recent_iff exact).mpr sent
    -- the newest mark is a payload, since the last receipt is older than the last payload
    have waiting : pending c.log ≠ [] := by
      intro none
      cases marks : c.log with
      | nil => simp [marks,sends] at member
      | cons m rest =>
        rw [marks] at none received member
        cases m with
        | sent t => simp [pending] at none
        | recv t =>
          have same : t = r := by simpa using received
          have times := exact.ordered
          grind [pairwise_cons,sends_sublist,Mark.time]
    obtain ⟨t,oldest⟩ := Option.ne_none_iff_exists'.mp (mt getLast?_eq_none_iff.mp waiting)
    have least := getLast_le (ordered.sublist (pending_sublist c.log)) oldest
    constructor
    · rintro ⟨s,member,old⟩ ⟨_,t',same,recent⟩
      have : t' = t := by simpa [oldest] using same.symm
      have := least s member
      omega
    · intro notResumed
      refine ⟨t,mem_of_getLast? oldest,?_⟩
      by_contra late
      exact notResumed ⟨answered,t,oldest,by omega⟩

end

/-- Whatever has been sent, received and answered before, a report that the tunnel is stuck
    is right exactly when no connection that had been answered took up sending again within
    the last `tunnelStuckTimeout`. -/
theorem stuck_sound_iff (inputs : List Input) (elapsed : Nat) (order : List ConnID)
    (stuck : (isStuck (after inputs elapsed) order).2 = true) :
    Sound (after inputs elapsed) ↔
      ∀ connID c, (after inputs elapsed).conns.lookup connID = some c → ¬ Resumed (after inputs elapsed).clock c.log := by
  have exact := after_exact inputs elapsed
  generalize after inputs elapsed = m at stuck exact
  unfold isStuck at stuck
  split_ifs at stuck
  obtain ⟨dead,found⟩ := scan_true _ stuck
  have walked : ∀ connID c, m.conns.lookup connID = some c → judge m.clock c ≠ .alive := by
    intro connID c listed
    refine dead connID ?_ c listed
    have key : connID ∈ m.conns.keys := AList.mem_keys.mp (AList.lookup_isSome.mp (by simp [listed]))
    unfold walk
    split_ifs with perm
    · exact (isPerm_iff.mp perm).mem_iff.mpr key
    · exact key
  obtain ⟨first,a,listed,judged⟩ := found.resolve_left (by simp)
  have one (connID : ConnID) (c : ConnActivity) (there : m.conns.lookup connID = some c) (recent : Recent m.clock c.log) :=
    unanswered_iff (exact connID c there)
      (judge_recent ((recent_iff (exact connID c there)).mp recent) (walked connID c there))
  constructor
  · intro sound connID c there resumed
    obtain ⟨_,t,oldest,late⟩ := resumed
    have recent : Recent m.clock c.log := ⟨t,(pending_sublist c.log).subset (mem_of_getLast? oldest),late⟩
    exact (one connID c there recent).mp (sound.waiting connID c there recent) ⟨‹_›,t,oldest,late⟩
  · intro none
    refine ⟨⟨first,a,listed,(recent_iff (exact first a listed)).mpr (judge_stuck judged).1⟩,?_⟩
    intro connID c there recent
    exact (one connID c there recent).mpr (none connID c there)

def resumes : List Input :=
  [⟨0,.sent ['a'] 10⟩,⟨second,.recv ['a'] 20⟩,⟨0,.response⟩,⟨99 * second,.sent ['a'] 10⟩]

/-- A tenth of a second later the tunnel is reported as stuck. -/
theorem stuck_after_idle : ¬ ∀ (inputs : List Input) (elapsed : Nat) (order : List ConnID),
    (isStuck (after inputs elapsed) order).2 = true → Sound (after inputs elapsed) := by
  intro all
  have sound := all resumes (second / 10) [] (by decide)
  have listed : (after resumes (second / 10)).conns.lookup ['a'] =
      some ⟨some 0,some (100 * second),some second,[.sent (100 * second),.recv second,.sent 0]⟩ := by rfl
  obtain ⟨t,member,old⟩ := sound.waiting _ _ listed ⟨100 * second,by simp [sends],by decide⟩
  simp only [pending,mem_singleton] at member
  subst member
  revert old
  decide

/-- Payload that is never answered. -/
theorem stuck_sound_silent :
    (isStuck (after [⟨0,.sent ['a'] 10⟩,⟨5 * second,.sent ['a'] 10⟩] (6 * second)) []).2 = true ∧
    (Sound (after [⟨0,.sent ['a'] 10⟩,⟨5 * second,.sent ['a'] 10⟩] (6 * second)) ↔
      ∀ connID c, (after [⟨0,.sent ['a'] 10⟩,⟨5 * second,.sent ['a'] 10⟩] (6 * second)).conns.lookup connID = some c →
        ¬ Resumed (after [⟨0,.sent ['a'] 10⟩,⟨5 * second,.sent ['a'] 10⟩] (6 * second)).clock c.log) :=
  ⟨by decide,stuck_sound_iff _ _ [] (by decide)⟩

end TunnelCat.Watchdog
