import Mathlib.Algebra.Order.BigOperators.Group.List
import Mathlib.Algebra.Order.Group.Nat
import Mathlib.Algebra.Order.Ring.Int
import TunnelCat.Goroutines
import TunnelCat.Runs

/-!
The connection counters of the client (`ConnStatsCollector`) and the file that carries them over a restart.
Every call changes the counters and saves them through one shared temporary file, without a lock; `Snapshot`
drains them first. A counter is the list of the additions made to it.
-/
namespace TunnelCat.ConnStats
open Goroutines Runs List

inductive Counter
  | connectsManual
  | connectsAuto
  | disconnectsManual
  | disconnectsAuto
  | wildcatSessionsOK
  | wildcatSessionsFailed
  | wildcatSecondsTotal
  deriving DecidableEq, Repr

structure Event where
  source : Nat
  amount : Int
  deriving DecidableEq, Repr

abbrev Counts := Counter → List Event

variable (c : Counter) (events : List Event) (source : Nat)

def number : Int := (events.map (·.amount)).sum

/-- The fields of the collector that `connStatsPersisted` has as well. `wildcatStartUnix` is 0 where
    no WildCat session is in progress. -/
structure Counters where
  counts : Counts
  wildcatStartUnix : Int

def Counters.zero : Counters := ⟨fun _ => [],0⟩

variable (counters : Counters)

def Counters.add (c : Counter) (e : Event) : Counters :=
  { counters with counts := Function.update counters.counts c (counters.counts c ++ [e]) }

def Counters.clear (c : Counter) : Counters :=
  { counters with counts := Function.update counters.counts c [] }

def Counters.setStart (unix : Int) : Counters := { counters with wildcatStartUnix := unix }

inductive Field
  | counter (c : Counter)
  | wildcatStartUnix
  deriving DecidableEq, Repr

def fields : List Field :=
  [.counter .connectsManual,.counter .connectsAuto,.counter .disconnectsManual,.counter .disconnectsAuto,
    .counter .wildcatSessionsOK,.counter .wildcatSessionsFailed,.counter .wildcatSecondsTotal,.wildcatStartUnix]

def Counters.load (image counters : Counters) : Field → Counters
  | .counter c => { image with counts := Function.update image.counts c (counters.counts c) }
  | .wildcatStartUnix => { image with wildcatStartUnix := counters.wildcatStartUnix }

/-- What a file holds: the JSON of an image, or what a failed write has left of it. -/
inductive Text
  | whole (image : Counters)
  | torn

def restored : Option Text → Counters
  | some (.whole p) => p
  | _ => .zero

/-- The counters of a new process. A session that the file has in progress counts as failed, in
    memory alone: nothing is saved here. -/
def newConnStatsCollector (file : Option Text) (source : Nat) : Counters :=
  let p := restored file
  if p.wildcatStartUnix ≠ 0 then (p.setStart 0).add .wildcatSessionsFailed ⟨source,1⟩ else p.setStart 0

inductive Change
  | add (c : Counter) (e : Event)
  | swap (c : Counter)

/-- What a call does after its save: `IncDisconnect` ends the session that may still be in progress,
    and `Snapshot` returns what it has drained. -/
inductive After
  | done
  | endWildcatSession (source : Nat) (now : Int)
  | report (drained : Counts)

def After.take : After → After
  | .report drained => .report (Function.update drained c (drained c ++ events))
  | after => after

inductive Point
  | change (todo : List Change) (after : After)
  | startWildcatSession (now : Int)
  | endWildcatSession (source : Nat) (success : Bool) (now : Int)
  | load (left : List Field) (image : Counters) (after : After)
  | write (image : Counters) (after : After)
  | rename (after : After)
  | report (drained : Counts)

variable (after : After)

def save : Point := .load fields .zero after

def After.next : After → Option Point
  | .done => none
  | .endWildcatSession source now => some (.endWildcatSession source false now)
  | .report drained => some (.report drained)

/-- The counters, the two files, the number of the next call, and the snapshots that were returned,
    by whichever process. -/
structure Shared where
  counters : Counters
  tmp : Option Text
  file : Option Text
  fresh : Nat
  reported : List Counts

/-- How a write or a rename ends: an error may leave the file as it was, or cut short. -/
inductive Outcome
  | done
  | refused
  | torn
  deriving DecidableEq, Repr

variable (outcome : Outcome) (s : Shared)

/-- What `os.Rename` leaves, whose error `save` ignores: the temporary file may also be gone, renamed by
    another call. -/
def Shared.renamed : Outcome → Shared
  | .done =>
    match s.tmp with
    | some text => { s with tmp := none, file := some text }
    | none => s
  | _ => s

def verdict (success : Bool) : Counter := if success then .wildcatSessionsOK else .wildcatSessionsFailed

def ended (success : Bool) (dur : Int) : List Change :=
  [.add .wildcatSecondsTotal ⟨source,dur⟩,.add (verdict success) ⟨source,1⟩]

def act : Point → Ran Shared Point Unit
  | .change (.add c e :: todo) after => ⟨{ s with counters := s.counters.add c e },some (.change todo after),[],[]⟩
  | .change (.swap c :: todo) after =>
    ⟨{ s with counters := s.counters.clear c },some (.change todo (after.take c (s.counters.counts c))),[],[]⟩
  | .change [] after => ⟨s,some (save after),[],[]⟩
  | .startWildcatSession now =>
    if s.counters.wildcatStartUnix = 0 then
      ⟨{ s with counters := s.counters.setStart now },some (save .done),[],[]⟩
    else ⟨s,none,[],[]⟩
  | .endWildcatSession source success now =>
    -- `Swap(0)`: where no session is in progress it leaves the 0 that it finds.
    if s.counters.wildcatStartUnix = 0 then ⟨s,none,[],[]⟩
    else
      let dur := max 0 (now-s.counters.wildcatStartUnix)
      ⟨{ s with counters := s.counters.setStart 0 },some (.change (ended source success dur) .done),[],[]⟩
  | .load (f :: left) image after => ⟨s,some (.load left (image.load s.counters f) after),[],[]⟩
  | .load [] image after => ⟨s,some (.write image after),[],[]⟩
  | .write image after =>
    match outcome with
    | .done => ⟨{ s with tmp := some (.whole image) },some (.rename after),[],[]⟩
    | .refused => ⟨s,after.next,[],[]⟩
    | .torn => ⟨{ s with tmp := some .torn },after.next,[],[]⟩
  | .rename after => ⟨s.renamed outcome,after.next,[],[]⟩
  | .report drained => ⟨{ s with reported := s.reported ++ [drained] },none,[],[]⟩

inductive Call
  | incConnect (manual : Bool)
  | incDisconnect (manual : Bool) (now : Int)
  | startWildcatSession (now : Int)
  | endWildcatSession (success : Bool) (now : Int)
  | snapshot
  deriving DecidableEq, Repr

def Call.begin : Call → Point
  | .incConnect manual => .change [.add (if manual then .connectsManual else .connectsAuto) ⟨source,1⟩] .done
  | .incDisconnect manual now =>
    .change [.add (if manual then .disconnectsManual else .disconnectsAuto) ⟨source,1⟩] (.endWildcatSession source now)
  | .startWildcatSession now => .startWildcatSession now
  | .endWildcatSession success now => .endWildcatSession source success now
  | .snapshot =>
    .change [.swap .connectsManual,.swap .connectsAuto,.swap .disconnectsManual,.swap .disconnectsAuto,
      .swap .wildcatSessionsOK,.swap .wildcatSessionsFailed,.swap .wildcatSecondsTotal] (.report fun _ => [])

abbrev Process := Pool Shared Point

inductive Input
  | call (c : Call)
  | run (k : Nat) (outcome : Outcome)
  | restart
  deriving DecidableEq, Repr

variable (p : Process) (call : Call)

/-- A call begins, one of the calls takes a step, or the process ends, wherever its calls stand, and
    a new one starts from the file. -/
def step : Input → Process × Unit
  | .call c => (⟨{ p.state with fresh := p.state.fresh+1 },p.running ++ [c.begin p.state.fresh]⟩,())
  | .run k outcome => ((runAt (act outcome) p k).1,())
  | .restart =>
    let counters := newConnStatsCollector p.state.file p.state.fresh
    (⟨{ p.state with counters := counters, fresh := p.state.fresh+1 },[]⟩,())

def start : Process := ⟨⟨newConnStatsCollector none 0,none,none,1,[]⟩,[]⟩

def Saving : Point → Bool
  | .load left _ _ => left ≠ fields
  | .write _ _ => true
  | .rename _ => true
  | _ => false

/-- No call takes a step while another one saves, the writes of the files succeed, and no process
    starts from a file with a WildCat session in progress. -/
def Undisturbed : Input → Prop
  | .call _ => True
  | .run k outcome => outcome = .done ∧ ∀ t ∈ p.running.eraseIdx k, Saving t = false
  | .restart => (restored p.state.file).wildcatStartUnix = 0

instance (p : Process) (i : Input) : Decidable (Undisturbed p i) := by
  cases i <;> unfold Undisturbed <;> infer_instance

/-- No addition is in two of the snapshots. -/
def ReportedOnce (reported : List Counts) : Prop :=
  reported.Pairwise fun earlier later => ∀ c, ∀ e ∈ earlier c, ∀ e' ∈ later c, e.source ≠ e'.source

/-- The file, as a new process would read it, has the numbers of the counters. -/
def FileFollows : Prop :=
  (∀ c, number ((restored s.file).counts c) = number (s.counters.counts c)) ∧
    (restored s.file).wildcatStartUnix = s.counters.wildcatStartUnix

def tally (events : List Event) : Nat := events.countP (·.source = source)

@[simp] theorem tally_nil : tally source [] = 0 := rfl

@[simp] theorem tally_append (events more : List Event) :
    tally source (events ++ more) = tally source events + tally source more := countP_append

def pending (todo : List Change) : Nat :=
  todo.countP fun
    | .add c' e => c' = c ∧ e.source = source
    | .swap _ => false

def After.held : After → Nat
  | .done => 0
  | .endWildcatSession own _ => pending c source (ended own false 0)
  | .report drained => tally source (drained c)

def Point.returning : Point → Nat
  | .report drained => tally source (drained c)
  | _ => 0

def Point.held (c : Counter) (source : Nat) : Point → Nat
  | .change todo after => pending c source todo + after.held c source
  | .startWildcatSession _ => 0
  | .endWildcatSession own success _ => pending c source (ended own success 0)
  | .load _ _ after => after.held c source
  | .write _ after => after.held c source
  | .rename after => after.held c source
  | .report drained => tally source (drained c)

def told (reported : List Counts) : Nat :=
  (reported.map fun drained => tally source (drained c)).sum

def total (c : Counter) (source : Nat) : Nat :=
  tally source (p.state.counters.counts c) + (p.running.map (Point.held c source)).sum + told c source p.state.reported

def settled (c : Counter) (source : Nat) : Nat :=
  tally source ((restored p.state.file).counts c) + (p.running.map (Point.returning c source)).sum +
    told c source p.state.reported

theorem returning_le_held (t : Point) : t.returning c source ≤ t.held c source := by
  cases t with
  | report drained => exact Nat.le_refl _
  | _ => exact Nat.zero_le _

theorem sum_returning_le (points : List Point) :
    (points.map (Point.returning c source)).sum ≤ (points.map (Point.held c source)).sum :=
  sum_le_sum fun t _ => returning_le_held c source t

@[simp] theorem told_append (reported : List Counts) (drained : Counts) :
    told c source (reported ++ [drained]) = told c source reported + tally source (drained c) := by
  simp [told]

theorem add_pending (c c' : Counter) (source : Nat) (e : Event) (todo : List Change) :
    tally source ((counters.add c' e).counts c) + pending c source todo =
      tally source (counters.counts c) + pending c source (.add c' e :: todo) := by
  by_cases same : c' = c
  · subst same
    simp only [Counters.add,Function.update_self,tally_append,pending,countP_cons,true_and]
    simp only [tally,countP_singleton]
    omega
  · have other : (counters.add c' e).counts c = counters.counts c := Function.update_of_ne (Ne.symm same) _ _
    simp [other,pending,same]

@[simp] theorem pending_swap (c' : Counter) (source : Nat) (todo : List Change) :
    pending c source (.swap c' :: todo) = pending c source todo := by
  simp [pending]

theorem pending_ended (own : Nat) (success : Bool) (dur : Int) :
    pending c source (ended own success dur) = pending c source (ended own success 0) := by
  simp only [pending,ended,countP_cons]

theorem clear_take_le (c c' : Counter) (source : Nat) (after : After) :
    tally source ((counters.clear c').counts c) + (after.take c' (counters.counts c')).held c source ≤
      tally source (counters.counts c) + after.held c source := by
  by_cases same : c' = c
  · subst same
    cases after <;> simp [Counters.clear,After.take,After.held,Nat.add_comm]
  · have other : (counters.clear c').counts c = counters.counts c := Function.update_of_ne (Ne.symm same) _ _
    cases after <;> simp [other,After.take,After.held,Ne.symm same]

theorem sum_held_next :
    (after.next.toList.map (Point.held c source)).sum = after.held c source := by
  cases after <;> simp [After.next,After.held,Point.held]

theorem renamed_same (outcome : Outcome) :
    (s.renamed outcome).counters = s.counters ∧ (s.renamed outcome).reported = s.reported ∧
      (s.renamed outcome).fresh = s.fresh := by
  fun_cases Shared.renamed s outcome <;> exact ⟨rfl,rfl,rfl⟩

theorem act_total (t : Point) (c : Counter) (source : Nat) :
    tally source ((act outcome s t).state.counters.counts c) +
        ((act outcome s t).next.toList.map (Point.held c source)).sum +
        told c source (act outcome s t).state.reported ≤
      tally source (s.counters.counts c) + t.held c source + told c source s.reported := by
  match t with
  | .change (.add c' e :: todo) after =>
    grind [add_pending,act,Point.held]
  | .change (.swap c' :: todo) after =>
    have taken := clear_take_le s.counters c c' source after
    simp only [act,Option.toList_some,map_singleton,sum_singleton,Point.held,pending_swap]
    omega
  | .change [] after => simp [act,save,Point.held]
  | .startWildcatSession now =>
    rw [act]
    split <;> simp [save,Point.held,After.held,Counters.setStart]
  | .endWildcatSession own success now =>
    rw [act]
    split <;> simp [Point.held,After.held,Counters.setStart,pending_ended]
  | .load (f :: left) image after => simp [act,Point.held]
  | .load [] image after => simp [act,Point.held]
  | .write image after => cases outcome <;> simp [act,Point.held,sum_held_next]
  | .rename after =>
    obtain ⟨counters,reported,-⟩ := renamed_same s outcome
    simp [act,counters,reported,Point.held,sum_held_next]
  | .report drained =>
    simp only [act,Option.toList_none,map_nil,sum_nil,told_append,Point.held]
    omega

theorem act_settled (t : Point) (c : Counter) (source : Nat) (other : ∀ after, t ≠ .rename after) :
    tally source ((restored (act .done s t).state.file).counts c) +
        ((act .done s t).next.toList.map (Point.returning c source)).sum +
        told c source (act .done s t).state.reported ≤
      tally source ((restored s.file).counts c) + t.returning c source + told c source s.reported := by
  match t with
  | .change (.add c' e :: todo) after => simp [act,Point.returning]
  | .change (.swap c' :: todo) after => simp [act,Point.returning]
  | .change [] after => simp [act,save,Point.returning]
  | .startWildcatSession now =>
    rw [act]
    split <;> simp [save,Point.returning]
  | .endWildcatSession own success now =>
    rw [act]
    split <;> simp [Point.returning]
  | .load (f :: left) image after => simp [act,Point.returning]
  | .load [] image after => simp [act,Point.returning]
  | .write image after => simp [act,Point.returning]
  | .rename after => exact absurd rfl (other after)
  | .report drained =>
    grind [act,told_append,Point.returning]

theorem act_started (t : Point) : (act outcome s t).started = [] := by
  fun_cases act outcome s t <;> rfl

theorem act_fresh (t : Point) : (act outcome s t).state.fresh = s.fresh := by
  fun_cases act outcome s t <;> first | rfl | exact (renamed_same s outcome).2.2

variable {p} {t : Point} {k : Nat} {s}

theorem run_others (there : p.running[k]? = some t) :
    ∃ others : List Point, (∀ f : Point → Nat, (p.running.map f).sum = f t + (others.map f).sum) ∧
      ∀ f : Point → Nat, ((runAt (act outcome) p k).1.running.map f).sum =
        ((act outcome p.state t).next.toList.map f).sum + (others.map f).sum := by
  obtain ⟨before,after⟩ := runAt_perm (act outcome) there
  rw [act_started,append_nil] at after
  refine ⟨p.running.eraseIdx k,?_,?_⟩
  · intro f
    rw [(before.map f).sum_eq,map_cons,sum_cons]
  · intro f
    rw [(after.map f).sum_eq,map_append,sum_append]

theorem total_run_le {outcome : Outcome} (there : p.running[k]? = some t)
    (c : Counter) (source : Nat) : total (runAt (act outcome) p k).1 c source ≤ total p c source := by
  obtain ⟨others,before,after⟩ := run_others outcome there
  have moved := act_total outcome p.state t c source
  rw [total,total,runAt_state there,before,after]
  omega

def Agree (a b : Counters) : Field → Prop
  | .counter c => a.counts c = b.counts c
  | .wildcatStartUnix => a.wildcatStartUnix = b.wildcatStartUnix

theorem eq_of_agree {a b : Counters} (agree : ∀ f, Agree a b f) : a = b := by
  obtain ⟨counts,unix⟩ := a
  obtain ⟨counts',unix'⟩ := b
  obtain rfl : counts = counts' := funext fun c => agree (.counter c)
  obtain rfl : unix = unix' := agree .wildcatStartUnix
  rfl

theorem mem_fields (f : Field) : f ∈ fields := by
  rcases f with c | _
  · cases c <;> decide
  · decide

theorem agree_load (image counters : Counters) (f : Field) : Agree (image.load counters f) counters f := by
  cases f with
  | counter c => exact Function.update_self ..
  | wildcatStartUnix => rfl

theorem agree_load_of_ne {image counters : Counters} {f g : Field} (apart : g ≠ f) (agree : Agree image counters g) :
    Agree (image.load counters f) counters g := by
  cases f with
  | wildcatStartUnix =>
    cases g with
    | counter c => exact agree
    | wildcatStartUnix => exact absurd rfl apart
  | counter c =>
    cases g with
    | wildcatStartUnix => exact agree
    | counter d =>
      have other : d ≠ c := fun equal => apart (congrArg Field.counter equal)
      exact (Function.update_of_ne other _ _).trans agree

/-- What a save has done, where no other call came between: what it has loaded is in the counters,
    and what it has written is in the temporary file. -/
def At (s : Shared) : Point → Prop
  | .load left image _ => ∀ f, f ∉ left → Agree image s.counters f
  | .write image _ => image = s.counters
  | .rename _ => s.tmp = some (.whole s.counters)
  | _ => True

theorem at_save (s : Shared) (after : After) : At s (save after) := fun f out => absurd (mem_fields f) out

theorem at_of_idle (s : Shared) (idle : Saving t = false) : At s t := by
  cases t with
  | load left image after =>
    obtain rfl : left = fields := by simpa [Saving] using idle
    exact fun f out => absurd (mem_fields f) out
  | write image after => cases idle
  | rename after => cases idle
  | change todo after => trivial
  | startWildcatSession now => trivial
  | endWildcatSession source success now => trivial
  | report drained => trivial

theorem at_next (s : Shared) {after : After} (next : after.next = some t) : At s t := by
  cases after with
  | done => cases next
  | endWildcatSession source now =>
    cases next
    trivial
  | report drained =>
    cases next
    trivial

theorem act_at {t t' : Point} (holds : At s t) (next : (act .done s t).next = some t') :
    At (act .done s t).state t' := by
  match t with
  | .change (.add c e :: todo) after =>
    cases next
    trivial
  | .change (.swap c :: todo) after =>
    cases next
    trivial
  | .change [] after =>
    cases next
    exact at_save s after
  | .startWildcatSession now =>
    grind [act,at_save]
  | .endWildcatSession own success now =>
    rw [act] at next ⊢
    split at next
    · cases next
    · cases next
      trivial
  | .load (f :: left) image after =>
    cases next
    intro g out
    by_cases same : g = f
    · subst same
      exact agree_load image s.counters g
    · exact agree_load_of_ne same (holds g (not_mem_cons_of_ne_of_not_mem same out))
  | .load [] image after =>
    cases next
    exact eq_of_agree fun f => holds f not_mem_nil
  | .write image after =>
    cases next
    exact congrArg (fun image => some (Text.whole image)) holds
  | .rename after => exact at_next _ next
  | .report drained => cases next

def WillSave : Point → Bool
  | .change _ _ => true
  | .load _ _ _ => true
  | .write _ _ => true
  | .rename _ => true
  | _ => false

theorem renamed_written {after : After} (holds : At s (.rename after)) :
    restored (s.renamed .done).file = s.counters := by
  have written : s.tmp = some (.whole s.counters) := holds
  simp [Shared.renamed,written,restored]

theorem act_saved (holds : At s t) :
    restored (act .done s t).state.file = (act .done s t).state.counters ∨
      (∃ t', (act .done s t).next = some t' ∧ WillSave t' = true) ∨
      (WillSave t = false ∧ (act .done s t).state.file = s.file ∧ (act .done s t).state.counters = s.counters) := by
  match t with
  | .change (.add c e :: todo) after => exact .inr (.inl ⟨_,rfl,rfl⟩)
  | .change (.swap c :: todo) after => exact .inr (.inl ⟨_,rfl,rfl⟩)
  | .change [] after => exact .inr (.inl ⟨_,rfl,rfl⟩)
  | .startWildcatSession now =>
    rw [act]
    split
    · exact .inr (.inl ⟨_,rfl,rfl⟩)
    · exact .inr (.inr ⟨rfl,rfl,rfl⟩)
  | .endWildcatSession own success now =>
    rw [act]
    split
    · exact .inr (.inr ⟨rfl,rfl,rfl⟩)
    · exact .inr (.inl ⟨_,rfl,rfl⟩)
  | .load (f :: left) image after => exact .inr (.inl ⟨_,rfl,rfl⟩)
  | .load [] image after => exact .inr (.inl ⟨_,rfl,rfl⟩)
  | .write image after => exact .inr (.inl ⟨_,rfl,rfl⟩)
  | .rename after =>
    refine .inl ?_
    show restored (s.renamed .done).file = (s.renamed .done).counters
    rw [renamed_written holds,(renamed_same s .done).1]
  | .report drained => exact .inr (.inr ⟨rfl,rfl,rfl⟩)

theorem settled_run_le (there : p.running[k]? = some t) (holds : At p.state t)
    (c : Counter) (source : Nat) :
    settled (runAt (act .done) p k).1 c source ≤ settled p c source ∨
      settled (runAt (act .done) p k).1 c source ≤ total p c source := by
  obtain ⟨others,before,after⟩ := run_others .done there
  by_cases renames : ∃ after, t = .rename after
  · obtain ⟨rest,rfl⟩ := renames
    have returned := sum_returning_le c source rest.next.toList
    have kept := sum_returning_le c source others
    rw [sum_held_next] at returned
    obtain ⟨-,reported,-⟩ := renamed_same p.state .done
    rw [settled,total,runAt_state there,before,after]
    simp only [act,renamed_written holds,reported,Point.held]
    omega
  · have moved := act_settled p.state t c source (not_exists.mp renames)
    rw [settled,settled,runAt_state there,before,after]
    omega

def quota (fresh source : Nat) : Nat := if source < fresh then 1 else 0

structure Sound (p : Process) : Prop where
  once : ∀ c source, total p c source ≤ quota p.state.fresh source
  kept : ∀ c source, settled p c source ≤ quota p.state.fresh source
  points : ∀ t ∈ p.running, At p.state t
  saved : restored p.state.file = p.state.counters ∨ ∃ t ∈ p.running, WillSave t = true

theorem quota_succ (fresh source : Nat) : quota (fresh+1) source = quota fresh source + if source = fresh then 1 else 0 := by
  unfold quota
  split <;> split <;> split <;> omega

theorem begin_held (c : Counter) (own source : Nat) :
    (call.begin own).held c source ≤ if source = own then 1 else 0 := by
  by_cases same : source = own
  · subst same
    cases call with
    | incConnect manual => grind [Call.begin,Point.held,After.held,pending]
    | incDisconnect manual now =>
      grind [Call.begin,Point.held,After.held,pending,ended,verdict]
    | startWildcatSession now => simp [Call.begin,Point.held]
    | endWildcatSession success now => grind [Call.begin,Point.held,pending,ended,verdict]
    | snapshot => simp [Call.begin,Point.held,After.held,pending]
  · cases call <;> simp [Call.begin,Point.held,After.held,pending,ended,same,Ne.symm same]

theorem begin_returning (c : Counter) (own source : Nat) : (call.begin own).returning c source = 0 := by
  cases call <;> rfl

theorem begin_idle (own : Nat) : Saving (call.begin own) = false := by
  cases call <;> rfl

theorem newConnStatsCollector_of {file : Option Text} (none : (restored file).wildcatStartUnix = 0) (source : Nat) :
    newConnStatsCollector file source = restored file := by
  simp only [newConnStatsCollector,none,Counters.setStart]
  rw [if_neg (fun apart => apart rfl),← none]

theorem sound_start : Sound start := by
  refine ⟨?_,?_,?_,?_⟩
  · intro c source
    exact Nat.zero_le _
  · intro c source
    exact Nat.zero_le _
  · intro t member
    exact absurd member not_mem_nil
  · exact .inl (@newConnStatsCollector_of none rfl 0).symm

theorem sound_call (sound : Sound p) (call : Call) : Sound (step p (.call call)).1 := by
  refine ⟨?_,?_,?_,?_⟩
  · intro c source
    have before := sound.once c source
    grind [begin_held,total,step,quota_succ]
  · intro c source
    have before := sound.kept c source
    grind [settled,step,map_singleton,begin_returning,quota_succ]
  · intro t member
    rcases mem_append.mp member with old | new
    · exact sound.points t old
    grind [at_of_idle,begin_idle]
  · rcases sound.saved with same | ⟨t,member,saves⟩
    · exact .inl same
    · exact .inr ⟨t,mem_append_left _ member,saves⟩

theorem sound_run (sound : Sound p) (alone : ∀ t ∈ p.running.eraseIdx k, Saving t = false) :
    Sound (step p (.run k .done)).1 := by
  cases there : p.running[k]? with
  | none =>
    show Sound (runAt (act .done) p k).1
    rw [runAt_none there]
    exact sound
  | some t =>
    have holds := sound.points t (mem_of_getElem? there)
    have fresh : (runAt (act .done) p k).1.state.fresh = p.state.fresh := by rw [runAt_state there,act_fresh]
    refine ⟨?_,?_,?_,?_⟩
    · intro c source
      show total (runAt (act .done) p k).1 c source ≤ quota (runAt (act .done) p k).1.state.fresh source
      rw [fresh]
      exact (total_run_le there c source).trans (sound.once c source)
    · intro c source
      show settled (runAt (act .done) p k).1 c source ≤ quota (runAt (act .done) p k).1.state.fresh source
      rw [fresh]
      rcases settled_run_le there holds c source with less | less
      · exact less.trans (sound.kept c source)
      · exact less.trans (sound.once c source)
    · intro t' member
      show At (runAt (act .done) p k).1.state t'
      rcases (mem_runAt_iff there).mp member with ⟨j,other,found⟩ | next | started
      · exact at_of_idle _ (alone t' (mem_eraseIdx_iff_getElem?.mpr ⟨j,other,found⟩))
      · rw [runAt_state there]
        exact act_at holds next
      · rw [act_started] at started
        exact absurd started not_mem_nil
    · show restored (runAt (act .done) p k).1.state.file = (runAt (act .done) p k).1.state.counters ∨
        ∃ t' ∈ (runAt (act .done) p k).1.running, WillSave t' = true
      rw [runAt_state there]
      rcases act_saved holds with same | ⟨t',next,saves⟩ | ⟨idle,file,counters⟩
      · exact .inl same
      · exact .inr ⟨t',(mem_runAt_iff there).mpr (.inr (.inl next)),saves⟩
      · rcases sound.saved with same | ⟨t',member,saves⟩
        · rw [file,counters]
          exact .inl same
        · -- The call with a save before it is another one, and stands where it stood.
          obtain ⟨j,found⟩ := mem_iff_getElem?.mp member
          grind [mem_runAt_iff]

theorem sound_restart (sound : Sound p) (none : (restored p.state.file).wildcatStartUnix = 0) :
    Sound (step p .restart).1 := by
  have loaded := newConnStatsCollector_of none p.state.fresh
  refine ⟨?_,?_,?_,?_⟩
  · intro c source
    have before := sound.kept c source
    grind [total,settled,step,quota_succ]
  · intro c source
    have before := sound.kept c source
    grind [settled,step,quota_succ]
  · intro t member
    exact absurd member not_mem_nil
  · exact .inl loaded.symm

theorem sound_step {i : Input} (undisturbed : Undisturbed p i) (sound : Sound p) : Sound (step p i).1 := by
  cases i with
  | call c => exact sound_call sound c
  | run k outcome =>
    obtain ⟨rfl,alone⟩ := undisturbed
    exact sound_run sound alone
  | restart => exact sound_restart sound undisturbed

theorem tally_pos {e : Event} {events : List Event} (member : e ∈ events) : 0 < tally e.source events :=
  countP_pos_iff.mpr ⟨e,member,by simp⟩

theorem reportedOnce_of {reported : List Counts} (once : ∀ c source, told c source reported ≤ 1) :
    ReportedOnce reported := by
  induction reported with
  | nil => exact List.Pairwise.nil
  | cons first rest ih =>
    have split : ∀ c source, told c source (first :: rest) = tally source (first c) + told c source rest := by
      simp [told]
    refine List.Pairwise.cons ?_ (ih ?_)
    · intro later member c e here e' there same
      have again : 0 < tally e.source (later c) := same ▸ tally_pos there
      have counted : tally e.source (later c) ≤ told c e.source rest :=
        single_le_sum (fun _ _ => Nat.zero_le _) _ (mem_map_of_mem member)
      grind [tally_pos]
    grind

/-- Where no call comes between the loads of a save and its rename, no addition is in two snapshots,
    and the file has the counters whenever no call is in progress. -/
theorem reported_at_most_once {inputs : List Input} (undisturbed : Along step Undisturbed start inputs) :
    ReportedOnce (final step start inputs).state.reported ∧
      ((final step start inputs).running = [] → FileFollows (final step start inputs).state) := by
  have sound : Sound (final step start inputs) := by
    refine state_along ?_ undisturbed sound_start
    intro p i condition
    exact sound_step condition
  refine ⟨reportedOnce_of ?_,?_⟩
  · intro c source
    have once := sound.once c source
    have few : quota (final step start inputs).state.fresh source ≤ 1 := by
      unfold quota
      split <;> omega
    unfold total at once
    omega
  · intro idle
    rcases sound.saved with same | ⟨t,member,-⟩
    · exact ⟨fun c => by rw [same],by rw [same]⟩
    · rw [idle] at member
      exact absurd member not_mem_nil

def runs (k n : Nat) : List Input := List.replicate n (.run k .done)

def between : List Input :=
  [.call (.incConnect true),.call .snapshot,.run 0 .done] ++ runs 1 7 ++ runs 0 12 ++ runs 0 13 ++
    [.restart,.call .snapshot] ++ runs 0 20

theorem reported_at_most_once_between :
    Along step Undisturbed start between ∧ (final step start between).running = [] ∧
      ReportedOnce (final step start between).state.reported ∧ FileFollows (final step start between).state := by
  have undisturbed : Along step Undisturbed start between := by decide
  obtain ⟨once,follows⟩ := reported_at_most_once undisturbed
  have idle : (final step start between).running = [] := isEmpty_iff.mp (by decide)
  exact ⟨undisturbed,idle,once,follows idle⟩

/-- A connect has loaded the counters when a snapshot drains and saves them; then the connect writes what
    it has loaded, and the next process reports it again. -/
def overtaken : List Input :=
  .call (.incConnect true) :: runs 0 11 ++ .call .snapshot :: runs 1 20 ++ runs 0 2 ++
    [.restart,.call .snapshot] ++ runs 0 20

theorem reported_again : ¬ ∀ inputs : List Input,
    ReportedOnce (final step start inputs).state.reported ∧
      ((final step start inputs).running = [] → FileFollows (final step start inputs).state) := by
  intro always
  have once := pairwise_iff_getElem.mp (always overtaken).1 0 1 (by decide) (by decide) (by decide)
  exact once .connectsManual ⟨1,1⟩ (by decide) ⟨1,1⟩ (by decide) rfl

end TunnelCat.ConnStats
