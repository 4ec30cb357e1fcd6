import Mathlib.Data.List.Induction
import Mathlib.Tactic.Linarith
import TunnelCat.Runs
import TunnelCat.Table

/-!
The packet limiter of the control's UDP port (`ipRateLimiter` in `snc-control/udp_reflector.go`): a bucket for
each source counts packets from the start of a window on. No window has more than `udpRLMax` allowed packets,
but a second that straddles a start has packets of two.
-/
namespace TunnelCat.Reflector
open Runs List

def udpRLWindow : Int := 1000000000
def udpRLMax : Nat := 50
def udpRLWarnEvery : Int := 30 * udpRLWindow

structure IpBucket where
  count : Nat
  windowStart : Int
  warnedAt : Option Int

abbrev IpRateLimiter := Table String IpBucket

variable (rl : IpRateLimiter) (ip : String)

def cleanup (now : Int) : IpRateLimiter :=
  rl.filter (fun _ b => ¬ b.windowStart < now - 2 * udpRLWindow)

structure Verdict where
  allowed : Bool
  logged : Option Nat

def shouldLog (b : IpBucket) (now : Int) : Bool := b.warnedAt.all (fun warnedAt => now - warnedAt ≥ udpRLWarnEvery)

def allow (now : Int) : IpRateLimiter × Verdict :=
  match rl.lookup ip with
  | none => (rl.insert ip ⟨1,now,none⟩,⟨true,none⟩)
  | some b =>
    if now - b.windowStart ≥ udpRLWindow then (rl.insert ip { b with count := 1, windowStart := now },⟨true,none⟩)
    else
      let b := { b with count := b.count + 1 }
      if b.count ≤ udpRLMax then (rl.insert ip b,⟨true,none⟩)
      else if shouldLog b now then (rl.insert ip { b with warnedAt := some now },⟨false,some b.count⟩)
      else (rl.insert ip b,⟨false,none⟩)

inductive Event
  | packet (ip : String) (now : Int)
  | cleanup (now : Int)

def Event.now : Event → Int
  | .packet _ now => now
  | .cleanup now => now

def step : Event → IpRateLimiter × Option Verdict
  | .packet ip now => ((allow rl ip now).1,some (allow rl ip now).2)
  | .cleanup now => (cleanup rl now,none)

variable (events : List Event)

/-- The times of a source's allowed packets. -/
def passed : List Int :=
  gather step (fun rl e => match e with
    | .packet source now => if source = ip ∧ (allow rl ip now).2.allowed = true then [now] else []
    | .cleanup _ => []) ∅ events

/-- The times of the packets of a source. -/
def arrivals : List Int :=
  events.filterMap (fun e => match e with
    | .packet source now => if source = ip then some now else none
    | .cleanup _ => none)

def addStart (starts : List Int) (now : Int) : List Int :=
  if starts.getLast?.all (fun x => x + udpRLWindow ≤ now) then starts ++ [now] else starts

/-- The first arrival starts a window, and so does each that is a window or more after the start
    before it. -/
def starts (arrived : List Int) : List Int := arrived.foldl addStart []

def countIn (a b : Int) (times : List Int) : Nat := times.countP (fun e => a ≤ e ∧ e < b)

def Ordered : Prop := events.Pairwise (fun a b => a.now ≤ b.now)

theorem starts_snoc (arrived : List Int) (now : Int) : starts (arrived ++ [now]) = addStart (starts arrived) now := by
  simp [starts]

theorem allow_cases (now : Int) :
    ((∀ b ∈ rl.lookup ip, b.windowStart + udpRLWindow ≤ now) ∧ (allow rl ip now).2.allowed = true ∧
        ∃ warnedAt, (allow rl ip now).1 = rl.insert ip ⟨1,now,warnedAt⟩) ∨
      ∃ b, rl.lookup ip = some b ∧ now < b.windowStart + udpRLWindow ∧
        ((allow rl ip now).2.allowed = true ↔ b.count + 1 ≤ udpRLMax) ∧
        ∃ warnedAt, (allow rl ip now).1 = rl.insert ip ⟨b.count + 1,b.windowStart,warnedAt⟩ := by
  grind [allow]

theorem lookup_allow_other {rl : IpRateLimiter} {ip other : String} (apart : other ≠ ip) (now : Int) :
    (allow rl ip now).1.lookup other = rl.lookup other := by
  rcases allow_cases rl ip now with ⟨-,-,warnedAt,same⟩ | ⟨b,-,-,-,warnedAt,same⟩ <;>
    rw [same,Table.lookup_insert_of,if_neg apart]

/-- The bucket counts the arrivals of the last window; without a bucket all windows have ended. -/
structure Tracks (arrived : List Int) (bucket : Option IpBucket) (time : Int) : Prop where
  past : ∀ e ∈ arrived, e ≤ time
  ended : bucket = none → ∀ x ∈ starts arrived, x + udpRLWindow ≤ time
  current : ∀ b ∈ bucket, (starts arrived).getLast? = some b.windowStart ∧
    arrived.countP (fun e => b.windowStart ≤ e) = b.count

/-- From its start on, a window passes the first packets up to the maximum. -/
structure Admits (arrived passed : List Int) : Prop where
  separate : (starts arrived).Pairwise (fun x y => x + udpRLWindow ≤ y)
  covered : ∀ e ∈ arrived, ∃ w ∈ starts arrived, w ≤ e ∧ e < w + udpRLWindow
  subset : passed ⊆ arrived
  counts : ∀ w ∈ starts arrived, ∀ b, (∀ x ∈ starts arrived, ¬ (w < x ∧ x < b)) →
    countIn w b passed = min udpRLMax (countIn w b arrived)

section
variable {arrived before : List Int} {bucket : Option IpBucket} {time now : Int}

theorem Tracks.later (tracks : Tracks arrived bucket time) (le : time ≤ now) : Tracks arrived bucket now where
  past e mem := le_trans (tracks.past e mem) le
  ended none_ x mem := le_trans (tracks.ended none_ x mem) le
  current := tracks.current

theorem Admits.le_last (admits : Admits arrived before) {last x : Int} (found : (starts arrived).getLast? = some last)
    (mem : x ∈ starts arrived) : x = last ∨ x + udpRLWindow ≤ last := by
  obtain ⟨init,is⟩ := getLast?_eq_some_iff.mp found
  have separate := admits.separate
  rw [is] at separate mem
  rcases mem_append.mp mem with old | own
  · exact .inr ((pairwise_append.mp separate).2.2 x old last (mem_singleton_self _))
  · exact .inl (mem_singleton.mp own)

theorem Tracks.forget {b : IpBucket} (admits : Admits arrived before) (tracks : Tracks arrived (some b) now)
    (old : b.windowStart + udpRLWindow ≤ now) : Tracks arrived none now where
  past := tracks.past
  ended _ x mem := by
    rcases admits.le_last (tracks.current b rfl).1 mem with rfl | earlier
    · exact old
    · simp only [udpRLWindow] at earlier old ⊢
      omega
  current := by simp

theorem countIn_snoc {a b : Int} (times : List Int) (e : Int) :
    countIn a b (times ++ [e]) = countIn a b times + if a ≤ e ∧ e < b then 1 else 0 := by
  simp [countIn,countP_append,countP_singleton]

theorem starts_opens (tracks : Tracks arrived none now) : starts (arrived ++ [now]) = starts arrived ++ [now] := by
  rw [starts_snoc,addStart,if_pos]
  cases last : (starts arrived).getLast? with
  | none => rfl
  | some x => simpa using tracks.ended rfl x (mem_of_getLast? last)

variable (admits : Admits arrived before)
include admits

theorem Tracks.before_now (tracks : Tracks arrived none now) {e : Int} (mem : e ∈ arrived) :
    e < now := by
  obtain ⟨w,start,-,inside⟩ := admits.covered e mem
  exact lt_of_lt_of_le inside (tracks.ended rfl w start)

theorem Tracks.opens (tracks : Tracks arrived none now) (warnedAt : Option Int) :
    Tracks (arrived ++ [now]) (some ⟨1,now,warnedAt⟩) now where
  past := by
    refine forall_mem_append.mpr ⟨tracks.past,forall_mem_singleton.mpr (le_refl _)⟩
  ended := by simp
  current := by
    rintro b ⟨⟩
    rw [starts_opens tracks]
    have none_ : arrived.countP (fun e => now ≤ e) = 0 :=
      countP_eq_zero.mpr (fun e mem => by simpa using tracks.before_now admits mem)
    simp [none_]

theorem Admits.opens (tracks : Tracks arrived none now) :
    Admits (arrived ++ [now]) (before ++ [now]) := by
  have same := starts_opens tracks
  have wide : 0 < udpRLWindow := by decide
  constructor
  · rw [same]
    refine pairwise_append.mpr ⟨admits.separate,pairwise_singleton _ _,?_⟩
    intro x mem y last
    rw [mem_singleton.mp last]
    exact tracks.ended rfl x mem
  · rw [same]
    refine forall_mem_append.mpr ⟨?_,forall_mem_singleton.mpr ⟨now,by simp,le_refl _,by omega⟩⟩
    intro e mem
    obtain ⟨w,start,inside⟩ := admits.covered e mem
    exact ⟨w,mem_append_left _ start,inside⟩
  · exact append_subset.mpr ⟨fun e mem => mem_append_left _ (admits.subset mem),by simp⟩
  · rw [same]
    intro w mem b free
    rw [countIn_snoc,countIn_snoc]
    rcases mem_append.mp mem with old | own
    · -- an older window ends before the new start
      have ended := tracks.ended rfl w old
      have first := free now (by simp)
      rw [if_neg (by omega),admits.counts w old b (fun x start => free x (mem_append_left _ start))]
      rfl
    · rw [mem_singleton.mp own]
      have none_ : ∀ times ⊆ arrived, countIn now b times = 0 := by
        intro times sub
        refine countP_eq_zero.mpr (fun e mem => ?_)
        have earlier := tracks.before_now admits (sub mem)
        simp only [decide_eq_true_eq]
        omega
      rw [none_ arrived (fun _ => id),none_ before admits.subset]
      split_ifs <;> rfl

omit admits

theorem starts_subset (arrived : List Int) : starts arrived ⊆ arrived := by
  induction arrived using reverseRecOn with
  | nil => exact fun _ => id
  | append_singleton arrived now ih =>
    rw [starts_snoc,addStart]
    split
    · exact append_subset.mpr ⟨fun x mem => mem_append_left _ (ih mem),by simp⟩
    · exact fun x mem => mem_append_left _ (ih mem)

section
variable {b : IpBucket} (tracks : Tracks arrived (some b) now) (inside : now < b.windowStart + udpRLWindow)
include tracks

theorem Tracks.start_mem : b.windowStart ∈ starts arrived := mem_of_getLast? (tracks.current b rfl).1

theorem Tracks.start_le : b.windowStart ≤ now := tracks.past _ (starts_subset arrived tracks.start_mem)

include inside

theorem starts_goes_on : starts (arrived ++ [now]) = starts arrived := by
  rw [starts_snoc,addStart,(tracks.current b rfl).1]
  simpa using inside

theorem Tracks.counts (warnedAt : Option Int) :
    Tracks (arrived ++ [now]) (some ⟨b.count + 1,b.windowStart,warnedAt⟩) now where
  past := forall_mem_append.mpr ⟨tracks.past,forall_mem_singleton.mpr (le_refl _)⟩
  ended := by simp
  current := by
    rintro c ⟨⟩
    rw [starts_goes_on tracks inside]
    obtain ⟨last,counted⟩ := tracks.current b rfl
    exact ⟨last,by simp [countP_append,counted,tracks.start_le]⟩

theorem Admits.goes_on (admits : Admits arrived before) {ok : Bool} (room : ok = true ↔ b.count + 1 ≤ udpRLMax) :
    Admits (arrived ++ [now]) (before ++ if ok then [now] else []) := by
  have same := starts_goes_on tracks inside
  have began := tracks.start_le
  constructor
  · rw [same]
    exact admits.separate
  · rw [same]
    exact forall_mem_append.mpr ⟨admits.covered,forall_mem_singleton.mpr ⟨_,tracks.start_mem,began,inside⟩⟩
  · refine append_subset.mpr ⟨fun e mem => mem_append_left _ (admits.subset mem),?_⟩
    cases ok <;> simp
  · rw [same]
    intro w mem c free
    have old := admits.counts w mem c free
    have added : countIn w c (before ++ if ok then [now] else []) =
        countIn w c before + if ok = true ∧ w ≤ now ∧ now < c then 1 else 0 := by
      cases ok <;> simp [countIn_snoc]
    rw [added,countIn_snoc,old]
    obtain ⟨last,counted⟩ := tracks.current b rfl
    rcases admits.le_last last mem with rfl | earlier
    · by_cases later : now < c
      · -- all arrivals of the window are counted
        have all : countIn b.windowStart c arrived = b.count := by
          rw [← counted]
          refine countP_congr (fun e mem => ?_)
          have past := tracks.past e mem
          simp only [decide_eq_true_eq]
          omega
        rw [all]
        cases ok <;> simp_all <;> omega
      · simp [later]
    · have outside := free _ tracks.start_mem
      have wide : 0 < udpRLWindow := by decide
      have past : ¬ now < c := by omega
      simp [past]

end

end

structure Sound (ip : String) (events : List Event) (time : Int) : Prop where
  tracks : Tracks (arrivals ip events) ((final step ∅ events).lookup ip) time
  admits : Admits (arrivals ip events) (passed ip events)

section
variable {ip : String} {events : List Event} {now : Int}

variable (sound : Sound ip events now)
include sound

theorem Sound.other {other : String} (apart : other ≠ ip) :
    Sound ip (events ++ [.packet other now]) now := by
  have same : (final step ∅ (events ++ [.packet other now])).lookup ip = (final step ∅ events).lookup ip := by
    rw [final_snoc]
    exact lookup_allow_other apart.symm now
  constructor
  · simpa [arrivals,same,apart] using sound.tracks
  · simpa [arrivals,passed,gather_snoc,apart] using sound.admits

theorem Sound.packet : Sound ip (events ++ [.packet ip now]) now := by
  obtain ⟨tracks,admits⟩ := sound
  have next : final step ∅ (events ++ [.packet ip now]) = (allow (final step ∅ events) ip now).1 := final_snoc step ∅ events _
  have arrived : arrivals ip (events ++ [.packet ip now]) = arrivals ip events ++ [now] := by simp [arrivals]
  have shown : passed ip (events ++ [.packet ip now]) =
      passed ip events ++ if (allow (final step ∅ events) ip now).2.allowed then [now] else [] := by
    simp [passed,gather_snoc]
  rcases allow_cases (final step ∅ events) ip now with ⟨ended,ok,warnedAt,same⟩ | ⟨b,found,inside,room,warnedAt,same⟩
  · have free : Tracks (arrivals ip events) none now := by
      cases found : (final step ∅ events).lookup ip with
      | none => rwa [found] at tracks
      | some b =>
        rw [found] at tracks
        exact tracks.forget admits (ended b found)
    constructor
    all_goals simp only [arrived,shown,ok,if_true,next,same,Table.lookup_insert_of]
    · exact free.opens admits warnedAt
    · exact admits.opens free
  · rw [found] at tracks
    constructor
    all_goals simp only [arrived,shown,next,same,Table.lookup_insert_of,if_true]
    · exact tracks.counts inside warnedAt
    · exact admits.goes_on tracks inside room

theorem Sound.cleanup : Sound ip (events ++ [.cleanup now]) now := by
  have next : final step ∅ (events ++ [.cleanup now]) = Reflector.cleanup (final step ∅ events) now := final_snoc step ∅ events _
  constructor
  · have arrived : arrivals ip (events ++ [.cleanup now]) = arrivals ip events := by simp [arrivals]
    rw [arrived,next,Reflector.cleanup,Table.lookup_filter]
    have tracks := sound.tracks
    cases found : (final step ∅ events).lookup ip with
    | none => rwa [found] at tracks
    | some b =>
      rw [found] at tracks
      rw [Option.filter_some]
      split
      · exact tracks
      · next old =>
        refine tracks.forget sound.admits ?_
        have older : b.windowStart + 2 * udpRLWindow < now := by simpa using old
        simp only [udpRLWindow] at older ⊢
        omega
  · simpa [arrivals,passed,gather_snoc] using sound.admits

omit sound

theorem sound_run (ordered : Ordered events) (late : ∀ e ∈ events, e.now ≤ now) : Sound ip events now := by
  induction events using reverseRecOn generalizing now with
  | nil => exact ⟨⟨nofun,fun _ => nofun,nofun⟩,⟨.nil,nofun,nofun,nofun⟩⟩
  | append_singleton events e ih =>
    obtain ⟨before,-,last⟩ := pairwise_append.mp ordered
    have sound : Sound ip events e.now := ih before (fun d mem => last d mem e mem_cons_self)
    have next : Sound ip (events ++ [e]) e.now := by
      cases e with
      | packet source time =>
        by_cases own : source = ip
        · subst own
          exact sound.packet
        · exact sound.other own
      | cleanup time => exact sound.cleanup
    exact ⟨next.tracks.later (late e (by simp)),next.admits⟩

theorem exists_late (events : List Event) : ∃ now, ∀ e ∈ events, e.now ≤ now := by
  induction events with
  | nil => exact ⟨0,by simp⟩
  | cons e rest ih =>
    obtain ⟨now,late⟩ := ih
    exact ⟨max e.now now,forall_mem_cons.mpr ⟨le_max_left _ _,fun d mem => (late d mem).trans (le_max_right _ _)⟩⟩

theorem countIn_split {a m b : Int} (first : a ≤ m) (second : m ≤ b) (times : List Int) :
    countIn a b times = countIn a m times + countIn m b times := by
  induction times with
  | nil => rfl
  | cons e rest ih =>
    simp only [countIn,countP_cons,decide_eq_true_eq] at ih ⊢
    split_ifs <;> omega

end

/-- Two window starts with none between them. -/
structure Consecutive (arrived : List Int) (w x : Int) : Prop where
  first : w ∈ starts arrived
  second : x ∈ starts arrived
  less : w < x
  free : ∀ y ∈ starts arrived, ¬ (w < y ∧ y < x)

section
variable {arrived before : List Int}

theorem Admits.next_after (admits : Admits arrived before) {x y : Int} (first : x ∈ starts arrived) (second : y ∈ starts arrived)
    (less : x < y) : x + udpRLWindow ≤ y := by
  have either : (starts arrived).Pairwise (fun x y => x + udpRLWindow ≤ y ∨ y + udpRLWindow ≤ x) := admits.separate.imp .inl
  have : Std.Symm (fun x y : Int => x + udpRLWindow ≤ y ∨ y + udpRLWindow ≤ x) := ⟨fun _ _ => Or.symm⟩
  have apart := either.forall first second less.ne
  have wide : 0 < udpRLWindow := by decide
  omega

theorem Admits.count_le (admits : Admits arrived before) {w s b : Int} (start : w ∈ starts arrived) (le : w ≤ s)
    (free : ∀ x ∈ starts arrived, ¬ (w < x ∧ x < b)) : countIn s b before ≤ udpRLMax := by
  have fewer : countIn s b before ≤ countIn w b before := by
    refine countP_mono_left (fun e _ counts => ?_)
    simp only [decide_eq_true_eq] at counts ⊢
    omega
  rw [admits.counts w start b free] at fewer
  exact fewer.trans (min_le_left _ _)

theorem exists_of_countIn {a b : Int} {times : List Int} (some_ : countIn a b times ≠ 0) : ∃ e ∈ times, a ≤ e ∧ e < b := by
  obtain ⟨e,mem,inside⟩ := countP_pos_iff.mp (Nat.pos_of_ne_zero some_)
  exact ⟨e,mem,of_decide_eq_true inside⟩

/-- Unless two windows have packets in a second, it has no more than the maximum. -/
theorem Admits.one_or_two (admits : Admits arrived before) (s : Int) :
    countIn s (s + udpRLWindow) before ≤ udpRLMax ∨ ∃ w x, Consecutive arrived w x ∧ w ≤ s ∧ s < x ∧ x < s + udpRLWindow := by
  by_cases start : ∃ x ∈ starts arrived, s < x ∧ x < s + udpRLWindow
  · obtain ⟨x,second,above,below⟩ := start
    by_cases none_ : countIn s x before = 0
    · refine .inl ?_
      rw [countIn_split above.le below.le,none_,Nat.zero_add]
      refine admits.count_le second (le_refl x) (fun y mem between => ?_)
      have next := admits.next_after second mem between.1
      omega
    · obtain ⟨e,mem,low,high⟩ := exists_of_countIn none_
      obtain ⟨w,first,le,lt⟩ := admits.covered e (admits.subset mem)
      have next := admits.next_after first second (by omega)
      refine .inr ⟨w,x,⟨first,second,by omega,fun y mem between => ?_⟩,by omega,above,below⟩
      have after := admits.next_after first mem between.1
      have until_ := admits.next_after mem second between.2
      omega
  · refine .inl ?_
    by_cases none_ : countIn s (s + udpRLWindow) before = 0
    · rw [none_]
      exact Nat.zero_le _
    · obtain ⟨e,mem,low,high⟩ := exists_of_countIn none_
      obtain ⟨w,first,le,lt⟩ := admits.covered e (admits.subset mem)
      have outside (y : Int) (there : y ∈ starts arrived) : ¬ (s < y ∧ y < s + udpRLWindow) :=
        fun inside => start ⟨y,there,inside⟩
      have began := outside w first
      refine admits.count_le first (by omega) (fun y there between => ?_)
      have after := admits.next_after first there between.1
      exact outside y there ⟨by omega,between.2⟩

theorem Admits.straddling (admits : Admits arrived before) {w x s : Int} (two : Consecutive arrived w x) (le : w ≤ s)
    (above : s < x) (below : x < s + udpRLWindow) :
    countIn s (s + udpRLWindow) before + min udpRLMax (countIn w s arrived) =
      min udpRLMax (countIn w x arrived) + min udpRLMax (countIn x (s + udpRLWindow) arrived) := by
  have first := admits.counts w two.first x two.free
  have part := admits.counts w two.first s (fun y mem between => two.free y mem ⟨between.1,by omega⟩)
  have second := admits.counts x two.second (s + udpRLWindow) (fun y mem between => by
    have next := admits.next_after two.second mem between.1
    omega)
  have whole := countIn_split le above.le before
  have both := countIn_split above.le below.le before
  omega

end

/-- Every second has at most the maximum of allowed packets exactly if those that a window allows
    in the second and those that the next one allows in it are no more: a window allows as many as
    have arrived since its start, up to the maximum. No second has more than twice the maximum. -/
theorem sliding_bound_iff (ip : String) (events : List Event) (ordered : Ordered events) :
    ((∀ s, countIn s (s + udpRLWindow) (passed ip events) ≤ udpRLMax) ↔
      ∀ w x s, Consecutive (arrivals ip events) w x → w ≤ s → s < x → x < s + udpRLWindow →
        min udpRLMax (countIn w x (arrivals ip events)) + min udpRLMax (countIn x (s + udpRLWindow) (arrivals ip events)) ≤
          udpRLMax + min udpRLMax (countIn w s (arrivals ip events))) ∧
    ∀ s, countIn s (s + udpRLWindow) (passed ip events) ≤ 2 * udpRLMax := by
  obtain ⟨now,late⟩ := exists_late events
  have admits : Admits (arrivals ip events) (passed ip events) := (sound_run ordered late).admits
  refine ⟨⟨?_,?_⟩,?_⟩
  · intro all w x s two le above below
    have count := admits.straddling two le above below
    have bound := all s
    omega
  · intro straddling s
    rcases admits.one_or_two s with one | ⟨w,x,two,le,above,below⟩
    · exact one
    · have count := admits.straddling two le above below
      have bound := straddling w x s two le above below
      omega
  · intro s
    rcases admits.one_or_two s with one | ⟨w,x,two,le,above,below⟩
    · omega
    · have count := admits.straddling two le above below
      omega

def sampleSteady : List Event :=
  [.packet "a" 0,.packet "a" 400000000,.packet "a" 800000000,.packet "a" 1200000000,.cleanup 60000000000,.packet "a" 61000000000]

theorem sliding_bound_steady : starts (arrivals "a" sampleSteady) = [0,1200000000,61000000000] ∧
    ∀ s, countIn s (s + udpRLWindow) (passed "a" sampleSteady) ≤ udpRLMax := by
  have ordered : Ordered sampleSteady := by unfold Ordered; decide
  have five : (arrivals "a" sampleSteady).length = 5 := by decide
  refine ⟨by decide,(sliding_bound_iff "a" sampleSteady ordered).1.mpr (fun w x s _ _ _ _ => ?_)⟩
  have first : countIn w x (arrivals "a" sampleSteady) ≤ 5 := five ▸ countP_le_length
  have second : countIn x (s + udpRLWindow) (arrivals "a" sampleSteady) ≤ 5 := five ▸ countP_le_length
  simp only [udpRLMax]
  omega

def sampleBurst : List Event :=
  .packet "a" 0 :: List.replicate 49 (.packet "a" 900000000) ++ List.replicate 2 (.packet "a" 1000000000)

theorem burst_straddles : ¬ ∀ ip events, Ordered events → ∀ s, countIn s (s + udpRLWindow) (passed ip events) ≤ udpRLMax := by
  intro all
  have ordered : Ordered sampleBurst := by unfold Ordered; decide
  have many : countIn 900000000 (900000000 + udpRLWindow) (passed "a" sampleBurst) = 51 := by decide
  have few := all "a" sampleBurst ordered 900000000
  rw [many] at few
  exact absurd few (by decide)

end TunnelCat.Reflector
