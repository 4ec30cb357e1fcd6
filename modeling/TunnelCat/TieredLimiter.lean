import Mathlib.Data.Finset.Card
import Mathlib.Data.List.Induction
import Mathlib.Tactic.Linarith
import TunnelCat.Runs
import TunnelCat.Table

/-!
The arbiter's limiter with several windows (`tieredWindowLimiter` in `snc-arbiter/ratelimit.go`): one
more event is allowed if each tier has room for it, and events are forgotten by the longest tier.

No tier misses an event that it counts (`tiered_exact`). Keys, however, are never forgotten, since
an allowed call has just recorded an event (`sweep_leaves_recent_iff`).
-/
namespace TunnelCat.TieredLimiter
open Runs List Table

structure LimitTier where
  window : Int
  max : Int
deriving DecidableEq

abbrev Limiter := Table String (List Int)

/-- A call of `Allow`, with the time that it reads. -/
structure Call where
  key : String
  tiers : List LimitTier
  now : Int

def countAfter (cutoff : Int) (evs : List Int) : Nat := evs.countP (fun e => cutoff < e)

def checkTiers (evs : List Int) (now : Int) : List LimitTier → Int → Option Int
  | [], longest => some longest
  | t :: rest, longest =>
    let longest := if t.window > longest then t.window else longest
    if countAfter (now - t.window) evs ≥ t.max then none else checkTiers evs now rest longest

variable (l : Limiter) (calls : List Call) (key : String) (c : Call)

def events : List Int := (l.lookup key).getD []

def sweep : Limiter := if l.size > 10000 then l.filter (fun _ v => v.length ≠ 0) else l

def allow : Limiter × Bool :=
  let evs := events l c.key
  match checkTiers evs c.now c.tiers 0 with
  | none => (l,false)
  | some longest =>
    let kept := evs.filter (fun e => c.now - longest < e)
    (sweep (l.insert c.key (kept ++ [c.now])),true)

def granted : Limiter → List Call → List Call := gather allow (fun l c => if (allow l c).2 then [c] else [])

def times (calls : List Call) : List Int := (calls.filter (fun c => c.key = key)).map Call.now

def after : Limiter := final allow ∅ calls

def allowed (calls : List Call) : List Int := times key (granted ∅ calls)

/-- The events in a half-open window, from a time on that does not count. -/
def countWindow (s width : Int) (evs : List Int) : Nat := evs.countP (fun e => s < e ∧ e ≤ s + width)

/-- The last `max` events all lie in the last window of a tier. A negative maximum asks for none. -/
def Full (t : LimitTier) (now : Int) (evs : List Int) : Prop :=
  t.max.toNat ≤ evs.length ∧ ∀ e ∈ evs.drop (evs.length - t.max.toNat), now - t.window < e ∧ e ≤ now

theorem after_snoc : after (calls ++ [c]) = (allow (after calls) c).1 :=
  final_snoc allow ∅ calls c

theorem granted_snoc :
    granted ∅ (calls ++ [c]) = granted ∅ calls ++ if (allow (after calls) c).2 then [c] else [] :=
  gather_snoc allow _ ∅ calls c

theorem allowed_snoc (calls : List Call) (c : Call) :
    allowed key (calls ++ [c]) =
      allowed key calls ++ if c.key = key ∧ (allow (after calls) c).2 = true then [c.now] else [] := by
  grind [allowed,granted_snoc,times]

variable {key} {before : List Call} {calls} {evs : List Int} {now start : Int} {tiers : List LimitTier}

theorem mem_allowed {e : Int} (mem : e ∈ allowed key calls) :
    ∃ c ∈ calls, c.key = key ∧ c.now = e := by
  induction calls using reverseRecOn with
  | nil => simp [allowed,granted,gather,times] at mem
  | append_singleton calls c ih =>
    grind [allowed_snoc]

def longest (tiers : List LimitTier) : Int := tiers.foldl (fun m t => if t.window > m then t.window else m) 0

theorem checkTiers_some {found : Int}
    (check : checkTiers evs now tiers start = some found) :
    found = tiers.foldl (fun m t => if t.window > m then t.window else m) start ∧
      ∀ t ∈ tiers, (countAfter (now - t.window) evs : Int) < t.max := by
  induction tiers generalizing start with
  | nil => exact ⟨(Option.some.inj check).symm,by simp⟩
  | cons t rest ih =>
    grind [checkTiers]

theorem checkTiers_none
    (check : checkTiers evs now tiers start = none) : ∃ t ∈ tiers, t.max ≤ countAfter (now - t.window) evs := by
  induction tiers generalizing start with
  | nil => cases check
  | cons t rest ih =>
    grind [checkTiers]

theorem window_le_foldl :
    start ≤ tiers.foldl (fun m t => if t.window > m then t.window else m) start ∧
      ∀ t ∈ tiers, t.window ≤ tiers.foldl (fun m t => if t.window > m then t.window else m) start := by
  induction tiers generalizing start with
  | nil => exact ⟨le_refl _,by simp⟩
  | cons t rest ih =>
    grind

theorem window_le_longest {t : LimitTier} (mem : t ∈ tiers) : t.window ≤ longest tiers :=
  window_le_foldl.2 t mem

theorem allow_cases :
    (allow l c = (l,false) ∧ ∃ t ∈ c.tiers, t.max ≤ countAfter (c.now - t.window) (events l c.key)) ∨
      allow l c = (sweep (l.insert c.key ((events l c.key).filter (fun e => c.now - longest c.tiers < e) ++ [c.now])),true) ∧
        ∀ t ∈ c.tiers, (countAfter (c.now - t.window) (events l c.key) : Int) < t.max := by
  cases check : checkTiers (events l c.key) c.now c.tiers 0 with
  | none => exact .inl ⟨by simp only [allow,check],checkTiers_none check⟩
  | some found =>
    obtain ⟨rfl,room⟩ := checkTiers_some check
    exact .inr ⟨by simp only [allow,check]; rfl,room⟩

theorem events_sweep (key : String) : events (sweep l) key = events l key := by
  unfold sweep
  split
  case isFalse => rfl
  case isTrue =>
    rw [events,lookup_filter,events]
    cases l.lookup key with
    | none => rfl
    | some v => cases v <;> rfl

variable {c} {l}

theorem events_allow (ok : (allow l c).2 = true) (key : String) :
    events (allow l c).1 key =
      if key = c.key then (events l c.key).filter (fun e => c.now - longest c.tiers < e) ++ [c.now] else events l key := by
  grind [allow_cases,events_sweep,events]

theorem allow_refused (no : ¬ (allow l c).2 = true) : (allow l c).1 = l := by
  grind [allow_cases]

section
variable {key : String} {tiers : List LimitTier} {calls : List Call} {now : Int}

theorem filter_pruned {evs : List Int} {past long width : Int} (later : past ≤ now) (short : width ≤ long) :
    (evs.filter (fun e => past - long < e)).filter (fun e => now - width < e) = evs.filter (fun e => now - width < e) := by
  rw [filter_filter]
  grind

/-- The events of the key that are kept are those that were allowed, as far as any of its tiers
    counts them from now on. -/
theorem counted_run (fixed : ∀ c ∈ calls, c.key = key → c.tiers = tiers) {width : Int}
    (late : ∀ c ∈ calls, c.now ≤ now) (short : width ≤ longest tiers) :
    (events (after calls) key).filter (fun e => now - width < e) = (allowed key calls).filter (fun e => now - width < e) := by
  induction calls using reverseRecOn with
  | nil => rfl
  | append_singleton calls c ih =>
    have before := ih (fun d mem => fixed d (mem_append_left _ mem)) (fun d mem => late d (mem_append_left _ mem))
    rw [after_snoc,allowed_snoc]
    by_cases ok : (allow (after calls) c).2 = true
    · rw [events_allow ok]
      by_cases own : key = c.key
      · subst own
        have same := fixed c (by simp) rfl
        have now_le := late c (by simp)
        rw [if_pos rfl,if_pos ⟨rfl,ok⟩,filter_append,filter_append,same,filter_pruned now_le short,before]
      · rw [if_neg own,if_neg (fun both => own both.1.symm),append_nil,before]
    · rw [allow_refused ok,if_neg (fun both => ok both.2),append_nil,before]

theorem countAfter_run (fixed : ∀ c ∈ calls, c.key = key → c.tiers = tiers) (late : ∀ c ∈ calls, c.now ≤ now)
    {t : LimitTier} (mem : t ∈ tiers) :
    countAfter (now - t.window) (events (after calls) key) = countAfter (now - t.window) (allowed key calls) := by
  rw [countAfter,countAfter,countP_eq_length_filter,countP_eq_length_filter,
    counted_run fixed late (window_le_longest mem)]

def Ordered (calls : List Call) : Prop := calls.Pairwise (fun a b => a.now ≤ b.now)

theorem Ordered.snoc {c : Call} (ordered : Ordered (calls ++ [c])) : Ordered calls ∧ ∀ d ∈ calls, d.now ≤ c.now := by
  obtain ⟨before,-,last⟩ := pairwise_append.mp ordered
  exact ⟨before,fun d mem => last d mem c mem_cons_self⟩

theorem window_bounded (ordered : Ordered calls) (fixed : ∀ c ∈ calls, c.key = key → c.tiers = tiers) {t : LimitTier}
    (mem : t ∈ tiers) (s : Int) : countWindow s t.window (allowed key calls) ≤ t.max.toNat := by
  induction calls using reverseRecOn with
  | nil => exact Nat.zero_le _
  | append_singleton calls c ih =>
    obtain ⟨before,late⟩ := ordered.snoc
    have fixed' := fun d called => fixed d (mem_append_left _ called)
    have bound := ih before fixed'
    rw [allowed_snoc]
    split
    case isFalse => rwa [append_nil]
    case isTrue event =>
      obtain ⟨own,ok⟩ := event
      rw [countWindow,countP_append,countP_singleton]
      by_cases inside : s < c.now ∧ c.now ≤ s + t.window
      · rw [if_pos (decide_eq_true inside)]
        have room : (countAfter (c.now - t.window) (allowed key calls) : Int) < t.max := by
          rw [← countAfter_run fixed' late mem]
          rcases allow_cases (after calls) c with ⟨refused,-⟩ | ⟨-,room⟩
          · rw [refused] at ok
            cases ok
          · rw [← own]
            exact room t (by rwa [fixed c (by simp) own])
        have fewer : (allowed key calls).countP (fun e => s < e ∧ e ≤ s + t.window) ≤
            countAfter (c.now - t.window) (allowed key calls) := by
          refine countP_mono_left (fun e _ counts => ?_)
          simp only [decide_eq_true_eq] at counts ⊢
          omega
        omega
      · rw [if_neg (by simpa using inside),Nat.add_zero]
        exact bound

theorem allowed_sorted (ordered : Ordered calls) : (allowed key calls).Pairwise (· ≤ ·) := by
  induction calls using reverseRecOn with
  | nil => exact List.Pairwise.nil
  | append_singleton calls c ih =>
    grind [ordered.snoc,allowed_snoc,mem_allowed]

theorem last_above {evs : List Int} (sorted : evs.Pairwise (· ≤ ·)) {cutoff : Int} {n : Nat} (many : n ≤ countAfter cutoff evs) :
    n ≤ evs.length ∧ ∀ e ∈ evs.drop (evs.length - n), cutoff < e := by
  induction evs using reverseRecOn generalizing n with
  | nil => exact ⟨many,by simp⟩
  | append_singleton evs x ih =>
    obtain ⟨before,-,below⟩ := pairwise_append.mp sorted
    by_cases above : cutoff < x
    · rw [countAfter,countP_append,countP_singleton,if_pos (decide_eq_true above)] at many
      cases n with
      | zero => simp
      | succ n =>
        obtain ⟨enough,last⟩ := ih before (Nat.le_of_succ_le_succ many)
        refine ⟨by simpa using enough,fun e mem => ?_⟩
        rw [length_append,length_singleton,Nat.add_sub_add_right,
          drop_append_of_le_length (Nat.sub_le _ _)] at mem
        rcases mem_append.mp mem with old | new
        · exact last e old
        · rwa [mem_singleton.mp new]
    · -- the last element is the largest, so none is above the bound
      have none : countAfter cutoff (evs ++ [x]) = 0 := by
        refine countP_eq_zero.mpr (fun e mem => ?_)
        grind [mem_cons_self]
      have zero : n = 0 := Nat.le_zero.mp (none ▸ many)
      subst zero
      simp

theorem tiered_exact (ordered : Ordered calls) (fixed : ∀ c ∈ calls, c.key = key → c.tiers = tiers) :
    (∀ t ∈ tiers, ∀ s, countWindow s t.window (allowed key calls) ≤ t.max.toNat) ∧
      ∀ before c rest, calls = before ++ c :: rest → c.key = key → (allow (after before) c).2 = false →
        ∃ t ∈ tiers, Full t c.now (allowed key before) := by
  refine ⟨fun t mem s => window_bounded ordered fixed mem s,?_⟩
  rintro before c rest rfl own no
  obtain ⟨first,-,later⟩ := pairwise_append.mp ordered
  have late : ∀ d ∈ before, d.now ≤ c.now := fun d mem => later d mem c mem_cons_self
  have fixed' := fun d mem => fixed d (mem_append_left _ mem)
  rcases allow_cases (after before) c with ⟨-,t,mem,full⟩ | ⟨done,-⟩
  · rw [fixed c (by simp) own] at mem
    rw [own,countAfter_run fixed' late mem] at full
    have many : t.max.toNat ≤ countAfter (c.now - t.window) (allowed key before) := by omega
    obtain ⟨enough,above⟩ := last_above (allowed_sorted first) many
    refine ⟨t,mem,enough,fun e last => ⟨above e last,?_⟩⟩
    obtain ⟨d,called,-,rfl⟩ := mem_allowed (mem_of_mem_drop last)
    exact late d called
  · rw [done] at no
    cases no

end

def sampleTiers : List LimitTier := [⟨10,1⟩,⟨600,2⟩]

def sampleCalls : List Call :=
  [⟨"a",sampleTiers,0⟩,⟨"b",[⟨10,1⟩],3⟩,⟨"a",sampleTiers,5⟩,⟨"a",sampleTiers,12⟩,⟨"a",sampleTiers,30⟩]

theorem tiered_exact_sample : trace allow ∅ sampleCalls = [true,true,false,true,false] ∧
    (∀ t ∈ sampleTiers, ∀ s, countWindow s t.window (allowed "a" sampleCalls) ≤ t.max.toNat) ∧
    ∃ t ∈ sampleTiers, Full t 30 (allowed "a" (sampleCalls.take 4)) := by
  have ordered : Ordered sampleCalls := by unfold Ordered; decide
  have fixed : ∀ c ∈ sampleCalls, c.key = "a" → c.tiers = sampleTiers := by decide
  obtain ⟨bounded,full⟩ := tiered_exact ordered fixed
  exact ⟨by decide,bounded,full (sampleCalls.take 4) _ [] rfl rfl (by decide)⟩

def longestUsed (key : String) (calls : List Call) : Int :=
  (calls.filter (fun c => c.key = key)).foldl (fun m c => max m (longest c.tiers)) 0

def Recent (l : Limiter) (calls : List Call) (now : Int) : Prop :=
  ∀ key evs, l.lookup key = some evs → ∃ e ∈ evs, now - longestUsed key calls < e

def SweepLeavesRecent (calls : List Call) : Prop :=
  ∀ before c rest, calls = before ++ c :: rest → (allow (after before) c).2 = true →
    10000 < (after (before ++ [c])).size → Recent (after (before ++ [c])) (before ++ [c]) c.now

def allowedKeys (calls : List Call) : Finset String := ((granted ∅ calls).map Call.key).toFinset

/-- Whenever more than 10000 keys have been allowed an event, each of them has been allowed one
    inside its longest window. -/
def AllReturn (calls : List Call) : Prop :=
  ∀ before c rest, calls = before ++ c :: rest → (allow (after before) c).2 = true →
    10000 < (allowedKeys (before ++ [c])).card →
      ∀ key ∈ allowedKeys (before ++ [c]), ∃ e ∈ allowed key (before ++ [c]), c.now - longestUsed key (before ++ [c]) < e

/-- A key without allowed events is not stored. One with allowed events is stored with the last of
    them, after some earlier ones. -/
def Recorded (l : Limiter) (key : String) (evs : List Int) : Prop :=
  (evs = [] ∧ l.lookup key = none) ∨
    ∃ old e v, evs = old ++ [e] ∧ l.lookup key = some (v ++ [e]) ∧ ∀ x ∈ v, x ∈ old

theorem lookup_sweep (nonempty : ∀ key, l.lookup key ≠ some []) (key : String) :
    (sweep l).lookup key = l.lookup key := by
  unfold sweep
  split
  case isFalse => rfl
  case isTrue =>
    rw [lookup_filter]
    cases found : l.lookup key with
    | none => rfl
    | some v =>
      grind

theorem lookup_allow (nonempty : ∀ key, l.lookup key ≠ some []) (ok : (allow l c).2 = true)
    (key : String) :
    (allow l c).1.lookup key = if key = c.key then
      some ((events l c.key).filter (fun e => c.now - longest c.tiers < e) ++ [c.now]) else l.lookup key := by
  rcases allow_cases l c with ⟨refused,-⟩ | ⟨done,-⟩
  · rw [refused] at ok
    cases ok
  · rw [done,lookup_sweep,lookup_insert_of]
    intro other empty
    rcases of_lookup_insert empty with ⟨-,ends⟩ | ⟨-,found⟩
    · simp at ends
    · exact nonempty other found

theorem Recorded.nonempty (recorded : Recorded l key evs) : l.lookup key ≠ some [] := by
  rcases recorded with ⟨-,missing⟩ | ⟨old,e,v,-,stored,-⟩
  · simp [missing]
  · simp [stored]

theorem Recorded.events_sub (recorded : Recorded l key evs) :
    ∀ x ∈ events l key, x ∈ evs := by
  rcases recorded with ⟨-,missing⟩ | ⟨old,e,v,rfl,stored,earlier⟩
  · simp [events,missing]
  grind [events]

theorem recorded_run (calls : List Call) : ∀ key, Recorded (after calls) key (allowed key calls) := by
  induction calls using reverseRecOn with
  | nil => exact fun key => .inl ⟨rfl,rfl⟩
  | append_singleton calls c ih =>
    intro key
    rw [after_snoc,allowed_snoc]
    by_cases ok : (allow (after calls) c).2 = true
    · have found := lookup_allow (fun key => (ih key).nonempty) ok key
      by_cases own : key = c.key
      · subst own
        rw [if_pos rfl] at found
        rw [if_pos ⟨rfl,ok⟩]
        exact .inr ⟨_,c.now,_,rfl,found,fun x mem => (ih c.key).events_sub x (mem_of_mem_filter mem)⟩
      grind [Recorded]
    · rw [allow_refused ok,if_neg (fun both => ok both.2),append_nil]
      exact ih key

theorem mem_allowedKeys : key ∈ allowedKeys calls ↔ allowed key calls ≠ [] := by
  rw [allowedKeys,allowed,times]
  simp

theorem stored_iff : key ∈ (after calls).keys ↔ key ∈ allowedKeys calls := by
  rw [mem_allowedKeys,← AList.mem_keys,← AList.lookup_isSome]
  rcases recorded_run calls key with ⟨none,missing⟩ | ⟨old,e,v,same,stored,-⟩
  · simp [none,missing]
  · simp [same,stored]

theorem size_after (calls : List Call) : (after calls).size = (allowedKeys calls).card := by
  have same : (after calls).keys.toFinset = allowedKeys calls := by
    ext key
    rw [mem_toFinset,stored_iff]
  rw [size_eq,← same,toFinset_card_of_nodup (AList.keys_nodup _)]

theorem recent_iff (ordered : Ordered calls) :
    Recent (after calls) calls now ↔
      ∀ key ∈ allowedKeys calls, ∃ e ∈ allowed key calls, now - longestUsed key calls < e := by
  constructor
  · intro recent key mem
    rcases recorded_run calls key with ⟨none,-⟩ | ⟨old,e,v,same,stored,-⟩
    · exact absurd none (mem_allowedKeys.mp mem)
    · obtain ⟨x,kept,inside⟩ := recent key _ stored
      have sub := (recorded_run calls key).events_sub x (by rwa [events,stored])
      exact ⟨x,sub,inside⟩
  · intro returned key evs found
    have mem : key ∈ allowedKeys calls := stored_iff.mp (AList.mem_keys.mp (AList.lookup_isSome.mp (by rw [found]; rfl)))
    obtain ⟨x,was,inside⟩ := returned key mem
    rcases recorded_run calls key with ⟨none,-⟩ | ⟨old,e,v,same,stored,-⟩
    · exact absurd none (mem_allowedKeys.mp mem)
    · -- the last event is stored, and no earlier one is later
      cases found.symm.trans stored
      refine ⟨e,by simp,lt_of_lt_of_le inside ?_⟩
      grind [allowed_sorted,mem_cons_self]

theorem Ordered.take {rest : List Call} (ordered : Ordered (before ++ c :: rest)) : Ordered (before ++ [c]) := by
  rw [← singleton_append,← append_assoc] at ordered
  exact (pairwise_append.mp ordered).1

theorem sweep_leaves_recent_iff {calls : List Call} (ordered : Ordered calls) : SweepLeavesRecent calls ↔ AllReturn calls := by
  constructor
  · rintro leaves before c rest rfl ok many
    exact (recent_iff ordered.take).mp (leaves before c rest rfl ok (by rwa [size_after]))
  · rintro returned before c rest rfl ok many
    rw [size_after] at many
    exact (recent_iff ordered.take).mpr (returned before c rest rfl ok many)

theorem longestUsed_le {bound : Int} (nonneg : 0 ≤ bound)
    (short : ∀ c ∈ calls, longest c.tiers ≤ bound) : longestUsed key calls ≤ bound := by
  have all : ∀ (l : List Call) (m : Int), m ≤ bound → (∀ c ∈ l, longest c.tiers ≤ bound) →
      l.foldl (fun m c => max m (longest c.tiers)) m ≤ bound := by
    intro l
    induction l with
    | nil => exact fun m low _ => low
    | cons c rest ih =>
      intro m low each
      exact ih _ (max_le low (each c mem_cons_self)) (fun d mem => each d (mem_cons_of_mem _ mem))
  exact all _ 0 nonneg (fun c mem => short c (mem_of_mem_filter mem))

theorem longest_le_used (mem : c ∈ calls) : longest c.tiers ≤ longestUsed c.key calls := by
  have all : ∀ (l : List Call) (m : Int), m ≤ l.foldl (fun m c => max m (longest c.tiers)) m ∧
      ∀ c ∈ l, longest c.tiers ≤ l.foldl (fun m c => max m (longest c.tiers)) m := by
    intro l
    induction l with
    | nil => exact fun m => ⟨le_refl m,by simp⟩
    | cons c rest ih =>
      grind
  exact (all _ 0).2 c (mem_filter.mpr ⟨mem,decide_eq_true rfl⟩)

theorem allow_new (new : ∀ d ∈ before, d.key ≠ c.key) (some : ∀ t ∈ c.tiers, 0 < t.max) :
    (allow (after before) c).2 = true := by
  have none : events (after before) c.key = [] := by
    refine eq_nil_iff_forall_not_mem.mpr (fun e mem => ?_)
    obtain ⟨d,called,same,-⟩ := mem_allowed ((recorded_run before c.key).events_sub e mem)
    exact new d called same
  rcases allow_cases (after before) c with ⟨-,t,mem,full⟩ | ⟨done,-⟩
  · rw [none] at full
    exact absurd (some t mem) (not_lt.mpr full)
  · rw [done]

theorem granted_new (apart : (calls.map Call.key).Nodup) (some : ∀ c ∈ calls, ∀ t ∈ c.tiers, 0 < t.max) :
    granted ∅ calls = calls := by
  induction calls using reverseRecOn with
  | nil => rfl
  | append_singleton calls c ih =>
    rw [map_append] at apart
    obtain ⟨before,-,own⟩ := nodup_append.mp apart
    have new : ∀ d ∈ calls, d.key ≠ c.key := fun d mem => own _ (mem_map_of_mem mem) _ (by simp)
    rw [granted_snoc,if_pos (allow_new new (some c (by simp))),ih before (fun d mem => some d (mem_append_left _ mem))]

def sampleKey (i : Nat) : String := String.ofList (List.replicate i 'k')

theorem sampleKey_injective : Function.Injective sampleKey := by
  intro i j same
  have texts := String.ofList_inj.mp same
  simpa using congrArg List.length texts

def flood : List Call := (List.range 10001).map (fun i => ⟨sampleKey i,[⟨10,1⟩],0⟩)

theorem flood_keys : flood.map Call.key = (List.range 10001).map sampleKey := by
  rw [flood,map_map]
  rfl

theorem mem_flood (mem : c ∈ flood) : c.tiers = [⟨10,1⟩] ∧ c.now = 0 := by
  obtain ⟨i,-,rfl⟩ := mem_map.mp mem
  exact ⟨rfl,rfl⟩

theorem granted_flood : granted ∅ flood = flood := by
  grind [granted_new,flood_keys,nodup_range.map,sampleKey_injective,mem_flood]

theorem flood_rises : Ordered flood := by
  refine pairwise_of_forall_mem_list ?_
  intro c mem d mem'
  rw [(mem_flood mem).2,(mem_flood mem').2]

/-- While the flood comes in, all of its keys are recent. -/
theorem sweep_leaves_recent_flood : Ordered flood ∧ SweepLeavesRecent flood := by
  refine ⟨flood_rises,(sweep_leaves_recent_iff flood_rises).mpr ?_⟩
  intro before c rest same _ _ key mem
  have part : ∀ d ∈ before ++ [c], d ∈ flood := by
    intro d called
    rw [same,← singleton_append,← append_assoc]
    exact mem_append_left _ called
  obtain ⟨e,was⟩ := exists_mem_of_ne_nil _ (mem_allowedKeys.mp mem)
  obtain ⟨d,called,rfl,rfl⟩ := mem_allowed was
  have long := longest_le_used called
  rw [(mem_flood (part d called)).1] at long
  refine ⟨d.now,was,?_⟩
  rw [(mem_flood (part d called)).2,(mem_flood (part c (by simp))).2]
  have ten : longest [⟨10,1⟩] = 10 := by decide
  omega

def afterFlood : Call := ⟨sampleKey 0,[⟨10,1⟩],100⟩

theorem mem_flooded (mem : c ∈ flood ++ [afterFlood]) : c.tiers = [⟨10,1⟩] ∧ (c.now = 0 ∨ c = afterFlood) := by
  rcases mem_append.mp mem with old | last
  · exact ⟨(mem_flood old).1,.inl (mem_flood old).2⟩
  · rw [mem_singleton.mp last]
    exact ⟨rfl,.inr rfl⟩

theorem flood_ordered : Ordered (flood ++ [afterFlood]) := by
  refine pairwise_append.mpr ⟨flood_rises,pairwise_singleton _ _,?_⟩
  · intro c mem d last
    rw [(mem_flood mem).2,mem_singleton.mp last]
    decide

theorem afterFlood_allowed : (allow (after flood) afterFlood).2 = true := by
  have old : ∀ e ∈ events (after flood) afterFlood.key, e = 0 := by
    intro e mem
    obtain ⟨d,called,-,rfl⟩ := mem_allowed ((recorded_run flood _).events_sub e mem)
    exact (mem_flood called).2
  rcases allow_cases (after flood) afterFlood with ⟨-,t,mem,full⟩ | ⟨done,-⟩
  · rw [afterFlood,mem_singleton] at mem
    have none : countAfter (afterFlood.now - t.window) (events (after flood) afterFlood.key) = 0 := by
      refine countP_eq_zero.mpr (fun e stored => ?_)
      rw [old e stored,mem]
      decide
    rw [none,mem] at full
    exact absurd full (by decide)
  · rw [done]

theorem flooded_keys {i : Nat} (one : i < 10001) : sampleKey i ∈ allowedKeys (flood ++ [afterFlood]) := by
  rw [allowedKeys,granted_snoc,granted_flood,mem_toFinset,map_append,flood_keys]
  exact mem_append_left _ (mem_map_of_mem (mem_range.mpr one))

theorem flooded_many : 10000 < (allowedKeys (flood ++ [afterFlood])).card := by
  have sub : (Finset.range 10001).image sampleKey ⊆ allowedKeys (flood ++ [afterFlood]) := by
    grind [flooded_keys]
  have card := Finset.card_le_card sub
  rw [Finset.card_image_of_injective _ sampleKey_injective,Finset.card_range] at card
  exact card

/-- 10000 keys have been silent for ten times their window, and all of them are still there. -/
theorem flood_stays : ¬ ∀ calls, Ordered calls → SweepLeavesRecent calls := by
  intro all
  have recent := all _ flood_ordered flood afterFlood [] rfl afterFlood_allowed (by rw [size_after]; exact flooded_many)
  obtain ⟨e,was,inside⟩ := (recent_iff flood_ordered).mp recent (sampleKey 1) (flooded_keys (by decide))
  obtain ⟨c,called,own,rfl⟩ := mem_allowed was
  have short : longestUsed (sampleKey 1) (flood ++ [afterFlood]) ≤ 10 := by
    refine longestUsed_le (by decide) (fun d mem => ?_)
    rw [(mem_flooded mem).1]
    decide
  rcases (mem_flooded called).2 with zero | rfl
  · rw [zero] at inside
    have : afterFlood.now = 100 := rfl
    omega
  · exact absurd (sampleKey_injective own) (by decide)

end TunnelCat.TieredLimiter
