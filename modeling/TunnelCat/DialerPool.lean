import Mathlib.Data.List.Basic
import Mathlib.Tactic.Linarith
import TunnelCat.Runs
import TunnelCat.Table

/-!
The pool of a client's dialers (`snc/core/dialer_pool.go`): a weighted draw, and pins of hosts and of apps
that are followed only while their dialer is in the pool. So every pick is a member (`Sticky.picks`), and
what it returned for an app or a host is returned again until the dialer leaves, the pin is set
explicitly, or, for a host, the pin is too old (`pool_sticky`).
-/
namespace TunnelCat.DialerPool
open Runs List
universe u

inductive DialerState
  | standby
  | draining
deriving DecidableEq

structure DialerSlot (δ : Type u) where
  dialer : δ
  state : DialerState

structure HostAffinityEntry (δ : Type u) where
  dialer : δ
  pinnedAt : Int

def hostAffinityTTL : Int := 10 * 60 * 1000000000

structure Pool (δ : Type u) where
  slots : List (DialerSlot δ)
  evictCount : Int32
  affinity : Table String (HostAffinityEntry δ)
  appAffinity : Table Int δ

variable {δ : Type u} [DecidableEq δ]

def newDialerPool (dialers : List δ) : Pool δ := ⟨dialers.map (⟨·,.standby⟩),0,∅,∅⟩

namespace Pool
variable (p : Pool δ)

def eligible (exclude : Option δ) : List (DialerSlot δ) :=
  p.slots.filter (fun s => ¬ (s.state = .draining ∨ exclude = some s.dialer))

variable (host : String) (uid : Int) (d : δ) (now : Int) (draw : Nat)

def pickLocked (exclude : Option δ) (draw : Nat) : Option δ :=
  ((p.eligible exclude)[draw % (p.eligible exclude).length]?).map DialerSlot.dialer

def containsUnlocked : Bool :=
  (p.slots.find? (fun s => s.dialer = d)).any (fun s => s.state ≠ .draining)

def setHostAffinityLocked : Pool δ := { p with affinity := p.affinity.insert host ⟨d,now⟩ }

def setUIDAffinityLocked : Pool δ := { p with appAffinity := p.appAffinity.insert uid d }

def sweepAffinityLocked : Pool δ :=
  { p with affinity := p.affinity.filter (fun _ e => ¬ now - e.pinnedAt ≥ hostAffinityTTL) }

def sizeUnlocked : Nat := p.slots.countP (fun s => s.state ≠ .draining)

def manage (idle : δ → Bool) (now : Int) : Pool δ :=
  let slots := p.slots.map (fun s => if s.state = .draining ∧ idle s.dialer then { s with state := .standby } else s)
  { p with slots := slots }.sweepAffinityLocked now

def add : Pool δ := { p with slots := p.slots ++ [⟨d,.standby⟩] }

def evict : Pool δ :=
  if p.slots.any (fun s => s.dialer = d) then
    { p with slots := p.slots.filter (fun s => s.dialer ≠ d), evictCount := p.evictCount + 1 }
  else p

def swap (dialers : List δ) : Pool δ := { p with slots := dialers.map (⟨·,.standby⟩) }

/-- What both sticky picks do under the lock: return the pinned dialer if it is in the pool, or draw
    one and pin it. -/
def stickyPick (pinned : Option δ) (pin : δ → Pool δ) (draw : Nat) : Pool δ × Option δ :=
  match pinned.filter p.containsUnlocked with
  | some d => (p,some d)
  | none =>
    match p.pickLocked none draw with
    | none => (p,none)
    | some d => (pin d,some d)

def hostPin : Option δ :=
  ((p.affinity.lookup host).filter (fun e => now - e.pinnedAt < hostAffinityTTL)).map HostAffinityEntry.dialer

def pickForHost (pause : Nat) : Pool δ × Option δ :=
  if host = "" then (p,p.pickLocked none draw)
  else p.stickyPick (p.hostPin host now) (fun d => p.setHostAffinityLocked host d (now + pause)) draw

def pickForUID : Pool δ × Option δ :=
  if uid < 0 then (p,p.pickLocked none draw)
  else p.stickyPick (p.appAffinity.lookup uid) (p.setUIDAffinityLocked uid) draw

def setHostAffinity (d : Option δ) (now : Int) : Pool δ :=
  match d with
  | none => p
  | some d => if host = "" then p else p.setHostAffinityLocked host d now

def setUIDAffinity (d : Option δ) : Pool δ :=
  match d with
  | none => p
  | some d => p.setUIDAffinityLocked uid d

end Pool

inductive Op (δ : Type u)
  | add (d : δ)
  | evict (d : δ)
  | swap (dialers : List δ)
  | setHostAffinity (host : String) (d : Option δ)
  | setUIDAffinity (uid : Int) (d : Option δ)
  | manage (idle : δ → Bool)
  | drainEvictions
  | pick (draw : Nat)
  | pickExcluding (exclude : Option δ) (draw : Nat)
  | pickForHost (host : String) (draw pause : Nat)
  | pickForUID (uid : Int) (draw : Nat)

inductive Shown (δ : Type u)
  | nothing
  | size (n : Nat)
  | evictions (n : Int)
  | picked (d : Option δ)

structure State (δ : Type u) where
  pool : Pool δ
  now : Int

structure Input (δ : Type u) where
  wait : Nat
  op : Op δ

variable (p : Pool δ) (s : State δ)

def act (now : Int) : Op δ → Pool δ × Shown δ
  | .add d => (p.add d,.nothing)
  | .evict d => (p.evict d,.size (p.evict d).sizeUnlocked)
  | .swap dialers => (p.swap dialers,.nothing)
  | .setHostAffinity host d => (p.setHostAffinity host d now,.nothing)
  | .setUIDAffinity uid d => (p.setUIDAffinity uid d,.nothing)
  | .manage idle => (p.manage idle now,.nothing)
  | .drainEvictions => ({ p with evictCount := 0 },.evictions p.evictCount.toInt)
  | .pick draw => (p,.picked (p.pickLocked none draw))
  | .pickExcluding exclude draw => (p,.picked (p.pickLocked exclude draw))
  | .pickForHost host draw pause => ((p.pickForHost host now draw pause).1,.picked (p.pickForHost host now draw pause).2)
  | .pickForUID uid draw => ((p.pickForUID uid draw).1,.picked (p.pickForUID uid draw).2)

def Op.pause : Op δ → Nat
  | .pickForHost _ _ pause => pause
  | _ => 0

def step (i : Input δ) : State δ × Shown δ :=
  let now := s.now + i.wait
  (⟨(act s.pool now i.op).1,now + i.op.pause⟩,(act s.pool now i.op).2)

def start (dialers : List δ) (now : Int) : State δ := ⟨newDialerPool dialers,now⟩

def InPool (d : δ) : Prop := ∃ s ∈ p.slots, s.dialer = d

def Eligible (exclude : Option δ) (d : δ) : Prop :=
  (∃ s ∈ p.slots, s.dialer = d ∧ s.state ≠ .draining) ∧ exclude ≠ some d

def Chosen (exclude : Option δ) : Option δ → Prop
  | some d => Eligible p exclude d
  | none => ∀ d, ¬ Eligible p exclude d

def Op.excluded : Op δ → Option δ
  | .pickExcluding exclude _ => exclude
  | _ => none

def Op.setsHost (host : String) : Op δ → Prop
  | .setHostAffinity other d => other = host ∧ d ≠ none
  | _ => False

def Op.setsUID (uid : Int) : Op δ → Prop
  | .setUIDAffinity other d => other = uid ∧ d ≠ none
  | _ => False

/-- From here on, a pick for an app gives a dialer as long as that stays in the pool and the pin is
    not set explicitly. -/
def RepeatsUID (uid : Int) (d : δ) : Prop :=
  ∀ later, Along step (fun s i => InPool (step s i).1.pool d ∧ ¬ i.op.setsUID uid) s later →
    ∀ wait draw, (step (final step s later) ⟨wait,.pickForUID uid draw⟩).2 = .picked (some d)

def RepeatsHost (host : String) (e : HostAffinityEntry δ) : Prop :=
  ∀ later, Along step (fun s i => InPool (step s i).1.pool e.dialer ∧ ¬ i.op.setsHost host) s later →
    ∀ (wait : Nat) draw pause, (final step s later).now + wait - e.pinnedAt < hostAffinityTTL →
      (step (final step s later) ⟨wait,.pickForHost host draw pause⟩).2 = .picked (some e.dialer)

/-- The guarantees of a pool at one moment of a run, for what comes after it. -/
structure Sticky (s : State δ) : Prop where
  picks : ∀ i result, (step s i).2 = .picked result → Chosen s.pool i.op.excluded result
  uid : ∀ wait uid draw d, 0 ≤ uid → (step s ⟨wait,.pickForUID uid draw⟩).2 = .picked (some d) →
    RepeatsUID (step s ⟨wait,.pickForUID uid draw⟩).1 uid d
  /-- The pin that counts is the one that the pick followed or set. -/
  host : ∀ wait host draw pause d, host ≠ "" → (step s ⟨wait,.pickForHost host draw pause⟩).2 = .picked (some d) →
    ∃ e, (step s ⟨wait,.pickForHost host draw pause⟩).1.pool.affinity.lookup host = some e ∧ e.dialer = d ∧
      RepeatsHost (step s ⟨wait,.pickForHost host draw pause⟩).1 host e
  negative : ∀ wait uid draw, uid < 0 → (step s ⟨wait,.pickForUID uid draw⟩).1.pool = s.pool ∧
    ∀ pins, (step ⟨{ s.pool with appAffinity := pins },s.now⟩ ⟨wait,.pickForUID uid draw⟩).2 = (step s ⟨wait,.pick draw⟩).2

section
variable {p : Pool δ} {d : δ} {exclude pinned : Option δ} {β : Type u} {host : String} {now uid : Int}

theorem mem_eligible {s : DialerSlot δ} (mem : s ∈ p.eligible exclude) : Eligible p exclude s.dialer := by
  obtain ⟨slot,free⟩ := mem_filter.mp mem
  simp only [not_or,decide_eq_true_eq] at free
  exact ⟨⟨s,slot,rfl,free.1⟩,free.2⟩

theorem pickLocked_chosen (p : Pool δ) (exclude : Option δ) (draw : Nat) : Chosen p exclude (p.pickLocked exclude draw) := by
  unfold Pool.pickLocked
  cases found : (p.eligible exclude)[draw % (p.eligible exclude).length]? with
  | some s => exact mem_eligible (mem_of_getElem? found)
  | none =>
    -- an index below the length fails only if there is no element
    have empty : p.eligible exclude = [] := by
      by_contra some
      have long := getElem?_eq_none_iff.mp found
      exact absurd (Nat.mod_lt draw (length_pos_iff.mpr some)) (not_lt.mpr long)
    rintro d ⟨⟨s,slot,rfl,standby⟩,free⟩
    have mem : s ∈ p.eligible exclude := mem_filter.mpr ⟨slot,by simp [standby,free]⟩
    simp [empty] at mem

theorem contains_eligible (contains : p.containsUnlocked d = true) : Eligible p none d := by
  unfold Pool.containsUnlocked at contains
  cases found : p.slots.find? (fun s => s.dialer = d) with
  | none => simp [found] at contains
  | some s =>
    have same : s.dialer = d := by simpa using List.find?_some found
    rw [found] at contains
    exact ⟨⟨s,mem_of_find?_eq_some found,same,by simpa using contains⟩,by simp⟩

def AllStandby (p : Pool δ) : Prop := ∀ s ∈ p.slots, s.state = .standby

theorem contains_of_inPool (standby : AllStandby p) (member : InPool p d) : p.containsUnlocked d = true := by
  obtain ⟨s,slot,same⟩ := member
  have some : (p.slots.find? (fun s => s.dialer = d)).isSome := List.find?_isSome.mpr ⟨s,slot,decide_eq_true same⟩
  obtain ⟨t,found⟩ := Option.isSome_iff_exists.mp some
  rw [Pool.containsUnlocked,found]
  simp [standby t (mem_of_find?_eq_some found)]

theorem stickyPick_follows (pin : δ → Pool δ) (draw : Nat) (pinnedTo : pinned = some d)
    (contains : p.containsUnlocked d = true) : p.stickyPick pinned pin draw = (p,some d) := by
  simp only [Pool.stickyPick,pinnedTo,Option.filter_some,contains,if_true]

theorem stickyPick_cases (p : Pool δ) (pinned : Option δ) (pin : δ → Pool δ) (draw : Nat) :
    (∃ d, pinned = some d ∧ p.containsUnlocked d = true ∧ p.stickyPick pinned pin draw = (p,some d)) ∨
      (p.pickLocked none draw = none ∧ p.stickyPick pinned pin draw = (p,none)) ∨
        ∃ d, p.pickLocked none draw = some d ∧ p.stickyPick pinned pin draw = (pin d,some d) := by
  grind [Option.filter_eq_some_iff,Pool.stickyPick]

theorem stickyPick_chosen (pinned : Option δ) (pin : δ → Pool δ) (draw : Nat) :
    Chosen p none (p.stickyPick pinned pin draw).2 := by
  have chosen := pickLocked_chosen p none draw
  rcases stickyPick_cases p pinned pin draw with ⟨d,-,contains,same⟩ | ⟨drawn,same⟩ | ⟨d,drawn,same⟩
  · rw [same]
    exact contains_eligible contains
  · rw [drawn] at chosen
    rwa [same]
  · rw [drawn] at chosen
    rwa [same]

variable (f : Pool δ → β)

theorem stickyPick_keeps {pin : δ → Pool δ} (same : ∀ d, f (pin d) = f p)
    (draw : Nat) : f (p.stickyPick pinned pin draw).1 = f p := by
  rcases stickyPick_cases p pinned pin draw with ⟨d,-,-,done⟩ | ⟨-,done⟩ | ⟨d,-,done⟩ <;> rw [done]
  exact same d

theorem pickForHost_keeps {pause : Nat}
    (same : ∀ d, f (p.setHostAffinityLocked host d (now + pause)) = f p) (draw : Nat) :
    f (p.pickForHost host now draw pause).1 = f p := by
  unfold Pool.pickForHost
  split
  case isTrue => rfl
  case isFalse => exact stickyPick_keeps f same draw

theorem pickForUID_keeps (same : ∀ d, f (p.setUIDAffinityLocked uid d) = f p)
    (draw : Nat) : f (p.pickForUID uid draw).1 = f p := by
  unfold Pool.pickForUID
  split
  case isTrue => rfl
  case isFalse => exact stickyPick_keeps f same draw

theorem act_standby (standby : AllStandby p) (now : Int) (op : Op δ) : AllStandby (act p now op).1 := by
  cases op with
  | add d =>
    refine forall_mem_append.mpr ⟨standby,?_⟩
    simp
  | evict d =>
    simp only [act,Pool.evict]
    split
    case isTrue => exact fun s mem => standby s (mem_of_mem_filter mem)
    case isFalse => exact standby
  | swap dialers =>
    intro s mem
    obtain ⟨d,-,rfl⟩ := mem_map.mp mem
    rfl
  | manage idle =>
    intro s mem
    obtain ⟨t,slot,rfl⟩ := mem_map.mp mem
    split
    case isTrue => rfl
    case isFalse => exact standby t slot
  | setHostAffinity host d =>
    simp only [act,Pool.setHostAffinity]
    cases d with
    | none => exact standby
    | some d => dsimp only; split <;> exact standby
  | setUIDAffinity uid d => cases d <;> exact standby
  | pickForHost host draw pause =>
    intro s mem
    rw [act,pickForHost_keeps Pool.slots (fun _ => rfl)] at mem
    exact standby s mem
  | pickForUID uid draw =>
    intro s mem
    rw [act,pickForUID_keeps Pool.slots (fun _ => rfl)] at mem
    exact standby s mem
  | drainEvictions => exact standby
  | pick draw => exact standby
  | pickExcluding exclude draw => exact standby

theorem act_chosen (p : Pool δ) (now : Int) (op : Op δ) {result : Option δ} (picked : (act p now op).2 = .picked result) :
    Chosen p op.excluded result := by
  cases op with
  | pick draw =>
    cases picked
    exact pickLocked_chosen p none draw
  | pickExcluding exclude draw =>
    cases picked
    exact pickLocked_chosen p exclude draw
  | pickForHost host draw pause =>
    cases picked
    simp only [Pool.pickForHost]
    split
    case isTrue => exact pickLocked_chosen p none draw
    case isFalse => exact stickyPick_chosen _ _ draw
  | pickForUID uid draw =>
    cases picked
    simp only [Pool.pickForUID]
    split
    case isTrue => exact pickLocked_chosen p none draw
    case isFalse => exact stickyPick_chosen _ _ draw
  | add d | evict d | swap dialers | setHostAffinity host d | setUIDAffinity uid d | manage idle | drainEvictions => cases picked

theorem act_uidPin (pinned : p.appAffinity.lookup uid = some d) (contains : p.containsUnlocked d = true) (now : Int)
    {op : Op δ} (notSet : ¬ op.setsUID uid) : (act p now op).1.appAffinity.lookup uid = some d := by
  have other_ne : ∀ {other : Int} (e : δ), uid ≠ other → (p.setUIDAffinityLocked other e).appAffinity.lookup uid = some d :=
    fun e apart => (Table.lookup_insert_of _ _ _ _).trans ((if_neg apart).trans pinned)
  cases op with
  | setUIDAffinity other e =>
    cases e with
    | none => exact pinned
    | some e => exact other_ne e (fun same => notSet ⟨same.symm,by simp⟩)
  | pickForUID other draw =>
    by_cases same : uid = other
    · grind [act,Pool.pickForUID,stickyPick_follows]
    · rw [act,pickForUID_keeps (fun p => p.appAffinity.lookup uid) (fun e => (other_ne e same).trans pinned.symm)]
      exact pinned
  | pickForHost host draw pause =>
    rw [act,pickForHost_keeps Pool.appAffinity (fun _ => rfl)]
    exact pinned
  | evict e =>
    simp only [act,Pool.evict]
    split <;> exact pinned
  | setHostAffinity host e =>
    simp only [act,Pool.setHostAffinity]
    cases e with
    | none => exact pinned
    | some e => dsimp only; split <;> exact pinned
  | add e | swap dialers | manage idle | drainEvictions | pick draw | pickExcluding exclude draw => exact pinned

theorem act_hostPin {e : HostAffinityEntry δ} (pinned : p.affinity.lookup host = some e)
    (contains : p.containsUnlocked e.dialer = true) (young : now - e.pinnedAt < hostAffinityTTL) {op : Op δ}
    (notSet : ¬ op.setsHost host) : (act p now op).1.affinity.lookup host = some e := by
  have other_ne : ∀ {other : String} (d : δ) (time : Int), host ≠ other →
      (p.setHostAffinityLocked other d time).affinity.lookup host = some e :=
    fun d time apart => (Table.lookup_insert_of _ _ _ _).trans ((if_neg apart).trans pinned)
  cases op with
  | setHostAffinity other d =>
    simp only [act,Pool.setHostAffinity]
    cases d with
    | none => exact pinned
    | some d =>
      dsimp only
      split
      case isTrue => exact pinned
      case isFalse => exact other_ne d now (fun same => notSet ⟨same.symm,by simp⟩)
  | pickForHost other draw pause =>
    by_cases same : host = other
    · grind [Pool.hostPin,act,Pool.pickForHost,stickyPick_follows]
    · rw [act,pickForHost_keeps (fun p => p.affinity.lookup host) (fun d => (other_ne d _ same).trans pinned.symm)]
      exact pinned
  | manage idle =>
    grind [act,Pool.manage,Pool.sweepAffinityLocked]
  | pickForUID uid draw =>
    rw [act,pickForUID_keeps Pool.affinity (fun _ => rfl)]
    exact pinned
  | evict d =>
    simp only [act,Pool.evict]
    split <;> exact pinned
  | setUIDAffinity uid d => cases d <;> exact pinned
  | add d | swap dialers | drainEvictions | pick draw | pickExcluding exclude draw => exact pinned

theorem pickForUID_pins (resolved : 0 ≤ uid) {draw : Nat} (picked : (p.pickForUID uid draw).2 = some d) :
    (p.pickForUID uid draw).1.appAffinity.lookup uid = some d := by
  unfold Pool.pickForUID at picked ⊢
  rw [if_neg (not_lt.mpr resolved)] at picked ⊢
  rcases stickyPick_cases p (p.appAffinity.lookup uid) (p.setUIDAffinityLocked uid) draw with
    ⟨e,pinned,-,done⟩ | ⟨-,done⟩ | ⟨e,-,done⟩
  · rw [done] at picked ⊢
    cases picked
    exact pinned
  · rw [done] at picked
    cases picked
  · rw [done] at picked ⊢
    cases picked
    exact AList.lookup_insert _

theorem pickForHost_pins (named : host ≠ "") {draw pause : Nat}
    (picked : (p.pickForHost host now draw pause).2 = some d) :
    ∃ e, (p.pickForHost host now draw pause).1.affinity.lookup host = some e ∧ e.dialer = d := by
  unfold Pool.pickForHost at picked ⊢
  rw [if_neg named] at picked ⊢
  rcases stickyPick_cases p (p.hostPin host now) (fun d => p.setHostAffinityLocked host d (now + pause)) draw with
    ⟨e,pinned,-,done⟩ | ⟨-,done⟩ | ⟨e,-,done⟩
  · rw [done] at picked ⊢
    cases picked
    obtain ⟨entry,found,same⟩ := Option.map_eq_some_iff.mp pinned
    exact ⟨entry,(Option.filter_eq_some_iff.mp found).1,same⟩
  · rw [done] at picked
    cases picked
  · rw [done] at picked ⊢
    cases picked
    exact ⟨_,AList.lookup_insert _,rfl⟩

omit [DecidableEq δ] in
theorem Chosen.inPool {q : Pool δ} (chosen : Chosen p exclude (some d)) (same : q.slots = p.slots) :
    InPool q d := by
  obtain ⟨⟨s,slot,dialer,-⟩,-⟩ := chosen
  exact ⟨s,same ▸ slot,dialer⟩

end

section
variable {s : State δ}

theorem now_le_step (s : State δ) (i : Input δ) : s.now + i.wait ≤ (step s i).1.now := by
  simp only [step]
  omega

theorem now_le_final (later : List (Input δ)) (s : State δ) : s.now ≤ (final step s later).now := by
  induction later generalizing s with
  | nil => exact le_refl _
  | cons i rest ih =>
    have := now_le_step s i
    exact le_trans (by omega) (ih _)

theorem along_before {Cond : State δ → Input δ → Prop} {later : List (Input δ)} (along : Along step Cond s later) {bound : Int}
    (early : (final step s later).now < bound) :
    Along step (fun s i => Cond s i ∧ (step s i).1.now < bound) s later := by
  induction later generalizing s with
  | nil => trivial
  | cons i rest ih => exact ⟨⟨along.1,lt_of_le_of_lt (now_le_final rest _) early⟩,ih along.2 early⟩

theorem repeats_uid {uid : Int} {d : δ} (resolved : 0 ≤ uid) (standby : AllStandby s.pool) (member : InPool s.pool d)
    (pinned : s.pool.appAffinity.lookup uid = some d) : RepeatsUID s uid d := by
  intro later along wait draw
  obtain ⟨standby',member',pinned'⟩ :=
    state_along (P := fun s : State δ => AllStandby s.pool ∧ InPool s.pool d ∧ s.pool.appAffinity.lookup uid = some d)
      (fun s i cond holds => ⟨act_standby holds.1 _ _,cond.1,
        act_uidPin holds.2.2 (contains_of_inPool holds.1 holds.2.1) _ cond.2⟩) along ⟨standby,member,pinned⟩
  grind [step,act,Pool.pickForUID,stickyPick_follows,contains_of_inPool]

theorem repeats_host {host : String} {e : HostAffinityEntry δ} (named : host ≠ "") (standby : AllStandby s.pool)
    (member : InPool s.pool e.dialer) (pinned : s.pool.affinity.lookup host = some e) : RepeatsHost s host e := by
  intro later along wait draw pause young
  have early : (final step s later).now < hostAffinityTTL + e.pinnedAt := by omega
  obtain ⟨standby',member',pinned'⟩ :=
    state_along (P := fun s : State δ => AllStandby s.pool ∧ InPool s.pool e.dialer ∧ s.pool.affinity.lookup host = some e)
      (fun s i cond holds => by
        have before := now_le_step s i
        exact ⟨act_standby holds.1 _ _,cond.1.1,
          act_hostPin holds.2.2 (contains_of_inPool holds.1 holds.2.1) (by omega) cond.1.2⟩)
      (along_before along early) ⟨standby,member,pinned⟩
  have follows : (final step s later).pool.hostPin host ((final step s later).now + wait) = some e.dialer := by
    simp [Pool.hostPin,pinned',young]
  simp only [step,act,Pool.pickForHost,if_neg named]
  rw [stickyPick_follows _ draw follows (contains_of_inPool standby' member')]

theorem sticky_of_standby (standby : AllStandby s.pool) : Sticky s where
  picks i result picked := act_chosen s.pool _ i.op picked
  uid wait uid draw d resolved picked := by
    have result := Shown.picked.inj picked
    have chosen := act_chosen s.pool (s.now + wait) (.pickForUID uid draw) picked
    exact repeats_uid resolved (act_standby standby _ _) (chosen.inPool (pickForUID_keeps Pool.slots (fun _ => rfl) draw))
      (pickForUID_pins resolved result)
  host wait host draw pause d named picked := by
    have result := Shown.picked.inj picked
    have chosen := act_chosen s.pool (s.now + wait) (.pickForHost host draw pause) picked
    obtain ⟨e,pinned,rfl⟩ := pickForHost_pins named result
    exact ⟨e,pinned,rfl,repeats_host named (act_standby standby _ _)
      (chosen.inPool (pickForHost_keeps Pool.slots (fun _ => rfl) draw)) pinned⟩
  negative wait uid draw unresolved := by
    refine ⟨?_,fun pins => ?_⟩
    · simp only [step,act,Pool.pickForUID,if_pos unresolved]
    · simp only [step,act,Pool.pickForUID,if_pos unresolved]
      rfl

theorem pool_sticky (dialers : List δ) (now : Int) (before : List (Input δ)) :
    Sticky (final step (start dialers now) before) := by
  have standby : AllStandby (newDialerPool dialers) := by
    intro s mem
    obtain ⟨d,-,rfl⟩ := mem_map.mp mem
    rfl
  exact sticky_of_standby (state_run (P := fun s : State δ => AllStandby s.pool)
    (fun s i holds => act_standby holds _ i.op) before standby)

end
end TunnelCat.DialerPool
