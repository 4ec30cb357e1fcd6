import TunnelCat.Watchdog

/-!
`IsStuck` deletes stale entries while it walks the map, and stops at the first connection that is alive; which
entries are left then depends on the order of the walk. One that is left has old times, and they count when the
connection sends again. Where no connection does, the monitor answers as one that keeps every entry, in
whatever order it walks (`checks_unordered`).
-/
namespace TunnelCat.Watchdog
open Durations Runs List Table

def Stale (now : Nat) (c : ConnActivity) : Prop := longer now c.lastSentAt connActivityTTL = true

variable (k : Monitor) (order : List ConnID) (i : Input)

def verdict : Bool :=
  longer k.clock k.lastAnyRecvAt tunnelStuckTimeout && k.conns.entries.all (fun e => judge k.clock e.2 ≠ .alive) &&
    k.conns.entries.any (fun e => judge k.clock e.2 = .stuck)

/-- The monitor that keeps every entry. -/
def keep : Monitor × Option Bool :=
  match i.event with
  | .check _ => (k.advance i.elapsed,some (verdict (k.advance i.elapsed)))
  | e => handle (k.advance i.elapsed) e

/-- No payload is sent on a connection whose last payload is older than `connActivityTTL`, or which has only received. -/
def Fresh : Prop :=
  ∀ connID n, i.event = .sent connID n → n ≠ 0 → ∀ c, k.conns.lookup connID = some c → ¬ Stale (k.advance i.elapsed).clock c

def Input.unordered : Input :=
  match i.event with
  | .check _ => ⟨i.elapsed,.check []⟩
  | _ => i

section
variable {now : Nat} {conns : Table ConnID ConnActivity} {connID : ConnID} {c : ConnActivity}

theorem judge_stale (stale : Stale now c) : judge now c = .stale := if_pos stale

variable (order : List ConnID)

theorem scan_keeps (fresh : ¬ Stale now c) (order : List ConnID) : ∀ {conns : Table ConnID ConnActivity} {saw : Bool},
    conns.lookup connID = some c → (scan now order conns saw).1.lookup connID = some c := by
  induction order with
  | nil => exact fun found => found
  | cons first rest ih =>
    intro conns saw found
    grind [scan,judge,Stale]

theorem scan_drops (saw : Bool) : (scan now order conns saw).1.lookup connID = conns.lookup connID ∨
    (∃ c, conns.lookup connID = some c ∧ Stale now c) ∧ (scan now order conns saw).1.lookup connID = none := by
  cases after : (scan now order conns saw).1.lookup connID with
  | some c => exact .inl (scan_lookup order after).symm
  | none =>
    cases before : conns.lookup connID with
    | none => exact .inl rfl
    | some c =>
      refine .inr ⟨⟨c,rfl,?_⟩,rfl⟩
      by_contra fresh
      rw [scan_keeps fresh order before] at after
      cases after

theorem scan_answer : ∀ {conns : Table ConnID ConnActivity} {saw : Bool}, order.Nodup →
    ((scan now order conns saw).2 = true ↔
      (∀ connID ∈ order, ∀ c, conns.lookup connID = some c → judge now c ≠ .alive) ∧
      (saw = true ∨ ∃ connID ∈ order, ∃ c, conns.lookup connID = some c ∧ judge now c = .stuck)) := by
  induction order with
  | nil => simp [scan]
  | cons first rest ih =>
    intro conns saw distinct
    obtain ⟨new,distinct⟩ := nodup_cons.mp distinct
    grind [scan]

theorem mem_keys_of_lookup (found : conns.lookup connID = some c) : connID ∈ conns.keys :=
  AList.mem_keys.mp (AList.lookup_isSome.mp (by simp [found]))

theorem walk_perm (conns : Table ConnID ConnActivity) : (walk order conns).Perm conns.keys := by
  unfold walk
  split_ifs with perm
  · exact isPerm_iff.mp perm
  · exact .refl _

end

def Dead (m : Monitor) : Prop :=
  longer m.clock m.lastAnyRecvAt tunnelStuckTimeout = true ∧
  (∀ connID c, m.conns.lookup connID = some c → judge m.clock c ≠ .alive) ∧
  ∃ connID c, m.conns.lookup connID = some c ∧ judge m.clock c = .stuck

theorem isStuck_iff (m : Monitor) (order : List ConnID) : (isStuck m order).2 = true ↔ Dead m := by
  have perm := walk_perm order m.conns
  have all {connID : ConnID} {c : ConnActivity} (found : m.conns.lookup connID = some c) :=
    perm.mem_iff.mpr (mem_keys_of_lookup found)
  unfold isStuck Dead
  split
  · next silent =>
    rw [scan_answer _ (perm.nodup_iff.mpr m.conns.keys_nodup)]
    grind
  · next heard => simp [heard]

theorem verdict_iff : verdict k = true ↔ Dead k := by
  have entry (e : Sigma fun _ : ConnID => ConnActivity) : e ∈ k.conns.entries ↔ k.conns.lookup e.1 = some e.2 :=
    AList.mem_lookup_iff.symm
  simp only [verdict,Dead,Bool.and_eq_true,all_eq_true,any_eq_true,entry,decide_eq_true_eq,and_assoc]
  simp only [Sigma.forall,Sigma.exists]

/-- An entry that the monitor does not share is stale in both. -/
structure Keeps (m k : Monitor) : Prop where
  clock : m.clock = k.clock
  any : m.lastAnyRecvAt = k.lastAnyRecvAt
  conns : ∀ connID, m.conns.lookup connID = k.conns.lookup connID ∨
    (∃ c, k.conns.lookup connID = some c ∧ Stale k.clock c) ∧ ∀ c, m.conns.lookup connID = some c → Stale k.clock c

variable {m : Monitor} {k}

variable (keeps : Keeps m k)
include keeps

theorem Keeps.advance (elapsed : Nat) : Keeps (m.advance elapsed) (k.advance elapsed) := by
  have older {c : ConnActivity} (stale : Stale k.clock c) : Stale (k.clock + elapsed) c := by
    unfold Stale longer at stale ⊢
    cases sent : c.lastSentAt with
    | none => rfl
    | some t =>
      simp only [sent,decide_eq_true_eq] at stale ⊢
      omega
  refine ⟨by simp [Monitor.advance,keeps.clock],keeps.any,fun connID => ?_⟩
  exact (keeps.conns connID).imp_right fun ⟨⟨c,found,stale⟩,all⟩ => ⟨⟨c,found,older stale⟩,fun c' found' => older (all c' found')⟩

theorem Keeps.dead_iff : Dead m ↔ Dead k := by
  -- an entry that is alive or stuck is not stale, so both have it
  have shared {connID : ConnID} {c : ConnActivity} {v : Verdict} (other : v ≠ .stale) :
      m.conns.lookup connID = some c ∧ judge m.clock c = v ↔ k.conns.lookup connID = some c ∧ judge k.clock c = v := by
    grind [keeps.clock,keeps.conns,judge_stale]
  have alive (m : Monitor) : (∀ connID c, m.conns.lookup connID = some c → judge m.clock c ≠ .alive) ↔
      ¬ ∃ connID c, m.conns.lookup connID = some c ∧ judge m.clock c = .alive := by
    simp
  simp only [Dead,alive,shared (show Verdict.alive ≠ .stale by decide),shared (show Verdict.stuck ≠ .stale by decide)]
  rw [keeps.clock,keeps.any]

theorem handle_keeps {e : Event} (fresh : ∀ connID n, e = .sent connID n → n ≠ 0 → ∀ c,
    k.conns.lookup connID = some c → ¬ Stale k.clock c) (noCheck : ∀ order, e ≠ .check order) :
    Keeps (handle m e).1 (handle k e).1 := by
  have clock := keeps.clock
  have conns := keeps.conns
  cases e with
  | sent connID n =>
    unfold handle recordTunnelSent
    by_cases idle : n = 0 ∨ connID = []
    · simpa only [if_pos idle] using keeps
    · have same : entry m connID = entry k connID := by grind [entry]
      simp only [if_neg idle,same,clock]
      refine ⟨rfl,keeps.any,fun other => ?_⟩
      grind
  | recv connID n =>
    unfold handle recordTunnelRecv
    by_cases idle : n = 0 ∨ connID = []
    · simpa only [if_pos idle] using keeps
    · simp only [if_neg idle,clock]
      refine ⟨rfl,keeps.any,fun other => ?_⟩
      simp only [lookup_insert_of]
      by_cases own : other = connID
      · subst own
        simp only [if_true,Option.some.injEq,forall_eq',exists_eq_left']
        rcases conns other with same | ⟨⟨c,found,stale⟩,all⟩
        · exact .inl (by rw [entry,entry,same])
        · refine .inr ⟨by simpa [entry,found,Stale] using stale,?_⟩
          cases had : m.conns.lookup other with
          | none => simp [entry,had,Stale,longer]
          | some c' => simpa [entry,had,Stale] using all c' had
      · simpa only [if_neg own] using conns other
  | response => exact ⟨clock,by simp [handle,recordAnyResponse,clock],conns⟩
  | forget connID =>
    unfold handle forget
    dsimp only
    split_ifs
    · exact keeps
    · refine ⟨clock,keeps.any,fun other => ?_⟩
      grind
  | reset => exact ⟨clock,keeps.any,fun _ => .inl rfl⟩
  | check order => exact absurd rfl (noCheck order)

theorem check_keeps (order : List ConnID) : Keeps (isStuck m order).1 k := by
  unfold isStuck
  split
  · refine ⟨keeps.clock,keeps.any,fun connID => ?_⟩
    dsimp only
    rcases scan_drops (walk order m.conns) false with same | ⟨⟨c,found,stale⟩,none⟩
    · rw [same]
      exact keeps.conns connID
    · rw [none]
      rcases keeps.conns connID with shared | ⟨old,-⟩
      · exact .inr ⟨⟨c,shared ▸ found,keeps.clock ▸ stale⟩,by simp⟩
      · exact .inr ⟨old,by simp⟩
  · exact keeps

omit keeps

theorem step_keeps {i : Input} (fresh : Fresh k i) (keeps : Keeps m k) :
    Keeps (step m i).1 (keep k i).1 ∧ (step m i).2 = (keep k i).2 := by
  have later := keeps.advance i.elapsed
  unfold step keep
  cases event : i.event with
  | check order =>
    refine ⟨check_keeps later order,?_⟩
    have same := (isStuck_iff _ order).trans (later.dead_iff.trans (verdict_iff _).symm)
    exact congrArg some (Bool.eq_iff_iff.mpr same)
  | _ => exact ⟨handle_keeps later (event ▸ fresh) (fun _ same => by cases same),rfl⟩

theorem trace_keep (inputs : List Input) : ∀ {m k : Monitor}, Keeps m k → Along keep Fresh k inputs →
    trace step m inputs = trace keep k inputs := by
  induction inputs with
  | nil => exact fun _ _ => rfl
  | cons i rest ih =>
    intro m k keeps ⟨fresh,along⟩
    obtain ⟨next,same⟩ := step_keeps fresh keeps
    rw [trace_cons,trace_cons,same,ih next along]

theorem keep_unordered (k : Monitor) (i : Input) : keep k i.unordered = keep k i ∧ (Fresh k i.unordered ↔ Fresh k i) := by
  obtain ⟨elapsed,event⟩ := i
  cases event <;> simp [keep,Fresh,Input.unordered]

theorem keep_history {inputs inputs' : List Input} (same : inputs.map Input.unordered = inputs'.map Input.unordered) :
    ∀ k, trace keep k inputs = trace keep k inputs' ∧ (Along keep Fresh k inputs → Along keep Fresh k inputs') := by
  induction inputs generalizing inputs' with
  | nil =>
    intro k
    rw [map_nil,eq_comm,map_eq_nil_iff] at same
    rw [same]
    exact ⟨rfl,id⟩
  | cons i rest ih =>
    intro k
    cases inputs' with
    | nil => cases same
    | cons j rest' =>
      obtain ⟨first,later⟩ := List.cons.inj same
      obtain ⟨steps,freshes⟩ := keep_unordered k i
      obtain ⟨steps',freshes'⟩ := keep_unordered k j
      rw [first] at steps freshes
      obtain ⟨traces,alongs⟩ := ih later (keep k j).1
      have equal : keep k i = keep k j := steps.symm.trans steps'
      rw [trace_cons,trace_cons,equal,traces]
      refine ⟨rfl,fun ⟨fresh,along⟩ => ⟨freshes'.mp (freshes.mpr fresh),alongs (equal ▸ along)⟩⟩

/-- As long as no stale connection is sent on again, the answers of `IsStuck` do not depend on the orders in which the
    map is walked, and are those of a monitor that keeps every entry. -/
theorem checks_unordered (inputs inputs' : List Input) (same : inputs.map Input.unordered = inputs'.map Input.unordered)
    (fresh : Along keep Fresh .fresh inputs) :
    trace step .fresh inputs = trace step .fresh inputs' ∧ trace step .fresh inputs = trace keep .fresh inputs := by
  have start : Keeps .fresh .fresh := ⟨rfl,rfl,fun _ => .inl rfl⟩
  obtain ⟨traces,alongs⟩ := keep_history same .fresh
  have kept := trace_keep inputs start fresh
  exact ⟨kept.trans (traces.trans (trace_keep inputs' start (alongs fresh)).symm),kept⟩

def answered : List Input := [⟨0,.sent ['a'] 1⟩,⟨0,.sent ['b'] 1⟩,⟨11 * second,.check order⟩]

theorem checks_unordered_two :
    trace step .fresh (answered [['a'],['b']]) = trace step .fresh (answered [['b'],['a']]) ∧
    trace step .fresh (answered [['a'],['b']]) = trace keep .fresh (answered [['a'],['b']]) := by
  refine checks_unordered _ _ rfl ⟨?_,?_,?_,trivial⟩
  · rintro _ _ ⟨⟩ _ c found
    cases found
  · rintro _ _ ⟨⟩ _ c found
    cases found
  · rintro _ _ ⟨⟩

/-- The connection `a` is idle for over two minutes and sends again. -/
def revived : List Input :=
  [⟨0,.sent ['a'] 1⟩,⟨0,.recv ['a'] 1⟩,⟨130 * second,.sent ['b'] 1⟩,⟨0,.check order⟩,⟨second,.sent ['a'] 1⟩,⟨10 * second,.check []⟩]

/-- When `b` comes first in the walk, the old entry of `a` is left, and the tunnel is reported as stuck later. -/
theorem order_matters : ¬ ∀ inputs inputs' : List Input, inputs.map Input.unordered = inputs'.map Input.unordered →
    trace step .fresh inputs = trace step .fresh inputs' := by
  intro all
  exact absurd (all (revived [['b'],['a']]) (revived [['a'],['b']]) rfl) (by decide)

end TunnelCat.Watchdog
