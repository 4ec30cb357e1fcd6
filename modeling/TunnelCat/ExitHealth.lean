import Mathlib.Data.List.Chain
import TunnelCat.StickyPick

/-!
The control's probes of its exits (`snc-control/exit_health.go`). Two failures in a row take an exit
out of rotation, two successes bring it back (`dead_iff_latest_pair`).

`anyAlive` looks at the map of the probed exits, which is never pruned, and not at the list. Both
say the same where no exit leaves the list alive, and none dies last while another one waits for its
first probe (`anyAlive_iff_listed`).
-/
namespace TunnelCat.ExitHealth
open Exits Runs StickyPick List
open HostPort (Text)

def deadAfterFails : Int := 2
def aliveAfterSuccesses : Int := 2

/-- `exitHealth` with its count of the outcomes in a row: successes are positive. -/
structure Probed extends ExitHealth where
  consecutive : Int

abbrev Probes := Table Text Probed

variable (probes : Probes) (addr : Text)

def health : Health := Table.map Probed.toExitHealth probes

def fresh : Probed := ⟨⟨true,0,0,0⟩,0⟩

def entryOf : Probed := (probes.lookup addr).getD fresh

/-- The answers to the requests of a probe, by their status: the ping, the timed request for the
    first site and one for each site of the region, with the round-trip times in milliseconds. -/
structure Answers where
  ping : Option Nat
  rtt : ℚ
  outbound : Option Nat
  outboundRtt : ℚ
  sites : List (Option Nat)

def probeDataPlane (sites : List (Option Nat)) : Bool := sites.length ≤ sites.count (some 200) * 5

def Answers.outcome (a : Answers) : Option ℚ :=
  if a.ping ≠ some 200 then none
  else if !probeDataPlane a.sites then none
  else if a.sites ≠ [] ∧ a.outbound = some 200 then some a.outboundRtt
  else some a.rtt

def Probed.fail (h : Probed) : Probed :=
  let consecutive := if 0 < h.consecutive then -1 else h.consecutive - 1
  { h with consecutive := consecutive, alive := h.alive && !decide (deadAfterFails ≤ -consecutive) }

def Probed.succeed (h : Probed) (rtt : ℚ) : Probed :=
  let consecutive := if h.consecutive < 0 then 1 else h.consecutive + 1
  { h with consecutive := consecutive, rttMs := rtt, alive := h.alive || decide (aliveAfterSuccesses ≤ consecutive) }

def probeOne (outcome : Option ℚ) : Probes × List Text :=
  let h := entryOf probes addr
  match outcome with
  | none => (probes.insert addr h.fail,if h.alive && !h.fail.alive then [addr] else [])
  | some rtt => (probes.insert addr (h.succeed rtt),[])

def trafficRTTAlpha : ℚ := 15 / 100

def Probed.sample (h : Probed) (ms : ℚ) : Probed :=
  { h with
    trafficRttMs := if h.trafficSamples = 0 then ms else trafficRTTAlpha * ms + (1 - trafficRTTAlpha) * h.trafficRttMs
    trafficSamples := h.trafficSamples + 1 }

def recordDialRTT (ms : ℚ) : Probes := probes.insert addr ((entryOf probes addr).sample ms)

inductive Update
  | probed (addr : Text) (outcome : Option ℚ)
  | dialled (addr : Text) (ms : ℚ)

def update : Update → Probes × List Text
  | .probed addr outcome => probeOne probes addr outcome
  | .dialled addr ms => (recordDialRTT probes addr ms,[])

def anyAlive : Bool := probes.entries.isEmpty || probes.entries.any (fun x => x.2.alive)

def outcomes (updates : List Update) : List Bool :=
  updates.filterMap fun
    | .probed a outcome => if a = addr then some outcome.isSome else none
    | .dialled _ _ => none

/-- The latest two adjacent outcomes that are alike are these. -/
def LatestPair (outcome : Bool) (history : List Bool) : Prop :=
  ∃ before after, history = before ++ outcome :: outcome :: after ∧ (outcome :: after).IsChain (· ≠ ·)

def latest : List Bool → Option Bool
  | [] => none
  | [_] => none
  | x :: y :: rest => if x = y then some x else latest (y :: rest)

def inARow : List Bool → Int
  | [] => 0
  | true :: rest => 1 + (rest.takeWhile (· = true)).length
  | false :: rest => - (1 + (rest.takeWhile (· = false)).length)

theorem latest_iff (outcome : Bool) (history : List Bool) :
    latest history = some outcome ↔
      ∃ after before, history = after ++ outcome :: outcome :: before ∧ (after ++ [outcome]).IsChain (· ≠ ·) := by
  fun_induction latest history with
  | case1 => simp
  | case2 x =>
    constructor
    · intro none
      cases none
    · rintro ⟨after,before,whole,-⟩
      have length := congrArg List.length whole
      simp at length
      omega
  | case3 x rest =>
    constructor
    · intro same
      obtain rfl := Option.some.inj same
      exact ⟨[],rest,rfl,isChain_singleton _⟩
    · rintro ⟨after,before,whole,chain⟩
      match after, whole, chain with
      | [], whole, _ => rw [(List.cons.inj whole).1]
      | [z], whole, chain =>
        -- the pair would be the second and the third, so the first differs from the second
        grind
      | z :: w :: more, whole, chain =>
        grind
  | case4 x y rest differ ih =>
    rw [ih]
    constructor
    · rintro ⟨after,before,whole,chain⟩
      refine ⟨x :: after,before,by rw [whole]; rfl,?_⟩
      match after, whole, chain with
      | [], whole, _ =>
        obtain ⟨rfl,-⟩ := List.cons.inj whole
        simpa using differ
      | z :: more, whole, chain =>
        grind
    · rintro ⟨after,before,whole,chain⟩
      match after, whole, chain with
      | [], whole, _ =>
        grind
      | z :: more, whole, chain =>
        exact ⟨more,before,(List.cons.inj whole).2,chain.tail⟩

theorem latestPair_iff (outcome : Bool) (history : List Bool) :
    LatestPair outcome history ↔ latest history.reverse = some outcome := by
  rw [latest_iff]
  constructor
  · rintro ⟨before,after,rfl,chain⟩
    refine ⟨after.reverse,before.reverse,by simp,?_⟩
    grind [reverse_cons,isChain_reverse]
  · rintro ⟨after,before,whole,chain⟩
    refine ⟨before.reverse,after.reverse,?_,?_⟩
    · rw [← reverse_reverse history,whole]
      simp
    · have turned :=
        isChain_reverse.mpr (chain.imp (fun _ _ differ => differ.symm))
      simpa using turned

structure Tells (h : Probed) (history : List Bool) : Prop where
  consecutive : h.consecutive = inARow history
  alive : h.alive = false ↔ latest history = some false

theorem tells_fresh : Tells fresh [] := ⟨rfl,by simp [fresh,latest]⟩

theorem latest_cons (x : Bool) (history : List Bool) :
    latest (x :: history) = if history.head? = some x then some x else latest history := by
  cases history with
  | nil => rfl
  | cons y rest =>
    grind [latest]

variable {history : List Bool}

theorem two_fails :
    deadAfterFails ≤ -inARow (false :: history) ↔ history.head? = some false := by
  match history with
  | [] => simp [inARow,deadAfterFails]
  | true :: rest => simp [inARow,deadAfterFails]
  | false :: rest =>
    grind [inARow,deadAfterFails,takeWhile_cons]

theorem two_successes :
    aliveAfterSuccesses ≤ inARow (true :: history) ↔ history.head? = some true := by
  match history with
  | [] => simp [inARow,aliveAfterSuccesses]
  | false :: rest => simp [inARow,aliveAfterSuccesses]
  | true :: rest =>
    grind [inARow,aliveAfterSuccesses,takeWhile_cons]

theorem inARow_fail (history : List Bool) :
    (if 0 < inARow history then -1 else inARow history - 1) = inARow (false :: history) := by
  match history with
  | [] => rfl
  | true :: rest => simp [inARow]; omega
  | false :: rest => simp [inARow]; omega

theorem inARow_succeed (history : List Bool) :
    (if inARow history < 0 then 1 else inARow history + 1) = inARow (true :: history) := by
  match history with
  | [] => rfl
  | true :: rest => simp [inARow]; omega
  | false :: rest => simp [inARow]; omega

variable {h : Probed} {addr}

variable (tells : Tells h history)
include tells

theorem Tells.fail : Tells h.fail (false :: history) := by
  have counted : h.fail.consecutive = inARow (false :: history) := by
    rw [← inARow_fail,← tells.consecutive]
    rfl
  refine ⟨counted,?_⟩
  have alive : h.fail.alive = (h.alive && !decide (deadAfterFails ≤ -h.fail.consecutive)) := rfl
  rw [alive,counted,latest_cons]
  by_cases again : history.head? = some false
  · simp [two_fails.mpr again,again]
  · have once : ¬ deadAfterFails ≤ -inARow (false :: history) := fun twice => again (two_fails.mp twice)
    simp [once,again,tells.alive]

theorem Tells.succeed (rtt : ℚ) :
    Tells (h.succeed rtt) (true :: history) := by
  have counted : (h.succeed rtt).consecutive = inARow (true :: history) := by
    rw [← inARow_succeed,← tells.consecutive]
    rfl
  refine ⟨counted,?_⟩
  have alive : (h.succeed rtt).alive = (h.alive || decide (aliveAfterSuccesses ≤ (h.succeed rtt).consecutive)) := rfl
  rw [alive,counted,latest_cons]
  by_cases again : history.head? = some true
  · simp [two_successes.mpr again,again]
  · have once : ¬ aliveAfterSuccesses ≤ inARow (true :: history) := fun twice => again (two_successes.mp twice)
    simp [once,again,tells.alive]

theorem Tells.sample (ms : ℚ) : Tells (h.sample ms) history :=
  ⟨tells.consecutive,tells.alive⟩

omit tells

theorem isAlive_health (addr : Text) : isAlive (health probes) addr = (entryOf probes addr).alive := by
  rw [isAlive,health,Table.lookup_map,entryOf]
  cases probes.lookup addr <;> rfl

theorem entryOf_insert (addr a : Text) (h : Probed) :
    entryOf (probes.insert a h) addr = if addr = a then h else entryOf probes addr := by
  rw [entryOf,Table.lookup_insert_of]
  split <;> rfl

theorem outcomes_append (addr : Text) (updates : List Update) (u : Update) :
    outcomes addr (updates ++ [u]) = outcomes addr updates ++ outcomes addr [u] := filterMap_append

variable {probes}

theorem update_tells (tells : Tells (entryOf probes addr) history)
    (u : Update) : Tells (entryOf (update probes u).1 addr) ((outcomes addr [u]).reverse ++ history) := by
  cases u with
  | probed a outcome =>
    by_cases own : addr = a
    · subst own
      cases outcome with
      | none => simpa [update,probeOne,entryOf_insert,outcomes] using tells.fail
      | some rtt => simpa [update,probeOne,entryOf_insert,outcomes] using tells.succeed rtt
    · have same : entryOf (update probes (.probed a outcome)).1 addr = entryOf probes addr := by
        cases outcome <;> simp [update,probeOne,entryOf_insert,own]
      rw [same]
      simpa [outcomes,Ne.symm own] using tells
  | dialled a ms =>
    grind [update,recordDialRTT,entryOf_insert,outcomes,tells.sample]

theorem final_tells (addr : Text) (updates : List Update) :
    Tells (entryOf (final update ∅ updates) addr) (outcomes addr updates).reverse := by
  induction updates using reverseRecOn with
  | nil => exact tells_fresh
  | append_singleton updates u ih =>
    rw [final_append,outcomes_append,reverse_append]
    exact update_tells ih u

theorem update_calls (probes : Probes) (u : Update) (addr : Text) :
    (update probes u).2.count addr =
      if (entryOf probes addr).alive = true ∧ (entryOf (update probes u).1 addr).alive = false then 1 else 0 := by
  cases u with
  | dialled a ms =>
    grind [update,recordDialRTT,entryOf_insert,Probed.sample]
  | probed a outcome =>
    cases outcome with
    | some rtt =>
      grind [update,probeOne,entryOf_insert,Probed.succeed]
    | none =>
      grind [update,probeOne,entryOf]

theorem dead_iff_latest_pair (updates : List Update) (addr : Text) :
    (isAlive (health (final update ∅ updates)) addr = false ↔ LatestPair false (outcomes addr updates)) ∧
      ∀ before u after, updates = before ++ u :: after →
        (update (final update ∅ before) u).2.count addr =
          if isAlive (health (final update ∅ before)) addr = true ∧
            isAlive (health (final update ∅ (before ++ [u]))) addr = false then 1 else 0 := by
  constructor
  · rw [isAlive_health,latestPair_iff]
    exact (final_tells addr updates).alive
  · intro before u after _
    rw [update_calls,isAlive_health,isAlive_health,final_append]
    rfl

/-- The control with its health checker: the probes of a round whose outcome has not been counted,
    and the exits that clients were given and are dialled. -/
structure Checker where
  controls : Controls
  probes : Probes
  probing : List Text
  dialling : List Text

def Checker.listed (s : Checker) : List Text := addrs s.controls.state.registry.exits

inductive Input
  | exits (i : Exits.Input)
  | probeAll
  | probed (k : Nat) (a : Answers)
  | picked (k : Nat)
  | dialled (k : Nat) (ms : Option ℚ)

section
variable (trimSpace : Text → Text)

variable (s : Checker)

/-- A new process starts with an empty map. A round waits for the probes of the one before it. -/
def step : Input → Checker × List Text
  | .exits i =>
    let controls := (Exits.step trimSpace s.controls i).1
    match i with
    | .restarts _ _ => (⟨controls,∅,[],[]⟩,[])
    | _ => ({ s with controls := controls },[])
  | .probeAll => (if s.probing.isEmpty then { s with probing := s.listed } else s,[])
  | .probed k a =>
    match s.probing[k]? with
    | none => (s,[])
    | some addr =>
      let (probes, calls) := update s.probes (.probed addr a.outcome)
      ({ s with probes := probes, probing := s.probing.eraseIdx k },calls)
  | .picked k =>
    match s.listed[k]? with
    | none => (s,[])
    | some addr => ({ s with dialling := s.dialling ++ [addr] },[])
  | .dialled k ms =>
    match s.dialling[k]? with
    | none => (s,[])
    | some addr =>
      let probes := match ms with
        | none => s.probes
        | some ms => recordDialRTT s.probes addr ms
      ({ s with probes := probes, dialling := s.dialling.eraseIdx k },[])

def started (controls : Controls) : Checker := ⟨controls,∅,[],[]⟩

/-- Some exit of the list is alive or has not been probed. -/
def SomeListed : Prop := ∃ addr ∈ s.listed, isAlive (health s.probes) addr = true

def SomeProbed (probes : Probes) : Prop := ∃ addr h, probes.lookup addr = some h ∧ h.alive = true

/-- The list may become this one: an exit that leaves it is not alive in the map, and no probe or dial
    of it is under way; where one joins that was not probed, some exit is alive in the map or none
    was probed; and there are exits while none was probed. -/
structure Follows (s : Checker) (listed : List Text) : Prop where
  leaves : ∀ a ∈ s.listed, a ∉ listed → a ∉ s.probing ∧ a ∉ s.dialling ∧ ∀ h ∈ s.probes.lookup a, h.alive = false
  joins : ∀ a ∈ listed, a ∉ s.listed → a ∈ s.probes ∨ s.probes = ∅ ∨ SomeProbed s.probes
  more : s.probes = ∅ → listed ≠ []

def DiesLast (probes : Probes) (addr : Text) : Prop :=
  (entryOf probes addr).fail.alive = false ∧ ∀ a h, probes.lookup a = some h → a ≠ addr → h.alive = false

/-- The list follows the map, and no exit dies last while another one waits for its first probe. -/
def Linked : Input → Prop
  | .exits (.restarts list a) => addrs (Exits.step trimSpace s.controls (.restarts list a)).1.state.registry.exits ≠ []
  | .exits i => Follows s (addrs (Exits.step trimSpace s.controls i).1.state.registry.exits)
  | .probed k a => ∀ addr ∈ s.probing[k]?, a.outcome = none → DiesLast s.probes addr →
      ∀ other ∈ s.listed, other = addr ∨ other ∈ s.probes
  | _ => True

end

/-- The map has nothing alive or under way but of the list, all of the list where nothing is alive in
    it, and there is a list where it is empty. -/
structure Agrees (s : Checker) : Prop where
  alive : ∀ a h, s.probes.lookup a = some h → h.alive = true → a ∈ s.listed
  probing : ∀ a ∈ s.probing, a ∈ s.listed
  dialling : ∀ a ∈ s.dialling, a ∈ s.listed
  dead : s.probes = ∅ ∨ SomeProbed s.probes ∨ ∀ a ∈ s.listed, a ∈ s.probes
  more : s.probes = ∅ → s.listed ≠ []

theorem anyAlive_iff (probes : Probes) : anyAlive probes = true ↔ probes = ∅ ∨ SomeProbed probes := by
  have none : probes.entries.isEmpty = true ↔ probes = ∅ := by
    rw [List.isEmpty_iff]
    exact ⟨fun entries => AList.ext entries,fun same => by rw [same]; rfl⟩
  have some_ : probes.entries.any (fun x => x.2.alive) = true ↔ SomeProbed probes := by
    rw [any_eq_true]
    constructor
    · rintro ⟨⟨addr,h⟩,member,alive⟩
      exact ⟨addr,h,AList.mem_lookup_iff.mpr member,alive⟩
    · rintro ⟨addr,h,found,alive⟩
      exact ⟨⟨addr,h⟩,AList.mem_lookup_iff.mp found,alive⟩
  rw [anyAlive,Bool.or_eq_true,none,some_]

theorem entryOf_of_lookup (found : probes.lookup addr = some h) :
    entryOf probes addr = h := by
  rw [entryOf,found]
  rfl

theorem entryOf_of_absent (absent : addr ∉ probes) : entryOf probes addr = fresh := by
  rw [entryOf,AList.lookup_eq_none.mpr absent]
  rfl

theorem lookup_of_mem (known : addr ∈ probes) :
    probes.lookup addr = some (entryOf probes addr) := by
  grind [Option.isSome_iff_exists,AList.lookup_isSome,entryOf_of_lookup]

section
variable {s : Checker}

theorem Agrees.anyAlive_iff (agrees : Agrees s) : anyAlive s.probes = true ↔ SomeListed s := by
  rw [ExitHealth.anyAlive_iff]
  constructor
  · rintro (none | ⟨addr,h,found,alive⟩)
    · obtain ⟨addr,listed⟩ := exists_mem_of_ne_nil _ (agrees.more none)
      refine ⟨addr,listed,?_⟩
      rw [isAlive_health,entryOf_of_absent (by rw [none]; exact AList.notMem_empty addr)]
      rfl
    · refine ⟨addr,agrees.alive addr h found alive,?_⟩
      rw [isAlive_health,entryOf_of_lookup found,alive]
  · rintro ⟨addr,listed,alive⟩
    rw [isAlive_health] at alive
    by_cases known : addr ∈ s.probes
    · exact .inr ⟨addr,_,lookup_of_mem known,alive⟩
    · grind [agrees.dead]

variable {controls : Controls} {addr : Text}

theorem agrees_started (more : controls.state.registry.exits ≠ []) : Agrees (started controls) := by
  refine ⟨?_,?_,?_,.inl rfl,?_⟩
  · intro a h found
    cases found
  · intro a member
    cases member
  · intro a member
    cases member
  · simpa [started,Checker.listed,addrs] using more

variable (agrees : Agrees s)
include agrees

theorem Agrees.follows
    (follows : Follows s (addrs controls.state.registry.exits)) : Agrees { s with controls := controls } := by
  have stays : ∀ a ∈ s.listed, (∃ h ∈ s.probes.lookup a, h.alive = true) ∨ a ∈ s.probing ∨ a ∈ s.dialling →
      a ∈ addrs controls.state.registry.exits := by
    grind [follows.leaves]
  refine ⟨?_,?_,?_,?_,follows.more⟩
  · intro a h found alive
    exact stays a (agrees.alive a h found alive) (.inl ⟨h,found,alive⟩)
  · intro a probing
    exact stays a (agrees.probing a probing) (.inr (.inl probing))
  · intro a dialling
    exact stays a (agrees.dialling a dialling) (.inr (.inr dialling))
  · by_cases settled : s.probes = ∅ ∨ SomeProbed s.probes
    · exact settled.imp id .inl
    · obtain ⟨some_,dead⟩ := not_or.mp settled
      refine .inr (.inr ?_)
      intro a listed
      by_cases old : a ∈ s.listed
      · grind [agrees.dead]
      · rcases follows.joins a listed old with known | none | alive
        · exact known
        · exact absurd none some_
        · exact absurd alive dead

theorem Agrees.insert (listed : addr ∈ s.listed) {h : Probed}
    (stays : h.alive = true ∨ (entryOf s.probes addr).alive = false ∨
      (∃ a h', s.probes.lookup a = some h' ∧ a ≠ addr ∧ h'.alive = true) ∨ ∀ a ∈ s.listed, a = addr ∨ a ∈ s.probes)
    {probing dialling : List Text} (fewer : probing ⊆ s.probing) (fewer' : dialling ⊆ s.dialling) :
    Agrees { s with probes := s.probes.insert addr h, probing := probing, dialling := dialling } := by
  have filled : s.probes.insert addr h ≠ ∅ := by
    intro none
    have found : (s.probes.insert addr h).lookup addr = some h := AList.lookup_insert _
    rw [none] at found
    cases found
  refine ⟨?_,fun a member => agrees.probing a (fewer member),fun a member => agrees.dialling a (fewer' member),?_,
    fun none => absurd none filled⟩
  · intro a h' found alive
    rcases Table.of_lookup_insert found with ⟨rfl,-⟩ | ⟨-,old⟩
    · exact listed
    · exact agrees.alive a h' old alive
  · refine .inr ?_
    rcases stays with alive | dead | ⟨a,h',found,other,alive⟩ | all
    · exact .inl ⟨addr,h,AList.lookup_insert _,alive⟩
    · -- the entry was dead before, so it is in the map and not the one that is alive there
      have known : addr ∈ s.probes := by
        by_contra absent
        rw [entryOf_of_absent absent] at dead
        cases dead
      rcases agrees.dead with none | ⟨a,h',found,alive⟩ | all
      · rw [none] at known
        exact absurd known (AList.notMem_empty addr)
      · have other : a ≠ addr := by
          grind [entryOf_of_lookup]
        exact .inl ⟨a,h',(AList.lookup_insert_ne other).trans found,alive⟩
      · exact .inr (fun a member => (AList.mem_insert _).mpr (.inr (all a member)))
    · exact .inl ⟨a,h',(AList.lookup_insert_ne other).trans found,alive⟩
    · exact .inr (fun a member => (AList.mem_insert _).mpr (all a member))

theorem Agrees.probed {k : Nat} (there : s.probing[k]? = some addr) {outcome : Option ℚ}
    (last : outcome = none → DiesLast s.probes addr → ∀ other ∈ s.listed, other = addr ∨ other ∈ s.probes) :
    Agrees { s with probes := (probeOne s.probes addr outcome).1, probing := s.probing.eraseIdx k } := by
  have listed := agrees.probing addr (mem_of_getElem? there)
  have fewer : s.probing.eraseIdx k ⊆ s.probing := eraseIdx_subset
  cases outcome with
  | some rtt =>
    refine agrees.insert listed ?_ fewer (List.Subset.refl _)
    grind [Probed.succeed]
  | none =>
    refine agrees.insert listed ?_ fewer (List.Subset.refl _)
    grind [DiesLast]

theorem Agrees.picked (listed : addr ∈ s.listed) :
    Agrees { s with dialling := s.dialling ++ [addr] } := by
  refine ⟨agrees.alive,agrees.probing,?_,agrees.dead,agrees.more⟩
  intro a member
  rcases mem_append.mp member with old | new
  · exact agrees.dialling a old
  · rw [mem_singleton.mp new]
    exact listed

theorem Agrees.dialled {k : Nat} (there : s.dialling[k]? = some addr) (ms : Option ℚ) :
    Agrees { s with
      probes := match ms with
        | none => s.probes
        | some ms => recordDialRTT s.probes addr ms
      dialling := s.dialling.eraseIdx k } := by
  have fewer : s.dialling.eraseIdx k ⊆ s.dialling := eraseIdx_subset
  cases ms with
  | none => exact ⟨agrees.alive,agrees.probing,fun a member => agrees.dialling a (fewer member),agrees.dead,agrees.more⟩
  | some ms =>
    refine agrees.insert (agrees.dialling addr (mem_of_getElem? there)) ?_ (List.Subset.refl _) fewer
    cases alive : (entryOf s.probes addr).alive with
    | true => exact .inl alive
    | false => exact .inr (.inl rfl)

omit agrees

theorem step_agrees {trimSpace : Text → Text} {i : Input} (linked : Linked trimSpace s i) (agrees : Agrees s) :
    Agrees (step trimSpace s i).1 := by
  cases i with
  | exits i =>
    cases i with
    | restarts list a =>
      refine agrees_started ?_
      intro none
      exact linked (by rw [none]; rfl)
    | waits d => exact agrees.follows linked
    | refreshes => exact agrees.follows linked
    | picks a => exact agrees.follows linked
    | runs k a => exact agrees.follows linked
  | probeAll =>
    simp only [step]
    split
    · exact ⟨agrees.alive,fun a member => member,agrees.dialling,agrees.dead,agrees.more⟩
    · exact agrees
  | probed k a =>
    cases there : s.probing[k]? with
    | none => simpa [step,there] using agrees
    | some addr =>
      simp only [step,there]
      exact agrees.probed there (linked addr there)
  | picked k =>
    grind [step,agrees.picked]
  | dialled k ms =>
    grind [step,agrees.dialled]

end

theorem anyAlive_iff_listed (trimSpace : Text → Text) {controls : Controls} (more : controls.state.registry.exits ≠ [])
    {inputs : List Input} (linked : Along (step trimSpace) (Linked trimSpace) (started controls) inputs) :
    anyAlive (final (step trimSpace) (started controls) inputs).probes = true ↔
      SomeListed (final (step trimSpace) (started controls) inputs) := by
  have agrees : Agrees (final (step trimSpace) (started controls) inputs) := by
    refine state_along ?_ linked (agrees_started more)
    intro s i meets holds
    exact step_agrees meets holds
  exact agrees.anyAlive_iff

def withOne : Controls := (Exits.step id (offline true true none 0) (.restarts ["a".toList] (sampleReply 0 []))).1

def answering : Answers := ⟨some 200,30,none,0,[]⟩
def silent : Answers := ⟨none,5000,none,0,[]⟩

def twoRounds (a : Answers) : List Input := [.probeAll,.probed 0 a,.probeAll,.probed 0 a]

/-- The exit answers, and then both that the arbiter lists are silent. -/
def joined : List Input :=
  [.probeAll,.probed 0 answering] ++ (refreshWith (sampleReply 10 ["a","b"])).map .exits ++
    [.probeAll,.probed 0 silent,.probed 0 silent,.probeAll,.probed 0 silent,.probed 0 silent]

theorem follows_grown {s : Checker} {listed : List Text} (alive : anyAlive s.probes = true) (more : listed ≠ [])
    (stay : ∀ a ∈ s.listed, a ∈ listed) : Follows s listed :=
  ⟨fun a member gone => absurd (stay a member) gone,fun _ _ _ => .inr ((anyAlive_iff _).mp alive),fun _ => more⟩

theorem linked_silent {s : Checker} {a : Answers} (one : ∀ addr ∈ s.probing[0]?,
    (entryOf s.probes addr).fail.alive = true ∨ ∀ other ∈ s.listed, other = addr ∨ other ∈ s.probes) :
    Linked id s (.probed 0 a) := by
  intro addr there _ last
  exact (one addr there).resolve_left (by simp [last.1])

theorem anyAlive_iff_listed_two_rounds : withOne.state.registry.exits ≠ [] ∧
    anyAlive (final (step id) (started withOne) joined).probes = false ∧
    (anyAlive (final (step id) (started withOne) joined).probes = true ↔
      SomeListed (final (step id) (started withOne) joined)) := by
  refine ⟨by decide,by decide +kernel,anyAlive_iff_listed id (by decide) ?_⟩
  refine ⟨trivial,linked_silent ?_,?_,?_,?_,?_,?_,?_,trivial,linked_silent ?_,linked_silent ?_,trivial,linked_silent ?_,
    linked_silent ?_,trivial⟩
  rotate_left
  iterate 6 exact follows_grown (by decide +kernel) (by decide +kernel) (by decide +kernel)
  all_goals decide +kernel

/-- The exit answers, is not listed by the arbiter any more, and leaves the list when it is overdue.
    The one that the arbiter lists does not answer. -/
def replaced : List Input :=
  twoRounds answering ++ [.exits (.waits 90000000000000)] ++ (refreshWith (sampleReply 90000 ["b"])).map .exits ++
    twoRounds silent

/-- The exit that has left is counted, though all that are listed are dead. -/
theorem anyAlive_of_unlisted : ¬ ∀ inputs, anyAlive (final (step id) (started withOne) inputs).probes = true ↔
    SomeListed (final (step id) (started withOne) inputs) := by
  intro all
  obtain ⟨addr,listed,alive⟩ := (all replaced).mp (by decide +kernel)
  have dead : ∀ addr ∈ (final (step id) (started withOne) replaced).listed,
      isAlive (health (final (step id) (started withOne) replaced).probes) addr = false := by
    decide +kernel
  rw [dead addr listed] at alive
  cases alive

end TunnelCat.ExitHealth
