import Mathlib.Data.List.Nodup
import Mathlib.Data.List.Perm.Subperm
import Mathlib.Data.Prod.Lex
import Mathlib.Tactic.Linarith
import TunnelCat.Selection
import TunnelCat.Table

/-!
The paths of a client's router (`BuildPaths` in `snc/core/router.go`): some of the alive controls are
selected, each is combined with up to three relays, and of the many paths a few are kept.

The cut keeps the first path of each control before any other, so it starves none of them, and as
the selected controls have addresses of their own, the paths have room for five more
(`paths_keep_controls`).
-/
namespace TunnelCat.RouterPaths
open Selection List

/-- A control or a relay. Times are in nanoseconds. -/
structure RouterNode where
  id : String
  addr : String
  operatorID : String
  countryCode : String
  rtt : Int
  trafficRTT : Int
  loss : Rat
  loadFactor : Rat
  lastSeen : Int
  isAlive : Bool

structure RouterPathNode where
  id : String
  addr : String

structure RouterPath where
  relays : List RouterPathNode
  controlAddr : String
  score : Rat

structure Router where
  relays : List RouterNode
  controls : List RouterNode
  paths : List RouterPath
  pathIdx : Nat
  myCountry : String
  dataDead : Table String Int

structure PoolBounds where
  min : Nat
  max : Nat
  min_pos : 0 < min

def poolBounds : PoolBounds := ⟨5,12,by decide⟩

def pathLess (a b : RouterPath) : Bool :=
  let aRelay := decide (0 < a.relays.length)
  let bRelay := decide (0 < b.relays.length)
  if aRelay ≠ bRelay then aRelay else a.score < b.score

/-- The bounds, the times at which the loops test a node, the scores, the sorts by them and the
    shuffle. -/
structure World where
  bounds : PoolBounds
  controlAt : RouterNode → Int
  relayAt : RouterNode → Int
  fallbackAt : RouterNode → Int
  nodeScore : RouterNode → Rat
  sortNodes : List RouterNode → List RouterNode
  sortsNodes : Sorts (lessBy nodeScore) sortNodes
  scorePath : List RouterNode → List RouterNode → RouterPath → Rat
  sortPaths : List RouterPath → List RouterPath
  sortsPaths : Sorts pathLess sortPaths
  shuffle : List RouterPath → List RouterPath
  shuffles : ∀ paths, (shuffle paths).Perm paths

variable (w : World) (r : Router)

def alive (now : Int) (n : RouterNode) : Bool :=
  if !n.isAlive || decide (now - n.lastSeen ≥ 30 * 1000000000) then false
  else (r.dataDead.lookup n.addr).all (fun exp => ¬ now < exp)

def aliveControls : List RouterNode := r.controls.filter (fun c => alive r (w.controlAt c) c)

def inCountry (nodes : List RouterNode) : List RouterNode := nodes.filter (fun c => c.countryCode = r.myCountry)

def countryFilter : List RouterNode × List RouterNode :=
  let alive := aliveControls w r
  if r.myCountry = "" then (alive,[])
  else if 0 < (inCountry r alive).length then (inCountry r alive,alive.filter (fun c => c.countryCode ≠ r.myCountry))
  else (alive,[])

def supplement (controls outOfCountry : List RouterNode) : List RouterNode :=
  if controls.length < w.bounds.min ∧ 0 < outOfCountry.length then
    controls ++ (w.sortNodes outOfCountry).take (min (w.bounds.min - controls.length) outOfCountry.length)
  else controls

def capControls (controls : List RouterNode) : List RouterNode :=
  if w.bounds.max < controls.length then (w.sortNodes controls).take w.bounds.max else controls

def selectControls : List RouterNode := capControls w (supplement w (countryFilter w r).1 (countryFilter w r).2)

def aliveRelays : List RouterNode :=
  r.relays.filter (fun n => alive r (w.relayAt n) n && (r.myCountry = "" || n.countryCode = r.myCountry))

def liveRelays : List RouterNode :=
  let live := if r.myCountry ≠ "" ∧ (aliveRelays w r).length = 0 then r.relays.filter (fun n => alive r (w.fallbackAt n) n)
    else aliveRelays w r
  (w.sortNodes live).take 20

def toPathNode (n : RouterNode) : RouterPathNode := ⟨n.id,n.addr⟩

def pathVia (ctrl : RouterNode) (nodes : List RouterNode) : RouterPath := ⟨nodes.map toPathNode,ctrl.addr,0⟩

def controlPaths (live : List RouterNode) (ctrl : RouterNode) : List RouterPath :=
  pathVia ctrl [] :: live.flatMap (fun r1 =>
    pathVia ctrl [r1] :: live.flatMap (fun r2 =>
      if r2.id = r1.id ∨ r2.operatorID = r1.operatorID then []
      else pathVia ctrl [r1,r2] :: live.flatMap (fun r3 =>
        if r3.id = r1.id ∨ r3.id = r2.id then []
        else if r3.operatorID = r1.operatorID ∨ r3.operatorID = r2.operatorID then []
        else [pathVia ctrl [r1,r2,r3]])))

def splitFirst : List RouterPath → List String → List RouterPath × List RouterPath
  | [], _ => ([],[])
  | p :: rest, seen =>
    if p.controlAddr ∈ seen then ((splitFirst rest seen).1,p :: (splitFirst rest seen).2)
    else (p :: (splitFirst rest (p.controlAddr :: seen)).1,(splitFirst rest (p.controlAddr :: seen)).2)

def topUp (capN : Nat) : List RouterPath → List RouterPath → List RouterPath
  | out, [] => out
  | out, p :: rest => if out.length ≥ capN then out else topUp capN (out ++ [p]) rest

def cutPaths (controls : Nat) (candidates : List RouterPath) : List RouterPath :=
  let capN := min (controls + 5) candidates.length
  if capN < candidates.length then topUp capN (splitFirst candidates []).1 (splitFirst candidates []).2 else candidates

def candidatePaths : List RouterPath :=
  let controls := selectControls w r
  let live := liveRelays w r
  (controls.flatMap (controlPaths live)).map (fun p => { p with score := w.scorePath controls live p })

def buildPaths : Router :=
  if (countryFilter w r).1.length = 0 then { r with paths := [] }
  else
    { r with
      paths := w.shuffle (cutPaths (selectControls w r).length (w.sortPaths (candidatePaths w r)))
      pathIdx := 0 }

def qualifyingControlAddrs (r : Router) : List String := (splitFirst r.paths []).1.map RouterPath.controlAddr

def Apart (a b : RouterNode) : Prop := a.id ≠ b.id ∧ a.operatorID ≠ b.operatorID

def ThroughRelays (p : RouterPath) : Prop :=
  ∃ nodes : List RouterNode, p.relays = nodes.map toPathNode ∧ (∀ n ∈ nodes, n ∈ r.relays) ∧ nodes.length ≤ 3 ∧ nodes.Pairwise Apart

structure KeepsControls (built : Router) : Prop where
  selected : ∀ c ∈ selectControls w r, c ∈ aliveControls w r
  some : aliveControls w r ≠ [] → 0 < w.bounds.max → selectControls w r ≠ []
  covered : ∀ c ∈ selectControls w r, ∃ p ∈ built.paths, p.controlAddr = c.addr
  only : ∀ c ∈ r.controls, c ∉ selectControls w r → ∀ p ∈ built.paths, p.controlAddr ≠ c.addr
  qualifying : ∀ addr, addr ∈ qualifyingControlAddrs built ↔ ∃ c ∈ selectControls w r, c.addr = addr
  few : built.paths.length ≤ (selectControls w r).length + 5
  relays : ∀ p ∈ built.paths, ThroughRelays r p
  country : r.myCountry ≠ "" → ∀ c ∈ selectControls w r, c.countryCode ≠ r.myCountry →
    (inCountry r (aliveControls w r)).length < w.bounds.min

variable {w r}
variable {c : RouterNode}

theorem mem_sortNodes {l : List RouterNode} : c ∈ w.sortNodes l ↔ c ∈ l := (w.sortsNodes.perm l).mem_iff

theorem mem_supplement {controls out : List RouterNode} (mem : c ∈ supplement w controls out) :
    c ∈ controls ∨ c ∈ out ∧ controls.length < w.bounds.min := by
  unfold supplement at mem
  split at mem
  case isFalse => exact .inl mem
  case isTrue few =>
    rcases mem_append.mp mem with own | added
    · exact .inl own
    · exact .inr ⟨mem_sortNodes.mp (mem_of_mem_take added),few.1⟩

theorem mem_capControls {controls : List RouterNode} (mem : c ∈ capControls w controls) : c ∈ controls := by
  unfold capControls at mem
  split at mem
  case isTrue => exact mem_sortNodes.mp (mem_of_mem_take mem)
  case isFalse => exact mem

theorem mem_selectControls (mem : c ∈ selectControls w r) :
    c ∈ (countryFilter w r).1 ∨ c ∈ (countryFilter w r).2 ∧ (countryFilter w r).1.length < w.bounds.min :=
  mem_supplement (mem_capControls mem)

theorem countryFilter_cases (w : World) (r : Router) :
    countryFilter w r = (aliveControls w r,[]) ∧ (r.myCountry = "" ∨ inCountry r (aliveControls w r) = []) ∨
      countryFilter w r = (inCountry r (aliveControls w r),
        (aliveControls w r).filter (fun c => c.countryCode ≠ r.myCountry)) ∧ inCountry r (aliveControls w r) ≠ [] := by
  unfold countryFilter
  grind [eq_nil_of_length_eq_zero]

theorem selected_alive (mem : c ∈ selectControls w r) : c ∈ aliveControls w r := by
  have either := mem_selectControls mem
  rcases countryFilter_cases w r with ⟨all,-⟩ | ⟨parts,-⟩
  · rw [all] at either
    simpa using either
  · rw [parts] at either
    rcases either with inside | ⟨outside,-⟩
    · exact mem_of_mem_filter inside
    · exact mem_of_mem_filter outside

theorem selected_abroad (known : r.myCountry ≠ "") (mem : c ∈ selectControls w r)
    (abroad : c.countryCode ≠ r.myCountry) : (inCountry r (aliveControls w r)).length < w.bounds.min := by
  have either := mem_selectControls mem
  rcases countryFilter_cases w r with ⟨-,unknown | none⟩ | ⟨parts,-⟩
  · exact absurd unknown known
  · rw [none]
    exact w.bounds.min_pos
  · rw [parts] at either
    rcases either with inside | ⟨-,few⟩
    · exact absurd (by simpa using (mem_filter.mp inside).2) abroad
    · exact few

theorem filter_some (some : aliveControls w r ≠ []) : (countryFilter w r).1 ≠ [] := by
  grind [countryFilter_cases]

theorem selected_some (some : aliveControls w r ≠ []) (room : 0 < w.bounds.max) : selectControls w r ≠ [] := by
  have filtered := length_pos_iff.mpr (filter_some some)
  have supplemented : 0 < (supplement w (countryFilter w r).1 (countryFilter w r).2).length := by
    grind [supplement]
  refine length_pos_iff.mp ?_
  unfold selectControls capControls
  split
  case isTrue =>
    rw [length_take,(w.sortsNodes.perm _).length_eq]
    exact Nat.lt_min.mpr ⟨room,supplemented⟩
  case isFalse => exact supplemented

theorem selected_none (none : (countryFilter w r).1.length = 0) : selectControls w r = [] := by
  have empty := eq_nil_of_length_eq_zero none
  rcases countryFilter_cases w r with ⟨all,-⟩ | ⟨parts,inside⟩
  · refine eq_nil_iff_forall_not_mem.mpr (fun c mem => ?_)
    have alive := selected_alive mem
    grind
  · rw [parts] at empty
    exact absurd empty inside

theorem mem_liveRelays {n : RouterNode} (mem : n ∈ liveRelays w r) : n ∈ r.relays := by
  have unsorted := mem_sortNodes.mp (mem_of_mem_take mem)
  split at unsorted <;> exact mem_of_mem_filter unsorted

variable {p : RouterPath}

theorem mem_controlPaths {live : List RouterNode} {ctrl : RouterNode} (mem : p ∈ controlPaths live ctrl) :
    ∃ nodes, p = pathVia ctrl nodes ∧ (∀ n ∈ nodes, n ∈ live) ∧ nodes.length ≤ 3 ∧ nodes.Pairwise Apart := by
  rcases mem_cons.mp mem with rfl | mem
  · exact ⟨[],rfl,by simp,by simp,.nil⟩
  obtain ⟨r1,live1,mem⟩ := mem_flatMap.mp mem
  rcases mem_cons.mp mem with rfl | mem
  · exact ⟨[r1],rfl,by simpa using live1,by simp,pairwise_singleton _ _⟩
  obtain ⟨r2,live2,mem⟩ := mem_flatMap.mp mem
  split at mem
  case isTrue => cases mem
  case isFalse apart2 =>
    rw [not_or] at apart2
    have two : Apart r1 r2 := ⟨Ne.symm apart2.1,Ne.symm apart2.2⟩
    rcases mem_cons.mp mem with rfl | mem
    · exact ⟨[r1,r2],rfl,by simp [live1,live2],by simp,by simp [two]⟩
    obtain ⟨r3,live3,mem⟩ := mem_flatMap.mp mem
    split at mem
    case isTrue => cases mem
    case isFalse ids =>
      split at mem
      case isTrue => cases mem
      case isFalse operators =>
        rw [not_or] at ids operators
        have first : Apart r1 r3 := ⟨Ne.symm ids.1,Ne.symm operators.1⟩
        have second : Apart r2 r3 := ⟨Ne.symm ids.2,Ne.symm operators.2⟩
        rw [mem_singleton.mp mem]
        exact ⟨[r1,r2,r3],rfl,by simp [live1,live2,live3],by simp,by simp [two,first,second]⟩

theorem mem_candidatePaths (mem : p ∈ candidatePaths w r) :
    (∃ c ∈ selectControls w r, c.addr = p.controlAddr) ∧ ThroughRelays r p := by
  obtain ⟨q,generated,rfl⟩ := mem_map.mp mem
  obtain ⟨c,selected,path⟩ := mem_flatMap.mp generated
  obtain ⟨nodes,rfl,live,short,apart⟩ := mem_controlPaths path
  exact ⟨⟨c,selected,rfl⟩,nodes,rfl,fun n used => mem_liveRelays (live n used),short,apart⟩

theorem candidate_of_selected (mem : c ∈ selectControls w r) :
    ∃ p ∈ candidatePaths w r, p.controlAddr = c.addr :=
  ⟨_,mem_map_of_mem (mem_flatMap.mpr ⟨c,mem,mem_cons_self⟩),rfl⟩

theorem mem_splitFirst {paths : List RouterPath} {seen : List String} :
    p ∈ (splitFirst paths seen).1 ∨ p ∈ (splitFirst paths seen).2 ↔ p ∈ paths := by
  induction paths generalizing seen with
  | nil => simp [splitFirst]
  | cons q rest ih =>
    grind [splitFirst]

theorem splitFirst_addrs (paths : List RouterPath) (seen : List String) :
    (∀ p ∈ paths, p.controlAddr ∉ seen → p.controlAddr ∈ (splitFirst paths seen).1.map RouterPath.controlAddr) ∧
      ((splitFirst paths seen).1.map RouterPath.controlAddr).Nodup ∧
      ∀ addr ∈ (splitFirst paths seen).1.map RouterPath.controlAddr, addr ∉ seen := by
  induction paths generalizing seen with
  | nil => simp [splitFirst]
  | cons q rest ih =>
    rw [splitFirst]
    split
    case isTrue old =>
      obtain ⟨each,once,fresh⟩ := ih seen
      grind
    case isFalse new =>
      obtain ⟨each,once,fresh⟩ := ih (q.controlAddr :: seen)
      refine ⟨?_,?_,?_⟩
      · grind
      · exact nodup_cons.mpr ⟨fun mem => fresh _ mem mem_cons_self,once⟩
      · grind

theorem topUp_eq (capN : Nat) (out rest : List RouterPath) : topUp capN out rest = out ++ rest.take (capN - out.length) := by
  induction rest generalizing out with
  | nil => simp [topUp]
  | cons p rest ih =>
    rw [topUp]
    split
    case isTrue full => simp [Nat.sub_eq_zero_of_le full]
    case isFalse room =>
      have more : capN - out.length = (capN - (out ++ [p]).length) + 1 := by
        rw [length_append,length_singleton]
        omega
      rw [ih,more,take_succ_cons,append_assoc,singleton_append]

theorem cutPaths_cases (n : Nat) (candidates : List RouterPath) :
    cutPaths n candidates = candidates ∧ candidates.length ≤ n + 5 ∨
      cutPaths n candidates = (splitFirst candidates []).1 ++
        (splitFirst candidates []).2.take (n + 5 - (splitFirst candidates []).1.length) := by
  grind [cutPaths,topUp_eq]

variable {candidates : List RouterPath}

theorem mem_of_mem_cutPaths {n : Nat} (mem : p ∈ cutPaths n candidates) :
    p ∈ candidates := by
  rcases cutPaths_cases n candidates with ⟨all,-⟩ | cut
  · rwa [all] at mem
  · rw [cut] at mem
    rcases mem_append.mp mem with first | rest
    · exact mem_splitFirst.mp (.inl first)
    · exact mem_splitFirst.mp (.inr (mem_of_mem_take rest))

theorem cutPaths_covers {n : Nat} (mem : p ∈ candidates) :
    ∃ q ∈ cutPaths n candidates, q.controlAddr = p.controlAddr := by
  grind [cutPaths_cases,splitFirst_addrs]

theorem length_cutPaths {addrs : List String}
    (known : ∀ p ∈ candidates, p.controlAddr ∈ addrs) : (cutPaths addrs.length candidates).length ≤ addrs.length + 5 := by
  rcases cutPaths_cases addrs.length candidates with ⟨all,short⟩ | cut
  · rwa [all]
  · have sub : (splitFirst candidates []).1.map RouterPath.controlAddr ⊆ addrs := by
      intro addr mem
      obtain ⟨p,first,rfl⟩ := mem_map.mp mem
      exact known p (mem_splitFirst.mp (.inl first))
    have firsts := ((splitFirst_addrs candidates []).2.1.subperm sub).length_le
    rw [length_map] at firsts
    rw [cut,length_append,length_take]
    omega

theorem paths_buildPaths (w : World) (r : Router) :
    (buildPaths w r).paths.Perm (cutPaths (selectControls w r).length (w.sortPaths (candidatePaths w r))) := by
  unfold buildPaths
  split
  case isTrue none =>
    -- nothing is selected, so there is nothing to cut either
    have empty : w.sortPaths (candidatePaths w r) = [] := by
      refine List.Perm.eq_nil ((w.sortsPaths.perm _).trans ?_)
      simp [candidatePaths,selected_none none]
    simp [empty,cutPaths]
  case isFalse => exact w.shuffles _

theorem mem_buildPaths (mem : p ∈ (buildPaths w r).paths) :
    (∃ c ∈ selectControls w r, c.addr = p.controlAddr) ∧ ThroughRelays r p :=
  mem_candidatePaths ((w.sortsPaths.perm _).mem_iff.mp (mem_of_mem_cutPaths ((paths_buildPaths w r).mem_iff.mp mem)))

theorem covered_buildPaths (mem : c ∈ selectControls w r) :
    ∃ p ∈ (buildPaths w r).paths, p.controlAddr = c.addr := by
  obtain ⟨p,candidate,same⟩ := candidate_of_selected mem
  obtain ⟨q,kept,same'⟩ := cutPaths_covers (n := (selectControls w r).length) ((w.sortsPaths.perm _).mem_iff.mpr candidate)
  exact ⟨q,(paths_buildPaths w r).mem_iff.mpr kept,same'.trans same⟩

theorem length_buildPaths (w : World) (r : Router) : (buildPaths w r).paths.length ≤ (selectControls w r).length + 5 := by
  have known : ∀ p ∈ w.sortPaths (candidatePaths w r), p.controlAddr ∈ (selectControls w r).map RouterNode.addr := by
    intro p mem
    obtain ⟨⟨c,selected,same⟩,-⟩ := mem_candidatePaths ((w.sortsPaths.perm _).mem_iff.mp mem)
    exact mem_map.mpr ⟨c,selected,same⟩
  have short := length_cutPaths known
  rw [length_map] at short
  rw [(paths_buildPaths w r).length_eq]
  exact short

theorem mem_qualifying {built : Router} {addr : String} :
    addr ∈ qualifyingControlAddrs built ↔ ∃ p ∈ built.paths, p.controlAddr = addr := by
  constructor
  · intro mem
    obtain ⟨p,first,same⟩ := mem_map.mp mem
    exact ⟨p,mem_splitFirst.mp (.inl first),same⟩
  · rintro ⟨p,mem,rfl⟩
    exact (splitFirst_addrs built.paths []).1 p mem (by simp)

theorem paths_keep_controls (apart : (r.controls.map RouterNode.addr).Nodup) : KeepsControls w r (buildPaths w r) where
  selected c mem := selected_alive mem
  some := selected_some
  covered c mem := covered_buildPaths mem
  only c known other p mem same := by
    obtain ⟨⟨d,selected,path⟩,-⟩ := mem_buildPaths mem
    have known' := mem_of_mem_filter (selected_alive selected)
    have one : d = c := inj_on_of_nodup_map apart known' known (path.trans same)
    exact other (one ▸ selected)
  qualifying addr := by
    rw [mem_qualifying]
    constructor
    · rintro ⟨p,mem,rfl⟩
      exact (mem_buildPaths mem).1
    · rintro ⟨c,mem,rfl⟩
      exact covered_buildPaths mem
  few := length_buildPaths w r
  relays p mem := (mem_buildPaths mem).2
  country known c mem abroad := selected_abroad known mem abroad

def pathKey (p : RouterPath) : Bool ×ₗ Rat := toLex (p.relays.isEmpty,p.score)

theorem pathLess_eq : pathLess = lessBy pathKey := by
  funext a b
  cases first : a.relays <;> cases second : b.relays <;>
    simp [pathLess,lessBy,pathKey,first,second,Prod.Lex.toLex_lt_toLex]

def sampleWorld : World where
  bounds := poolBounds
  controlAt _ := 0
  relayAt _ := 0
  fallbackAt _ := 0
  nodeScore n := n.rtt
  sortNodes := insertSort (fun n => (n.rtt : Rat))
  sortsNodes := insertSort_sorts _
  scorePath _ _ p := p.relays.length
  sortPaths := insertSort pathKey
  sortsPaths := pathLess_eq ▸ insertSort_sorts _
  shuffle paths := paths
  shuffles _ := .refl _

def sampleNode (addr country : String) (rtt : Int) (isAlive : Bool) : RouterNode := ⟨addr,addr,addr,country,rtt,0,0,0,0,isAlive⟩

def sampleRouter : Router where
  relays := [sampleNode "r1" "DE" 5 true,sampleNode "r2" "DE" 6 true]
  controls := [sampleNode "c1" "DE" 10 true,sampleNode "c2" "FI" 30 true,sampleNode "c3" "FI" 20 true,sampleNode "c4" "FI" 1 false,
    sampleNode "c5" "NL" 50 true,sampleNode "c6" "NL" 40 true]
  paths := []
  pathIdx := 0
  myCountry := "DE"
  dataDead := ∅

theorem paths_keep_controls_sample : (selectControls sampleWorld sampleRouter).map RouterNode.addr = ["c1","c3","c2","c6","c5"] ∧
    KeepsControls sampleWorld sampleRouter (buildPaths sampleWorld sampleRouter) :=
  ⟨by decide,paths_keep_controls (by decide)⟩

inductive ControlTransport where
  | tcp
  | udp
deriving DecidableEq

structure Probed where
  addr : String
  transport : ControlTransport
  rtt : Int

/-- What the router knows after the probes of its controls, and its `sort.Slice`. -/
structure Probes where
  controls : List Probed
  flapPenalty : String → Int
  sort : (String → String → Bool) → List String → List String
  sorts : ∀ less l, (sort less l).Perm l

variable (q : Probes)

def controlTransport (addr : String) : ControlTransport :=
  ((q.controls.find? (fun c => c.addr = addr)).map Probed.transport).getD .tcp

def controlRTT (addr : String) : Int :=
  ((q.controls.find? (fun c => c.addr = addr)).map Probed.rtt).getD 0 + q.flapPenalty addr

def rttLess (a b : String) : Bool :=
  if controlRTT q a = 0 then false else if controlRTT q b = 0 then true else controlRTT q a < controlRTT q b

/-- The slice `l[:n]`; `none` is a panic. -/
def upTo (l : List String) (n : Int) : Option (List String) :=
  if 0 ≤ n ∧ n ≤ l.length then some (l.take n.toNat) else none

def shares (tcp quic max : Int) : Int × Int :=
  let tcpN := max / 2
  let quicN := max - max / 2
  let (tcpN,quicN) := if tcp < tcpN then (tcp,quicN + (tcpN - tcp)) else (tcpN,quicN)
  let (tcpN,quicN) := if quic < quicN then (tcpN + (quicN - quic),quic) else (tcpN,quicN)
  (if tcp < tcpN then tcp else tcpN,quicN)

variable (t : ControlTransport) (addrs : List String)

def byTransport : List String :=
  addrs.filter (fun a => controlTransport q a = t)

def balanceByTransport (max : Int) : Option (List String) :=
  if max ≤ 0 ∨ addrs.length ≤ max then some addrs
  else do
    let tcp := byTransport q .tcp addrs
    let quic := byTransport q .udp addrs
    let n := shares tcp.length quic.length max
    let first ← upTo tcp n.1
    let second ← upTo quic n.2
    return q.sort (rttLess q) (first ++ second)

def half (max : Int) : ControlTransport → Int
  | .tcp => max / 2
  | .udp => (max + 1) / 2

/-- `max` of the addresses: of each transport its first ones, and as many as make its half or all it has. -/
structure BalancedChoice (addrs : List String) (max : Int) (out : List String) : Prop where
  exact : out.length = max
  distinct : out.Nodup
  chosen : ∀ a ∈ out, a ∈ addrs
  fair : ∀ t, min ((byTransport q t addrs).length : Int) (half max t) ≤ (byTransport q t out).length
  earliest : ∀ t, ∃ n, (byTransport q t out).Perm ((byTransport q t addrs).take n)

structure Share (has max got : Int) (t : ControlTransport) : Prop where
  pos : 0 ≤ got
  le : got ≤ has
  fair : min has (half max t) ≤ got

theorem shares_spec {max : Int} (tcp quic : Nat) (pos : 0 < max) (more : max < tcp + quic) :
    Share tcp max (shares tcp quic max).1 .tcp ∧ Share quic max (shares tcp quic max).2 .udp ∧
      (shares tcp quic max).1 + (shares tcp quic max).2 = max := by
  refine ⟨⟨?_,?_,?_⟩,⟨?_,?_,?_⟩,?_⟩ <;> simp only [shares,half] <;> split_ifs <;> omega

variable {q}

theorem length_byTransport :
    addrs.length = (byTransport q .tcp addrs).length + (byTransport q .udp addrs).length := by
  induction addrs with
  | nil => rfl
  | cons a rest ih => cases kind : controlTransport q a <;> simp [byTransport,kind] at ih ⊢ <;> omega

theorem byTransport_take (s : ControlTransport) (n : Nat) (addrs : List String) :
    byTransport q t ((byTransport q s addrs).take n) = if t = s then (byTransport q s addrs).take n else [] := by
  have kind : ∀ a ∈ (byTransport q s addrs).take n, controlTransport q a = s := by
    grind [byTransport]
  split_ifs with same
  · exact filter_eq_self.mpr (by simpa [same] using kind)
  · refine filter_eq_nil_iff.mpr ?_
    intro a mem
    simpa [kind a mem] using Ne.symm same

theorem byTransport_perm {l l' : List String} (perm : l.Perm l') :
    (byTransport q t l).Perm (byTransport q t l') := perm.filter _

theorem upTo_eq {l : List String} {n : Int} (low : 0 ≤ n) (high : n ≤ l.length) : upTo l n = some (l.take n.toNat) :=
  if_pos ⟨low,high⟩

theorem balanced_by_transport {addrs : List String} {max : Int} (distinct : addrs.Nodup) (pos : 0 < max)
    (more : max < addrs.length) :
    ∃ out, balanceByTransport q addrs max = some out ∧ BalancedChoice q addrs max out := by
  have total := length_byTransport (q := q) addrs
  obtain ⟨tcp,quic,sum⟩ := shares_spec (byTransport q .tcp addrs).length (byTransport q .udp addrs).length pos (by omega)
  set n := shares (byTransport q .tcp addrs).length (byTransport q .udp addrs).length max with shared
  set first := (byTransport q .tcp addrs).take n.1.toNat with first_eq
  set second := (byTransport q .udp addrs).take n.2.toNat with second_eq
  have perm := q.sorts (rttLess q) (first ++ second)
  have parts (t : ControlTransport) : (byTransport q t (q.sort (rttLess q) (first ++ second))).Perm
      ((byTransport q t addrs).take (match t with | .tcp => n.1.toNat | .udp => n.2.toNat)) := by
    refine (byTransport_perm t perm).trans (List.Perm.of_eq ?_)
    rw [byTransport,filter_append,← byTransport,← byTransport,first_eq,second_eq,byTransport_take,byTransport_take]
    cases t <;> simp
  refine ⟨q.sort (rttLess q) (first ++ second),?_,?_,?_,?_,?_,?_⟩
  · have cut : ¬ (max ≤ 0 ∨ (addrs.length : Int) ≤ max) := by omega
    simp [balanceByTransport,cut,← shared,upTo_eq tcp.pos tcp.le,upTo_eq quic.pos quic.le,first_eq,second_eq]
  · have := tcp.pos
    have := tcp.le
    have := quic.pos
    have := quic.le
    rw [perm.length_eq,length_append,first_eq,second_eq,length_take,length_take]
    omega
  · refine perm.nodup_iff.mpr (List.Nodup.append ?_ ?_ ?_)
    · exact (distinct.filter _).sublist (take_sublist _ _)
    · exact (distinct.filter _).sublist (take_sublist _ _)
    · intro a one other
      have isTcp := (mem_filter.mp (mem_of_mem_take one)).2
      have isUdp := (mem_filter.mp (mem_of_mem_take other)).2
      simp_all
  · intro a mem
    rcases mem_append.mp (perm.mem_iff.mp mem) with one | other
    · exact mem_of_mem_filter (mem_of_mem_take one)
    · exact mem_of_mem_filter (mem_of_mem_take other)
  · intro t
    rw [(parts t).length_eq,length_take]
    cases t with
    | tcp =>
      have := tcp.fair
      have := tcp.le
      simp only
      omega
    | udp =>
      have := quic.fair
      have := quic.le
      simp only
      omega
  · exact fun t => ⟨_,parts t⟩

def sampleProbes : Probes where
  controls := [⟨"c1",.udp,10⟩,⟨"c2",.udp,20⟩,⟨"c3",.udp,30⟩,⟨"c4",.tcp,40⟩]
  flapPenalty _ := 0
  sort _ l := l
  sorts _ l := .refl l

theorem balanced_by_transport_sample : balanceByTransport sampleProbes ["c1","c2","c3","c4"] 3 = some ["c4","c1","c2"] ∧
    ∃ out, balanceByTransport sampleProbes ["c1","c2","c3","c4"] 3 = some out ∧
      BalancedChoice sampleProbes ["c1","c2","c3","c4"] 3 out :=
  ⟨by decide,balanced_by_transport (by decide) (by decide) (by decide)⟩

end TunnelCat.RouterPaths
