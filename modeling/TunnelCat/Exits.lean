import Mathlib.Data.List.TakeWhile
import Mathlib.Data.Rat.Defs
import TunnelCat.Durations
import TunnelCat.Goroutines
import TunnelCat.HostPort
import TunnelCat.Runs
import TunnelCat.Table

/-!
The control's list of exits (`ExitRegistry` of `snc-control/exits.go`). An exit that a signed
response omits stays until it was last seen more than `staleExitAfter` ago.

The time counts from the last response that listed the exit, not from the first that omitted it: after
an outage of a day the first response drops whatever it omits (`omitted_before_drop_iff`). How the
addresses of the command line are trimmed does not matter, so `trimSpace` is any function.
-/
namespace TunnelCat.Exits
open Durations Goroutines Runs List
open HostPort (Text)

def staleExitAfter : Int := 24 * 60 * minute

structure ExitNode where
  addr : Text
  fingerprint : Text
  rttMs : ℚ
  load : ℚ
  dataPlaneOK : Option Bool
deriving DecidableEq

/-- `pubkey` and `cacheFile` say whether they are set. -/
structure Registry where
  pubkey : Bool
  cacheFile : Bool
  myRegion : Text
  exits : List ExitNode
  exitRegions : Table Text Text
  lastSeen : Table Text Int

variable (trimSpace : Text → Text) (r : Registry) (nodes : List ExitNode) (now : Int) (lastSeen : Table Text Int)
variable (list : List Text)

def addrs : List Text := nodes.map ExitNode.addr

def newExitRegistry (pubkey cacheFile : Bool) : Registry := ⟨pubkey,cacheFile,[],[],∅,∅⟩

def stamp (nodes : List ExitNode) (lastSeen : Table Text Int) : Table Text Int :=
  nodes.foldl (fun seen n => seen.insert n.addr now) lastSeen

def index (byAddr : Table Text ExitNode) : Table Text ExitNode :=
  nodes.foldl (fun table e => table.insert e.addr e) byAddr

def loadBootstrap : Registry :=
  let nodes := ((list.map trimSpace).filter (· ≠ [])).map (fun a => (⟨a,[],0,0,none⟩ : ExitNode))
  if nodes.isEmpty then r else { r with exits := nodes, lastSeen := stamp now nodes r.lastSeen }

/-- What the file decodes to. Its times are whole seconds; an old file has none. -/
inductive Cache
  | corrupt
  | wrapper (nodes : List ExitNode) (lastSeen : Table Text Int)
  | legacy (nodes : List ExitNode)

def Cache.decode : Cache → Option (List ExitNode × Table Text Int)
  | .corrupt => none
  | .wrapper nodes lastSeen => some (nodes,lastSeen)
  | .legacy nodes => some (nodes,∅)

def adopt (cachedSeen : Table Text Int) (nodes : List ExitNode) (lastSeen : Table Text Int) : Table Text Int :=
  nodes.foldl (fun seen e =>
    match cachedSeen.lookup e.addr with
    | some t => seen.insert e.addr (t * second)
    | none => if (seen.lookup e.addr).isSome then seen else seen.insert e.addr now) lastSeen

def loadCached (file : Option Cache) (now : Int) (range : Table.Range Text ExitNode) : Registry :=
  match (if r.cacheFile then file else none).bind Cache.decode with
  | none => r
  | some (nodes, cachedSeen) =>
    { r with
      exits := (range.entries (index nodes (index r.exits ∅))).map Sigma.snd
      lastSeen := adopt now cachedSeen nodes r.lastSeen }

def cacheOf : Cache :=
  .wrapper nodes (nodes.foldl (fun table n =>
    match lastSeen.lookup n.addr with
    | some t => table.insert n.addr (t / second)
    | none => table) ∅)

def pickRandom (file : Option Cache) (now : Int) (range : Table.Range Text ExitNode) : Registry :=
  if r.exits.isEmpty then loadCached r file now range else r

structure Signed where
  ts : Int
  nodes : List ExitNode
  verifies : Bool
  regions : Table Text Text

def passes (signed : Signed) : Bool :=
  (!r.pubkey || signed.verifies) && now - signed.ts * second ≤ 10 * minute

def verifiedNodes (genuine : ExitNode → Bool) (nodes : List ExitNode) : List ExitNode :=
  nodes.filter (fun n => n.fingerprint.isEmpty || genuine n)

def mergeLoop (now : Int) : List (Sigma fun _ : Text => ExitNode) → Table Text Int → List ExitNode × Table Text Int
  | [], lastSeen => ([],lastSeen)
  | ⟨addr, e⟩ :: rest, lastSeen =>
    let seen := (lastSeen.lookup addr).getD now
    let lastSeen := if (lastSeen.lookup addr).isSome then lastSeen else lastSeen.insert addr now
    if now - seen > staleExitAfter then mergeLoop now rest (lastSeen.erase addr)
    else
      let (merged, lastSeen) := mergeLoop now rest lastSeen
      (e :: merged,lastSeen)

def merge (verified : List ExitNode) (regions : Table Text Text)
    (range : Table.Range Text ExitNode) : Registry :=
  let (merged, lastSeen) := mergeLoop now (range.entries (index verified (index r.exits ∅))) (stamp now verified r.lastSeen)
  { r with exits := merged, exitRegions := regions, lastSeen := lastSeen }

/-- A response that was merged: the time that `refresh` read, the addresses that it listed, and
    those that were known before and are gone after it. -/
structure Applied where
  now : Int
  listed : List Text
  dropped : List Text
deriving DecidableEq

def missing (a : Text) : Bool := list.all (· ≠ a)

variable {a : Text} {r} {now} {nodes} {log : List Applied}

@[simp] theorem missing_iff {list : List Text} : missing list a = true ↔ a ∉ list := by
  grind [missing]

def droppedBy (before after : List ExitNode) : List Text := (addrs before).filter (missing (addrs after))

/-- What happened to a control, the last event outside: responses that were merged, starts with a static list and
    reads of the file, which holds what the control knew at `saved`, or what was on the disk at first. -/
inductive History
  | disk (file : Option Cache)
  | responded (now : Int) (listed : List Text) (before : History)
  | started (now : Int) (list : List Text) (before : History)
  | loaded (now : Int) (saved before : History)

def noted (nodes : List ExitNode) (times : Table Text Int) (now : Int) (a : Text) (before : Option Int) : Option Int :=
  if (addrs nodes).contains a then ((times.lookup a).map (· * second)).or (before.or (some now)) else before

/-- Since when the grace period of an exit counts, by the events alone; `none` for an exit that is not known. The
    file keeps whole seconds. -/
def since (a : Text) : History → Option Int
  | .disk _ => none
  | .responded now listed before =>
    if listed.contains a then some now else (since a before).filter (fun s => now - s ≤ staleExitAfter)
  | .started now list _ => if list.contains a then some now else none
  | .loaded now (.disk file) before =>
    match file.bind Cache.decode with
    | none => since a before
    | some (nodes, times) => noted nodes times now a (since a before)
  | .loaded _ saved before => ((since a saved).map (fun s => s / second * second)).or (since a before)

/-- The times of the responses since the last that listed an exit. -/
def omissions (a : Text) : History → List Int
  | .disk _ => []
  | .responded now listed before => if listed.contains a then [] else now :: omissions a before
  | .started _ _ before => omissions a before
  | .loaded _ _ before => omissions a before

/-- No response omits an exit whose grace period is over unless one omitted it `staleExitAfter` before and
    none listed it since. -/
def Unhurried : History → Prop
  | .disk _ => True
  | .responded now listed before => Unhurried before ∧ ∀ a ∉ listed, ∀ s ∈ since a before, s + staleExitAfter < now →
      ∃ t ∈ omissions a before, t + staleExitAfter ≤ now
  | .started _ _ before => Unhurried before
  | .loaded _ _ before => Unhurried before

/-- The control with its file. `log`, `history` and `saved` are not in the code: every response that was ever merged
    with what it dropped, also before a restart, the last one first; the events; and those that the file was written
    after. -/
structure Control where
  registry : Registry
  file : Option Cache
  clock : Int
  log : List Applied
  history : History
  saved : History

inductive Point
  | picks
  | fetches
  | verifies (signed : Signed)
  | merges (now : Int) (verified : List ExitNode) (regions : Table Text Text)
  | persists (nodes : List ExitNode) (lastSeen : Table Text Int) (history : History)

inductive Write
  | done
  | failed
  | torn

/-- How the calls of a step go: whether the file can be read, the order of the map, what comes
    back through the exit, which exits show their fingerprint, and how the file is written. -/
structure Around where
  readable : Bool
  range : Table.Range Text ExitNode
  reply : Option Signed
  genuine : ExitNode → Bool
  write : Write

def Around.file (a : Around) (c : Control) : Option Cache := if a.readable then c.file else none

variable (c : Control)

def noteLoad (a : Around) : History :=
  if ((if c.registry.cacheFile then a.file c else none).bind Cache.decode).isSome then .loaded c.clock c.saved c.history
  else c.history

def picked (a : Around) : Control :=
  { c with
    registry := pickRandom c.registry (a.file c) c.clock a.range
    history := if c.registry.exits.isEmpty then noteLoad c a else c.history }

def booted (list : List Text) : Control :=
  let r := loadBootstrap trimSpace (newExitRegistry c.registry.pubkey c.registry.cacheFile) c.clock list
  { c with registry := r, history := .started c.clock (addrs r.exits) c.history }

def loaded (a : Around) : Control :=
  { c with registry := loadCached c.registry (a.file c) c.clock a.range, history := noteLoad c a }

def persist (a : Around) (nodes : List ExitNode) (lastSeen : Table Text Int) (history : History) : Control :=
  if c.registry.cacheFile then
    match a.write with
    | .done => { c with file := some (cacheOf nodes lastSeen), saved := history }
    | .failed => c
    | .torn => { c with file := some .corrupt }
  else c

def applied (a : Around) (now : Int) (verified : List ExitNode) (regions : Table Text Text) : Control :=
  let r := merge c.registry now verified regions a.range
  { c with
    registry := r
    log := ⟨now,addrs verified,droppedBy c.registry.exits r.exits⟩ :: c.log
    history := .responded now (addrs verified) c.history }

def goesTo (t : Point) : Ran Control Point Unit := ⟨c,some t,[],[]⟩

def returns : Ran Control Point Unit := ⟨c,none,[],[]⟩

def act (a : Around) (c : Control) : Point → Ran Control Point Unit
  | .picks =>
    let c := picked c a
    if c.registry.exits.isEmpty then returns c else goesTo c .fetches
  | .fetches =>
    match a.reply with
    | none => returns c
    | some signed => if passes c.registry c.clock signed then goesTo c (.verifies signed) else returns c
  | .verifies signed => goesTo c (.merges c.clock (verifiedNodes a.genuine signed.nodes) signed.regions)
  | .merges now verified regions =>
    let c := applied c a now verified regions
    goesTo c (.persists c.registry.exits c.registry.lastSeen c.history)
  | .persists nodes lastSeen history => returns (persist c a nodes lastSeen history)

abbrev Controls := Goroutines.Pool Control Point

/-- Time passes, the process is started again with its static list, `refresh` is called by the
    ticker or by `ForceRefresh`, `PickRandom` by someone else, or a refresh takes a step. -/
inductive Input
  | waits (d : Nat)
  | restarts (list : List Text) (a : Around)
  | refreshes
  | picks (a : Around)
  | runs (k : Nat) (a : Around)

def step (p : Controls) : Input → Controls × List Unit
  | .waits d => ({ p with state := { p.state with clock := p.state.clock + d } },[])
  | .restarts list a => (⟨loaded (booted trimSpace p.state list) a,[]⟩,[])
  | .refreshes => (p.start [.picks],[])
  | .picks a => ({ p with state := picked p.state a },[])
  | .runs k a => runAt (act a) p k

def offline (pubkey cacheFile : Bool) (file : Option Cache) (clock : Int) : Controls :=
  ⟨⟨newExitRegistry pubkey cacheFile,file,clock,[],.disk file,.disk file⟩,[]⟩

section
variable {now : Int} {nodes : List ExitNode} {a : Text}

theorem lookup_stamp (lastSeen : Table Text Int) :
    (stamp now nodes lastSeen).lookup a = if a ∈ addrs nodes then some now else lastSeen.lookup a := by
  induction nodes generalizing lastSeen with
  | nil => simp [stamp,addrs]
  | cons n rest ih =>
    have unfolded : stamp now (n :: rest) lastSeen = stamp now rest (lastSeen.insert n.addr now) := rfl
    grind [addrs]

variable {byAddr : Table Text ExitNode} {exits : List ExitNode}

theorem mem_index : a ∈ index nodes byAddr ↔ a ∈ byAddr ∨ a ∈ addrs nodes := by
  induction nodes generalizing byAddr with
  | nil => simp [index,addrs]
  | cons n rest ih =>
    have unfolded : index (n :: rest) byAddr = index rest (byAddr.insert n.addr n) := rfl
    rw [unfolded,ih]
    simp [addrs,or_assoc,or_left_comm]

def Keyed (byAddr : Table Text ExitNode) : Prop := ∀ x ∈ byAddr.entries, x.2.addr = x.1

theorem keyed_index (keyed : Keyed byAddr) : Keyed (index nodes byAddr) := by
  induction nodes generalizing byAddr with
  | nil => exact keyed
  | cons n rest ih =>
    apply ih
    intro x member
    rcases mem_cons.mp member with rfl | old
    · rfl
    · exact keyed x ((kerase_sublist _ _).subset old)

theorem mem_byAddr {verified : List ExitNode} :
    a ∈ index verified (index exits ∅) ↔ a ∈ addrs exits ∨ a ∈ addrs verified := by
  simp [mem_index]

theorem keyed_byAddr {verified : List ExitNode} : Keyed (index verified (index exits ∅)) :=
  keyed_index (keyed_index (fun _ none => absurd none (by simp)))

theorem mergeLoop_exits {entries : List (Sigma fun _ : Text => ExitNode)} (distinct : (entries.map Sigma.fst).Nodup)
    (lastSeen : Table Text Int) : (mergeLoop now entries lastSeen).1 =
      (entries.filter (fun x => now - (lastSeen.lookup x.1).getD now ≤ staleExitAfter)).map Sigma.snd := by
  induction entries generalizing lastSeen with
  | nil => rfl
  | cons x rest ih =>
    obtain ⟨addr,e⟩ := x
    obtain ⟨new,distinct⟩ := nodup_cons.mp distinct
    -- what the turn does to the times concerns its own address only
    have others : ∀ seen : Table Text Int, (∀ k, k ≠ addr → seen.lookup k = lastSeen.lookup k) →
        rest.filter (fun x => now - (seen.lookup x.1).getD now ≤ staleExitAfter) =
          rest.filter (fun x => now - (lastSeen.lookup x.1).getD now ≤ staleExitAfter) := by
      intro seen same
      apply filter_congr
      intro x member
      have other : x.1 ≠ addr := by
        intro same
        have listed : x.1 ∈ rest.map Sigma.fst := mem_map_of_mem member
        exact new (same ▸ listed)
      rw [same x.1 other]
    have kept : ∀ k, k ≠ addr →
        (if (lastSeen.lookup addr).isSome then lastSeen else lastSeen.insert addr now).lookup k = lastSeen.lookup k := by
      intro k other
      split
      · rfl
      · exact AList.lookup_insert_ne other
    by_cases overdue : now - (lastSeen.lookup addr).getD now > staleExitAfter
    · have turn : (mergeLoop now (⟨addr,e⟩ :: rest) lastSeen).1 = (mergeLoop now rest
          (AList.erase addr (if (lastSeen.lookup addr).isSome then lastSeen else lastSeen.insert addr now))).1 := by
        simp [mergeLoop,overdue]
      rw [turn,ih distinct,others,filter_cons_of_neg (by rw [decide_eq_true_eq]; exact Int.not_le.mpr overdue)]
      intro k other
      rw [AList.lookup_erase_ne other,kept k other]
    · have turn : (mergeLoop now (⟨addr,e⟩ :: rest) lastSeen).1 = e :: (mergeLoop now rest
          (if (lastSeen.lookup addr).isSome then lastSeen else lastSeen.insert addr now)).1 := by
        simp [mergeLoop,overdue]
      rw [turn,ih distinct,others _ kept,filter_cons_of_pos (by simpa using overdue)]
      rfl

end

def Overdue (now : Int) (a : Text) : Prop := ∃ seen ∈ lastSeen.lookup a, staleExitAfter < now - seen

variable {range : Table.Range Text ExitNode} {regions : Table Text Text} {verified : List ExitNode}

theorem merge_exits : (merge r now verified regions range).exits =
      ((range.entries (index verified (index r.exits ∅))).filter (fun x =>
        now - ((stamp now verified r.lastSeen).lookup x.1).getD now ≤ staleExitAfter)).map Sigma.snd :=
  mergeLoop_exits (range.nodup_keys _) _

theorem mem_merge : a ∈ addrs (merge r now verified regions range).exits ↔
      a ∈ addrs verified ∨ a ∈ addrs r.exits ∧ ¬ Overdue r.lastSeen now a := by
  have keyed : Keyed (index verified (index r.exits ∅)) := keyed_byAddr
  -- an entry stays by the time of its address
  have stays : a ∈ addrs (merge r now verified regions range).exits ↔ a ∈ index verified (index r.exits ∅) ∧
      now - ((stamp now verified r.lastSeen).lookup a).getD now ≤ staleExitAfter := by
    rw [merge_exits,addrs,map_map]
    constructor
    · intro member
      obtain ⟨x,kept,same⟩ := mem_map.mp member
      obtain ⟨there,fresh⟩ := mem_filter.mp kept
      have there := (range.entries_perm _).mem_iff.mp there
      obtain rfl : x.1 = a := (keyed x there).symm.trans same
      exact ⟨AList.mem_keys.mpr (mem_map_of_mem there),by simpa using fresh⟩
    · rintro ⟨known,fresh⟩
      obtain ⟨x,there,rfl⟩ := mem_map.mp (AList.mem_keys.mp known)
      refine mem_map.mpr ⟨x,mem_filter.mpr ⟨(range.entries_perm _).mem_iff.mpr there,by simpa using fresh⟩,?_⟩
      exact keyed x there
  rw [stays,mem_byAddr,lookup_stamp]
  by_cases listed : a ∈ addrs verified
  · simp [listed,staleExitAfter,minute]
  · simp only [listed,Overdue]
    cases seen : r.lastSeen.lookup a with
    | none => simp [staleExitAfter,minute]
    | some t => simp

theorem mem_droppedBy_merge : a ∈ droppedBy r.exits (merge r now verified regions range).exits ↔
      a ∈ addrs r.exits ∧ a ∉ addrs verified ∧ Overdue r.lastSeen now a := by
  simp only [droppedBy,mem_filter,missing_iff,mem_merge]
  tauto

def keyed (e : ExitNode) : Sigma fun _ : Text => ExitNode := ⟨e.addr,e⟩

theorem lookup_index_of_absent (absent : a ∉ addrs nodes) (byAddr : Table Text ExitNode) :
    (index nodes byAddr).lookup a = byAddr.lookup a := by
  induction nodes generalizing byAddr with
  | nil => rfl
  | cons n rest ih =>
    have other : a ≠ n.addr ∧ a ∉ addrs rest := by simpa [addrs] using absent
    exact (ih other.2 _).trans (AList.lookup_insert_ne other.1)

theorem lookup_index_of_last {before after : List ExitNode} {e : ExitNode} (last : e.addr ∉ addrs after)
    (byAddr : Table Text ExitNode) : (index (before ++ e :: after) byAddr).lookup e.addr = some e := by
  have unfolded : index (before ++ e :: after) byAddr = index after ((index before byAddr).insert e.addr e) := by
    rw [index,foldl_append]
    rfl
  rw [unfolded,lookup_index_of_absent last,AList.lookup_insert]

theorem lookup_index_of_mem (distinct : (addrs nodes).Nodup) {e : ExitNode} (member : e ∈ nodes)
    (byAddr : Table Text ExitNode) : (index nodes byAddr).lookup e.addr = some e := by
  obtain ⟨before,after,rfl⟩ := append_of_mem member
  grind [addrs,lookup_index_of_last]

theorem entries_index_twice (distinct : (addrs nodes).Nodup) :
    (index nodes (index nodes ∅)).entries.Perm (nodes.map keyed) := by
  have once : (nodes.map keyed).Nodup := by
    refine List.Nodup.of_map Sigma.fst ?_
    rw [map_map]
    exact distinct
  refine (perm_ext_iff_of_nodup (List.Nodup.of_map Sigma.fst (AList.nodupKeys _)) once).mpr ?_
  intro x
  constructor
  · intro member
    have listed : x.1 ∈ addrs nodes := by
      have there : x.1 ∈ index nodes (index nodes ∅) := AList.mem_keys.mpr (mem_map_of_mem member)
      rw [mem_byAddr] at there
      exact there.elim id id
    obtain ⟨e,known,same⟩ := mem_map.mp listed
    have found := lookup_index_of_mem distinct known (index nodes ∅)
    rw [same,AList.mem_lookup_iff.mpr member] at found
    exact mem_map.mpr ⟨e,known,Sigma.ext same (heq_of_eq (Option.some.inj found).symm)⟩
  · intro member
    obtain ⟨e,known,rfl⟩ := mem_map.mp member
    exact AList.mem_lookup_iff.mp (lookup_index_of_mem distinct known _)

theorem merge_reorders (distinct : (addrs r.exits).Nodup) {l : List ExitNode} (perm : l.Perm r.exits)
    (now : Int) (regions : Table Text Text) : ∃ range, (merge r now r.exits regions range).exits = l := by
  -- the map is met in this order
  let range : Table.Range Text ExitNode :=
    ⟨fun entries => if entries.Perm (l.map keyed) then l.map keyed else entries,fun entries => by
      split
      · exact List.Perm.symm ‹_›
      · exact .refl _⟩
  have met : range.entries (index r.exits (index r.exits ∅)) = l.map keyed :=
    if_pos ((entries_index_twice distinct).trans (perm.map keyed).symm)
  refine ⟨range,?_⟩
  have all : (l.map keyed).filter (fun x =>
      now - ((stamp now r.exits r.lastSeen).lookup x.1).getD now ≤ staleExitAfter) = l.map keyed := by
    refine filter_eq_self.mpr ?_
    intro x member
    obtain ⟨e,known,rfl⟩ := mem_map.mp member
    have listed : e.addr ∈ addrs r.exits := mem_map_of_mem (perm.mem_iff.mp known)
    simp [keyed,lookup_stamp,listed,staleExitAfter,minute]
  rw [merge_exits,met,all,map_map]
  exact map_id _

def OmittedAt (a : Text) (t : Int) (log : List Applied) : Prop :=
  ∃ later o earlier, log = later ++ o :: earlier ∧ o.now = t ∧ a ∉ o.listed ∧ ∀ o' ∈ later, a ∉ o'.listed

theorem omittedAt_cons {t : Int} {o : Applied} :
    OmittedAt a t (o :: log) ↔ a ∉ o.listed ∧ (o.now = t ∨ OmittedAt a t log) := by
  constructor
  · rintro ⟨later,o',earlier,split,at_,omitted,silent⟩
    cases later with
    | nil =>
      obtain ⟨rfl,rfl⟩ := List.cons.inj split
      exact ⟨omitted,.inl at_⟩
    | cons first later =>
      obtain ⟨rfl,rest⟩ := List.cons.inj split
      exact ⟨silent o mem_cons_self,.inr ⟨later,o',earlier,rest,at_,omitted,fun x inside => silent x (mem_cons_of_mem _ inside)⟩⟩
  · rintro ⟨omitted,at_ | ⟨later,o',earlier,rfl,at_,omitted',silent⟩⟩
    · exact ⟨[],o,log,rfl,at_,omitted,by simp⟩
    · refine ⟨o :: later,o',earlier,rfl,at_,omitted',?_⟩
      intro x inside
      rcases mem_cons.mp inside with rfl | inside
      · exact omitted
      · exact silent x inside

/-- Each exit that a response dropped had been omitted by another one, `staleExitAfter` before
    it, and no response in between listed it. -/
def Justified (o : Applied) (earlier : List Applied) : Prop :=
  ∀ a ∈ o.dropped, ∃ t, OmittedAt a t earlier ∧ t + staleExitAfter ≤ o.now

def Patient (log : List Applied) : Prop := ∀ later o earlier, log = later ++ o :: earlier → Justified o earlier

theorem patient_cons {o : Applied} : Patient (o :: log) ↔ Justified o log ∧ Patient log := by
  constructor
  · intro patient
    refine ⟨patient [] o log rfl,?_⟩
    rintro later o' earlier rfl
    exact patient (o :: later) o' earlier rfl
  · rintro ⟨justified,patient⟩ later o' earlier split
    cases later with
    | nil =>
      obtain ⟨rfl,rfl⟩ := List.cons.inj split
      exact justified
    | cons first later =>
      obtain ⟨rfl,rest⟩ := List.cons.inj split
      exact patient later o' earlier rest

theorem lookup_mergeLoop {entries : List (Sigma fun _ : Text => ExitNode)} (distinct : (entries.map Sigma.fst).Nodup)
    (lastSeen : Table Text Int) : (mergeLoop now entries lastSeen).2.lookup a =
      if a ∈ entries.map Sigma.fst then (some ((lastSeen.lookup a).getD now)).filter (fun s => now - s ≤ staleExitAfter)
      else lastSeen.lookup a := by
  induction entries generalizing lastSeen with
  | nil => rfl
  | cons x rest ih =>
    obtain ⟨addr,e⟩ := x
    obtain ⟨new,distinct⟩ := nodup_cons.mp distinct
    have own : now - now ≤ staleExitAfter := by simp [staleExitAfter,minute]
    by_cases same : a = addr
    · subst same
      cases seen : lastSeen.lookup a <;> grind [mergeLoop]
    · grind [mergeLoop]

/-- The registry knows the exits that the events speak of, since the same times. -/
structure Tells (nodes : List ExitNode) (lastSeen : Table Text Int) (h : History) : Prop where
  times : ∀ a, lastSeen.lookup a = since a h
  known : ∀ a, a ∈ addrs nodes ↔ (since a h).isSome

theorem merge_tells {h : History} (tells : Tells r.exits r.lastSeen h) :
    Tells (merge r now verified regions range).exits (merge r now verified regions range).lastSeen
      (.responded now (addrs verified) h) := by
  have own : now - now ≤ staleExitAfter := by simp [staleExitAfter,minute]
  constructor
  · intro a
    have keys : a ∈ (range.entries (index verified (index r.exits ∅))).map Sigma.fst ↔ a ∈ addrs r.exits ∨ a ∈ addrs verified := by
      rw [((range.entries_perm _).map Sigma.fst).mem_iff,← mem_byAddr]
      exact AList.mem_keys.symm
    have times := tells.times a
    have known := tells.known a
    have looked := @lookup_mergeLoop now a _ (range.nodup_keys (index verified (index r.exits ∅))) (stamp now verified r.lastSeen)
    rw [lookup_stamp] at looked
    simp only [merge,since,looked,keys]
    cases seen : since a h <;> grind
  · intro a
    have times := tells.times a
    have known := tells.known a
    rw [mem_merge,since,Overdue,known,times]
    cases seen : since a h <;> grind

/-- Reading the file does to the times what the events say. -/
def Saved (file : Option Cache) (saved : History) : Prop := ∀ nodes times, file.bind Cache.decode = some (nodes,times) →
  ∀ now before a, since a (.loaded now saved before) = noted nodes times now a (since a before)

theorem lookup_adopt (cachedSeen lastSeen : Table Text Int) :
    (adopt now cachedSeen nodes lastSeen).lookup a = noted nodes cachedSeen now a (lastSeen.lookup a) := by
  induction nodes generalizing lastSeen with
  | nil => rfl
  | cons n rest ih =>
    have unfolded : adopt now cachedSeen (n :: rest) lastSeen = adopt now cachedSeen rest (adopt now cachedSeen [n] lastSeen) := rfl
    rw [unfolded,ih]
    simp only [noted,adopt,addrs,foldl_cons,foldl_nil,map_cons]
    by_cases same : a = n.addr
    · subst same
      cases cached : cachedSeen.lookup n.addr <;> cases seen : lastSeen.lookup n.addr <;> grind
    · cases cached : cachedSeen.lookup n.addr <;> grind

theorem lookup_cacheOf {lastSeen : Table Text Int} (times : Table Text Int) :
    (nodes.foldl (fun table n =>
      match lastSeen.lookup n.addr with
      | some t => table.insert n.addr (t / second)
      | none => table) times).lookup a =
      if a ∈ addrs nodes then ((lastSeen.lookup a).map (· / second)).or (times.lookup a) else times.lookup a := by
  induction nodes generalizing times with
  | nil => rfl
  | cons n rest ih =>
    rw [foldl_cons,ih]
    simp only [addrs,map_cons,mem_cons]
    grind

theorem cacheOf_saved {lastSeen : Table Text Int} {listed : List Text} {h : History}
    (tells : Tells nodes lastSeen (.responded now listed h)) : Saved (some (cacheOf nodes lastSeen)) (.responded now listed h) := by
  rintro nodes' times' ⟨⟩ now' before a
  have known := tells.known a
  rw [noted,lookup_cacheOf,tells.times,since.eq_def]
  cases seen : since a (.responded now listed h) <;> grind

theorem disk_saved (file : Option Cache) : Saved file (.disk file) := by
  intro nodes times decoded now before a
  simp only [since,decoded]

structure Faithful (c : Control) : Prop where
  tells : Tells c.registry.exits c.registry.lastSeen c.history
  saved : Saved c.file c.saved
  omitted : ∀ a t, OmittedAt a t c.log ↔ t ∈ omissions a c.history
  patient : Patient c.log ↔ Unhurried c.history

variable {c} {around : Around}

theorem mem_addrs_entries {byAddr : Table Text ExitNode} (keyed : Keyed byAddr) :
    a ∈ addrs ((range.entries byAddr).map Sigma.snd) ↔ a ∈ byAddr := by
  have same : addrs ((range.entries byAddr).map Sigma.snd) = (range.entries byAddr).map Sigma.fst := by
    rw [addrs,map_map]
    exact map_congr_left fun x there => keyed x ((range.entries_perm byAddr).mem_iff.mp there)
  rw [same,((range.entries_perm byAddr).map Sigma.fst).mem_iff]
  exact AList.mem_keys.symm

variable (faithful : Faithful c)
include faithful

theorem Faithful.loaded : Faithful (loaded c around) := by
  cases read : (if c.registry.cacheFile then around.file c else none).bind Cache.decode with
  | none =>
    have same : Exits.loaded c around = c := by simp [Exits.loaded,loadCached,noteLoad,read]
    rw [same]
    exact faithful
  | some contents =>
    obtain ⟨nodes,times⟩ := contents
    have file : c.file.bind Cache.decode = some (nodes,times) := by
      unfold Around.file at read
      grind
    have history : noteLoad c around = .loaded c.clock c.saved c.history := by simp [noteLoad,read]
    have reads := faithful.saved nodes times file c.clock c.history
    have tells := faithful.tells
    refine ⟨?_,faithful.saved,?_,?_⟩
    · simp only [Exits.loaded,loadCached,read,history]
      refine ⟨fun a => ?_,fun a => ?_⟩
      · rw [lookup_adopt,reads,tells.times]
      · rw [mem_addrs_entries keyed_byAddr,mem_byAddr,reads,noted,tells.known]
        grind
    · simp only [Exits.loaded,history]
      exact faithful.omitted
    · simp only [Exits.loaded,history]
      exact faithful.patient

theorem Faithful.booted (trimSpace : Text → Text) (list : List Text) :
    Faithful (booted trimSpace c list) := by
  refine ⟨⟨fun a => ?_,fun a => ?_⟩,faithful.saved,faithful.omitted,faithful.patient⟩
  · simp only [Exits.booted,loadBootstrap,since]
    split_ifs with none_ listed listed
    · simp [newExitRegistry,addrs] at listed
    · rfl
    all_goals simp_all [lookup_stamp,newExitRegistry]
  · simp only [Exits.booted,since]
    grind

theorem Faithful.picked : Faithful (picked c around) := by
  by_cases empty : c.registry.exits.isEmpty = true
  · have same : Exits.picked c around = Exits.loaded c around := by simp [Exits.picked,Exits.loaded,pickRandom,empty]
    rw [same]
    exact faithful.loaded
  · have same : Exits.picked c around = c := by simp [Exits.picked,pickRandom,empty]
    rw [same]
    exact faithful

theorem Faithful.applied : Faithful (applied c around now verified regions) := by
  refine ⟨merge_tells faithful.tells,faithful.saved,?_,?_⟩
  · intro a t
    simp only [Exits.applied,omittedAt_cons,omissions,faithful.omitted]
    grind
  · simp only [Exits.applied,patient_cons,faithful.patient,Unhurried,Justified,mem_droppedBy_merge,Overdue,faithful.omitted,
      faithful.tells.times,faithful.tells.known]
    rw [and_comm]
    refine and_congr_right fun _ => forall_congr' fun a => ?_
    constructor
    · intro justified omitted s counts past
      exact justified ⟨Option.isSome_iff_exists.mpr ⟨s,counts⟩,omitted,s,counts,by omega⟩
    · rintro unhurried ⟨-,omitted,s,counts,past⟩
      exact unhurried omitted s counts (by omega)

omit faithful

/-- A snapshot of the list that is about to be written is one of the events it goes with. -/
def At (_ : Control) : Point → Prop
  | .persists nodes lastSeen history => Saved (some (cacheOf nodes lastSeen)) history
  | _ => True

theorem act_kept {t : Point} (faithful : Faithful c) (at_ : At c t) : Faithful (act around c t).state ∧
    (∀ t', (act around c t).next = some t' → At (act around c t).state t') ∧ (act around c t).started = [] := by
  cases t with
  | picks =>
    have kept : Faithful (picked c around) := faithful.picked
    simp only [act]
    split <;> simp_all [returns,goesTo,At]
  | fetches =>
    simp only [act]
    split
    · simp [returns,faithful]
    · split <;> simp [returns,goesTo,At,faithful]
  | verifies signed => exact ⟨faithful,by simp [act,goesTo,At],rfl⟩
  | merges now verified regions =>
    have kept : Faithful (applied c around now verified regions) := faithful.applied
    refine ⟨kept,?_,rfl⟩
    rintro _ ⟨⟩
    exact cacheOf_saved kept.tells
  | persists nodes lastSeen history =>
    refine ⟨?_,by simp [act,returns],rfl⟩
    simp only [act,returns,persist]
    split
    · cases around.write with
      | done => exact ⟨faithful.tells,at_,faithful.omitted,faithful.patient⟩
      | failed => exact faithful
      | torn => exact ⟨faithful.tells,by rintro nodes times ⟨⟩,faithful.omitted,faithful.patient⟩
    · exact faithful

theorem step_kept (p : Controls) (i : Input) (holds : Holds Faithful At p) :
    Holds Faithful At (step trimSpace p i).1 := by
  cases i with
  | waits d =>
    obtain ⟨tells,saved,omitted,patient⟩ := holds.state
    exact ⟨⟨tells,saved,omitted,patient⟩,holds.points⟩
  | restarts list a => exact ⟨(holds.state.booted trimSpace list).loaded,by simp [step]⟩
  | refreshes => exact start_kept holds (by simp [At])
  | picks a => exact ⟨holds.state.picked,holds.points⟩
  | runs k a =>
    refine runAt_kept holds fun t there => ?_
    obtain ⟨kept,next,alone⟩ := @act_kept _ a _ holds.state (holds.points t (mem_of_getElem? there))
    exact ⟨kept,next,by simp [alone],fun _ _ at_ => at_⟩

/-- Whatever responses, outages, overlaps, restarts and failures of the file a control meets, each exit that a response
    dropped had been omitted `staleExitAfter` before exactly if the events of the run are unhurried. -/
theorem omitted_before_drop_iff (trimSpace : Text → Text) (pubkey cacheFile : Bool) (file : Option Cache) (clock : Int)
    (inputs : List Input) :
    Patient (final (step trimSpace) (offline pubkey cacheFile file clock) inputs).state.log ↔
      Unhurried (final (step trimSpace) (offline pubkey cacheFile file clock) inputs).state.history := by
  have start : Holds Faithful At (offline pubkey cacheFile file clock) := by
    refine ⟨⟨⟨fun a => rfl,fun a => ?_⟩,disk_saved file,fun a t => ?_,?_⟩,by simp [offline]⟩
    · simp [offline,newExitRegistry,addrs,since]
    · simp [offline,OmittedAt,omissions]
    · simp [offline,Patient,Unhurried]
  exact (state_run (step_kept trimSpace) inputs start).state.patient

def sampleNode (addr : String) : ExitNode := ⟨addr.toList,[],0,0,none⟩

def sampleReply (ts : Int) (list : List String) : Around :=
  ⟨true,.asKept Text ExitNode,some ⟨ts,list.map sampleNode,true,∅⟩,fun _ => true,.done⟩

def refreshWith (a : Around) : List Input := [.refreshes,.runs 0 a,.runs 0 a,.runs 0 a,.runs 0 a,.runs 0 a]

def outage : List Input :=
  [.restarts ["a".toList] (sampleReply 0 [])] ++ refreshWith (sampleReply 0 ["a","b","c"]) ++ [.waits 90000000000000] ++
    refreshWith (sampleReply 90000 ["b","c"])

def outageLog : List Applied :=
  [⟨90000000000000,["b".toList,"c".toList],["a".toList]⟩,⟨0,["a".toList,"b".toList,"c".toList],[]⟩]

theorem outage_log : (final (step id) (offline true true none 0) outage).state.log = outageLog := by
  decide +kernel

/-- The first response after the outage drops the exit that it omits, though none before did. -/
theorem dropped_at_first_omission : ¬ ∀ inputs, Patient (final (step id) (offline true true none 0) inputs).state.log := by
  intro all
  have patient := all outage
  rw [outage_log] at patient
  obtain ⟨t,omitted,-⟩ := (patient_cons.mp patient).1 "a".toList (by decide)
  exact absurd (omittedAt_cons.mp omitted).1 (by decide)

end TunnelCat.Exits
