import TunnelCat.ExitMerge
import TunnelCat.ExitPick

/-!
The regions of the exits over the responses of the arbiter (`snc-control/exits.go`). A refresh takes the
regions from its response alone, so an exit that a response omits stays on the list without its region.
-/
namespace TunnelCat.ExitRegions
open ExitMerge ExitPick Exits Goroutines Runs StickyPick
open HostPort (Text)

/-- The control with what the responses merged by this process said of regions. `reported` is not in the code. -/
structure Told where
  controls : Controls
  reported : List (Text × Text)

def Told.registry (s : Told) : Registry := s.controls.state.registry

def told (regions : Table Text Text) : List (Text × Text) :=
  (regions.entries.map (fun x => (x.1,x.2))).filter (fun x => x.2 ≠ [])

def reportsAt (s : Told) : Option Point → List (Text × Text)
  | some (.merges _ _ regions) => told regions ++ s.reported
  | _ => s.reported

def reportsAfter (s : Told) : Input → List (Text × Text)
  | .restarts _ _ => []
  | .runs k _ => reportsAt s s.controls.running[k]?
  | _ => s.reported

def step (trimSpace : Text → Text) (s : Told) (i : Input) : Told × List Unit :=
  (⟨(Exits.step trimSpace s.controls i).1,reportsAfter s i⟩,[])

def filed (s : Told) (a : Around) : List ExitNode := ((cached s.registry (a.file s.controls.state)).map Prod.fst).getD []

/-- The file has no exit that was reported and that the map does not have in its region, if it is
    to fill an empty list. -/
def LoadsKnown (s : Told) (a : Around) : Prop :=
  s.registry.exits = [] → ∀ x ∈ s.reported, x.1 ∈ addrs (filed s a) → regionOf s.registry.exitRegions x.1 = x.2

def RetellsAt (s : Told) (a : Around) : Option Point → Prop
  | some .picks => LoadsKnown s a
  | some (.merges now verified regions) => ∀ x ∈ s.reported,
      x.1 ∈ addrs verified ∨ x.1 ∈ addrs s.registry.exits ∧ ¬ Overdue s.registry.lastSeen now x.1 →
        regionOf regions x.1 = x.2
  | _ => True

def Retells (s : Told) : Input → Prop
  | .picks a => LoadsKnown s a
  | .runs k a => RetellsAt s a s.controls.running[k]?
  | _ => True

instance (lastSeen : Table Text Int) (now : Int) (a : Text) : Decidable (Overdue lastSeen now a) :=
  inferInstanceAs (Decidable (∃ seen ∈ lastSeen.lookup a, staleExitAfter < now - seen))

instance (s : Told) (a : Around) : Decidable (LoadsKnown s a) :=
  inferInstanceAs (Decidable (_ → ∀ x ∈ s.reported, x.1 ∈ addrs (filed s a) → regionOf s.registry.exitRegions x.1 = x.2))

instance (s : Told) (a : Around) : (t : Option Point) → Decidable (RetellsAt s a t)
  | some .picks => inferInstanceAs (Decidable (LoadsKnown s a))
  | some (.merges now verified regions) => inferInstanceAs (Decidable (∀ x ∈ s.reported,
      x.1 ∈ addrs verified ∨ x.1 ∈ addrs s.registry.exits ∧ ¬ Overdue s.registry.lastSeen now x.1 →
        regionOf regions x.1 = x.2))
  | none | some .fetches | some (.verifies _) | some (.persists _ _ _) => inferInstanceAs (Decidable True)

instance (s : Told) : (i : Input) → Decidable (Retells s i)
  | .picks a => inferInstanceAs (Decidable (LoadsKnown s a))
  | .runs k a => inferInstanceAs (Decidable (RetellsAt s a s.controls.running[k]?))
  | .waits _ | .restarts _ _ | .refreshes => inferInstanceAs (Decidable True)

def located (r : Registry) (region : Text) : Registry := { r with myRegion := region }

/-- An exit that was reported in a region is not picked for a client of that country, by either pick and
    whatever the control's own region is, while another exit is usable when it is looked at and
    outside. -/
def Avoided (s : Told) : Prop :=
  ∀ x ∈ s.reported, ∀ region : Text,
    (∀ look draw e, (∃ e' ∈ usableAt look s.registry.exits, e'.addr ≠ x.1 ∧ Outside (located s.registry region) x.2 e') →
      pickFor look (located s.registry region) x.2 draw = .picks e → e.addr ≠ x.1) ∧
    ∀ sha256 health clientIP e,
      (∃ e' ∈ s.registry.exits, usable health e' = true ∧ e'.addr ≠ x.1 ∧ Outside (located s.registry region) x.2 e') →
      pickForClient sha256 health (located s.registry region) clientIP x.2 = .ok e → e.addr ≠ x.1

def Knows (reported : List (Text × Text)) (r : Registry) : Prop :=
  ∀ x ∈ reported, x.2 ≠ [] ∧ (x.1 ∈ addrs r.exits → regionOf r.exitRegions x.1 = x.2)

variable {regions : Table Text Text} {s : Told} {r : Registry}

theorem mem_told {x : Text × Text} :
    x ∈ told regions ↔ regions.lookup x.1 = some x.2 ∧ x.2 ≠ [] := by
  obtain ⟨a,cc⟩ := x
  have entry : (a,cc) ∈ regions.entries.map (fun x => (x.1,x.2)) ↔ regions.lookup a = some cc := by
    rw [← Option.mem_def,AList.mem_lookup_iff,List.mem_map]
    grind
  rw [told,List.mem_filter,entry]
  simp

theorem knows_picked {a : Around} (knows : Knows s.reported s.registry) (loads : LoadsKnown s a) :
    Knows s.reported (picked s.controls.state a).registry := by
  by_cases filled : s.registry.exits = []
  · have loaded : (picked s.controls.state a).registry =
        loadCached s.registry (a.file s.controls.state) s.controls.state.clock a.range := by
      grind [picked,pickRandom,Told.registry]
    rw [loaded]
    cases read : cached s.registry (a.file s.controls.state) with
    | none =>
      rw [loadCached_of_none read]
      exact knows
    | some x =>
      obtain ⟨nodes,cachedSeen⟩ := x
      intro x member
      refine ⟨(knows x member).1,?_⟩
      intro listed
      rw [← dataOf_isSome,dataOf_loadCached read,filled] at listed
      rw [loadCached_of_some read]
      have there : filed s a = nodes := by
        rw [filed,read]
        rfl
      refine loads filled x member (dataOf_isSome.mp ?_)
      simpa [there,dataOf,index] using listed
  grind [picked,pickRandom,Told.registry]

theorem knows_merge {reported : List (Text × Text)} (knows : Knows reported r) {now : Int}
    {verified : List ExitNode} (range : Table.Range Text ExitNode)
    (retells : ∀ x ∈ reported, x.1 ∈ addrs verified ∨ x.1 ∈ addrs r.exits ∧ ¬ Overdue r.lastSeen now x.1 →
      regionOf regions x.1 = x.2) :
    Knows (told regions ++ reported) (merge r now verified regions range) := by
  intro x member
  rcases List.mem_append.mp member with new | old
  · obtain ⟨found,named⟩ := mem_told.mp new
    refine ⟨named,fun _ => ?_⟩
    change regionOf regions x.1 = x.2
    rw [regionOf,found]
    rfl
  · exact ⟨(knows x old).1,fun listed => retells x old (mem_merge.mp listed)⟩

theorem step_knows {trimSpace : Text → Text} {i : Input} (retells : Retells s i)
    (knows : Knows s.reported s.registry) :
    Knows (step trimSpace s i).1.reported (step trimSpace s i).1.registry := by
  cases i with
  | waits d => exact knows
  | refreshes => exact knows
  | restarts list a =>
    intro x none
    cases none
  | picks a => exact knows_picked knows retells
  | runs k a =>
    cases there : s.controls.running[k]? with
    | none =>
      have same : (step trimSpace s (.runs k a)).1 = s := by
        simp [step,Exits.step,reportsAfter,reportsAt,there]
      rw [same]
      exact knows
    | some t =>
      have state : (step trimSpace s (.runs k a)).1.registry = (act a s.controls.state t).state.registry :=
        congrArg Control.registry (runAt_state there)
      have reports : (step trimSpace s (.runs k a)).1.reported = reportsAt s (some t) :=
        congrArg (reportsAt s) there
      have retells : RetellsAt s a (some t) := there ▸ retells
      rw [state,reports]
      cases t with
      | picks =>
        have loaded : (act a s.controls.state .picks).state = picked s.controls.state a := by
          simp only [act]
          split <;> rfl
        rw [loaded]
        exact knows_picked knows retells
      | merges now verified regions => exact knows_merge knows a.range retells
      | fetches =>
        have same : (act a s.controls.state .fetches).state = s.controls.state := by
          grind [act,returns,goesTo]
        rw [same]
        exact knows
      | verifies signed => exact knows
      | persists nodes lastSeen history =>
        have same : (act a s.controls.state (.persists nodes lastSeen history)).state.registry = s.registry := by
          simp only [act,returns,persist]
          split
          · cases a.write <;> rfl
          · rfl
        rw [same]
        exact knows

theorem not_outside {cc : Text} {e : ExitNode} (named : cc ≠ []) (region : regionOf r.exitRegions e.addr = cc) :
    ¬ Outside r cc e := by
  rintro (unknown | ⟨-,other⟩)
  · exact named (region ▸ unknown)
  · exact other region

theorem regions_of_known {a cc : Text} (named : cc ≠ []) (region : regionOf r.exitRegions a = cc) :
    0 < r.exitRegions.size := by
  rw [Table.size_eq,List.length_pos_iff_exists_mem]
  refine ⟨a,AList.mem_keys.mp (AList.lookup_isSome.mp ?_)⟩
  cases found : r.exitRegions.lookup a with
  | none => rw [regionOf,found] at region; exact absurd region.symm named
  | some cc' => rfl

theorem avoided_of_knows (knows : Knows s.reported s.registry) : Avoided s := by
  intro x member region
  obtain ⟨named,known⟩ := knows x member
  have avoided : ∀ e ∈ s.registry.exits, e.addr = x.1 → 0 < (located s.registry region).exitRegions.size ∧
      ¬ Outside (located s.registry region) x.2 e := by
    rintro e listed same
    have region' := same ▸ known (same ▸ List.mem_map_of_mem listed)
    exact ⟨regions_of_known (r := s.registry) named region',not_outside named region'⟩
  constructor
  · rintro look draw e ⟨e',works,-,outside⟩ picks same
    have more : (located s.registry region).exits ≠ [] := List.ne_nil_of_mem (mem_of_usableAt works)
    rcases pickFor_cases look x.2 more draw with ⟨e'',member',picked⟩ | ⟨-,panics⟩
    · obtain rfl : e = e'' := Pick.picks.inj (picks.symm.trans picked)
      obtain ⟨listed,-,rule⟩ := candidatesAt_rules (candidate_of_pool member')
      obtain ⟨regions,inside⟩ := avoided e listed same
      exact inside (rule regions ⟨e',works,outside⟩)
    · rw [picks] at panics
      cases panics
  · rintro sha256 health clientIP e ⟨e',listed',works,-,outside⟩ picks same
    have more : (located s.registry region).exits ≠ [] := List.ne_nil_of_mem listed'
    obtain ⟨e'',candidate,picked⟩ := pickForClient_candidate sha256 health more clientIP x.2
    obtain rfl : e = e'' := Except.ok.inj (picks.symm.trans picked)
    have fits := fits_of_candidate candidate
    obtain ⟨regions,inside⟩ := avoided e fits.listed same
    exact inside (fits.outside regions ⟨e',listed',works,outside⟩)

/-- In every run from any control in which each response tells again what was reported of the exits that
    it lists or leaves on the list, no exit is picked for a client of a country in which it was
    reported, while another usable one is outside. -/
theorem reported_not_picked (trimSpace : Text → Text) (controls : Controls) {inputs : List Input}
    (retells : Along (step trimSpace) Retells ⟨controls,[]⟩ inputs) : Avoided (final (step trimSpace) ⟨controls,[]⟩ inputs) := by
  have knows : Knows (final (step trimSpace) ⟨controls,[]⟩ inputs).reported
      (final (step trimSpace) ⟨controls,[]⟩ inputs).registry := by
    refine state_along (P := fun s : Told => Knows s.reported s.registry) ?_ retells ?_
    · intro s i cond knows
      exact step_knows cond knows
    · intro x none
      cases none
  exact avoided_of_knows knows

def regionReply (list : List (String × String)) : Around :=
  { sampleReply 0 [] with
    reply := some ⟨0,list.map (fun x => sampleNode x.1),true,
      list.foldl (fun regions x => regions.insert x.1.toList x.2.toList) ∅⟩ }

def twoReplies (first second : List (String × String)) : List Input :=
  [.restarts ["a".toList] (sampleReply 0 [])] ++ refreshWith (regionReply first) ++ refreshWith (regionReply second)

theorem reported_not_picked_twice :
    Along (step id) Retells ⟨offline true true none 0,[]⟩ (twoReplies [("a","RU"),("b","DE")] [("b","DE"),("a","RU")]) ∧
      Avoided (final (step id) ⟨offline true true none 0,[]⟩ (twoReplies [("a","RU"),("b","DE")] [("b","DE"),("a","RU")])) :=
  ⟨by decide,reported_not_picked id _ (by decide)⟩

/-- The second response omits the exit `a`, which stays on the list: a client of its country may get it. -/
theorem region_forgotten : ¬ ∀ inputs, Avoided (final (step id) ⟨offline true true none 0,[]⟩ inputs) := by
  intro all
  have avoided := (all (twoReplies [("a","RU"),("b","DE")] [("b","DE")]) ("a".toList,"RU".toList) (by decide) []).1
    (fun _ => ∅) 1 (sampleNode "a")
  refine avoided ⟨sampleNode "b",by decide,by decide,.inr ⟨?_,?_⟩⟩ (by decide) rfl
  · decide
  · decide

end TunnelCat.ExitRegions
