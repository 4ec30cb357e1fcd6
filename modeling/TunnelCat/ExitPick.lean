import Mathlib.Tactic.NormNum.Ineq
import TunnelCat.ExitHealth

/-!
The pick of an exit by its round-trip time (`PickFor` of `snc-control/exits.go`): one of those within
30% of the lowest time is drawn. The map of the probes may change between any two looks, and the
times are read twice. With five exits or more the window may so be empty, and the draw panics
(`pickFor_draws_iff`). While the map does not change, both picks obey the same rules (`pick_rules`). The
products of a time and a factor, `float64` in the source, are exact here.
-/
namespace TunnelCat.ExitPick
open Cumulative ExitHealth Exits Runs StickyPick List
open HostPort (Text)

def looks (probes : Probes) (before : Nat → List Update) (n : Nat) : Health :=
  health (final update probes ((List.range (n + 1)).flatMap before))

variable (look : Nat → Health) (rtts : List ℚ) (r : Registry) (clientCC : Text)

def usableAt (exits : List ExitNode) : List ExitNode :=
  (exits.zipIdx.filter (fun x => usable (look x.2) x.1)).map Prod.fst

def outsideOf (live : List ExitNode) : List ExitNode :=
  if byRegion r clientCC then unlessEmpty (live.filter (abroad r clientCC)) live else live

def candidatesAt : List ExitNode :=
  outsideOf r clientCC (unlessEmpty (usableAt look r.exits) r.exits)

def effectiveRTT (health : Health) (e : ExitNode) : ℚ :=
  let own := rttOf health e.addr
  let rtt := if 0 < own then own else e.rttMs
  rtt * effectiveLoadFactor e.load

def readings (n : Nat) (live : List ExitNode) : List ℚ :=
  (live.zipIdx n).map (fun x => effectiveRTT (look x.2) x.1)

def lower (best rtt : ℚ) : ℚ := if 0 < rtt ∧ (best = 0 ∨ rtt < best) then rtt else best

def bestRTT : ℚ := rtts.foldl lower 0

def near (best rtt : ℚ) : Bool := rtt = 0 || best = 0 || rtt ≤ best * (13 / 10)

def pool (exits live : List ExitNode) : List ExitNode :=
  if exits.length < 5 then live
  else
    let best := bestRTT (readings look exits.length live)
    ((live.zip (readings look (exits.length + live.length) live)).filter (fun x => near best x.2)).map Prod.fst

inductive Pick
  | error (text : String)
  | panics
  | picks (e : ExitNode)
deriving DecidableEq

/-- `PickFor`. The draw is any number, of which `rand.Intn` gives the remainder; there is none if the
    pool is empty. -/
def pickFor (draw : Nat) : Pick :=
  if r.exits.isEmpty then .error "no live exits available"
  else
    let pool := pool look r.exits (candidatesAt look r clientCC)
    match pool[draw % pool.length]? with
    | none => .panics
    | some e => .picks e

theorem foldl_lower {best : ℚ} (nonneg : 0 ≤ best) :
    (rtts.foldl lower best = best ∨ rtts.foldl lower best ∈ rtts ∧ 0 < rtts.foldl lower best) ∧
      (0 < best → 0 < rtts.foldl lower best ∧ rtts.foldl lower best ≤ best) ∧
      ∀ rtt ∈ rtts, 0 < rtt → 0 < rtts.foldl lower best ∧ rtts.foldl lower best ≤ rtt := by
  induction rtts generalizing best with
  | nil => simp
  | cons rtt rest ih =>
    by_cases better : 0 < rtt ∧ (best = 0 ∨ rtt < best)
    · obtain ⟨there,start,each⟩ := ih better.1.le
      obtain ⟨positive,below⟩ := start better.1
      rw [foldl_cons,lower,if_pos better]
      refine ⟨.inr ⟨?_,positive⟩,?_,?_⟩
      · rcases there with same | ⟨later,-⟩
        · exact mem_cons.mpr (.inl same)
        · exact mem_cons_of_mem _ later
      · grind
      · grind
    · obtain ⟨there,start,each⟩ := ih nonneg
      rw [foldl_cons,lower,if_neg better]
      refine ⟨?_,start,?_⟩
      · rcases there with same | ⟨later,positive⟩
        · exact .inl same
        · exact .inr ⟨mem_cons_of_mem _ later,positive⟩
      · intro x member above
        rcases mem_cons.mp member with rfl | later
        · -- the best before is positive, and not above this one
          grind [lt_of_le_of_ne]
        · exact each x later above

theorem near_bestRTT (rtt : ℚ) :
    near (bestRTT rtts) rtt = true ↔ rtt = 0 ∨ ∀ x ∈ rtts, 0 < x → rtt ≤ x * (13 / 10) := by
  obtain ⟨there,-,each⟩ := foldl_lower rtts (le_refl 0)
  simp only [near,Bool.or_eq_true,decide_eq_true_eq]
  constructor
  · rintro ((zero | none) | below)
    · exact .inl zero
    · refine .inr ?_
      intro x member above
      exact absurd none (each x member above).1.ne'
    · refine .inr ?_
      intro x member above
      exact below.trans (mul_le_mul_of_nonneg_right (each x member above).2 (by norm_num))
  · rintro (zero | all)
    · exact .inl (.inl zero)
    · rcases there with none | ⟨member,positive⟩
      · exact .inl (.inr none)
      · exact .inr (all _ member positive)

section
variable {look : Nat → Health} {n : Nat} {live : List ExitNode}

theorem getElem?_readings (k : Nat) :
    (readings look n live)[k]? = (live[k]?).map (effectiveRTT (look (n + k))) := by
  grind [readings]

theorem mem_readings {rtt : ℚ} :
    rtt ∈ readings look n live ↔ ∃ k e, live[k]? = some e ∧ effectiveRTT (look (n + k)) e = rtt := by
  simp only [mem_iff_getElem?,getElem?_readings,Option.map_eq_some_iff]

theorem mem_zip_readings {e : ExitNode} {rtt : ℚ} :
    (e,rtt) ∈ live.zip (readings look n live) ↔ ∃ k, live[k]? = some e ∧ effectiveRTT (look (n + k)) e = rtt := by
  simp only [mem_iff_getElem?,getElem?_zip_eq_some,getElem?_readings,Option.map_eq_some_iff]
  grind

/-- At the second look at one of the exits its time is 0, or at most 30% above each positive
    time of the first looks. -/
def NearAt (look : Nat → Health) (n : Nat) (live : List ExitNode) (k : Nat) (e : ExitNode) : Prop :=
  effectiveRTT (look (n + live.length + k)) e = 0 ∨
    ∀ j e', live[j]? = some e' → 0 < effectiveRTT (look (n + j)) e' →
      effectiveRTT (look (n + live.length + k)) e ≤ effectiveRTT (look (n + j)) e' * (13 / 10)

theorem mem_pool {exits : List ExitNode} {e : ExitNode} : e ∈ pool look exits live ↔
    if exits.length < 5 then e ∈ live else ∃ k, live[k]? = some e ∧ NearAt look exits.length live k e := by
  unfold pool
  by_cases few : exits.length < 5
  · simp only [if_pos few]
  · simp only [if_neg few,mem_map,mem_filter,Prod.exists,exists_and_right,exists_eq_right,near_bestRTT,mem_readings]
    constructor
    · rintro ⟨rtt,zipped,within⟩
      obtain ⟨k,there,rfl⟩ := mem_zip_readings.mp zipped
      refine ⟨k,there,within.imp id ?_⟩
      intro below j e' there' positive
      exact below _ ⟨j,e',there',rfl⟩ positive
    · rintro ⟨k,there,within⟩
      refine ⟨_,mem_zip_readings.mpr ⟨k,there,rfl⟩,within.imp id ?_⟩
      grind

end

variable {filtered all exits : List ExitNode} {r} {clientCC} {look}

theorem unlessEmpty_ne_nil (more : all ≠ []) : unlessEmpty filtered all ≠ [] := by
  grind [unlessEmpty]

section
variable (look : Nat → Health) {r : Registry} (clientCC : Text)

theorem candidatesAt_ne_nil (more : r.exits ≠ []) : candidatesAt look r clientCC ≠ [] := by
  grind [candidatesAt,outsideOf,unlessEmpty_ne_nil]

theorem pickFor_cases (more : r.exits ≠ []) (draw : Nat) :
    (∃ e ∈ pool look r.exits (candidatesAt look r clientCC), pickFor look r clientCC draw = .picks e) ∨
      pool look r.exits (candidatesAt look r clientCC) = [] ∧ pickFor look r clientCC draw = .panics := by
  grind [pickFor,Nat.mod_lt,length_pos_of_ne_nil]

/-- There are fewer than five exits, or some candidate is near at its second look. -/
def Steady (look : Nat → Health) (r : Registry) (clientCC : Text) : Prop :=
  r.exits.length < 5 ∨ ∃ k e, (candidatesAt look r clientCC)[k]? = some e ∧
    NearAt look r.exits.length (candidatesAt look r clientCC) k e

theorem pool_ne_nil_iff (more : r.exits ≠ []) :
    pool look r.exits (candidatesAt look r clientCC) ≠ [] ↔ Steady look r clientCC := by
  have some_ : pool look r.exits (candidatesAt look r clientCC) ≠ [] ↔
      ∃ e, e ∈ pool look r.exits (candidatesAt look r clientCC) :=
    ⟨exists_mem_of_ne_nil _,fun ⟨_,member⟩ => ne_nil_of_mem member⟩
  simp only [some_,mem_pool,Steady]
  by_cases few : r.exits.length < 5
  · simp only [few,true_or,iff_true]
    exact exists_mem_of_ne_nil _ (candidatesAt_ne_nil look clientCC more)
  · simp only [few,false_or]
    exact exists_comm

end

theorem pickFor_draws_iff (probes : Probes) (before : Nat → List Update) (r : Registry) (clientCC : Text) (draw : Nat) :
    pickFor (looks probes before) r clientCC draw ≠ .panics ↔ Steady (looks probes before) r clientCC := by
  by_cases none : r.exits = []
  · have error : pickFor (looks probes before) r clientCC draw = .error "no live exits available" := by
      simp [pickFor,none]
    refine iff_of_true ?_ (.inl ?_)
    · simp [error]
    · simp [none]
  · rw [← pool_ne_nil_iff (looks probes before) clientCC none]
    rcases pickFor_cases (looks probes before) clientCC none draw with ⟨e,member,picked⟩ | ⟨empty,panics⟩
    · exact iff_of_true (by simp [picked]) (ne_nil_of_mem member)
    · exact iff_of_false (by simp [panics]) (by simp [empty])

def fiveExits : Registry := ⟨true,true,[],["a","b","c","d","e"].map sampleNode,∅,∅⟩

def oneAlive : Probes :=
  ["b","c","d","e"].foldl (fun probes a => probes.insert a.toList ⟨⟨false,0,0,0⟩,-2⟩)
    ((∅ : Probes).insert "a".toList ⟨⟨true,10,0,0⟩,1⟩)

def slower (n : Nat) : List Update := if n = 6 then [.probed "a".toList (some 20)] else []

theorem pickFor_panics : ¬ ∀ (probes : Probes) (before : Nat → List Update) (r : Registry) (clientCC : Text) (draw : Nat),
    r.exits ≠ [] → pickFor (looks probes before) r clientCC draw ≠ .panics := by
  intro all
  exact all oneAlive slower fiveExits [] 0 (by decide) (by decide +kernel)

def Outside (r : Registry) (clientCC : Text) (e : ExitNode) : Prop :=
  regionOf r.exitRegions e.addr = [] ∨
    regionOf r.exitRegions e.addr ≠ r.myRegion ∧ regionOf r.exitRegions e.addr ≠ clientCC

variable {e : ExitNode}

theorem abroad_iff : abroad r clientCC e = true ↔ Outside r clientCC e := by
  unfold abroad Outside
  grind [excluded]

theorem mem_usableAt :
    e ∈ usableAt look exits ↔ ∃ k, exits[k]? = some e ∧ usable (look k) e = true := by
  simp only [usableAt,mem_map,mem_filter,Prod.exists,exists_and_right,exists_eq_right,mem_zipIdx_iff_getElem?]

theorem mem_unlessEmpty (member : e ∈ unlessEmpty filtered all)
    (sublist : filtered ⊆ all) : e ∈ all ∧ (filtered ≠ [] → e ∈ filtered) := by
  grind [unlessEmpty]

theorem mem_of_usableAt : usableAt look exits ⊆ exits := by
  intro e member
  obtain ⟨k,there,-⟩ := mem_usableAt.mp member
  exact mem_of_getElem? there

theorem candidatesAt_rules
    (candidate : e ∈ candidatesAt look r clientCC) :
    e ∈ r.exits ∧ (usableAt look r.exits ≠ [] → e ∈ usableAt look r.exits) ∧
      (0 < r.exitRegions.size → (∃ e' ∈ usableAt look r.exits, Outside r clientCC e') → Outside r clientCC e) := by
  have live : e ∈ unlessEmpty (usableAt look r.exits) r.exits := by
    unfold candidatesAt outsideOf at candidate
    split at candidate
    · exact (mem_unlessEmpty candidate (filter_subset_self _)).1
    · exact candidate
  obtain ⟨listed,usable⟩ := mem_unlessEmpty live mem_of_usableAt
  refine ⟨listed,usable,?_⟩
  rintro regions ⟨e',works,outside⟩
  by_cases geo : byRegion r clientCC = true
  · have filtered : (unlessEmpty (usableAt look r.exits) r.exits).filter (abroad r clientCC) ≠ [] := by
      have same : unlessEmpty (usableAt look r.exits) r.exits = usableAt look r.exits :=
        if_neg (by simpa using ne_nil_of_mem works)
      rw [same]
      exact ne_nil_of_mem (mem_filter.mpr ⟨works,abroad_iff.mpr outside⟩)
    simp only [candidatesAt,outsideOf,geo] at candidate
    exact abroad_iff.mp (mem_filter.mp ((mem_unlessEmpty candidate (filter_subset_self _)).2 filtered)).2
  · -- neither country is known, so none is excluded
    grind [byRegion,Outside]

theorem candidate_of_pool {live : List ExitNode} (member : e ∈ pool look exits live) :
    e ∈ live := by
  grind [mem_pool]

section
variable {health : Health} {r : Registry} {clientCC : Text}

theorem usableAt_const (exits : List ExitNode) : usableAt (fun _ => health) exits = exits.filter (usable health) := by
  have split : (fun x : ExitNode × Nat => usable health x.1) = usable health ∘ Prod.fst := rfl
  rw [usableAt,split,← filter_map,zipIdx_map_fst]

theorem candidatesAt_const : candidatesAt (fun _ => health) r clientCC = candidates health r clientCC := by
  rw [candidatesAt,usableAt_const]
  rfl

theorem steady_const (more : r.exits ≠ []) : Steady (fun _ => health) r clientCC := by
  refine .inr ?_
  have candidate := candidatesAt_ne_nil (fun _ => health) clientCC more
  generalize candidatesAt (fun _ => health) r clientCC = live at candidate ⊢
  obtain ⟨there,-,each⟩ := foldl_lower (readings (fun _ => health) 0 live) (le_refl 0)
  rcases there with none | ⟨member,-⟩
  · -- no time is positive
    obtain ⟨e,rest,rfl⟩ := exists_cons_of_ne_nil candidate
    refine ⟨0,e,rfl,.inr ?_⟩
    intro j e' there positive
    exact absurd none (each _ (mem_readings.mpr ⟨j,e',there,rfl⟩) positive).1.ne'
  · obtain ⟨k,e,there,lowest⟩ := mem_readings.mp member
    refine ⟨k,e,there,.inr ?_⟩
    intro j e' there' positive
    have below := (each _ (mem_readings.mpr ⟨j,e',there',rfl⟩) positive).2
    rw [← lowest] at below
    exact below.trans (le_mul_of_one_le_right positive.le (by norm_num))

end

/-- What an exit that is picked has: it is on the list, usable if some exit is, and outside, if some
    region is known and some usable exit is outside. -/
structure Fits (health : Health) (r : Registry) (clientCC : Text) (e : ExitNode) : Prop where
  listed : e ∈ r.exits
  works : (∃ e' ∈ r.exits, usable health e' = true) → usable health e = true
  outside : 0 < r.exitRegions.size → (∃ e' ∈ r.exits, usable health e' = true ∧ Outside r clientCC e') → Outside r clientCC e

theorem fits_of_candidate {health : Health}
    (candidate : e ∈ candidates health r clientCC) : Fits health r clientCC e := by
  rw [← candidatesAt_const] at candidate
  obtain ⟨listed,works,outside⟩ := candidatesAt_rules candidate
  simp only [usableAt_const,mem_filter] at works outside
  refine ⟨listed,?_,?_⟩
  · rintro ⟨e',listed',usable⟩
    exact (works (ne_nil_of_mem (mem_filter.mpr ⟨listed',usable⟩))).2
  · grind

theorem pickForClient_candidate (sha256 : Text → List UInt8) (health : Health) (more : r.exits ≠ [])
    (clientIP clientCC : Text) :
    ∃ e ∈ candidates health r clientCC, pickForClient sha256 health r clientIP clientCC = .ok e := by
  have candidate := candidatesAt_ne_nil (fun _ => health) clientCC more
  rw [candidatesAt_const] at candidate
  unfold pickForClient
  match live : candidates health r clientCC with
  | [] => exact absurd live candidate
  | [e] => exact ⟨e,mem_singleton_self e,rfl⟩
  | first :: second :: rest =>
    obtain ⟨e,found⟩ := walk_some (weight health) (cons_ne_nil first (second :: rest))
      (target sha256 health clientIP (first :: second :: rest))
    refine ⟨e,mem_of_walk found,?_⟩
    simp only [pickAmong,found,Option.getD_some]

theorem pick_rules (sha256 : Text → List UInt8) (health : Health) {r : Registry} (more : r.exits ≠ [])
    (clientIP clientCC : Text) (draw : Nat) :
    (∃ e, pickFor (fun _ => health) r clientCC draw = .picks e ∧ Fits health r clientCC e) ∧
      ∃ e, pickForClient sha256 health r clientIP clientCC = .ok e ∧ Fits health r clientCC e := by
  constructor
  · rcases pickFor_cases (fun _ => health) clientCC more draw with ⟨e,member,picked⟩ | ⟨empty,-⟩
    · have candidate := candidate_of_pool member
      rw [candidatesAt_const] at candidate
      exact ⟨e,picked,fits_of_candidate candidate⟩
    · exact absurd empty ((pool_ne_nil_iff _ clientCC more).mpr (steady_const more))
  · obtain ⟨e,candidate,picked⟩ := pickForClient_candidate sha256 health more clientIP clientCC
    exact ⟨e,picked,fits_of_candidate candidate⟩

/-- Five exits, of which the first is alive: it is picked. -/
theorem pick_rules_five : fiveExits.exits ≠ [] ∧
    (∃ e, pickFor (fun _ => health oneAlive) fiveExits [] 0 = .picks e ∧ Fits (health oneAlive) fiveExits [] e) ∧
      ∃ e, pickForClient halfway (health oneAlive) fiveExits [] [] = .ok e ∧ Fits (health oneAlive) fiveExits [] e :=
  ⟨by decide,pick_rules halfway (health oneAlive) (by decide) [] [] 0⟩

end TunnelCat.ExitPick
