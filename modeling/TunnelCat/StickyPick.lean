import Mathlib.Algebra.Order.Field.Basic
import Mathlib.Algebra.Order.Ring.Rat
import TunnelCat.Bytes
import TunnelCat.Cumulative
import TunnelCat.Exits

/-!
The exit that a control picks for a client (`PickForClient` of `snc-control/exits.go`): a hash of the
client's address is a fraction of the weights, and a walk along the list stops where it is used up.

The list is in the order of a map, so a refresh that changes nothing may move a client, unless there is
one candidate, or one that carries the fraction at either end (`pick_sticky`). Weights are exact here.
-/
namespace TunnelCat.StickyPick
open Bytes Cumulative Exits List
open HostPort (Text)

structure ExitHealth where
  alive : Bool
  rttMs : ℚ
  trafficRttMs : ℚ
  trafficSamples : Nat

abbrev Health := Table Text ExitHealth

def trafficRTTMinSamples : Nat := 5

variable (sha256 : Text → List UInt8) (health : Health) (addr : Text) (r : Registry) (e : ExitNode)
variable (clientIP clientCC : Text)

def isAlive : Bool :=
  match health.lookup addr with
  | none => true
  | some h => h.alive

def rttOf : ℚ :=
  match health.lookup addr with
  | none => 0
  | some h =>
    let probe := h.rttMs
    let traffic := if h.trafficSamples < trafficRTTMinSamples then 0 else h.trafficRttMs
    if 0 < probe ∧ 0 < traffic then 3 / 10 * probe + 7 / 10 * traffic
    else if 0 < traffic then traffic
    else probe

def effectiveLoadFactor (f : ℚ) : ℚ := if f ≤ 0 then 1 else f

def effectiveRTT : ℚ :=
  let rtt := rttOf health e.addr
  let rtt := if rtt ≤ 0 then e.rttMs else rtt
  let rtt := if rtt ≤ 0 then 1 else rtt
  rtt * effectiveLoadFactor e.load

def weight : ℚ := 1 / effectiveRTT health e

def usable : Bool := isAlive health e.addr && e.dataPlaneOK.getD true

def excluded (myRegion clientCC cc : Text) : Bool :=
  cc ≠ [] && (myRegion ≠ [] && cc = myRegion || clientCC ≠ [] && cc = clientCC)

def regionOf (regions : Table Text Text) (addr : Text) : Text := (regions.lookup addr).getD []

def abroad (e : ExitNode) : Bool :=
  !excluded r.myRegion clientCC (regionOf r.exitRegions e.addr)

def unlessEmpty (filtered all : List ExitNode) : List ExitNode := if filtered.isEmpty then all else filtered

def liveExits (exits : List ExitNode) : List ExitNode :=
  unlessEmpty (exits.filter (usable health)) exits

def byRegion : Bool := (r.myRegion ≠ [] || clientCC ≠ []) && 0 < r.exitRegions.size

def candidates : List ExitNode :=
  let live := liveExits health r.exits
  if byRegion r clientCC then unlessEmpty (live.filter (abroad r clientCC)) live else live

def float64 (n : Nat) : Nat :=
  let shift := n.log2 - 52
  let kept := n / 2 ^ shift
  let lost := 2 * (n % 2 ^ shift)
  (if 2 ^ shift < lost ∨ 2 ^ shift = lost ∧ kept % 2 = 1 then kept + 1 else kept) * 2 ^ shift

/-- The fraction of a client, from the first eight bytes of the hash of its address;
    `float64(math.MaxUint64)` is `2 ^ 64`. -/
def frac : ℚ := float64 (beNat ((sha256 clientIP).take 8)) / 2 ^ 64

def target (live : List ExitNode) : ℚ :=
  frac sha256 clientIP * total (weight health) live

def pickAmong : List ExitNode → Except String ExitNode
  -- every filter falls back to what it was given, so this is an empty registry
  | [] => .error "no live exits available"
  | [e] => .ok e
  | first :: more => .ok ((walk (weight health) (first :: more) (target sha256 health clientIP (first :: more))).getD first)

def pickForClient :
    Except String ExitNode := pickAmong sha256 health clientIP (candidates health r clientCC)

/-- Two registries have the same exits, with the same data, and the same regions. -/
structure SameExits (r r' : Registry) : Prop where
  exits : r'.exits.Perm r.exits
  regions : ∀ a, r'.exitRegions.lookup a = r.exitRegions.lookup a
  mine : r'.myRegion = r.myRegion

/-- There is one candidate at most, or one of them carries the client's fraction wherever it
    stands. -/
def Settled : Prop :=
  (candidates health r clientCC).length ≤ 1 ∨
    ∃ e, Dominates (weight health) (candidates health r clientCC)
      (target sha256 health clientIP (candidates health r clientCC)) e

theorem unlessEmpty_filter (p : ExitNode → Bool) (l : List ExitNode) :
    unlessEmpty (l.filter p) l = l.filter (fun e => p e || !l.any p) := by
  by_cases some_ : l.any p = true
  · obtain ⟨e,member,holds⟩ := any_eq_true.mp some_
    have more : l.filter p ≠ [] := ne_nil_of_mem (mem_filter.mpr ⟨member,holds⟩)
    simp [unlessEmpty,more,some_]
  · have none_ : l.filter p = [] := by simpa using some_
    simp [unlessEmpty,none_,some_]

def counts (exits : List ExitNode) (e : ExitNode) : Bool := usable health e || !exits.any (usable health)

def eligible (e : ExitNode) : Bool :=
  counts health r.exits e &&
    (!byRegion r clientCC || abroad r clientCC e ||
      !r.exits.any (fun e => counts health r.exits e && abroad r clientCC e))

theorem candidates_eq :
    candidates health r clientCC = r.exits.filter (eligible health r clientCC) := by
  have live : liveExits health r.exits = r.exits.filter (counts health r.exits) := unlessEmpty_filter _ _
  cases geo : byRegion r clientCC with
  | true =>
    have away : candidates health r clientCC =
        unlessEmpty ((liveExits health r.exits).filter (abroad r clientCC)) (liveExits health r.exits) := by
      simp only [candidates,geo,if_true]
    rw [away,unlessEmpty_filter,live,filter_filter,any_filter]
    grind [filter_congr,eligible]
  | false =>
    grind [candidates,filter_congr,eligible]

section
variable {sha256 : Text → List UInt8} {health : Health} {r r' : Registry} {clientIP clientCC : Text}

variable (same : SameExits r r')
include same

theorem SameExits.byRegion : byRegion r' clientCC = byRegion r clientCC := by
  have some_ : ∀ t : Table Text Text, 0 < t.size ↔ ∃ a, (t.lookup a).isSome := by
    intro t
    rw [Table.size_eq,length_pos_iff_exists_mem]
    exact exists_congr fun a => by rw [AList.lookup_isSome,AList.mem_keys]
  have sizes : 0 < r'.exitRegions.size ↔ 0 < r.exitRegions.size := by
    rw [some_,some_]
    exact exists_congr fun a => by rw [same.regions a]
  simp only [StickyPick.byRegion,same.mine,sizes]

theorem SameExits.eligible : eligible health r' clientCC = eligible health r clientCC := by
  funext e
  grind [counts,same.exits.any_eq,abroad,regionOf,same.regions,same.mine,StickyPick.eligible,same.byRegion]

theorem SameExits.candidates :
    (candidates health r' clientCC).Perm (candidates health r clientCC) := by
  rw [candidates_eq,candidates_eq,same.eligible]
  exact same.exits.filter _

omit same

theorem target_perm {l l' : List ExitNode} (perm : l.Perm l') :
    target sha256 health clientIP l = target sha256 health clientIP l' := by
  unfold target
  rw [total_perm perm]

theorem effectiveRTT_pos (e : ExitNode) : 0 < effectiveRTT health e := by
  have factor : 0 < effectiveLoadFactor e.load := by
    grind [effectiveLoadFactor]
  refine mul_pos ?_ factor
  grind

theorem weight_nonneg (e : ExitNode) : 0 ≤ weight health e := (one_div_pos.mpr (effectiveRTT_pos e)).le

theorem pickAmong_of_dominates {live : List ExitNode} {e : ExitNode}
    (dominates : Dominates (weight health) live (target sha256 health clientIP live) e) :
    pickAmong sha256 health clientIP live = .ok e := by
  match live, dominates with
  | [], dominates => cases dominates.mem
  | [_], dominates => rw [mem_singleton.mp dominates.mem]; rfl
  | first :: second :: more, dominates =>
    simp only [pickAmong,walk_of_dominates (fun e _ => weight_nonneg e) dominates,Option.getD_some]

end

theorem pickAmong_eq_ok_iff {sha256 : Text → List UInt8} {health : Health} {clientIP : Text} {live : List ExitNode}
    {e : ExitNode} (more : 2 ≤ live.length) : pickAmong sha256 health clientIP live = .ok e ↔
      walk (weight health) live (target sha256 health clientIP live) = some e := by
  match live, more with
  | first :: second :: rest, _ =>
    obtain ⟨e',found⟩ := walk_some (weight health) (cons_ne_nil first (second :: rest))
      (target sha256 health clientIP (first :: second :: rest))
    grind [pickAmong]

theorem pick_sticky (sha256 : Text → List UInt8) (health : Health) (r : Registry) (clientIP clientCC : Text) :
    (Settled sha256 health r clientIP clientCC → ∀ r', SameExits r r' →
      pickForClient sha256 health r' clientIP clientCC = pickForClient sha256 health r clientIP clientCC) ∧
    ((addrs r.exits).Nodup →
      (∀ now range, pickForClient sha256 health (merge r now r.exits r.exitRegions range) clientIP clientCC =
        pickForClient sha256 health r clientIP clientCC) →
      Settled sha256 health r clientIP clientCC) := by
  constructor
  · rintro settled r' same
    have perm : (candidates health r' clientCC).Perm (candidates health r clientCC) := same.candidates
    unfold pickForClient
    rcases settled with few | ⟨e,dominates⟩
    · have same : candidates health r' clientCC = candidates health r clientCC := by
        match candidates health r clientCC, few, perm with
        | [], _, perm => exact perm.eq_nil
        | [_], _, perm => exact perm_singleton.mp perm
      rw [same]
    · have dominates' := dominates.perm perm.symm
      rw [← target_perm perm] at dominates'
      rw [pickAmong_of_dominates dominates,pickAmong_of_dominates dominates']
  · intro distinct stays
    by_cases few : (candidates health r clientCC).length ≤ 1
    · exact .inl few
    · have parts := candidates_eq health r clientCC
      have more : 2 ≤ (candidates health r clientCC).length := by omega
      refine .inr (dominates_of_walk (parts ▸ (distinct.of_map _).filter _) more ?_)
      intro l perm
      -- a refresh leaves these candidates in this order, and what is no candidate after them
      have whole :=
        ((parts ▸ perm).append_right _).trans (filter_append_perm _ _)
      obtain ⟨range,listed⟩ := merge_reorders distinct whole 0 r.exitRegions
      have same : SameExits r (merge r 0 r.exits r.exitRegions range) := ⟨listed ▸ whole,fun _ => rfl,rfl⟩
      have all : ∀ e ∈ l, eligible health r clientCC e = true := by
        intro e member
        have candidate := perm.mem_iff.mp member
        rw [parts] at candidate
        exact (mem_filter.mp candidate).2
      have now : candidates health (merge r 0 r.exits r.exitRegions range) clientCC = l := by
        rw [candidates_eq,same.eligible,listed,filter_append,filter_eq_self.mpr all,filter_filter]
        simp
      have filled : candidates health r clientCC ≠ [] := ne_nil_of_length_pos (by omega)
      obtain ⟨e,found⟩ := walk_some (weight health) filled
        (target sha256 health clientIP (candidates health r clientCC))
      have picked := stays 0 range
      unfold pickForClient at picked
      rw [now,(pickAmong_eq_ok_iff more).mpr found,pickAmong_eq_ok_iff (by rw [perm.length_eq]; exact more),
        target_perm perm] at picked
      rw [found,picked]

def unequal : Registry := ⟨true,true,[],[⟨"a".toList,[],1,0,none⟩,⟨"b".toList,[],10,0,none⟩],∅,∅⟩

def halfway (_ : Text) : List UInt8 := [128,0,0,0,0,0,0,0]

theorem halfway_settled : Settled halfway ∅ unequal [] [] := by
  right
  refine ⟨⟨"a".toList,[],1,0,none⟩,?_,?_,?_⟩ <;> decide +kernel

/-- Where half of the weights is less than that of the fast exit, its clients stay when the list
    is turned round. -/
theorem pick_sticky_unequal :
    pickForClient halfway ∅ { unequal with exits := unequal.exits.reverse } [] [] = pickForClient halfway ∅ unequal [] [] :=
  (pick_sticky halfway ∅ unequal [] []).1 halfway_settled _ ⟨reverse_perm _,fun _ => rfl,rfl⟩

def equals : Registry := ⟨true,true,[],[sampleNode "a",sampleNode "b"],∅,∅⟩

theorem pickAmong_equals {x y : ExitNode} (first : weight ∅ x = 1)
    (second : weight ∅ y = 1) :
    pickAmong sha256 ∅ clientIP [x,y] = .ok (if frac sha256 clientIP * 2 ≤ 1 then x else y) := by
  have both : total (weight ∅) [x,y] = 2 := by
    simp only [total,map_cons,first,second]
    norm_num
  have half : target sha256 ∅ clientIP [x,y] = frac sha256 clientIP * 2 := by rw [target,both]
  simp only [pickAmong,half,walk]
  by_cases low : frac sha256 clientIP * 2 ≤ 1
  · rw [reach_cons_of_le (by rw [first]; exact low),if_pos low]
    rfl
  · rw [reach_cons_of_lt (by rw [first]; exact not_le.mp low),if_neg low]
    -- the second is the last, so it does not matter whether the walk reaches the target
    cases reached : reach (weight ∅) [y] (frac sha256 clientIP * 2 - weight ∅ x) with
    | none => rfl
    | some z => rw [mem_singleton.mp (mem_of_reach reached)]; rfl

/-- Whatever the hash of the client is, a refresh that lists both exits again moves it. -/
theorem moved_by_refresh : ¬ ∃ sha256 clientIP clientCC,
    pickForClient sha256 ∅ (merge equals 0 equals.exits equals.exitRegions (.asKept Text ExitNode)) clientIP clientCC =
      pickForClient sha256 ∅ equals clientIP clientCC := by
  rintro ⟨sha256,clientIP,clientCC,same⟩
  have anywhere : ∀ r : Registry, r.exitRegions = ∅ → candidates ∅ r clientCC = liveExits ∅ r.exits := by
    intro r none_
    have off : byRegion r clientCC = false := by simp [byRegion,none_,Table.size]
    simp [candidates,off]
  have before : candidates ∅ equals clientCC = [sampleNode "a",sampleNode "b"] := by
    rw [anywhere equals rfl]
    decide +kernel
  have after : candidates ∅ (merge equals 0 equals.exits equals.exitRegions (.asKept Text ExitNode)) clientCC =
      [sampleNode "b",sampleNode "a"] := by
    rw [anywhere _ rfl]
    decide +kernel
  have one (addr : String) : weight ∅ (sampleNode addr) = 1 := by
    simp [weight,effectiveRTT,rttOf,sampleNode,effectiveLoadFactor]
  unfold pickForClient at same
  rw [before,after,pickAmong_equals sha256 clientIP (one _) (one _),pickAmong_equals sha256 clientIP (one _) (one _)] at same
  split at same <;> exact absurd (Except.ok.inj same) (by decide +kernel)

end TunnelCat.StickyPick
