import Mathlib.Data.List.Infix
import Mathlib.Logic.Function.Iterate

/-!
Slash-separated paths by their text alone, as Go's `filepath.Clean` and `filepath.Join` treat
them on Unix: empty components and `.` are dropped, and `..` takes back the name before it.

A cleaned path is a `Place`. Following a path from a place means going up as often as the path
does and then down its names (`walk_eq_follow`), so whether it stays below the place where it
starts is seen from the path and the last names of the place (`below_follow_iff`).
-/
namespace TunnelCat.Paths
open List

abbrev Name := List Char

def dot : Name := ['.']

def dotdot : Name := ['.','.']

structure Proper (n : Name) : Prop where
  some_ : n ≠ []
  here : n ≠ dot
  up : n ≠ dotdot

instance Proper.decidable (n : Name) : Decidable (Proper n) :=
  decidable_of_iff (n ≠ [] ∧ n ≠ dot ∧ n ≠ dotdot) ⟨fun h => ⟨h.1,h.2.1,h.2.2⟩,fun h => ⟨h.1,h.2,h.3⟩⟩

/-- A cleaned path: from the root or from the working directory, up a number of directories
    and down some names. There is nothing above the root. -/
structure Place where
  rooted : Bool
  ups : Nat
  names : List Name
  top : rooted = true → ups = 0
  proper : ∀ n ∈ names, Proper n
deriving DecidableEq

def here : Place where
  rooted := false
  ups := 0
  names := []
  top _ := rfl
  proper := forall_mem_nil Proper

def root : Place where
  rooted := true
  ups := 0
  names := []
  top _ := rfl
  proper := forall_mem_nil Proper

namespace Place

variable (p : Place)

def up : Place :=
  if p.names = [] then
    if rooted : p.rooted = true then p
    else { p with ups := p.ups + 1, top := fun h => absurd h rooted }
  else { p with names := p.names.dropLast, proper := fun n member => p.proper n (mem_of_mem_dropLast member) }

def down (names : List Name) (proper : ∀ n ∈ names, Proper n) : Place :=
  { p with
    names := p.names ++ names
    proper := fun n member => (mem_append.mp member).elim (p.proper n) (proper n) }

def step (c : Name) : Place :=
  if plain : Proper c then p.down [c] (forall_mem_singleton.mpr plain)
  else if c = dotdot then p.up
  else p

def walk (components : List Name) : Place := components.foldl step p

/-- Where a path that is not rooted leads from a place. -/
def follow (base r : Place) : Place := (up^[r.ups] base).down r.names r.proper

def text : List Char :=
  if p.rooted then '/' :: List.intercalate ['/'] p.names
  else if p.ups = 0 ∧ p.names = [] then dot
  else List.intercalate ['/'] (List.replicate p.ups dotdot ++ p.names)

structure Below (base p : Place) : Prop where
  rooted : p.rooted = base.rooted
  ups : p.ups = base.ups
  names : base.names <+: p.names

instance Below.decidable (base p : Place) : Decidable (Below base p) :=
  decidable_of_iff (p.rooted = base.rooted ∧ p.ups = base.ups ∧ base.names <+: p.names)
    ⟨fun h => ⟨h.1,h.2.1,h.2.2⟩,fun h => ⟨h.1,h.2,h.3⟩⟩

end Place

open Place

def clean (s : List Char) : Place := (if s.head? = some '/' then root else here).walk (s.splitOn '/')

def join (elements : List (List Char)) : Place :=
  clean (List.intercalate ['/'] (elements.dropWhile (fun e => e = [])))

variable (p : Place) (k : Nat) (base : Place)

theorem walk_append (first second : List Name) : p.walk (first ++ second) = (p.walk first).walk second :=
  foldl_append

theorem Place.ext {p q : Place} (rooted : p.rooted = q.rooted) (ups : p.ups = q.ups) (names : p.names = q.names) :
    p = q := by
  cases p
  simp_all

@[simp] theorem up_rooted : p.up.rooted = p.rooted := by
  unfold up
  split_ifs <;> rfl

theorem up_down {p : Place} {names : List Name} {proper : ∀ n ∈ names, Proper n} (some_ : names ≠ []) :
    (p.down names proper).up =
      p.down names.dropLast (fun n member => proper n (mem_of_mem_dropLast member)) := by
  refine Place.ext ?_ ?_ ?_
  · simp [down]
  · simp [up,down,some_]
  · simp [up,down,some_]

theorem step_proper {c : Name} (plain : Proper c) :
    p.step c = p.down [c] (forall_mem_singleton.mpr plain) := dif_pos plain

@[simp] theorem step_dotdot : p.step dotdot = p.up := by
  have never : ¬ Proper dotdot := fun plain => plain.up rfl
  rw [step,dif_neg never,if_pos rfl]

theorem step_other {c : Name} (plain : ¬ Proper c) (stays : c ≠ dotdot) : p.step c = p := by
  rw [step,dif_neg plain,if_neg stays]

theorem step_rooted (c : Name) : (p.step c).rooted = p.rooted := by
  unfold step
  split_ifs
  · rfl
  · exact up_rooted p
  · rfl

theorem step_follow {base r : Place} (relative : r.rooted = false) (c : Name) :
    (base.follow r).step c = base.follow (r.step c) := by
  by_cases plain : Proper c
  · rw [step_proper _ plain,step_proper _ plain]
    exact Place.ext rfl rfl (by simp [follow,down])
  by_cases goesUp : c = dotdot
  · rw [goesUp,step_dotdot,step_dotdot]
    by_cases none_ : r.names = []
    · have flat (p : Place) : p.down r.names r.proper = p := Place.ext rfl rfl (by simp [down,none_])
      have above : r.up = { r with ups := r.ups + 1, top := fun h => by simp [relative] at h } := by
        simp [up,none_,relative]
      rw [above]
      simp only [follow,flat,Function.iterate_succ_apply']
    · have above : r.up = { r with
          names := r.names.dropLast, proper := fun n member => r.proper n (mem_of_mem_dropLast member) } := by
        simp [up,none_]
      rw [above,follow,up_down none_]
      rfl
  · rw [step_other _ plain goesUp,step_other _ plain goesUp]

theorem walk_follow {base r : Place} (components : List Name) (relative : r.rooted = false) :
    (base.follow r).walk components = base.follow (r.walk components) := by
  induction components generalizing r with
  | nil => rfl
  | cons c rest ih =>
    simp only [walk,foldl_cons] at ih ⊢
    rw [step_follow relative]
    exact ih ((step_rooted r c).trans relative)

theorem walk_eq_follow (components : List Name) :
    base.walk components = base.follow (here.walk components) := by
  have start : base.follow here = base := Place.ext rfl rfl (by simp [follow,down,here])
  conv_lhs => rw [← start]
  exact walk_follow components rfl

@[simp] theorem up_names : p.up.names = p.names.dropLast := by
  by_cases none_ : p.names = []
  · unfold up
    split_ifs <;> simp [none_]
  · simp [up,none_]

theorem up_ups : p.up.ups = if p.names = [] ∧ p.rooted = false then p.ups + 1 else p.ups := by
  by_cases none_ : p.names = []
  · by_cases rooted : p.rooted = true
    · simp [up,none_,rooted]
    · simp [up,none_,rooted]
  · simp [up,none_]

theorem ups_rooted : (up^[k] base).rooted = base.rooted := by
  induction k with
  | zero => rfl
  | succ k ih => rw [Function.iterate_succ_apply',up_rooted,ih]

theorem ups_names : (up^[k] base).names = base.names.take (base.names.length - k) := by
  induction k with
  | zero => simp
  | succ k ih =>
    rw [Function.iterate_succ_apply',up_names,ih,dropLast_eq_take,take_take,length_take]
    congr 1
    omega

theorem ups_ups :
    (up^[k] base).ups = if base.rooted then 0 else base.ups + (k - base.names.length) := by
  induction k with
  | zero =>
    by_cases rooted : base.rooted = true
    · simp [base.top rooted]
    · simp [rooted]
  | succ k ih =>
    have empty : (up^[k] base).names = [] ↔ base.names.length ≤ k := by
      rw [ups_names,← length_eq_zero_iff,length_take]
      omega
    rw [Function.iterate_succ_apply',up_ups,ih,ups_rooted]
    simp only [empty]
    cases rooted : base.rooted with
    | true => simp
    | false =>
      simp only [and_true]
      split_ifs <;> omega

/-- A path stays below its start exactly if it comes down again through the last names of the
    start, as many as it went up. -/
theorem below_follow_iff (r : Place) :
    Below base (base.follow r) ↔
      (r.ups ≤ base.names.length ∨ base.rooted = true) ∧
        base.names.drop (base.names.length - r.ups) <+: r.names := by
  have names : base.names <+: (base.follow r).names ↔
      base.names.drop (base.names.length - r.ups) <+: r.names := by
    have down_ : (base.follow r).names = base.names.take (base.names.length - r.ups) ++ r.names :=
      congrArg (· ++ r.names) (ups_names r.ups base)
    have whole := take_append_drop (base.names.length - r.ups) base.names
    rw [down_]
    nth_rewrite 1 [← whole]
    exact prefix_append_right_inj _
  have ups : (base.follow r).ups = base.ups ↔ r.ups ≤ base.names.length ∨ base.rooted = true := by
    have above : (base.follow r).ups = _ := ups_ups r.ups base
    rw [above]
    cases rooted : base.rooted with
    | true => simp [base.top rooted]
    | false =>
      simp only [Bool.false_eq_true,if_false,or_false]
      omega
  constructor
  · intro below
    exact ⟨ups.mp below.ups,names.mp below.names⟩
  · rintro ⟨enough,back⟩
    exact ⟨ups_rooted r.ups base,ups.mpr enough,names.mpr back⟩

theorem below_down {base p : Place} (below : Below base p) (names : List Name) (proper : ∀ n ∈ names, Proper n) :
    Below base (p.down names proper) :=
  ⟨below.rooted,below.ups,below.names.trans (prefix_append p.names names)⟩

theorem below_of_children {base p : Place} {m n : Name} {m_ : ∀ x ∈ [m], Proper x} {n_ : ∀ x ∈ [n], Proper x}
    (apart : m ≠ n) (first : Below base (p.down [m] m_)) (second : Below base (p.down [n] n_)) : Below base p := by
  rcases prefix_concat_iff.mp first.names with is_m | below
  · rcases prefix_concat_iff.mp second.names with is_n | below
    · have same : p.names ++ [m] = p.names ++ [n] := is_m.symm.trans is_n
      exact absurd (by simpa using same) apart
    · exact ⟨first.rooted,first.ups,below⟩
  · exact ⟨first.rooted,first.ups,below⟩

def onTheWay : List Place :=
  (List.range (p.names.length + 1)).map fun i =>
    { p with names := p.names.take i, proper := fun n member => p.proper n (mem_of_mem_take member) }

theorem onTheWay_cases {base p q : Place} (below : Below base p) (way : q ∈ onTheWay p) :
    q ∈ onTheWay base ∨ Below base q := by
  obtain ⟨i,-,rfl⟩ := mem_map.mp way
  rcases prefix_or_prefix_of_prefix ( take_prefix i p.names) below.names with above | inside
  · refine .inl (mem_map.mpr ⟨(p.names.take i).length,?_,?_⟩)
    · have short := above.length_le
      simp only [mem_range]
      omega
    · exact Place.ext below.rooted.symm below.ups.symm (prefix_iff_eq_take.mp above).symm
  · exact .inr ⟨below.rooted,below.ups,inside⟩

theorem clean_append {s : List Char} (some_ : s ≠ []) (t : List Char) :
    clean (s ++ '/' :: t) = (clean s).walk (t.splitOn '/') := by
  have head : (s ++ '/' :: t).head? = s.head? := by
    cases s with
    | nil => exact absurd rfl some_
    | cons c rest => rfl
  have split : (s ++ '/' :: t).splitOn '/' = s.splitOn '/' ++ t.splitOn '/' :=
    splitOnP_append_cons s t (by simp)
  rw [clean,clean,head,split,walk_append]

theorem splitOn_intercalate (t : List Char) (rest : List (List Char)) :
    (intercalate ['/'] (t :: rest)).splitOn '/' = (t :: rest).flatMap (fun e => e.splitOn '/') := by
  induction rest generalizing t with
  | nil => simp [intercalate]
  | cons u rest ih =>
    have split : (intercalate ['/'] (t :: u :: rest)).splitOn '/' =
        t.splitOn '/' ++ (intercalate ['/'] (u :: rest)).splitOn '/' := by
      exact splitOnP_append_cons t _ (by simp)
    rw [split,ih u]
    simp

theorem join_cons {dir : List Char} (some_ : dir ≠ []) (t : List Char) (rest : List (List Char)) :
    join (dir :: t :: rest) = (clean dir).walk ((t :: rest).flatMap (fun e => e.splitOn '/')) := by
  have text : intercalate ['/'] ((dir :: t :: rest).dropWhile (fun e => e = [])) =
      dir ++ '/' :: intercalate ['/'] (t :: rest) := by
    simp [some_]
  rw [join,text,clean_append some_,splitOn_intercalate]

end TunnelCat.Paths
