import Mathlib.Data.Nat.Count

/-!
Frames in a stream that may be damaged. A frame begins with a mark, but a mark can also stand where no
frame begins. `Greedy` says what there is to be found: the frames from the left, each the first at or
after the end of the one before, and the number of marks passed that begin none. A reader proceeds by
`Greedy.skip`, `Greedy.bad` and `Greedy.take` (`Greedy.unique`).
-/
namespace TunnelCat.Resync
universe u v
variable {α : Type u} {β : Type v}

section
variable (Frame : List α → β → List α → Prop)

def HasFrame (data : List α) : Prop := ∃ r rest, Frame data r rest

def Functional : Prop := ∀ data r rest r' rest', Frame data r rest → Frame data r' rest' → r = r' ∧ rest = rest'

variable (Mark : List α → Prop) [DecidablePred Mark]

def marks (data : List α) (n : Nat) : Nat := Nat.count (fun k => Mark (data.drop k)) n

/-- The frames of a stream from the left, and the number of marks between them that begin
    none. -/
inductive Greedy : List α → List β → Nat → Prop
  | done {data : List α} (free : ∀ k, ¬ HasFrame Frame (data.drop k)) : Greedy data [] (marks Mark data data.length)
  | next {data rest : List α} {k c : Nat} {r : β} {rs : List β} (frame : Frame (data.drop k) r rest)
      (least : ∀ j < k, ¬ HasFrame Frame (data.drop j)) (later : Greedy rest rs c) :
      Greedy data (r :: rs) (marks Mark data k + c)

end

variable {Frame : List α → β → List α → Prop} {Mark : List α → Prop} [DecidablePred Mark]
variable {data rest : List α} {r : β} {rs rs' : List β} {c c' : Nat}

theorem marks_cons (x : α) (data : List α) (n : Nat) :
    marks Mark (x :: data) (n + 1) = marks Mark data n + if Mark (x :: data) then 1 else 0 := by
  simp only [marks,Nat.count_succ',List.drop_succ_cons,List.drop_zero]

theorem Greedy.cons (greedy : Greedy Frame Mark data rs c) {x : α} (free : ¬ HasFrame Frame (x :: data)) :
    Greedy Frame Mark (x :: data) rs (c + if Mark (x :: data) then 1 else 0) := by
  cases greedy with
  | done none_ =>
    rw [← marks_cons]
    refine .done ?_
    intro k
    cases k with
    | zero => exact free
    | succ k => exact none_ k
  | @next _ rest k c r rs frame least later =>
    rw [Nat.add_right_comm,← marks_cons]
    refine .next (by simpa using frame) ?_ later
    intro j before
    cases j with
    | zero => exact free
    | succ j => exact least j (Nat.lt_of_succ_lt_succ before)

theorem Greedy.skip (greedy : Greedy Frame Mark data rs c) {x : α} (plain : ¬ Mark (x :: data))
    (free : ¬ HasFrame Frame (x :: data)) : Greedy Frame Mark (x :: data) rs c := by
  simpa [plain] using greedy.cons free

theorem Greedy.bad (greedy : Greedy Frame Mark data rs c) {x : α} (marked : Mark (x :: data))
    (free : ¬ HasFrame Frame (x :: data)) : Greedy Frame Mark (x :: data) rs (c + 1) := by
  simpa [marked] using greedy.cons free

theorem Greedy.take (greedy : Greedy Frame Mark rest rs c) (frame : Frame data r rest) :
    Greedy Frame Mark data (r :: rs) c := by
  have first : Greedy Frame Mark data (r :: rs) (marks Mark data 0 + c) :=
    .next (by simpa using frame) (fun _ before => absurd before (Nat.not_lt_zero _)) greedy
  simpa [marks] using first

theorem Greedy.nil (free : ¬ HasFrame Frame ([] : List α)) : Greedy Frame Mark [] [] 0 := by
  have empty : Greedy Frame Mark [] [] (marks Mark [] 0) := .done (fun k => by simpa using free)
  simpa [marks] using empty

theorem Greedy.append (greedy : Greedy Frame Mark data rs c) (before : List α)
    (plain : ∀ k < before.length, ¬ Mark ((before ++ data).drop k) ∧ ¬ HasFrame Frame ((before ++ data).drop k)) :
    Greedy Frame Mark (before ++ data) rs c := by
  induction before with
  | nil => exact greedy
  | cons x rest ih =>
    have later := ih (fun k inside => plain (k + 1) (Nat.succ_lt_succ inside))
    obtain ⟨unmarked,free⟩ := plain 0 (Nat.succ_pos _)
    exact later.skip unmarked free

theorem Greedy.unique (functional : Functional Frame) (greedy : Greedy Frame Mark data rs c) :
    ∀ {rs' : List β} {c' : Nat}, Greedy Frame Mark data rs' c' → rs = rs' ∧ c = c' := by
  induction greedy with
  | done free =>
    intro rs' c' other
    cases other with
    | done => exact ⟨rfl,rfl⟩
    | @next _ _ k _ _ _ frame => exact absurd ⟨_,_,frame⟩ (free k)
  | @next data rest k c r rs frame least later ih =>
    intro rs' c' other
    cases other with
    | done free => exact absurd ⟨_,_,frame⟩ (free k)
    | @next _ rest' k' d r' rs' frame' least' later' =>
      have same : k = k' := by
        rcases Nat.lt_trichotomy k k' with before | same | after
        · exact absurd ⟨_,_,frame⟩ (least' k before)
        · exact same
        · exact absurd ⟨_,_,frame'⟩ (least k' after)
      subst same
      obtain ⟨rfl,rfl⟩ := functional _ _ _ _ _ frame frame'
      obtain ⟨rfl,rfl⟩ := ih later'
      exact ⟨rfl,rfl⟩

end TunnelCat.Resync
