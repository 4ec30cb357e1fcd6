import Mathlib.Data.List.Basic

/-!
Runs of a machine that takes one input at a time, changes its state and shows one output. A run is a
list of inputs; its trace is the list of what was shown. What one step keeps, every run keeps
(`invariant_run`, and `invariant_along` under a condition), and what every step shows under a kept
invariant holds of every output (`output_run`, `output_along`, `outputs_along`). Where the condition
is needed for a step, so it is along a run (`outputs_iff_along`, `states_iff_along`).
-/
namespace TunnelCat.Runs
open List
universe u v w x
variable {σ : Type u} {ι : Type v} {ο : Type w}

def final (step : σ → ι → σ × ο) : σ → List ι → σ
  | s, [] => s
  | s, i :: rest => final step (step s i).1 rest

def trace (step : σ → ι → σ × ο) : σ → List ι → List ο
  | _, [] => []
  | s, i :: rest => (step s i).2 :: trace step (step s i).1 rest

variable (step : σ → ι → σ × ο)

variable (s : σ) (first inputs : List ι) (i : ι)

@[simp] theorem final_nil : final step s [] = s := rfl

@[simp] theorem final_cons (rest : List ι) :
    final step s (i :: rest) = final step (step s i).1 rest := rfl

@[simp] theorem trace_nil : trace step s [] = [] := rfl

@[simp] theorem trace_cons (rest : List ι) :
    trace step s (i :: rest) = (step s i).2 :: trace step (step s i).1 rest := rfl

theorem final_append (second : List ι) :
    final step s (first ++ second) = final step (final step s first) second := by
  induction first generalizing s with
  | nil => rfl
  | cons i rest ih => simp only [cons_append,final_cons,ih]

theorem trace_append (second : List ι) :
    trace step s (first ++ second) = trace step s first ++ trace step (final step s first) second := by
  induction first generalizing s with
  | nil => rfl
  | cons i rest ih => simp only [cons_append,trace_cons,final_cons,ih]

theorem length_trace : (trace step s inputs).length = inputs.length := by
  induction inputs generalizing s with
  | nil => rfl
  | cons i rest ih => simp only [trace_cons,length_cons,ih]

theorem final_snoc : final step s (inputs ++ [i]) = (step (final step s inputs) i).1 :=
  final_append step s inputs [i]

def gather {α : Type x} (f : σ → ι → List α) : σ → List ι → List α
  | _, [] => []
  | s, i :: rest => f s i ++ gather f (step s i).1 rest

theorem gather_snoc {α : Type x} (f : σ → ι → List α) (s : σ) (inputs : List ι) (i : ι) :
    gather step f s (inputs ++ [i]) = gather step f s inputs ++ f (final step s inputs) i := by
  induction inputs generalizing s with
  | nil => exact append_nil _
  | cons j rest ih => rw [cons_append,gather,gather,ih,append_assoc,final_cons]

def Kept (Inv : List ο → σ → Prop) : Prop :=
  ∀ past s i, Inv past s → Inv (past ++ [(step s i).2]) (step s i).1

variable {step}

/-- Every step of a run meets a condition on the state and the input it starts from. -/
def Along (step : σ → ι → σ × ο) (Cond : σ → ι → Prop) : σ → List ι → Prop
  | _, [] => True
  | s, i :: rest => Cond s i ∧ Along step Cond (step s i).1 rest

instance Along.decidable (step : σ → ι → σ × ο) (Cond : σ → ι → Prop) [∀ s i, Decidable (Cond s i)] (inputs : List ι) :
    ∀ s, Decidable (Along step Cond s inputs) :=
  match inputs with
  | [] => fun _ => isTrue trivial
  | i :: rest => fun s =>
    have := Along.decidable step Cond rest (step s i).1
    inferInstanceAs (Decidable (Cond s i ∧ Along step Cond (step s i).1 rest))

theorem invariant_along {Inv : List ο → σ → Prop} {Cond : σ → ι → Prop}
    (kept : ∀ past s i, Cond s i → Inv past s → Inv (past ++ [(step s i).2]) (step s i).1) (inputs : List ι) :
    ∀ past s, Along step Cond s inputs → Inv past s → Inv (past ++ trace step s inputs) (final step s inputs) := by
  induction inputs with
  | nil => simp
  | cons i rest ih =>
    intro past s ⟨meets,later⟩ holds
    simpa using ih _ _ later (kept past s i meets holds)

variable {Cond : σ → ι → Prop} {P : σ → Prop} {inputs} {s} {before after : List ο} {Good : ο → Prop}

theorem along_of_forall (inputs : List ι) (all : ∀ i ∈ inputs, ∀ s, Cond s i) :
    ∀ s, Along step Cond s inputs := by
  induction inputs with
  | nil => intro s; trivial
  | cons i rest ih =>
    intro s
    exact ⟨all i mem_cons_self s,ih (fun j later => all j (mem_cons_of_mem i later)) _⟩

theorem state_along (kept : ∀ s i, Cond s i → P s → P (step s i).1) (along : Along step Cond s inputs) (holds : P s) : P (final step s inputs) :=
  @invariant_along _ _ _ step (fun _ s => P s) Cond (fun _ s i => kept s i) inputs [] s along holds

theorem invariant_run {Inv : List ο → σ → Prop} (kept : Kept step Inv) (inputs : List ι) (past : List ο) (s : σ)
    (holds : Inv past s) : Inv (past ++ trace step s inputs) (final step s inputs) :=
  invariant_along (fun past s i _ => kept past s i) inputs past s (along_of_forall inputs (fun _ _ _ => trivial) s) holds

theorem state_run (kept : ∀ s i, P s → P (step s i).1) (inputs : List ι) (holds : P s) :
    P (final step s inputs) :=
  state_along (fun s i _ => kept s i) (along_of_forall inputs (fun _ _ _ => trivial) s) holds

theorem trace_split {o : ο}
    (shown : trace step s inputs = before ++ o :: after) :
    ∃ first i rest, inputs = first ++ i :: rest ∧ before = trace step s first ∧
      o = (step (final step s first) i).2 := by
  induction inputs generalizing s before with
  | nil => simp at shown
  | cons i rest ih =>
    cases before with
    | nil =>
      simp only [trace_cons,nil_append,List.cons.injEq] at shown
      exact ⟨[],i,rest,rfl,rfl,shown.1.symm⟩
    | cons b before =>
      simp only [trace_cons,cons_append,List.cons.injEq] at shown
      obtain ⟨first,j,later,rfl,rfl,rfl⟩ := ih shown.2
      exact ⟨i :: first,j,later,rfl,by simp [shown.1],rfl⟩

theorem output_run {Inv : List ο → σ → Prop} (Good : List ο → ο → Prop) (kept : Kept step Inv)
    (good : ∀ past s i, Inv past s → Good past (step s i).2) (past : List ο) (holds : Inv past s) {o : ο} (shown : trace step s inputs = before ++ o :: after) :
    Good (past ++ before) o := by
  obtain ⟨first,i,rest,rfl,rfl,rfl⟩ := trace_split shown
  exact good _ _ i (invariant_run kept first past s holds)

theorem along_append {second : List ι} :
    ∀ {s : σ}, Along step Cond s (first ++ second) ↔
      Along step Cond s first ∧ Along step Cond (final step s first) second := by
  induction first with
  | nil => exact ⟨fun along => ⟨trivial,along⟩,And.right⟩
  | cons i rest ih =>
    intro s
    show Cond s i ∧ Along step Cond (step s i).1 (rest ++ second) ↔ _
    rw [ih,← and_assoc]
    exact Iff.rfl

theorem along_split {i : ι} {rest : List ι}
    (along : Along step Cond s (first ++ i :: rest)) : Along step Cond s first ∧ Cond (final step s first) i := by
  obtain ⟨before,after⟩ := (along_append first).mp along
  exact ⟨before,after.1⟩

/-- What every step shows that meets the condition, under an invariant that such steps
    keep, holds of every output of a run of such steps. -/
theorem output_along {Inv : List ο → σ → Prop} {Cond : σ → ι → Prop} (Good : List ο → ο → Prop)
    (kept : ∀ past s i, Cond s i → Inv past s → Inv (past ++ [(step s i).2]) (step s i).1)
    (good : ∀ past s i, Cond s i → Inv past s → Good past (step s i).2) (past : List ο) {s : σ} (holds : Inv past s)
    {inputs : List ι} (along : Along step Cond s inputs) {before after : List ο} {o : ο}
    (shown : trace step s inputs = before ++ o :: after) : Good (past ++ before) o := by
  obtain ⟨first,i,rest,rfl,rfl,rfl⟩ := trace_split shown
  obtain ⟨earlier,meets⟩ := along_split first along
  exact good _ _ i meets (invariant_along kept first past s earlier holds)

theorem outputs_along
    (kept : ∀ s i, Cond s i → P s → P (step s i).1 ∧ Good (step s i).2) :
    ∀ {s : σ}, Along step Cond s inputs → P s → ∀ o ∈ trace step s inputs, Good o := by
  induction inputs with
  | nil => intro s _ _ o none; cases none
  | cons i rest ih =>
    rintro s ⟨meets,later⟩ holds o member
    obtain ⟨next,good⟩ := kept s i meets holds
    rcases mem_cons.mp member with rfl | member
    · exact good
    · exact ih later next o member

/-- Where a step shows what is good exactly when it meets the condition, a run shows nothing
    else exactly when all its steps meet it. -/
theorem outputs_iff_along
    (kept : ∀ s i, P s → Cond s i → P (step s i).1 ∧ Good (step s i).2) (needs : ∀ s i, P s → Good (step s i).2 → Cond s i)
    (inputs : List ι) : ∀ s, P s → ((∀ o ∈ trace step s inputs, Good o) ↔ Along step Cond s inputs) := by
  intro s holds
  refine ⟨?_,fun along => outputs_along (fun s i meets holds => kept s i holds meets) along holds⟩
  induction inputs generalizing s with
  | nil => intro _; trivial
  | cons i rest ih =>
    intro all
    have meets := needs s i holds (all _ mem_cons_self)
    exact ⟨meets,ih _ (kept s i holds meets).1 (fun o member => all o (mem_cons_of_mem _ member))⟩

/-- Where a property of the state is kept exactly by the steps that meet a condition, every
    state of a run has it exactly when all steps meet it. -/
theorem states_iff_along {J : σ → Prop}
    (kept : ∀ s i, P s → J s → Cond s i → P (step s i).1 ∧ J (step s i).1)
    (needs : ∀ s i, P s → J s → P (step s i).1 → Cond s i) (inputs : List ι) :
    ∀ s, P s → J s → ((∀ first rest, inputs = first ++ rest → P (final step s first)) ↔ Along step Cond s inputs) := by
  induction inputs with
  | nil =>
    intro s holds _
    refine ⟨fun _ => trivial,?_⟩
    intro _ first rest whole
    rw [(append_eq_nil_iff.mp whole.symm).1]
    exact holds
  | cons i later ih =>
    intro s holds side
    constructor
    · intro all
      have meets := needs s i holds side (all [i] later rfl)
      obtain ⟨next,side'⟩ := kept s i holds side meets
      exact ⟨meets,(ih _ next side').mp (fun first rest whole => all (i :: first) rest (by simp [whole]))⟩
    · rintro ⟨meets,along⟩ first rest whole
      obtain ⟨next,side'⟩ := kept s i holds side meets
      cases first with
      | nil => exact holds
      | cons j first =>
        obtain ⟨rfl,tail⟩ := List.cons.inj whole
        exact (ih _ next side').mpr along first rest tail

end TunnelCat.Runs
