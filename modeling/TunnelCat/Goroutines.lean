import Mathlib.Data.List.Perm.Basic

/-!
Goroutines over a shared state. Each stands at a point of its code; one step takes one of
them from its point to the next, which may change the state, start other goroutines and
show something, and ends it where nothing follows. Which goroutine is taken is part of the
input, so runs cover every interleaving of the points.

What every point keeps while the others stay as they are, a step keeps (`runAt_kept`).
-/
namespace TunnelCat.Goroutines
open List
universe u v w
variable {σ : Type u} {τ : Type v} {ο : Type w}

structure Ran (σ : Type u) (τ : Type v) (ο : Type w) where
  state : σ
  next : Option τ
  started : List τ
  shown : List ο

structure Pool (σ : Type u) (τ : Type v) where
  state : σ
  running : List τ

def Pool.start (p : Pool σ τ) (points : List τ) : Pool σ τ := { p with running := p.running ++ points }

def runAt (act : σ → τ → Ran σ τ ο) (p : Pool σ τ) (k : Nat) : Pool σ τ × List ο :=
  match p.running[k]? with
  | none => (p,[])
  | some t =>
    let r := act p.state t
    let rest := match r.next with
      | none => p.running.eraseIdx k
      | some t' => p.running.set k t'
    (⟨r.state,rest ++ r.started⟩,r.shown)

variable {act : σ → τ → Ran σ τ ο} {p : Pool σ τ} {k : Nat} {t : τ}

@[simp] theorem runAt_none (absent : p.running[k]? = none) : runAt act p k = (p,[]) := by
  simp [runAt,absent]

theorem runAt_state (there : p.running[k]? = some t) :
    (runAt act p k).1.state = (act p.state t).state := by
  simp [runAt,there]

theorem runAt_shown (there : p.running[k]? = some t) :
    (runAt act p k).2 = (act p.state t).shown := by
  simp [runAt,there]

theorem mem_runAt_iff {t' : τ} (there : p.running[k]? = some t) :
    t' ∈ (runAt act p k).1.running ↔
      (∃ j, j ≠ k ∧ p.running[j]? = some t') ∨ (act p.state t).next = some t' ∨ t' ∈ (act p.state t).started := by
  simp only [runAt,there,mem_append]
  cases ends : (act p.state t).next with
  | none => simp only [mem_eraseIdx_iff_getElem?,reduceCtorEq,false_or]
  | some next =>
    have inside := (List.getElem?_eq_some_iff.mp there).1
    rw [← or_assoc]
    refine or_congr_left ?_
    constructor
    · intro stays
      obtain ⟨j,found⟩ := mem_iff_getElem?.mp stays
      by_cases own : k = j
      · subst own
        rw [List.getElem?_set_self inside] at found
        exact .inr found
      · rw [List.getElem?_set_ne own] at found
        exact .inl ⟨j,Ne.symm own,found⟩
    · rintro (⟨j,other,found⟩ | same)
      · exact mem_iff_getElem?.mpr ⟨j,(List.getElem?_set_ne (Ne.symm other)).trans found⟩
      · exact mem_iff_getElem?.mpr ⟨k,(List.getElem?_set_self inside).trans same⟩

theorem mem_runAt {t' : τ} (there : p.running[k]? = some t)
    (member : t' ∈ (runAt act p k).1.running) :
    t' ∈ p.running ∨ (act p.state t).next = some t' ∨ t' ∈ (act p.state t).started := by
  rcases (mem_runAt_iff there).mp member with ⟨j,-,old⟩ | new
  · exact .inl (mem_of_getElem? old)
  · exact .inr new

theorem runAt_perm (act : σ → τ → Ran σ τ ο) (there : p.running[k]? = some t) :
    p.running.Perm (t :: p.running.eraseIdx k) ∧
      (runAt act p k).1.running.Perm ((act p.state t).next.toList ++ p.running.eraseIdx k ++ (act p.state t).started) := by
  obtain ⟨inside,rfl⟩ := List.getElem?_eq_some_iff.mp there
  refine ⟨(getElem_cons_eraseIdx_perm inside).symm,?_⟩
  simp only [runAt,there]
  refine List.Perm.append_right _ ?_
  cases (act p.state p.running[k]).next with
  | none => exact List.Perm.refl _
  | some next => exact set_perm_cons_eraseIdx inside next

theorem runAt_map_sublist {β : Type*} {f : τ → β} (there : p.running[k]? = some t)
    (same : ∀ t', (act p.state t).next = some t' → f t' = f t) (alone : (act p.state t).started = []) :
    ((runAt act p k).1.running.map f).Sublist (p.running.map f) := by
  simp only [runAt,there,alone,append_nil]
  cases ends : (act p.state t).next with
  | none => exact (eraseIdx_sublist _ _).map f
  | some next =>
    have old : (p.running.map f)[k]? = some (f next) := by rw [List.getElem?_map,there,Option.map_some,same next ends]
    obtain ⟨inside,value⟩ := List.getElem?_eq_some_iff.mp old
    rw [map_set,← value,set_getElem_self]

structure Holds (Inv : σ → Prop) (At : σ → τ → Prop) (p : Pool σ τ) : Prop where
  state : Inv p.state
  points : ∀ t ∈ p.running, At p.state t

section
variable {Inv : σ → Prop} {At : σ → τ → Prop} {p : Pool σ τ}

theorem start_kept {points : List τ} (holds : Holds Inv At p) (new : ∀ t ∈ points, At p.state t) :
    Holds Inv At (p.start points) := by
  refine ⟨holds.state,?_⟩
  intro t member
  rcases mem_append.mp member with old | started
  · exact holds.points t old
  · exact new t started

theorem runAt_kept {k : Nat} (holds : Holds Inv At p)
    (kept : ∀ t, p.running[k]? = some t → Inv (act p.state t).state ∧
      (∀ t', (act p.state t).next = some t' → At (act p.state t).state t') ∧
      (∀ t' ∈ (act p.state t).started, At (act p.state t).state t') ∧
      ∀ t' ∈ p.running, At p.state t' → At (act p.state t).state t') :
    Holds Inv At (runAt act p k).1 := by
  cases there : p.running[k]? with
  | none =>
    rw [runAt_none there]
    exact holds
  | some t =>
    obtain ⟨inv,next,started,others⟩ := kept t there
    have state : (runAt act p k).1.state = (act p.state t).state := runAt_state there
    refine ⟨state ▸ inv,?_⟩
    rw [state]
    intro t' member
    rcases mem_runAt there member with old | same | new
    · exact others t' old (holds.points t' old)
    · exact next t' same
    · exact started t' new

end

end TunnelCat.Goroutines
