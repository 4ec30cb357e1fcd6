import TunnelCat.StaleVerdicts

/-!
Which of several overlapping queries about a token leaves its verdict in the cache of an exit
(`snc-exit/auth.go`). `validateSession` asks the arbiter without its lock and writes what it has read over
whatever the cache has by then, so the query that is answered last decides, also if it is the one that was
made first.
-/
namespace TunnelCat.VerdictOrder
open ExitSessions Runs StaleVerdicts
open Sessions (quietly sampleSealing)

structure Query where
  token : String
  place : Nat

/-- The exit with what it does not keep: the number of queries that were made, the place of the
    query of each call that is under way, the queries that were answered, and for each token
    the place of the one whose verdict was written last. -/
structure Followed where
  system : System
  made : Nat
  places : Nat → Nat
  answered : List Query
  origin : Table String Nat

structure Replaced where
  token : String
  old : Nat
  new : Nat

section
variable (A : Sealing String String.utf8ByteSize) (D : Draws)

variable (w : Followed)

def Followed.answer (next : System) (token : String) (place : Nat) : Followed × Option Replaced :=
  ({ w with system := next, answered := ⟨token,place⟩ :: w.answered, origin := w.origin.insert token place },
    (w.system.cache.lookup token).bind (fun _ => (w.origin.lookup token).map (fun old => ⟨token,old,place⟩)))

/-- A step of the exit, and the verdict that it replaces. -/
def follow (i : Input) : Followed × Option Replaced :=
  let next := (step A D w.system i).1
  match i.event with
  | .validateSession id token =>
    if hits { w.system with clock := next.clock } token then ({ w with system := next },none)
    else ({ w with system := next, made := w.made + 1, places := Function.update w.places id w.made },none)
  | .reply id r =>
    match w.system.pending.lookup id with
    | none => ({ w with system := next },none)
    | some p =>
      match readOf A D w.system p r with
      | none => ({ w with system := next },none)
      | some _ => w.answer next p.token (w.places id)
  | .arbiter _ => ({ w with system := next },none)

def fresh : Followed := ⟨ExitSessions.start,0,fun _ => 0,[],∅⟩

def Known : Prop :=
  ∀ token, w.system.cache.lookup token ≠ none → ∃ n, w.origin.lookup token = some n ∧ ⟨token,n⟩ ∈ w.answered

variable {A D}

theorem Known.same {w w' : Followed} (known : Known w) (cache : w'.system.cache = w.system.cache)
    (origin : w'.origin = w.origin) (answered : w'.answered = w.answered) : Known w' := by
  intro token there
  rw [cache] at there
  rw [origin,answered]
  exact known token there

end

end TunnelCat.VerdictOrder
