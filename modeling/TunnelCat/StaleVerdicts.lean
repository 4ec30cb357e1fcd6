import TunnelCat.ExitSessions

/-!
How old a verdict is that an exit serves while it cannot ask the arbiter. `validateSession` falls back to
whatever entry was there when the call began; an entry is dropped only when a query about some token is
answered.
-/
namespace TunnelCat.StaleVerdicts
open ExitSessions Runs
open Sessions (quietly sampleSealing)

structure Verdict where
  token : String
  entry : CacheEntry

/-- The exit with what it does not keep: the verdicts that it has read, the last one first,
    and for each call that is under way those that it had read when the call began. -/
structure Watched where
  system : System
  verdicts : List Verdict
  known : Table Nat (List Verdict)

structure Served where
  token : String
  entry : CacheEntry
  clock : Int

def Served.age (o : Served) : Int := o.clock - o.entry.validatedAt

section
variable (A : Sealing String String.utf8ByteSize) (D : Draws)

def readOf (s : System) (p : Pending) : Reply → Option CacheEntry
  | .failed => none
  | .other r => readReply r p.now
  | .arbiter i node body heard =>
    if heard then readReply (apiSessionValidate A D s.arbiter i node (body.getD (queryBody p.token))).2.2 p.now else none

def hits (s : System) (token : String) : Bool :=
  (s.cache.lookup token).any (fun e => s.clock - e.validatedAt < localCacheTTL)

def fresh : Watched := ⟨ExitSessions.start,[],∅⟩

/-- The last verdict about the token, if none that was read since was made more than
    `localStaleTTL` after it. -/
def Remembers (verdicts : List Verdict) (token : String) (e : CacheEntry) : Prop :=
  ∃ later earlier, verdicts = later ++ ⟨token,e⟩ :: earlier ∧
    ∀ v ∈ later, v.token ≠ token ∧ v.entry.validatedAt - localStaleTTL ≤ e.validatedAt

variable {verdicts : List Verdict} {e : CacheEntry} {s : System} {p : Pending}

structure Accounted (w : Watched) : Prop where
  cache : ∀ token e, w.system.cache.lookup token = some e ↔ Remembers w.verdicts token e
  pending : ∀ id p, w.system.pending.lookup id = some p →
    ∃ verdicts ∈ w.known.lookup id, ∀ e, p.stale = some e ↔ Remembers verdicts p.token e

variable {A D}

end

end TunnelCat.StaleVerdicts
