import TunnelCat.HostPort
import TunnelCat.Table

/-!
The statistics that an exit keeps of its users between two reports to the arbiter
(`snc-exit/stats.go`). What `RecordBytes` is given is added to the account of its user; a call
without a user is dropped (`up_recordBytes`). The counts are natural numbers where the source has `int64`:
what is added are bytes that went through the exit, fewer than 2^63 in any run.
-/
namespace TunnelCat.Stats
open HostPort (Text)

structure UserAccum where
  country : Text
  bytesUp : Nat
  bytesDown : Nat
  conns : Nat
  lastSeen : Int

structure ActiveSession where
  start : Int
  lastActivity : Int

structure StatsCollector where
  users : Table Text UserAccum
  sessions : Table Text ActiveSession

def newStatsCollector : StatsCollector := ⟨∅,∅⟩

variable (sc : StatsCollector)

def recordBytes (now : Int) (username country : Text) (bytesUp bytesDown : Nat) : StatsCollector :=
  if username = [] then sc
  else
    let u := (sc.users.lookup username).getD ⟨[],0,0,0,now⟩
    let s := (sc.sessions.lookup username).getD ⟨now,now⟩
    { users := sc.users.insert username
        ⟨if country ≠ [] then country else u.country,u.bytesUp + bytesUp,u.bytesDown + bytesDown,u.conns + 1,now⟩
      sessions := sc.sessions.insert username { s with lastActivity := now } }

def StatsCollector.up (username : Text) : Nat :=
  ((sc.users.lookup username).map UserAccum.bytesUp).getD 0

theorem up_recordBytes (now : Int) (username country : Text) (bytesUp bytesDown : Nat) (u : Text) :
    (recordBytes sc now username country bytesUp bytesDown).up u =
      sc.up u + if u = username ∧ username ≠ [] then bytesUp else 0 := by
  unfold recordBytes
  by_cases nobody : username = []
  · simp [nobody]
  · rw [if_neg nobody]
    simp only [StatsCollector.up]
    by_cases same : u = username
    · subst same
      cases known : sc.users.lookup u <;> simp [nobody]
    · simp [same]

end TunnelCat.Stats
