import TunnelCat.ExitAuth

/-!
The login cache of a control (`snc-control/auth_cache.go`) in front of those of the exits (`snc-exit/auth.go`,
`node_proxy.go`). The exit counts a day from the login, the control another from its own lookup, and the
fallback does not count at all.
-/
namespace TunnelCat.ControlLogins
open Durations ExitAuth Runs Table

def controlTTL : Int := 24 * hour

structure AuthCacheEntry where
  body : Body
  cachedAt : Int

structure Lookup where
  deviceID : String
  now : Int
  answer : Option Body

structure Net where
  clock : Int
  exits : Nat → Exit
  entries : Table String AuthCacheEntry
  pending : Table Nat Lookup

/-- Anything happens at an exit; `lookup` is called; an exit handles its query, for a control
    that it knows or not; the response comes, or not; an exit or the control is started again. -/
inductive Event
  | exit (k : Nat) (action : ExitAuth.Action)
  | lookup (id : Nat) (deviceID : String)
  | authCache (id k : Nat) (known : Bool)
  | response (id : Nat) (heard : Bool)
  | exitRestarts (k : Nat)
  | restarts

structure Input where
  after : Nat
  event : Event

structure Issue where
  key : String
  body : Body
  arrived : Int

/-- What a step shows: a login that an exit got from the arbiter, a login that an exit handed to
    the control, and a login that the control served. -/
inductive Shown
  | issued (i : Issue)
  | handed (deviceID : String) (body : Body) (time : Int)
  | served (deviceID : String) (body : Body) (time : Int)
  | nothing

section
variable (sha256 : List UInt8 → List UInt8)

def issueOf (s : Exit) : ExitAuth.Action → Option Issue
  | .reply id (.response status raw) =>
    if status = 200 ∧ looksLikeAuthSuccess raw = true then
      (s.pending.lookup id).map (fun p => ⟨p.login.key sha256,raw,p.arrived⟩)
    else none
  | _ => none

variable (n : Net)

def localHit (deviceID : String) : Option AuthCacheEntry :=
  (n.entries.lookup deviceID).filter (fun e => n.clock - e.cachedAt < controlTTL)

def beginLookup (id : Nat) (deviceID : String) : Net × Shown :=
  if deviceID = "" then (n,.nothing)
  else
    match localHit n deviceID with
    | some e => (n,.served deviceID e.body n.clock)
    | none => ({ n with pending := n.pending.insert id ⟨deviceID,n.clock,none⟩ },.nothing)

def handleAuthCache (s : Exit) (now : Int) (known : Bool) (deviceID : String) : Option Body :=
  if !known || deviceID = "" then none else cachedAuth s.client ("dev:" ++ deviceID) now

def endLookup (p : Lookup) : Option Body → Net × Shown
  | some body =>
    ({ n with
        entries := Table.filter (fun _ v => p.now - controlTTL ≤ v.cachedAt)
          (n.entries.insert p.deviceID ⟨body,p.now⟩) },
      .served p.deviceID body n.clock)
  | none =>
    match n.entries.lookup p.deviceID with
    | some e => (n,.served p.deviceID e.body n.clock)
    | none => (n,.nothing)

def act : Event → Net × Shown
  | .exit k action =>
    ({ n with exits := Function.update n.exits k (ExitAuth.act sha256 (n.exits k) n.clock action).1 },
      match issueOf sha256 (n.exits k) action with
      | some i => .issued i
      | none => .nothing)
  | .lookup id deviceID => beginLookup n id deviceID
  | .authCache id k known =>
    match n.pending.lookup id with
    | none => (n,.nothing)
    | some p =>
      let answer := handleAuthCache (n.exits k) n.clock known p.deviceID
      ({ n with pending := n.pending.insert id { p with answer := answer } },
        match answer with
        | some body => .handed p.deviceID body n.clock
        | none => .nothing)
  | .response id heard =>
    match n.pending.lookup id with
    | none => (n,.nothing)
    | some p => endLookup { n with pending := n.pending.erase id } p (if heard then p.answer else none)
  | .exitRestarts k =>
    ({ n with
        exits := Function.update n.exits k
          (Exit.start (n.exits k).client.arbiterURL (n.exits k).client.nodeToken n.clock) },
      .nothing)
  | .restarts => ({ n with entries := ∅, pending := ∅ },.nothing)

def step (i : Input) : Net × Shown := act sha256 { n with clock := n.clock + i.after } i.event

def start (arbiterURL nodeToken : String) : Net := ⟨0,fun _ => Exit.start arbiterURL nodeToken 0,∅,∅⟩

end

def Issued (past : List Shown) (key : String) (body : Body) (arrived : Int) : Prop := .issued ⟨key,body,arrived⟩ ∈ past

def Handed (past : List Shown) (deviceID : String) (body : Body) : Prop := ∃ time, .handed deviceID body time ∈ past

variable {past : List Shown}

theorem Handed.later {deviceID : String} {body : Body} (handed : Handed past deviceID body) (o : Shown) :
    Handed (past ++ [o]) deviceID body := handed.imp (fun _ => List.mem_append_left _)

structure Sourced (past : List Shown) (n : Net) : Prop where
  exits : ∀ k key e, (n.exits k).client.authCache.lookup key = some e → Issued past key e.body e.cachedAt
  entries : ∀ deviceID e, n.entries.lookup deviceID = some e → Handed past deviceID e.body
  pending : ∀ id p body, n.pending.lookup id = some p → p.answer = some body → Handed past p.deviceID body

theorem Sourced.later {n : Net} (kept : Sourced past n) (o : Shown) : Sourced (past ++ [o]) n where
  exits k key e found := List.mem_append_left _ (kept.exits k key e found)
  entries deviceID e found := (kept.entries deviceID e found).later o
  pending id p body found answer := (kept.pending id p body found answer).later o

section
variable {sha256 : List UInt8 → List UInt8}

variable {past : List Shown} {n : Net}

variable (kept : Sourced past n)
include kept

omit kept

theorem Sourced.wait (kept : Sourced past n) (d : Nat) : Sourced past { n with clock := n.clock + d } :=
  ⟨kept.exits,kept.entries,kept.pending⟩

end

end TunnelCat.ControlLogins
