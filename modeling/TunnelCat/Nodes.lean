import TunnelCat.Marshal

/-!
The arbiter's node registry (`snc-arbiter/db.go`, `snc-arbiter/db_clubs.go`): the
rows of its tables and the queries that the node listings are made of. What a
query leaves open (the order of rows that compare equal), what a request draws
at random and which of its queries fail are data of the request, `Env`.

A node with a `club_id` belongs to the pool of a club. `ClubNodes` picks the live
nodes of one club; `liveNodes` picks live nodes whatever their club.
-/
namespace TunnelCat.Nodes
open List

inductive NodeType
  | control
  | exit
  | navlinkMirror
deriving DecidableEq

inductive NodeStatus
  | pending
  | approved
  | rejected
  | suspended
  | decommissioned
deriving DecidableEq

structure Node where
  id : Int
  ownerID : Int
  type : NodeType
  addr : String
  fingerprint : String
  token : Option String
  status : NodeStatus
  lastHeartbeat : Option Int
  rttMs : Rat
  load : Rat
  dataPlaneOK : Option Bool
  regionOverride : String
  sniList : String
  pinned : Bool
  clubID : Option Int

structure User where
  id : Int
  username : String

structure Club where
  id : Int
  subsumesClubID : Option Int

inductive EventKind
  | invite
  | recommendation
  | granted
  | revoked
deriving DecidableEq

structure ClubMembershipEvent where
  id : Int
  clubID : Int
  targetUser : Int
  kind : EventKind

structure Notification where
  id : String
  message : String
  createdAt : Int64
  username : Option String

/-- The tables that the listings read. `userSeq` is the last id that a user got. -/
structure DB where
  users : List User
  userSeq : Int
  nodes : List Node
  clubs : List Club
  events : List ClubMembershipEvent
  notifications : List Notification
  excludedNodes : List String
  wlwtpPorts : Dict (List Int64)

inductive Query
  | liveNodes (type : NodeType)
  | nodeByToken
  | activeNotifications
  | listExcludedNodes
  | allWLWTPPorts
  | getOrCreateUser
  | allClubs
  | isClubMember (asked club : Int)
  | supersets (club : Int)
  | clubNodes (club : Int)

/-- The clock in Unix seconds, the queries that fail, the order in which rows come
    by round-trip time, and the random draws. -/
structure Env where
  now : Int64
  fails : Query → Bool
  byRtt : List Node → List Node
  byRtt_perm : ∀ nodes, (byRtt nodes).Perm nodes
  byRtt_sorted : ∀ nodes, (byRtt nodes).Pairwise (fun a b => a.rttMs ≤ b.rttMs)
  shuffle : List Node → List Node
  shuffle_perm : ∀ nodes, (shuffle nodes).Perm nodes
  intn : Nat → Nat
  intn_lt : ∀ n, 0 < n → intn n < n

namespace Env

def run {α : Type} (env : Env) (q : Query) (result : α) : Option α := if env.fails q then none else some result

def quiet (now : Int64) : Env where
  now := now
  fails _ := false
  byRtt nodes := nodes.mergeSort (fun a b => a.rttMs ≤ b.rttMs)
  byRtt_perm nodes := mergeSort_perm nodes _
  byRtt_sorted nodes := by
    have sorted := @pairwise_mergeSort Node (fun a b => a.rttMs ≤ b.rttMs)
      (fun a b c first second => decide_eq_true (Rat.le_trans (of_decide_eq_true first) (of_decide_eq_true second)))
      (fun a b => by simpa using Rat.le_total) nodes
    exact sorted.imp of_decide_eq_true
  shuffle nodes := nodes
  shuffle_perm _ := .refl _
  intn _ := 0
  intn_lt _ positive := positive

theorem run_eq_some {α : Type} {env : Env} {q : Query} {result r : α} :
    env.run q result = some r ↔ env.fails q = false ∧ result = r := by
  unfold run
  cases env.fails q <;> simp

end Env

def heartbeatTTL : Int := 90

def DB.live (db : DB) (now : Int64) (type : NodeType) (ttl : Int) (n : Node) : Bool :=
  n.type = type && n.status = .approved && n.lastHeartbeat.any (fun beat => now.toInt - ttl ≤ beat) &&
    db.users.any (fun u => u.id = n.ownerID)

variable (env : Env) (db : DB)

def liveNodesTTL (type : NodeType) (ttl : Int) : Option (List Node) :=
  env.run (.liveNodes type) (env.byRtt (db.nodes.filter (db.live env.now type ttl)))

def liveNodes (type : NodeType) : Option (List Node) := liveNodesTTL env db type heartbeatTTL

/-- The approved node with the token; the inner `none` is that there is none. -/
def nodeByToken (token : String) : Option (Option Node) :=
  env.run .nodeByToken (db.nodes.find? (fun n =>
    n.token = some token && n.status = .approved && db.users.any (fun u => u.id = n.ownerID)))

def notificationTTL : Int := 24 * 60 * 60

variable (username : String) (clubID : Int)

def activeNotifications : Option (List Notification) :=
  env.run .activeNotifications
    ((db.notifications.filter (fun n => env.now.toInt - notificationTTL ≤ n.createdAt.toInt &&
        (n.username = none || (username ≠ "" && n.username = some username)))).mergeSort
      (fun a b => b.createdAt ≤ a.createdAt))

def listExcludedNodes : Option (List String) := env.run .listExcludedNodes db.excludedNodes

def allWLWTPPorts : Option (Dict (List Int64)) := env.run .allWLWTPPorts db.wlwtpPorts

def DB.withUser (db : DB) (username : String) : DB × User :=
  match db.users.find? (fun u => u.username = username) with
  | some u => (db,u)
  | none =>
    let u : User := ⟨db.userSeq + 1,username⟩
    ({ db with users := db.users ++ [u], userSeq := db.userSeq + 1 },u)

def getOrCreateUser : Option (DB × User) := env.run .getOrCreateUser (db.withUser username)

def clubNodes (type : NodeType) : Option (List Node) :=
  env.run (.clubNodes clubID)
    (env.byRtt (db.nodes.filter (fun n => db.live env.now type heartbeatTTL n && n.clubID = some clubID)))

def allClubs : Option (List Club) := env.run .allClubs (db.clubs.mergeSort (fun a b => a.id ≤ b.id))

def latest : List ClubMembershipEvent → Option ClubMembershipEvent
  | [] => none
  | e :: rest =>
    match latest rest with
    | none => some e
    | some later => if e.id < later.id then some later else some e

def DB.isMember (db : DB) (clubID targetUser : Int) : Bool :=
  (latest (db.events.filter (fun e =>
    e.clubID = clubID && e.targetUser = targetUser && (e.kind = .granted || e.kind = .revoked)))).any
    (fun e => e.kind = .granted)

def isClubMember (asked clubID targetUser : Int) : Option Bool :=
  env.run (.isClubMember asked clubID) (db.isMember clubID targetUser)

def anyMember (asked targetUser : Int) : List Int → Option Bool
  | [] => some false
  | id :: rest =>
    match isClubMember env db asked id targetUser with
    | none => none
    | some true => some true
    | some false => anyMember asked targetUser rest

def hasClubAccess (targetUser : Int) : Option Bool :=
  match isClubMember env db clubID clubID targetUser with
  | none => none
  | some true => some true
  | some false =>
    match env.run (.supersets clubID) ((db.clubs.filter (fun c => c.subsumesClubID = some clubID)).map Club.id) with
    | none => none
    | some supersets => anyMember env db clubID targetUser supersets

def maxManifestNodes : Nat := 12

def sampleNodes (nodes : List Node) (n : Nat) : List Node :=
  if nodes.length ≤ n then nodes else (env.shuffle nodes).take n

def selectManifestNodes (nodes : List Node) (n : Nat) : List Node :=
  let pinned := nodes.filter (fun node => node.pinned)
  let rest := nodes.filter (fun node => !node.pinned)
  if n ≤ pinned.length then pinned else pinned ++ sampleNodes env rest (n - pinned.length)

variable {env db} {nodes : List Node} {n : Node} {targetUser : Int}

theorem mem_byRtt : n ∈ env.byRtt nodes ↔ n ∈ nodes :=
  (env.byRtt_perm nodes).mem_iff

theorem mem_liveNodes {type : NodeType} {nodes : List Node} (found : liveNodes env db type = some nodes) (n : Node) :
    n ∈ nodes ↔ n ∈ db.nodes ∧ db.live env.now type heartbeatTTL n = true := by
  obtain ⟨_,rfl⟩ := Env.run_eq_some.mp found
  rw [mem_byRtt,mem_filter]

theorem mem_clubNodes {clubID : Int} {type : NodeType}
    (found : clubNodes env db clubID type = some nodes) (member : n ∈ nodes) : n.clubID = some clubID := by
  obtain ⟨_,rfl⟩ := Env.run_eq_some.mp found
  grind [mem_byRtt]

theorem mem_sampleNodes {k : Nat} (member : n ∈ sampleNodes env nodes k) :
    n ∈ nodes := by
  unfold sampleNodes at member
  split_ifs at member with few
  · exact member
  · exact (env.shuffle_perm nodes).mem_iff.mp (mem_of_mem_take member)

theorem mem_selectManifestNodes {k : Nat}
    (member : n ∈ selectManifestNodes env nodes k) : n ∈ nodes := by
  simp only [selectManifestNodes] at member
  grind [mem_of_mem_filter,mem_sampleNodes]

theorem withUser_clubs (db : DB) (username : String) :
    (db.withUser username).1.clubs = db.clubs ∧ (db.withUser username).1.events = db.events := by
  unfold DB.withUser
  split <;> exact ⟨rfl,rfl⟩

def HasAccess (db : DB) (clubID targetUser : Int) : Prop :=
  db.isMember clubID targetUser = true ∨
    ∃ c ∈ db.clubs, c.subsumesClubID = some clubID ∧ db.isMember c.id targetUser = true

theorem anyMember_true {asked : Int} {ids : List Int}
    (access : anyMember env db asked targetUser ids = some true) :
    ∃ id ∈ ids, db.isMember id targetUser = true := by
  induction ids with
  | nil => simp [anyMember] at access
  | cons id rest ih =>
    unfold anyMember at access
    split at access
    · cases access
    · next member => exact ⟨id,mem_cons_self,(Env.run_eq_some.mp member).2⟩
    · grind

theorem hasClubAccess_true {clubID : Int} (access : hasClubAccess env db clubID targetUser = some true) :
    HasAccess db clubID targetUser := by
  unfold hasClubAccess at access
  split at access
  · cases access
  · next member => exact .inl (Env.run_eq_some.mp member).2
  · split at access
    · cases access
    · next supersets found =>
      obtain ⟨_,rfl⟩ := Env.run_eq_some.mp found
      obtain ⟨id,listed,member⟩ := anyMember_true access
      obtain ⟨c,inside,rfl⟩ := mem_map.mp listed
      rw [mem_filter] at inside
      exact .inr ⟨c,inside.1,of_decide_eq_true inside.2,member⟩

end TunnelCat.Nodes
