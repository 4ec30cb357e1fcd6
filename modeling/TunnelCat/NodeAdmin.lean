import Mathlib.Data.List.Pairwise
import TunnelCat.Manifest
import TunnelCat.Nodes

/-!
How a node comes into the arbiter's registry (`snc-arbiter/db.go`, `admin_node_api.go`): it is
submitted, which makes it pending, and approved, which gives it its token.

`approveNode` does not look at how many rows its `UPDATE` has changed, so it returns a token also
for a node that is not pending (`approved_token_iff`). `submitNodeSSH` resets the row of the same
instance and leaves its type as it is (`submitted_as_asked_iff`).
-/
namespace TunnelCat.NodeAdmin
open Nodes List
open Manifest (Refusal)

/-- A row of `nodes`: the columns of the listings, and those of a registration. -/
structure Row extends Node where
  pubkey : String
  description : String
  submittedAt : Int
  approvedAt : Option Int
  sshHost : String
  sshUser : String
  deployStatus : String
  deployLog : String
  nodeUID : Option String
  providerSlug : Option String
  providerInstanceID : Option String

/-- Two rows that the primary key and the unique columns and indexes allow side by side. -/
structure Apart (a b : Row) : Prop where
  id : a.id ≠ b.id
  token : a.token = none ∨ a.token ≠ b.token
  nodeUID : a.nodeUID = none ∨ a.nodeUID ≠ b.nodeUID
  provider : a.providerSlug = none ∨ a.providerInstanceID = none ∨
    (a.providerSlug,a.providerInstanceID) ≠ (b.providerSlug,b.providerInstanceID)

instance Apart.decidable (a b : Row) : Decidable (Apart a b) :=
  decidable_of_iff (a.id ≠ b.id ∧ (a.token = none ∨ a.token ≠ b.token) ∧ (a.nodeUID = none ∨ a.nodeUID ≠ b.nodeUID) ∧
      (a.providerSlug = none ∨ a.providerInstanceID = none ∨
        (a.providerSlug,a.providerInstanceID) ≠ (b.providerSlug,b.providerInstanceID)))
    ⟨fun h => ⟨h.1,h.2.1,h.2.2.1,h.2.2.2⟩,fun h => ⟨h.id,h.token,h.nodeUID,h.provider⟩⟩

/-- The nodes, the last id that one of them got, and the other tables. -/
structure Registry where
  tables : DB
  nodes : List Row
  nodeSeq : Int
  apart : nodes.Pairwise Apart
  issued : ∀ n ∈ nodes, n.id ≤ nodeSeq

namespace Registry

def db (r : Registry) : DB := { r.tables with nodes := r.nodes.map Row.toNode }

def Owned (r : Registry) (n : Node) : Prop := ∃ u ∈ r.tables.users, u.id = n.ownerID

instance (r : Registry) (n : Node) : Decidable (r.Owned n) := inferInstanceAs (Decidable (∃ u ∈ r.tables.users, u.id = n.ownerID))

def write (r : Registry) (fails : Bool) (nodes : List Row) (seq : Int) : Option Registry :=
  if h : fails = false ∧ nodes.Pairwise Apart ∧ ∀ n ∈ nodes, n.id ≤ seq then
    some { r with nodes, nodeSeq := seq, apart := h.2.1, issued := h.2.2 }
  else none

def update (r : Registry) (fails : Bool) (which : Row → Bool) (set : Row → Row) : Option Registry :=
  r.write fails (r.nodes.map (fun n => if which n then set n else n)) r.nodeSeq

def insert (r : Registry) (fails : Bool) (new : Int → Row) : Option (Registry × Int) :=
  (r.write fails (r.nodes ++ [new (r.nodeSeq + 1)]) (r.nodeSeq + 1)).map (fun r' => (r',r.nodeSeq + 1))

end Registry

def nullIfEmpty (s : String) : Option String := if s = "" then none else some s

def newRow (ownerID : Int) (type : NodeType) (addr description nodeUID providerSlug providerInstanceID : String) (now id : Int) :
    Row where
  id := id
  ownerID := ownerID
  type := type
  addr := addr
  fingerprint := ""
  token := none
  status := .pending
  lastHeartbeat := none
  rttMs := 0
  load := 0
  dataPlaneOK := none
  regionOverride := ""
  sniList := ""
  pinned := false
  clubID := none
  pubkey := ""
  description := description
  submittedAt := now
  approvedAt := none
  sshHost := ""
  sshUser := "root"
  deployStatus := ""
  deployLog := ""
  nodeUID := some nodeUID
  providerSlug := nullIfEmpty providerSlug
  providerInstanceID := nullIfEmpty providerInstanceID

structure NodeRequest where
  type : String
  sshHost : String
  sshUser : String
  addr : String
  fingerprint : String
  pubkey : String
  description : String
  authMethod : String
  providerSlug : String
  providerInstanceID : String

/-- What a request meets: the clock, the ids and tokens that it draws, which of the rows that a
    `LIMIT 1` leaves open comes, and which statements fail. -/
structure Around where
  now : Int
  nodeUID : String
  token : Option String
  nth : Nat
  beginFails : Bool
  selectFails : Bool
  writeFails : Bool
  commitFails : Bool
  approveFails : Bool
  regionFails : Bool

variable (a : Around)

variable (q : NodeRequest)

def submitNode (r : Registry) (ownerID : Int) (type : NodeType) (q : NodeRequest) : Except String (Registry × Int) :=
  match r.insert a.writeFails (fun id =>
      { newRow ownerID type q.addr q.description a.nodeUID q.providerSlug q.providerInstanceID a.now id with
        fingerprint := q.fingerprint, pubkey := q.pubkey }) with
  | none => .error "submit node"
  | some done => .ok done

def NodeRequest.sshAddr : String := q.sshHost ++ ":443"

def NodeRequest.sshLogin : String := if q.sshUser = "" then "root" else q.sshUser

def NodeRequest.finds (type : NodeType) (n : Row) : Bool :=
  if q.providerSlug ≠ "" && q.providerInstanceID ≠ "" then
    n.providerSlug = some q.providerSlug && n.providerInstanceID = some q.providerInstanceID
  else n.type = type && n.addr = q.sshAddr

def NodeRequest.reset (ownerID now : Int) (n : Row) : Row :=
  { n with
    ownerID := ownerID, addr := q.sshAddr, sshHost := q.sshHost, sshUser := q.sshLogin, description := q.description
    providerSlug := nullIfEmpty q.providerSlug, providerInstanceID := nullIfEmpty q.providerInstanceID
    status := .pending, token := none, approvedAt := none, deployStatus := "", deployLog := "", submittedAt := now }

/-- The row that the `SELECT` finds; an error counts as none. -/
def existing (r : Registry) (type : NodeType) (q : NodeRequest) : Option Row :=
  let found := r.nodes.filter (q.finds type)
  if a.selectFails then none else found[a.nth % found.length]?

/-- An existing row is reset and keeps its type; else one is stored as asked. -/
def submitNodeSSH (r : Registry) (ownerID : Int) (type : NodeType) (q : NodeRequest) : Except String (Registry × Int) :=
  if a.beginFails then .error "begin"
  else
    match existing a r type q with
    | some n =>
      match r.update a.writeFails (fun m => m.id = n.id) (q.reset ownerID a.now) with
      | none => .error "reset node"
      | some r' => if a.commitFails then .error "commit" else .ok (r',n.id)
    | none =>
      match r.insert a.writeFails (fun id =>
          { newRow ownerID type q.sshAddr q.description a.nodeUID q.providerSlug q.providerInstanceID a.now id with
            sshHost := q.sshHost, sshUser := q.sshLogin }) with
      | none => .error "submit node"
      | some done => if a.commitFails then .error "commit" else .ok done

def Row.approve (token : String) (now : Int) (n : Row) : Row :=
  { n with status := .approved, token := some token, approvedAt := some now, lastHeartbeat := some now }

/-- The registry and the token; nothing when the draw or the `UPDATE` fails. That no row was
    pending is no failure. -/
def approveNode (r : Registry) (nodeID : Int) : Option (Registry × String) :=
  a.token.bind fun token =>
    (r.update a.approveFails (fun n => n.id = nodeID && n.status = .pending) (Row.approve token a.now)).map (·,token)

def NodeType.ofText (s : String) : Option NodeType :=
  if s = "control" then some .control
  else if s = "exit" then some .exit
  else if s = "navlink_mirror" then some .navlinkMirror
  else none

structure Registered where
  id : Int
  token : String
  type : NodeType
  addr : String
  deploying : Bool

def setNodeRegionOverride (r : Registry) (nodeID : Int) (region : String) : Option Registry :=
  r.update a.regionFails (fun n => n.id = nodeID) (fun n => { n with regionOverride := region })

def bindRegion (r : Registry) (nodeID : Int) (region : String) : Registry :=
  if region = "" then r else (setNodeRegionOverride a r nodeID region).getD r

/-- `POST /api/admin/node`. The owner is the user of the session or the first administrator;
    `regionOf` looks an address up. The registry is as after what was committed. -/
def apiAdminNodeRegister (r : Registry) (ownerID : Int) (regionOf : String → String) (q : NodeRequest) :
    Registry × Except Refusal Registered :=
  match NodeType.ofText q.type with
  | none => (r,.error ⟨400,"type must be 'control', 'exit', or 'navlink_mirror'"⟩)
  | some type =>
    if q.sshHost = "" && q.addr = "" then (r,.error ⟨400,"ssh_host or addr required"⟩)
    else
      match if q.sshHost = "" then submitNode a r ownerID type q else submitNodeSSH a r ownerID type q with
      | .error _ => (r,.error ⟨500,"database error"⟩)
      | .ok (submitted,id) =>
        match approveNode a submitted id with
        | none => (submitted,.error ⟨500,"approval failed"⟩)
        | some (approved,token) =>
          let addr := if q.sshHost = "" then q.addr else q.sshAddr
          (bindRegion a approved id (regionOf addr),.ok ⟨id,token,type,addr,q.sshHost ≠ "" && q.authMethod ≠ ""⟩)

def apiAdminNodeApprove (r : Registry) (nodeID : Option Int) : Registry × Except Refusal String :=
  match nodeID with
  | none => (r,.error ⟨400,"bad node id"⟩)
  | some id =>
    match approveNode a r id with
    | none => (r,.error ⟨404,"approval failed: node not found or not pending"⟩)
    | some (r',token) => (r',.ok token)

variable {a} {r r' : Registry} {nodeID : Int} {token : String} {m n : Row} {fails : Bool}

theorem Apart.symm (apart : Apart m n) : Apart n m where
  id := apart.id.symm
  token := by
    grind [apart.token]
  nodeUID := by
    grind [apart.nodeUID]
  provider := by
    by_cases same : (n.providerSlug,n.providerInstanceID) = (m.providerSlug,m.providerInstanceID)
    · obtain ⟨slug,instance_⟩ := Prod.mk.inj same
      rw [slug,instance_]
      exact apart.provider.imp_right (Or.imp_right (absurd same.symm))
    · exact .inr (.inr same)

instance : Std.Symm Apart := ⟨fun _ _ => Apart.symm⟩

theorem Registry.apart_of (r : Registry) (first : m ∈ r.nodes) (second : n ∈ r.nodes) (differ : m ≠ n) : Apart m n :=
  r.apart.forall first second differ

theorem Registry.id_unique (r : Registry) (first : m ∈ r.nodes) (second : n ∈ r.nodes) (same : m.id = n.id) : m = n := by
  by_contra differ
  exact (r.apart_of first second differ).id same

theorem Registry.token_unique (r : Registry) (first : m ∈ r.nodes) (second : n ∈ r.nodes)
    (own : m.token = some token) (other : n.token = some token) : m = n := by
  by_contra differ
  rcases (r.apart_of first second differ).token with none_ | differs
  · cases own.symm.trans none_
  · exact differs (own.trans other.symm)

theorem Registry.write_some {nodes : List Row} {seq : Int} (done : r.write fails nodes seq = some r') :
    r'.nodes = nodes ∧ r'.tables = r.tables := by
  grind [Registry.write]

theorem Registry.mem_update {which : Row → Bool} {set : Row → Row} (done : r.update fails which set = some r') :
    n ∈ r'.nodes ↔ ∃ m ∈ r.nodes, (if which m then set m else m) = n := by
  rw [(Registry.write_some done).1,mem_map]

theorem Registry.mem_insert {new : Int → Row} {id : Int} (done : r.insert fails new = some (r',id)) :
    id = r.nodeSeq + 1 ∧ r'.tables = r.tables ∧ ∀ n, n ∈ r'.nodes ↔ n ∈ r.nodes ∨ n = new id := by
  obtain ⟨_,written,eq⟩ := Option.map_eq_some_iff.mp done
  cases eq
  obtain ⟨nodes,tables⟩ := Registry.write_some written
  refine ⟨rfl,tables,?_⟩
  intro n
  rw [nodes,mem_append,mem_singleton]

theorem nodeByToken_iff {env : Env} {n : Node} :
    nodeByToken env r.db token = some (some n) ↔ env.fails .nodeByToken = false ∧
      ∃ row ∈ r.nodes, row.toNode = n ∧ row.token = some token ∧ row.status = .approved ∧ r.Owned row.toNode := by
  have holds : ∀ row : Row, (row.toNode.token = some token && row.toNode.status = .approved &&
      r.db.users.any (fun u => u.id = row.toNode.ownerID)) = true ↔
        row.token = some token ∧ row.status = .approved ∧ r.Owned row.toNode := by
    simp [Registry.Owned,Registry.db,and_assoc]
  rw [nodeByToken,Env.run_eq_some]
  refine and_congr_right fun _ => ?_
  constructor
  · intro found
    obtain ⟨row,there,rfl⟩ := mem_map.mp (mem_of_find?_eq_some found)
    grind
  · rintro ⟨row,there,rfl,fits⟩
    -- Something is found, and it has the token too.
    obtain ⟨m,found⟩ : ∃ m, r.db.nodes.find? (fun n => n.token = some token && n.status = .approved &&
        r.db.users.any (fun u => u.id = n.ownerID)) = some m :=
      Option.isSome_iff_exists.mp (List.find?_isSome.mpr ⟨row.toNode,mem_map.mpr ⟨row,there,rfl⟩,(holds row).mpr fits⟩)
    obtain ⟨other,inside,rfl⟩ := mem_map.mp (mem_of_find?_eq_some found)
    grind [r.token_unique]

theorem approveNode_some (approved : approveNode a r nodeID = some (r',token)) :
    r'.tables = r.tables ∧
      ∀ n, n ∈ r'.nodes ↔ ∃ m ∈ r.nodes, (if m.id = nodeID && m.status = .pending then m.approve token a.now else m) = n := by
  obtain ⟨drawn,-,updated⟩ := Option.bind_eq_some_iff.mp approved
  obtain ⟨_,done,eq⟩ := Option.map_eq_some_iff.mp updated
  cases eq
  exact ⟨(Registry.write_some done).2,fun _ => Registry.mem_update done⟩

theorem Registry.owned_congr (same : r'.tables = r.tables) (n : Node) : r'.Owned n ↔ r.Owned n := by
  unfold Registry.Owned
  rw [same]

theorem approved_found {env : Env} (approved : approveNode a r nodeID = some (r',token)) (asks : env.fails .nodeByToken = false)
    {row : Row} (there : row ∈ r.nodes) (own : row.id = nodeID) (owned : r.Owned row.toNode) (pending : row.status = .pending) :
    nodeByToken env r'.db token = some (some (row.approve token a.now).toNode) := by
  obtain ⟨tables,rows⟩ := approveNode_some approved
  refine nodeByToken_iff.mpr ⟨asks,row.approve token a.now,(rows _).mpr ⟨row,there,?_⟩,rfl,rfl,rfl,?_⟩
  · simp [own,pending]
  · exact (Registry.owned_congr tables _).mpr owned

theorem approved_token_iff (a : Around) (env : Env) (r r' : Registry) (nodeID : Int) (token : String)
    (approved : approveNode a r nodeID = some (r',token)) :
    (∃ n, nodeByToken env r'.db token = some (some n) ∧ n.id = nodeID) ↔
      env.fails .nodeByToken = false ∧ ∃ row ∈ r.nodes, row.id = nodeID ∧ r.Owned row.toNode ∧
        (row.status = .pending ∨ row.status = .approved ∧ row.token = some token) := by
  obtain ⟨tables,rows⟩ := approveNode_some approved
  constructor
  · rintro ⟨n,found,same⟩
    obtain ⟨asks,row,there,rfl,own,status,owned⟩ := nodeByToken_iff.mp found
    refine ⟨asks,?_⟩
    obtain ⟨m,before,eq⟩ := (rows row).mp there
    rw [Registry.owned_congr tables] at owned
    split at eq
    · next chosen =>
      obtain ⟨id,pending⟩ : m.id = nodeID ∧ m.status = .pending := by simpa using chosen
      subst eq
      exact ⟨m,before,id,owned,.inl pending⟩
    · subst eq
      exact ⟨m,before,same,owned,.inr ⟨status,own⟩⟩
  · rintro ⟨asks,row,there,own,owned,pending | ⟨status,has⟩⟩
    · exact ⟨_,approved_found approved asks there own owned pending,own⟩
    · have stays : row ∈ r'.nodes := (rows row).mpr ⟨row,there,by simp [status]⟩
      exact ⟨row.toNode,nodeByToken_iff.mpr ⟨asks,row,stays,rfl,has,status,(Registry.owned_congr tables _).mpr owned⟩,own⟩

def sampleAround : Around := ⟨100,"uid",some "token",0,false,false,false,false,false,false⟩

def sampleRow (id : Int) (status : NodeStatus) (token : Option String) : Row :=
  { newRow 1 .control "192.0.2.1:443" "" "first" "yandex-cloud" "i-1" 50 id with status := status, token := token }

def sampleRegistry (status : NodeStatus) (token : Option String) : Registry where
  tables := ⟨[⟨1,"admin"⟩],1,[],[],[],[],[],Dict.empty⟩
  nodes := [sampleRow 7 status token]
  nodeSeq := 7
  apart := pairwise_singleton _ _
  issued := by simp [sampleRow,newRow]

/-- A pending node is approved and found by its token. -/
theorem approved_token_pending : ∃ after, approveNode sampleAround (sampleRegistry .pending none) 7 = some (after,"token") ∧
    ∃ n, nodeByToken (.quiet 100) after.db "token" = some (some n) ∧ n.id = 7 := by
  refine ⟨_,rfl,(approved_token_iff sampleAround (.quiet 100) (sampleRegistry .pending none) _ 7 "token" rfl).mpr ⟨rfl,?_⟩⟩
  exact ⟨sampleRow 7 .pending none,mem_singleton_self _,rfl,by decide,.inl rfl⟩

/-- A node that is approved already gets a second token, which nothing knows. -/
theorem approved_again_not_found :
    ¬ ∀ (a : Around) (env : Env) (r r' : Registry) (nodeID : Int) (token : String), env.fails .nodeByToken = false →
      approveNode a r nodeID = some (r',token) → ∃ n, nodeByToken env r'.db token = some (some n) ∧ n.id = nodeID := by
  intro always
  obtain ⟨after,again⟩ : ∃ after, approveNode sampleAround (sampleRegistry .approved (some "old")) 7 = some (after,"token") := ⟨_,rfl⟩
  obtain ⟨n,found,-⟩ := always sampleAround (.quiet 100) _ after 7 "token" rfl again
  obtain ⟨-,row,there,-,own,-⟩ := nodeByToken_iff.mp found
  obtain ⟨m,before,eq⟩ := ((approveNode_some again).2 row).mp there
  obtain rfl := mem_singleton.mp before
  subst eq
  revert own
  decide

/-- The row with the id is as it was asked for, and pending. -/
def Submitted (r : Registry) (id ownerID : Int) (type : NodeType) (addr : String) : Prop :=
  ∃ row ∈ r.nodes, row.id = id ∧ row.type = type ∧ row.ownerID = ownerID ∧ row.addr = addr ∧ row.status = .pending ∧ row.token = none

def Untouched (r r' : Registry) (id : Int) : Prop := ∀ row, row.id ≠ id → (row ∈ r'.nodes ↔ row ∈ r.nodes)

variable {ownerID : Int} {type : NodeType} {q}

variable (submitted : submitNodeSSH a r ownerID type q = .ok (r',nodeID))
include submitted

theorem submitNodeSSH_cases :
    r'.tables = r.tables ∧
      ((∃ n ∈ existing a r type q, n ∈ r.nodes ∧ n.id = nodeID ∧
          ∀ row, row ∈ r'.nodes ↔ ∃ m ∈ r.nodes, (if m.id = nodeID then q.reset ownerID a.now m else m) = row) ∨
        existing a r type q = none ∧ nodeID = r.nodeSeq + 1 ∧ ∀ row, row ∈ r'.nodes ↔ row ∈ r.nodes ∨ row =
          { newRow ownerID type q.sshAddr q.description a.nodeUID q.providerSlug q.providerInstanceID a.now nodeID with
            sshHost := q.sshHost, sshUser := q.sshLogin }) := by
  unfold submitNodeSSH at submitted
  split at submitted
  · cases submitted
  split at submitted
  · next n found =>
    have there : n ∈ r.nodes := by
      grind [existing,mem_of_mem_filter]
    split at submitted
    · cases submitted
    · next updated done =>
      split at submitted
      · cases submitted
      · cases submitted
        refine ⟨(Registry.write_some done).2,.inl ⟨n,found,there,rfl,?_⟩⟩
        intro row
        simpa using Registry.mem_update done
  · grind [Registry.mem_insert]

theorem submitNodeSSH_untouched : Untouched r r' nodeID := by
  obtain ⟨-,⟨n,-,-,-,rows⟩ | ⟨-,-,rows⟩⟩ := submitNodeSSH_cases submitted
  · intro row other
    rw [rows]
    constructor
    · rintro ⟨m,there,eq⟩
      split at eq
      · next own =>
        subst eq
        exact absurd own other
      · exact eq ▸ there
    · intro there
      exact ⟨row,there,if_neg other⟩
  · intro row other
    rw [rows]
    refine or_iff_left ?_
    rintro rfl
    exact other rfl

theorem submitNodeSSH_stores :
    (∃ n ∈ existing a r type q, Submitted r' nodeID ownerID n.type q.sshAddr) ∨
      existing a r type q = none ∧ Submitted r' nodeID ownerID type q.sshAddr := by
  obtain ⟨-,⟨n,found,there,own,rows⟩ | ⟨none_,-,rows⟩⟩ := submitNodeSSH_cases submitted
  · exact .inl ⟨n,found,q.reset ownerID a.now n,(rows _).mpr ⟨n,there,if_pos own⟩,own,rfl,rfl,rfl,rfl,rfl⟩
  · exact .inr ⟨none_,_,(rows _).mpr (.inr rfl),rfl,rfl,rfl,rfl,rfl,rfl⟩

omit submitted

theorem submitted_as_asked_iff (a : Around) (r r' : Registry) (ownerID nodeID : Int) (type : NodeType) (q : NodeRequest)
    (submitted : submitNodeSSH a r ownerID type q = .ok (r',nodeID)) :
    Submitted r' nodeID ownerID type q.sshAddr ∧ Untouched r r' nodeID ↔ ∀ n ∈ existing a r type q, n.type = type := by
  rw [and_iff_left (submitNodeSSH_untouched submitted)]
  obtain ⟨n,found,row,stored,id,kept,rest⟩ | ⟨none_,stored⟩ := submitNodeSSH_stores submitted
  · constructor
    · rintro ⟨row',stored',id',asked,-⟩ m found'
      rw [Option.mem_unique found' found,← kept,r'.id_unique stored stored' (id.trans id'.symm),asked]
    · intro asked
      exact ⟨row,stored,id,kept.trans (asked n found),rest⟩
  · exact iff_of_true stored (by simp [none_])

def sampleRequest (providerInstanceID : String) : NodeRequest :=
  ⟨"exit","192.0.2.2","","","","","","","yandex-cloud",providerInstanceID⟩

/-- An instance that is not known yet is added. -/
theorem submitted_as_asked_new : ∃ r', submitNodeSSH sampleAround (sampleRegistry .pending none) 1 .exit (sampleRequest "i-2") = .ok (r',8) ∧
    Submitted r' 8 1 .exit "192.0.2.2:443" ∧ Untouched (sampleRegistry .pending none) r' 8 := by
  refine ⟨_,rfl,(submitted_as_asked_iff sampleAround (sampleRegistry .pending none) _ 1 8 .exit (sampleRequest "i-2") rfl).mpr ?_⟩
  intro n found
  cases found

/-- An instance that was a control and is registered as an exit stays a control. -/
theorem submitted_keeps_type :
    ¬ ∀ (a : Around) (r r' : Registry) (ownerID nodeID : Int) (type : NodeType) (q : NodeRequest),
      submitNodeSSH a r ownerID type q = .ok (r',nodeID) → Submitted r' nodeID ownerID type q.sshAddr ∧ Untouched r r' nodeID := by
  intro always
  obtain ⟨r',submitted⟩ : ∃ r', submitNodeSSH sampleAround (sampleRegistry .pending none) 1 .exit (sampleRequest "i-1") = .ok (r',7) :=
    ⟨_,rfl⟩
  obtain ⟨⟨row,there,own,asked,-⟩,-⟩ := always _ _ r' 1 7 .exit _ submitted
  obtain ⟨n,found,row',there',own',kept,-⟩ | ⟨none_,-⟩ := submitNodeSSH_stores submitted
  · obtain rfl : sampleRow 7 .pending none = n := Option.some.inj found
    rw [r'.id_unique there' there (own'.trans own.symm),asked] at kept
    cases kept
  · cases none_

end TunnelCat.NodeAdmin
