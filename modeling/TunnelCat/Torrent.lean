import TunnelCat.Tunnel

/-!
A connection from the client's `Dial` (`snc/core/tunnel.go`) to the exit, which looks for the BitTorrent
handshake in the payload of the connect frame. `Dial` sends none there.
-/
namespace TunnelCat.Torrent
open Frames Reorder Egress HostPort Upload Tunnel Runs

/-- What becomes of one attempt of `Dial`: the frame is lost, or its answer; an answer
    comes from the exit, or a node before it answers with an error. -/
inductive Attempt
  | lost
  | unanswered (call : Call)
  | answered (call : Call)
  | turnedAway

variable (target : List UInt8)

def connectFrame (connID : ConnID) (target : List UInt8) : List UInt8 := send ⟨connID,target,0⟩ 0 []

def dialAttempts : Nat := 3

section
variable (S : Strings) (cfg : Config) (t : Transport) (token : Text) (connID : ConnID) (target : List UInt8)

/-- The attempts of `Dial`: the pool of the exit afterwards, and whether the client has a
    connection. Only what is lost is tried again. -/
def dialLoop : Nat → Pool → List Attempt → Pool × Bool
  | 0, pool, _ => (pool,false)
  | _, pool, [] => (pool,false)
  | left+1, pool, .lost :: rest => dialLoop left pool rest
  | left+1, pool, .unanswered call :: rest =>
    dialLoop left (serve S cfg call t pool ⟨token,some (connectFrame connID target)⟩).1 rest
  | _+1, pool, .answered call :: _ =>
    let served := serve S cfg call t pool ⟨token,some (connectFrame connID target)⟩
    (served.1,served.2.status = 200)
  | _+1, pool, .turnedAway :: _ => (pool,false)

def dial (pool : Pool) (attempts : List Attempt) : Pool × Bool :=
  dialLoop S cfg t token connID target dialAttempts pool attempts

end

def seenTarget : List UInt8 := target.take (target.length % 65536)
def seenPayload : List UInt8 := target.drop (target.length % 65536)

theorem connectFrame_frame (token : Text) (connID : ConnID) (target : List UInt8) :
    Request.frame ⟨token,some (connectFrame connID target)⟩ =
      some (.upload ⟨connID,0,seenTarget target,seenPayload target⟩) := by
  have parsed : parseUploadFrame (connectFrame connID target) =
      .ok ⟨connID,0,seenTarget target,seenPayload target⟩ := by
    simp [connectFrame,send,parse_build_cut,seenTarget,seenPayload]
  exact readFrame_upload parsed

section
variable (S : Strings) (cfg : Config) (t : Transport) (token : Text) (connID : ConnID) (target : List UInt8)

inductive Ours (ops : List Op) : Event → Prop
  | frame (i : Nat) (sent : i < ops.length) : Ours ops (.request t ⟨token,some ((frames connID target ops).getD i [])⟩)
  | stream (r : Request) (opens : r.frame = some (.stream connID)) : Ours ops (.request t r)

/-- Whatever else happens at the exit. The client draws the id of its connection at
    random, so no one else names it. -/
def Elsewhere : Event → Prop
  | .request _ r => ∀ frame, r.frame = some frame → frame.connID ≠ connID
  | .evict _ => True
  | .reset _ => True

/-- No byte of a stream that begins with the handshake is written to a connection that
    the exit has dialled, whatever `Dial` goes through, whichever frames of the connection
    arrive afterwards, in whichever order, and whatever else happens meanwhile. -/
def NeverDirect : Prop :=
  ∀ pool attempts ops later, pool.lookup connID = none → (dial S cfg t token connID target pool attempts).2 = true →
    btHandshakeHeader <+: (ops.map Op.payload).flatten →
    (∀ i ∈ later, Ours t token connID target ops i.event ∨ Elsewhere connID i.event) →
    ∀ before i after, later = before ++ i :: after → Ours t token connID target ops i.event →
      ∀ conn data, Effect.wrote conn data ∈
          (step S (final (step S) (dial S cfg t token connID target pool attempts).1 before) i).2.effects →
        conn.via = none → data = []

/-- The exit does not dial this target itself: it refuses it, the port is none, or over
    HTTP it takes the connection for BitTorrent. -/
def Barred : Prop :=
  ∀ host port, hostAndPort (text (seenTarget target)) = some (host,port) →
    cfg.refuses S (asAnon cfg t token) host = true ∨ dialable port = false ∨
      t = .http ∧ torrentBarred cfg port (seenPayload target) = true

end

section
variable {S : Strings} {cfg : Config} {t : Transport} {token : Text} {connID : ConnID} {target : List UInt8}
variable {pool pool' : Pool}

def Relayed (connID : ConnID) (pool : Pool) : Prop := ∀ p, pool.lookup connID = some p → p.conn.via ≠ none

theorem Relayed.grows {New : ConnID → Conn → Option (List HostRule) → Prop} (relayed : Relayed connID pool)
    (grows : Grows New pool pool') (new : ∀ conn opened, New connID conn opened → conn.via ≠ none) :
    Relayed connID pool' := by
  intro p found
  rcases grows connID p found with ⟨old,before,same,_⟩ | stored
  · rw [same]
    exact relayed old before
  · exact new p.conn p.opened stored

theorem connect_relayed (barred : Barred S cfg t token target) (relayed : Relayed connID pool) (call : Call) :
    Relayed connID (serve S cfg call t pool ⟨token,some (connectFrame connID target)⟩).1 := by
  refine relayed.grows (serve_grows t pool _) ?_
  rintro conn opened ⟨f,frame,_,stored⟩ via
  rw [connectFrame_frame,Option.some.injEq,Frame.upload.injEq] at frame
  subst frame
  obtain ⟨port,plain⟩ := stored.direct via
  rcases barred _ _ stored.named with refused | none_ | ⟨http,torrent⟩
  · simp [stored.accepted] at refused
  · simp [port] at none_
  · simp [plain http] at torrent

theorem dial_relayed (barred : Barred S cfg t token target) (left : Nat) (attempts : List Attempt) :
    ∀ pool, Relayed connID pool → Relayed connID (dialLoop S cfg t token connID target left pool attempts).1 := by
  induction attempts generalizing left with
  | nil => intro pool relayed; cases left <;> exact relayed
  | cons attempt rest ih =>
    intro pool relayed
    cases left with
    | zero => exact relayed
    | succ left =>
      cases attempt with
      | lost => exact ih left pool relayed
      | unanswered call => exact ih left _ (connect_relayed barred relayed call)
      | answered call => exact connect_relayed barred relayed call
      | turnedAway => exact relayed

theorem frame_frame (token : Text) (connID : ConnID) (target : List UInt8) {ops : List Op} {i : Nat}
    (sent : i < ops.length) : ∃ seq payload,
      Request.frame ⟨token,some ((frames connID target ops).getD i [])⟩ = some (.upload ⟨connID,seq,[],payload⟩) := by
  have found : (ops.map Op.payload)[i]? = some ops[i].payload := by simp [sent]
  exact ⟨_,_,readFrame_upload (frame_parse connID target found)⟩

theorem step_relayed {ops : List Op} {i : Input}
    (happens : Ours t token connID target ops i.event ∨ Elsewhere connID i.event) (relayed : Relayed connID pool) :
    Relayed connID (step S pool i).1 := by
  refine relayed.grows (step_grows pool i) ?_
  -- neither a frame without a target nor one of another connection opens this one
  rintro conn opened ⟨t',r,event,f,frame,_,stored⟩
  rw [event] at happens
  rcases happens with ours | elsewhere
  · cases ours with
    | frame n sent =>
      obtain ⟨seq,payload,bare⟩ := frame_frame token connID target sent
      rw [bare,Option.some.injEq,Frame.upload.injEq] at frame
      have named := stored.named
      rw [← frame] at named
      cases named
    | stream _ opens => simp [opens] at frame
  · exact absurd stored.connID.symm (elsewhere _ frame)

theorem run_relayed {ops : List Op} (before : List Input)
    (happens : ∀ i ∈ before, Ours t token connID target ops i.event ∨ Elsewhere connID i.event)
    (relayed : Relayed connID pool) : Relayed connID (final (step S) pool before) := by
  have along : Along (step S) (fun _ i => Ours t token connID target ops i.event ∨ Elsewhere connID i.event) pool before :=
    along_of_forall before (fun i member _ => happens i member) pool
  exact state_along (P := Relayed connID) (fun _ _ happens relayed => step_relayed happens relayed) along relayed

theorem ours_conn {ops : List Op} {i : Input} (ours : Ours t token connID target ops i.event) {e : Effect} {conn : Conn}
    (shown : e ∈ (step S pool i).2.effects) (on : e.conn = some conn) :
    ∃ p, pool.lookup connID = some p ∧ p.conn = conn := by
  obtain ⟨cfg,call,event⟩ := i
  cases ours with
  | frame n sent =>
    obtain ⟨seq,payload,bare⟩ := frame_frame token connID target sent
    rcases serve_conn shown on with ⟨c,p,addressed,found,same⟩ | ⟨_,_,f,frame,_,named⟩
    · grind [Request.addresses,Frame.addresses]
    · rw [bare,Option.some.injEq,Frame.upload.injEq] at frame
      rw [← frame] at named
      cases named
  | stream r opens =>
    rcases serve_conn shown on with ⟨c,p,addressed,found,same⟩ | ⟨_,_,f,frame,_⟩
    · grind [Request.addresses,Frame.addresses]
    · simp [opens] at frame

theorem neverDirect_of_barred (barred : Barred S cfg t token target) : NeverDirect S cfg t token connID target := by
  rintro pool attempts ops later fresh _ _ happens before i after rfl ours conn data shown direct
  by_contra bytes
  have start : Relayed connID pool := by
    intro p found
    simp [fresh] at found
  have relayed := run_relayed (S := S) before (fun j earlier => happens j (by simp [earlier]))
    (dial_relayed barred dialAttempts attempts pool start)
  have on : (Effect.wrote conn data).conn = some conn := by simp [Effect.conn,bytes]
  obtain ⟨p,found,rfl⟩ := ours_conn ours shown on
  exact relayed p found direct

end

section
variable {S : Strings} {cfg : Config} {t : Transport} {token : Text} {connID : ConnID} {target : List UInt8}

structure Waiting (connID : ConnID) (pool : Pool) (p : Pooled) : Prop where
  found : pool.lookup connID = some p
  direct : p.conn.via = none
  writable : p.session.writable = true
  next : p.session.reorderNext = 1
  empty : p.session.reorderBuf = ∅
  live : p.targetClosed = false

theorem connect_waiting {host : Text} {port : Int} (named : hostAndPort (text (seenTarget target)) = some (host,port))
    (accepted : cfg.refuses S (asAnon cfg t token) host = false) (port_ : dialable port = true)
    (plain : t = .http → torrentBarred cfg port (seenPayload target) = false) :
    (serve S cfg .alone t ∅ ⟨token,some (connectFrame connID target)⟩).2.status = 200 ∧
      ∃ p, Waiting connID (serve S cfg .alone t ∅ ⟨token,some (connectFrame connID target)⟩).1 p := by
  cases t with
  | http =>
    have goes : route S cfg Call.alone.toAround (cfg.isAnon token) host port (seenPayload target) = .primary :=
      route_direct (by simpa [asAnon] using accepted) (plain rfl) rfl rfl
    simp only [serve,handleTunnel_accepted S cfg .alone rfl,connectFrame_frame,tunnelFrame,if_true,connect,named,goes]
    simp only [Call.alone_connects,getOrCreate_new port_]
    exact ⟨trivial,_,AList.lookup_insert _,rfl,rfl,rfl,rfl,rfl⟩
  | sncu =>
    have open_ : cfg.refuses S false host = false := by simpa [asAnon] using accepted
    simp only [serve,sncuHandle_accepted S cfg .alone rfl,connectFrame_frame,sncuFrame,sncuConnect,named,open_]
    simp only [Call.alone_connects,getOrCreate_new port_,exchange]
    -- the end of a target that was cut is written to the connection at once
    by_cases short : seenPayload target = []
    · simp only [short]
      exact ⟨rfl,_,AList.lookup_insert _,rfl,rfl,rfl,rfl,rfl⟩
    · simp only [ne_eq,short]
      exact ⟨rfl,_,AList.lookup_insert _,rfl,rfl,rfl,rfl,rfl⟩

theorem waiting_written {pool : Pool} {p : Pooled} (waits : Waiting connID pool p) {payload : List UInt8}
    (bytes : payload ≠ []) :
    Effect.wrote p.conn payload ∈
      (serve S cfg .alone t pool ⟨token,some ((frames connID target [.write payload]).getD 0 [])⟩).2.effects := by
  have first : ([Op.write payload].map Op.payload)[0]? = some payload := rfl
  have parsed : Request.frame ⟨token,some ((frames connID target [.write payload]).getD 0 [])⟩ =
      some (.upload ⟨connID,1,[],payload⟩) := readFrame_upload (frame_parse connID target first)
  cases t with
  | http =>
    have delivered : (deliverInOrder p.session 1 payload).error = none ∧
        (deliverInOrder p.session 1 payload).wrote = payload := by
      simp [deliverInOrder,waits.next,waits.writable,waits.empty,Table.size,drain]
    simp only [serve,handleTunnel_accepted S cfg .alone rfl,parsed,tunnelFrame,upload,waits.found]
    simp [bytes,delivered]
  | sncu =>
    have live : Tunnel.get pool connID = some p := by simp [Tunnel.get,waits.found,waits.live]
    simp only [serve,sncuHandle_accepted S cfg .alone rfl,parsed,sncuFrame,live,exchange]
    simp [bytes,waits.writable]

theorem barred_of_neverDirect (never : NeverDirect S cfg t token connID target) : Barred S cfg t token target := by
  intro host port named
  by_contra open_
  simp only [not_or,not_and,Bool.not_eq_true,Bool.not_eq_false] at open_
  obtain ⟨accepted,port_,plain⟩ := open_
  obtain ⟨status,p,waits⟩ :=
    connect_waiting named accepted port_ plain
  have header : btHandshakeHeader ≠ [] := by simp [btHandshakeHeader]
  -- one attempt that is answered, and one write
  have none_ := never ∅ [.answered .alone] [.write btHandshakeHeader]
    [⟨cfg,.alone,.request t ⟨token,some ((frames connID target [.write btHandshakeHeader]).getD 0 [])⟩⟩] rfl
    (by simpa [dial,dialLoop,dialAttempts] using status) (by simp [Op.payload])
    (by simpa using .inl (Ours.frame 0 (by simp))) [] _ [] rfl (.frame 0 (by simp)) p.conn btHandshakeHeader
    (waiting_written waits header) waits.direct
  exact header none_

end

/-- Where the exit may not carry torrents, no byte of one is written to a target that it
    has dialled exactly if it does not dial the target at all. -/
theorem torrent_direct_iff (S : Strings) (cfg : Config) (t : Transport) (token : Text) (connID : ConnID)
    (target : List UInt8) :
    (cfg.torrentEgress = false → NeverDirect S cfg t token connID target) ↔
      (cfg.torrentEgress = false → Barred S cfg t token target) := by
  constructor
  · intro never disallowed
    exact barred_of_neverDirect (never disallowed)
  · intro barred disallowed
    exact neverDirect_of_barred (barred disallowed)

/-- A bare exit, which may not carry torrents, and a peer at a port of its own choice. -/
theorem torrent_dialled : ¬ ∀ S cfg t token connID target,
    cfg.torrentEgress = false → NeverDirect S cfg t token connID target := by
  intro never
  have barred := barred_of_neverDirect (never .ascii .bare .http "alice".toList sampleID
    (bytes "203.0.113.9:51413".toList) rfl)
  have open_ := barred "203.0.113.9".toList 51413 (by decide +kernel)
  revert open_
  decide +kernel

end TunnelCat.Torrent
