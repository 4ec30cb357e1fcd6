import TunnelCat.Egress
import TunnelCat.Upload

/-!
The tunnel of an exit over HTTP and over SNCU datagrams (`snc-exit/handler.go`, `udp_tunnel.go`,
`sessions.go`). Both share one pool of connections, where a connection is found by its id alone. What a
step can do to the pool is said once (`step_grows`), and so is which connection the bytes of a request
move on (`serve_conn`). The uploads of one connection are those of `TunnelCat.Upload` (`upload_shows`).
-/
namespace TunnelCat.Tunnel
open Frames Reorder Egress HostPort Runs List Table

structure Conn where
  host : Text
  port : Int
  via : Option Text
deriving DecidableEq

/-- A session of the pool. `opened` has the rules under which the bootstrap token opened
    it; the code does not keep them. -/
structure Pooled where
  conn : Conn
  session : Session
  targetClosed : Bool
  opened : Option (List HostRule)

abbrev Pool := Table ConnID Pooled

/-- What a request makes the exit do: open a socket, write to a target, or hand what came
    from it to the client. -/
inductive Effect
  | dialed (host : Text) (port : Int)
  | wrote (conn : Conn) (data : List UInt8)
  | returned (conn : Conn) (data : List UInt8)
deriving DecidableEq

def Effect.conn : Effect → Option Conn
  | .dialed _ _ => none
  | .wrote conn data => if data = [] then none else some conn
  | .returned conn data => if data = [] then none else some conn

structure Answer where
  status : Nat
  effects : List Effect

def send404 (pool : Pool) : Pool × Answer := (pool,⟨404,[]⟩)

def store (pool : Pool) (connID : ConnID) (conn : Conn) (opened : Option (List HostRule)) : Pool :=
  pool.insert connID ⟨conn,.fresh,false,opened⟩

def get (pool : Pool) (connID : ConnID) : Option Pooled := (pool.lookup connID).filter (fun p => !p.targetClosed)

def dialable (port : Int) : Bool := 0 ≤ port && port < 65536

structure Created where
  pool : Pool
  found : Option Pooled
  effects : List Effect

def getOrCreate (connects : Bool) (pool : Pool) (connID : ConnID) (host : Text) (port : Int)
    (opened : Option (List HostRule)) : Created :=
  match pool.lookup connID with
  | some p => ⟨pool,some p,[]⟩
  | none =>
    if !dialable port then ⟨pool,none,[]⟩
    else if !connects then ⟨pool,none,[.dialed host port]⟩
    else
      let p : Pooled := ⟨⟨host,port,none⟩,.fresh,false,opened⟩
      ⟨pool.insert connID p,some p,[.dialed host port]⟩

theorem getOrCreate_new {port : Int} (port_ : dialable port = true) (connID : ConnID) (host : Text)
    (opened : Option (List HostRule)) :
    getOrCreate true ∅ connID host port opened =
      ⟨(∅ : Pool).insert connID ⟨⟨host,port,none⟩,.fresh,false,opened⟩,some ⟨⟨host,port,none⟩,.fresh,false,opened⟩,
        [.dialed host port]⟩ := by
  simp [getOrCreate,port_]

def frameTypeStreamOpen : UInt8 := 0x01

inductive Verdict
  | accepted
  | denied
  | transient
deriving DecidableEq

/-- The surroundings of a request: those of a connect, what the validator says of the token,
    and what the target sends while the exit listens to it. -/
structure Call extends Around where
  verdict : Verdict
  received : List UInt8
  closed : Bool

def text (target : List UInt8) : Text := target.map (fun b => Char.ofNat b.toNat)

def openedBy (cfg : Config) (isAnon : Bool) : Option (List HostRule) :=
  if isAnon then cfg.anonBoot.map (fun ab => ab.entries) else none

variable (S : Strings) (cfg : Config) (a : Call)

def connect (isAnon : Bool) (pool : Pool) (f : UploadFrame) : Pool × Answer :=
  match hostAndPort (text f.target) with
  | none => send404 pool
  | some (host, port) =>
    match route S cfg a.toAround isAnon host port f.payload with
    | .refused => send404 pool
    | .peer p => (store pool f.connID ⟨host,port,some p.addr⟩ (openedBy cfg isAnon),⟨200,[]⟩)
    | .primary =>
      let c := getOrCreate a.connects pool f.connID host port (openedBy cfg isAnon)
      match c.found, fallbackPeer S cfg a.toAround with
      | some _, _ => (c.pool,⟨200,c.effects⟩)
      | none, some p => (store c.pool f.connID ⟨host,port,some p.addr⟩ (openedBy cfg isAnon),⟨200,c.effects⟩)
      | none, none => (c.pool,⟨404,c.effects⟩)

def upload (pool : Pool) (f : UploadFrame) : Pool × Answer :=
  match pool.lookup f.connID with
  | none => send404 pool
  | some p =>
    if f.payload = [] then (pool,⟨200,[]⟩)
    else
      let d := deliverInOrder p.session f.seq f.payload
      match d.error with
      | some _ => (pool.erase f.connID,⟨404,[.wrote p.conn d.wrote]⟩)
      | none =>
        (pool.insert f.connID { p with session := { d.session with bytesUp := d.session.bytesUp + f.payload.length } },
          ⟨200,[.wrote p.conn d.wrote]⟩)

def streamOpen (pool : Pool) (connID : ConnID) : Pool × Answer :=
  match get pool connID with
  | none => send404 pool
  | some p =>
    (if a.closed then pool.insert connID { p with targetClosed := true } else pool,⟨200,[.returned p.conn a.received]⟩)

inductive Frame
  | stream (connID : ConnID)
  | upload (f : UploadFrame)

variable {plain : List UInt8}

theorem connID_length (long : 17 ≤ plain.length) : ((plain.drop 1).take 16).length = 16 := by
  simp only [length_take,length_drop]
  omega

def readFrame (plain : List UInt8) : Option Frame :=
  if plain.head? = some frameTypeStreamOpen then
    if long : 17 ≤ plain.length then some (.stream ⟨(plain.drop 1).take 16,connID_length long⟩) else none
  else
    match parseUploadFrame plain with
    | .error _ => none
    | .ok f => some (.upload f)

theorem readFrame_upload {f : UploadFrame} (parsed : parseUploadFrame plain = .ok f) :
    readFrame plain = some (.upload f) := by
  have kind : plain.head? ≠ some frameTypeStreamOpen := by
    intro stream
    unfold parseUploadFrame at parsed
    split_ifs at parsed with _ other
    exact other (by rw [stream]; decide)
  simp [readFrame,kind,parsed]

def tunnelFrame (isAnon : Bool) (pool : Pool) : Option Frame → Pool × Answer
  | none => send404 pool
  | some (.stream connID) => streamOpen a pool connID
  | some (.upload f) => if f.seq = 0 then connect S cfg a isAnon pool f else upload pool f

/-- The token, and the frame that the body holds if it opens under the key of the token. -/
structure Request where
  token : Text
  plain : Option (List UInt8)

def Request.frame (r : Request) : Option Frame := r.plain.bind readFrame

def handleTunnel (pool : Pool) (r : Request) : Pool × Answer :=
  if cfg.isAnon r.token then tunnelFrame S cfg a true pool r.frame
  else
    match a.verdict with
    | .denied => send404 pool
    | .transient => (pool,⟨503,[]⟩)
    | .accepted => tunnelFrame S cfg a false pool r.frame

theorem handleTunnel_accepted (accepted : a.verdict = .accepted) (pool : Pool) (r : Request) :
    handleTunnel S cfg a pool r = tunnelFrame S cfg a (cfg.isAnon r.token) pool r.frame := by
  cases anon : cfg.isAnon r.token <;> simp [handleTunnel,anon,accepted]

def exchange (pool : Pool) (p : Pooled) (f : UploadFrame) : Pool × Answer :=
  if f.payload ≠ [] then
    if p.session.writable then
      (pool.insert f.connID { p with session := { p.session with bytesUp := p.session.bytesUp + f.payload.length } },
        ⟨200,[.wrote p.conn f.payload]⟩)
    else (pool.erase f.connID,⟨404,[]⟩)
  else if f.seq = 0 then (pool,⟨200,[]⟩)
  else (pool,⟨200,[.returned p.conn a.received]⟩)

def sncuConnect (pool : Pool) (f : UploadFrame) : Pool × Answer :=
  match hostAndPort (text f.target) with
  | none => send404 pool
  | some (host, port) =>
    if cfg.refuses S false host then send404 pool
    else
      let c := getOrCreate a.connects pool f.connID host port none
      match c.found with
      | none => (c.pool,⟨404,c.effects⟩)
      | some p =>
        let (pool, answer) := exchange a c.pool p f
        (pool,{ answer with effects := c.effects ++ answer.effects })

def sncuFrame (pool : Pool) : Option Frame → Pool × Answer
  | some (.upload f) =>
    if f.seq = 0 then sncuConnect S cfg a pool f
    else
      match get pool f.connID with
      | none => send404 pool
      | some p => exchange a pool p f
  | _ => send404 pool

def sncuHandle (pool : Pool) (r : Request) : Pool × Answer :=
  match a.verdict with
  | .denied => send404 pool
  | .transient => (pool,⟨503,[]⟩)
  | .accepted => sncuFrame S cfg a pool r.frame

theorem sncuHandle_accepted (accepted : a.verdict = .accepted) (pool : Pool) (r : Request) :
    sncuHandle S cfg a pool r = sncuFrame S cfg a pool r.frame := by
  simp [sncuHandle,accepted]

inductive Transport
  | http
  | sncu
deriving DecidableEq

variable (t : Transport)

def serve (pool : Pool) (r : Request) : Pool × Answer :=
  match t with
  | .http => handleTunnel S cfg a pool r
  | .sncu => sncuHandle S cfg a pool r

inductive Event
  | request (t : Transport) (r : Request)
  | evict (connID : ConnID)
  | reset (connID : ConnID)

structure Input where
  cfg : Config
  call : Call
  event : Event

def resetConn (pool : Pool) (connID : ConnID) : Pool :=
  match pool.lookup connID with
  | none => pool
  | some p => pool.insert connID { p with session := { p.session with writable := false } }

def step (pool : Pool) (i : Input) : Pool × Answer :=
  match i.event with
  | .request t r => serve S i.cfg i.call t pool r
  | .evict connID => (pool.erase connID,⟨0,[]⟩)
  | .reset connID => (resetConn pool connID,⟨0,[]⟩)

def Grows (New : ConnID → Conn → Option (List HostRule) → Prop) (pool pool' : Pool) : Prop :=
  ∀ c p, pool'.lookup c = some p →
    (∃ old, pool.lookup c = some old ∧ p.conn = old.conn ∧ p.opened = old.opened) ∨ New c p.conn p.opened

section
variable {New : ConnID → Conn → Option (List HostRule) → Prop} {pool mid last : Pool} {c : ConnID} {p old : Pooled}

theorem Grows.refl : Grows New pool pool := fun _ p found => .inl ⟨p,found,rfl,rfl⟩

theorem Grows.mono {New' : ConnID → Conn → Option (List HostRule) → Prop} (grows : Grows New pool mid)
    (weaker : ∀ c conn opened, New c conn opened → New' c conn opened) : Grows New' pool mid := by
  intro c p found
  rcases grows c p found with kept | new
  · exact .inl kept
  · exact .inr (weaker _ _ _ new)

theorem Grows.trans (first : Grows New pool mid) (second : Grows New mid last) : Grows New pool last := by
  intro c p found
  rcases second c p found with ⟨q,before,conn,opened⟩ | new
  · rw [conn,opened]
    exact first c q before
  · exact .inr new

theorem grows_erase : Grows New pool (pool.erase c) :=
  fun _ p found => .inl ⟨p,(of_lookup_erase found).2,rfl,rfl⟩

theorem grows_update (found : pool.lookup c = some old) (conn : p.conn = old.conn) (opened : p.opened = old.opened) :
    Grows New pool (pool.insert c p) := by
  intro c' p' found'
  grind

theorem grows_insert (new : New c p.conn p.opened) : Grows New pool (pool.insert c p) := by
  intro c' p' found'
  grind

end

/-- What a connect frame can put into the pool: a connection to the target that it names,
    which is not refused; and the exit dials neither a port that is none nor, over HTTP,
    what looks like BitTorrent where that is barred. -/
structure Stored (t : Transport) (isAnon : Bool) (f : UploadFrame) (c : ConnID) (conn : Conn)
    (opened : Option (List HostRule)) : Prop where
  connID : c = f.connID
  named : hostAndPort (text f.target) = some (conn.host,conn.port)
  accepted : cfg.refuses S isAnon conn.host = false
  opened : opened = openedBy cfg isAnon
  direct : conn.via = none → dialable conn.port = true ∧ (t = .http → torrentBarred cfg conn.port f.payload = false)

section
variable {S cfg a} {New : ConnID → Conn → Option (List HostRule) → Prop} {pool : Pool} {c : ConnID}

theorem getOrCreate_spec (connects : Bool) (pool : Pool) (host : Text) (port : Int) (opened : Option (List HostRule))
    (new : dialable port = true → New c ⟨host,port,none⟩ opened) :
    Grows New pool (getOrCreate connects pool c host port opened).pool ∧
      ∀ p, (getOrCreate connects pool c host port opened).found = some p →
        (getOrCreate connects pool c host port opened).pool.lookup c = some p := by
  unfold getOrCreate
  cases found : pool.lookup c with
  | some p => exact ⟨.refl,fun q same => by rw [← same]; exact found⟩
  | none =>
    split_ifs with port_ dials
    · exact ⟨.refl,by simp⟩
    · exact ⟨.refl,by simp⟩
    grind [grows_insert]

theorem connect_grows (isAnon : Bool) (pool : Pool) (f : UploadFrame) :
    Grows (Stored S cfg .http isAnon f) pool (connect S cfg a isAnon pool f).1 := by
  unfold connect
  cases named : hostAndPort (text f.target) with
  | none => exact .refl
  | some target =>
    obtain ⟨host,port⟩ := target
    have peer (q : Peer) (accepted : cfg.refuses S isAnon host = false) :
        Stored S cfg .http isAnon f f.connID ⟨host,port,some q.addr⟩ (openedBy cfg isAnon) :=
      ⟨rfl,named,accepted,rfl,fun via => by cases via⟩
    dsimp only
    cases goes : route S cfg a.toAround isAnon host port f.payload with
    | refused => exact .refl
    | peer q => exact grows_insert (peer q (route_accepted goes (by simp)))
    | primary =>
      have accepted : cfg.refuses S isAnon host = false := route_accepted goes (by simp)
      have plain : torrentBarred cfg port f.payload = false := by
        by_contra barred
        exact route_torrent (by simpa using barred) goes
      have new (port_ : dialable port = true) :
          Stored S cfg .http isAnon f f.connID ⟨host,port,none⟩ (openedBy cfg isAnon) :=
        ⟨rfl,named,accepted,rfl,fun _ => ⟨port_,fun _ => plain⟩⟩
      have created := getOrCreate_spec a.connects pool host port (openedBy cfg isAnon) new
      dsimp only
      split
      · exact created.1
      · next q _ _ => exact created.1.trans (grows_insert (peer q accepted))
      · exact created.1

theorem upload_grows (pool : Pool) (f : UploadFrame) : Grows New pool (upload pool f).1 := by
  unfold upload
  cases found : pool.lookup f.connID with
  | none => exact .refl
  | some p =>
    dsimp only
    split_ifs
    · exact .refl
    grind [grows_erase,grows_update]

theorem get_eq_some {p : Pooled} (found : get pool c = some p) : pool.lookup c = some p :=
  (Option.filter_eq_some_iff.mp found).1

theorem streamOpen_grows (pool : Pool) (c : ConnID) : Grows New pool (streamOpen a pool c).1 := by
  unfold streamOpen
  cases found : get pool c with
  | none => exact .refl
  | some p =>
    split_ifs
    · exact grows_update (get_eq_some found) rfl rfl
    · exact .refl

theorem exchange_grows {p : Pooled} {f : UploadFrame} (found : pool.lookup f.connID = some p) :
    Grows New pool (exchange a pool p f).1 := by
  unfold exchange
  split_ifs
  · exact grows_update found rfl rfl
  · exact grows_erase
  · exact .refl
  · exact .refl

theorem sncuConnect_grows (pool : Pool) (f : UploadFrame) :
    Grows (Stored S cfg .sncu false f) pool (sncuConnect S cfg a pool f).1 := by
  unfold sncuConnect
  cases named : hostAndPort (text f.target) with
  | none => exact .refl
  | some target =>
    obtain ⟨host,port⟩ := target
    dsimp only
    split_ifs with refused
    · exact .refl
    · have new (port_ : dialable port = true) : Stored S cfg .sncu false f f.connID ⟨host,port,none⟩ none :=
        ⟨rfl,named,by simpa using refused,rfl,fun _ => ⟨port_,fun http => by cases http⟩⟩
      have created := getOrCreate_spec a.connects pool host port none new
      cases found : (getOrCreate a.connects pool f.connID host port none).found with
      | none => exact created.1
      | some p => exact created.1.trans (exchange_grows (created.2 p found))

end

def asAnon (token : Text) : Bool := t = .http && cfg.isAnon token

def Opens (r : Request) (c : ConnID) (conn : Conn) (opened : Option (List HostRule)) : Prop :=
  ∃ f, r.frame = some (.upload f) ∧ f.seq = 0 ∧ Stored S cfg t (asAnon cfg t r.token) f c conn opened

section
variable {S cfg a} {New : ConnID → Conn → Option (List HostRule) → Prop} {pool : Pool}

theorem tunnelFrame_grows (isAnon : Bool) (pool : Pool) (frame : Option Frame)
    (new : ∀ f c conn opened, frame = some (.upload f) → f.seq = 0 → Stored S cfg .http isAnon f c conn opened →
      New c conn opened) : Grows New pool (tunnelFrame S cfg a isAnon pool frame).1 := by
  match frame with
  | none => exact .refl
  | some (.stream c) => exact streamOpen_grows pool c
  | some (.upload f) =>
    simp only [tunnelFrame]
    split_ifs with first
    · exact (connect_grows isAnon pool f).mono (fun c conn opened => new f c conn opened rfl first)
    · exact upload_grows pool f

theorem sncuFrame_grows (pool : Pool) (frame : Option Frame)
    (new : ∀ f c conn opened, frame = some (.upload f) → f.seq = 0 → Stored S cfg .sncu false f c conn opened →
      New c conn opened) : Grows New pool (sncuFrame S cfg a pool frame).1 := by
  match frame with
  | none => exact .refl
  | some (.stream c) => exact .refl
  | some (.upload f) =>
    simp only [sncuFrame]
    split_ifs with first
    · exact (sncuConnect_grows pool f).mono (fun c conn opened => new f c conn opened rfl first)
    · cases found : get pool f.connID with
      | none => exact .refl
      | some p => exact exchange_grows (get_eq_some found)

theorem serve_grows (t : Transport) (pool : Pool) (r : Request) :
    Grows (Opens S cfg t r) pool (serve S cfg a t pool r).1 := by
  cases t with
  | http =>
    simp only [serve,handleTunnel]
    cases anon : cfg.isAnon r.token with
    | true =>
      refine tunnelFrame_grows true pool r.frame ?_
      intro f c conn opened frame first stored
      exact ⟨f,frame,first,by simpa [asAnon,anon] using stored⟩
    | false =>
      cases a.verdict with
      | denied => exact .refl
      | transient => exact .refl
      | accepted =>
        refine tunnelFrame_grows false pool r.frame ?_
        intro f c conn opened frame first stored
        exact ⟨f,frame,first,by simpa [asAnon,anon] using stored⟩
  | sncu =>
    simp only [serve,sncuHandle]
    cases a.verdict with
    | denied => exact .refl
    | transient => exact .refl
    | accepted =>
      refine sncuFrame_grows pool r.frame ?_
      intro f c conn opened frame first stored
      exact ⟨f,frame,first,by simpa [asAnon] using stored⟩

theorem resetConn_grows (pool : Pool) (c : ConnID) : Grows New pool (resetConn pool c) := by
  unfold resetConn
  cases found : pool.lookup c with
  | none => exact .refl
  | some p => exact grows_update found rfl rfl

theorem step_grows (pool : Pool) (i : Input) :
    Grows (fun c conn opened => ∃ t r, i.event = .request t r ∧ Opens S i.cfg t r c conn opened) pool (step S pool i).1 := by
  cases happens : i.event with
  | request t r =>
    simp only [step,happens]
    exact (serve_grows t pool r).mono (fun c conn opened opens => ⟨t,r,rfl,opens⟩)
  | evict c =>
    simp only [step,happens]
    exact grows_erase
  | reset c =>
    simp only [step,happens]
    exact resetConn_grows pool c

end

def Frame.addresses : Frame → Option ConnID
  | .stream connID => some connID
  | .upload f => if f.seq = 0 then none else some f.connID

def Frame.connID : Frame → ConnID
  | .stream connID => connID
  | .upload f => f.connID

def Request.addresses (r : Request) : Option ConnID := r.frame.bind Frame.addresses

section
variable {S cfg a} {pool : Pool} {e : Effect} {conn : Conn}

theorem getOrCreate_conn {connects : Bool} {c : ConnID} {host : Text} {port : Int} {opened : Option (List HostRule)}
    (shown : e ∈ (getOrCreate connects pool c host port opened).effects) : e.conn = none := by
  unfold getOrCreate at shown
  cases found : pool.lookup c with
  | some p => simp [found] at shown
  | none =>
    simp only [found] at shown
    split_ifs at shown
    · simp at shown
    · rw [mem_singleton.mp shown]
      rfl
    · rw [mem_singleton.mp shown]
      rfl

variable {f : UploadFrame} {frame : Option Frame}

theorem connect_conn {isAnon : Bool} (shown : e ∈ (connect S cfg a isAnon pool f).2.effects) :
    e.conn = none := by
  unfold connect at shown
  grind [send404,getOrCreate_conn]

theorem moved_conn {p : Pooled} {data : List UInt8} (on : (if data = [] then none else some p.conn) = some conn) :
    p.conn = conn := by
  grind

theorem upload_conn (shown : e ∈ (upload pool f).2.effects) (on : e.conn = some conn) :
    ∃ p, pool.lookup f.connID = some p ∧ p.conn = conn := by
  unfold upload at shown
  cases found : pool.lookup f.connID with
  | none => simp [found,send404] at shown
  | some p =>
    simp only [found] at shown
    refine ⟨p,rfl,?_⟩
    split_ifs at shown
    · simp at shown
    · cases failed : (deliverInOrder p.session f.seq f.payload).error with
      | some _ =>
        simp only [failed,mem_singleton] at shown
        exact moved_conn (shown ▸ on)
      | none =>
        simp only [failed,mem_singleton] at shown
        exact moved_conn (shown ▸ on)

theorem streamOpen_conn {c : ConnID} (shown : e ∈ (streamOpen a pool c).2.effects) (on : e.conn = some conn) :
    ∃ p, pool.lookup c = some p ∧ p.conn = conn := by
  unfold streamOpen at shown
  cases found : get pool c with
  | none => simp [found,send404] at shown
  | some p =>
    simp only [found,mem_singleton] at shown
    exact ⟨p,get_eq_some found,moved_conn (shown ▸ on)⟩

theorem exchange_conn {p : Pooled} (shown : e ∈ (exchange a pool p f).2.effects)
    (on : e.conn = some conn) : p.conn = conn := by
  unfold exchange at shown
  split_ifs at shown
  · exact moved_conn (mem_singleton.mp shown ▸ on)
  · simp at shown
  · simp at shown
  · exact moved_conn (mem_singleton.mp shown ▸ on)

theorem tunnelFrame_conn {isAnon : Bool}
    (shown : e ∈ (tunnelFrame S cfg a isAnon pool frame).2.effects) (on : e.conn = some conn) :
    ∃ c p, frame.bind Frame.addresses = some c ∧ pool.lookup c = some p ∧ p.conn = conn := by
  match frame with
  | none => simp [tunnelFrame,send404] at shown
  | some (.stream c) =>
    obtain ⟨p,found,same⟩ := streamOpen_conn shown on
    exact ⟨c,p,rfl,found,same⟩
  | some (.upload f) =>
    grind [tunnelFrame,connect_conn,upload_conn,Frame.addresses]

theorem sncuFrame_conn (shown : e ∈ (sncuFrame S cfg a pool frame).2.effects)
    (on : e.conn = some conn) :
    (∃ c p, frame.bind Frame.addresses = some c ∧ pool.lookup c = some p ∧ p.conn = conn) ∨
      ∃ f, frame = some (.upload f) ∧ f.seq = 0 ∧ (hostAndPort (text f.target)).isSome := by
  match frame with
  | none => simp [sncuFrame,send404] at shown
  | some (.stream c) => simp [sncuFrame,send404] at shown
  | some (.upload f) =>
    simp only [sncuFrame] at shown
    split_ifs at shown with first
    · grind [sncuConnect,send404]
    · cases found : get pool f.connID with
      | none => simp [found,send404] at shown
      | some p =>
        simp only [found] at shown
        exact .inl ⟨f.connID,p,by simp [Frame.addresses,first],get_eq_some found,exchange_conn shown on⟩

/-- The bytes that a request moves go to, or come from, the connection that it addresses;
    or it is accepted over SNCU and opens one. -/
theorem serve_conn {t : Transport} {r : Request} (shown : e ∈ (serve S cfg a t pool r).2.effects)
    (on : e.conn = some conn) :
    (∃ c p, r.addresses = some c ∧ pool.lookup c = some p ∧ p.conn = conn) ∨
      t = .sncu ∧ a.verdict = .accepted ∧
        ∃ f, r.frame = some (.upload f) ∧ f.seq = 0 ∧ (hostAndPort (text f.target)).isSome := by
  cases t with
  | http =>
    left
    simp only [serve,handleTunnel] at shown
    split_ifs at shown
    · exact tunnelFrame_conn shown on
    · cases verdict : a.verdict with
      | denied => simp [verdict,send404] at shown
      | transient => simp [verdict] at shown
      | accepted =>
        simp only [verdict] at shown
        exact tunnelFrame_conn shown on
  | sncu =>
    simp only [serve,sncuHandle] at shown
    cases verdict : a.verdict with
    | denied => simp [verdict,send404] at shown
    | transient => simp [verdict] at shown
    | accepted =>
      simp only [verdict] at shown
      rcases sncuFrame_conn shown on with addressed | opened
      · exact .inl addressed
      · exact .inr ⟨rfl,rfl,opened⟩

end

/-- The bytes that go to a target. -/
def Effect.written : Effect → List UInt8
  | .wrote _ data => data
  | _ => []

/-- The sessions of a pool without what is around them. -/
def Shows (pool : Pool) (sessions : Table ConnID Session) : Prop :=
  ∀ c, sessions.lookup c = (pool.lookup c).map Pooled.session

section
variable {pool : Pool} {sessions : Table ConnID Session} (shows : Shows pool sessions)
include shows

theorem Shows.insert (c : ConnID) (p : Pooled) : Shows (pool.insert c p) (sessions.insert c p.session) := by
  intro c'
  rw [Table.lookup_insert_of,Table.lookup_insert_of]
  by_cases same : c' = c
  · simp [same]
  · simp [same,shows c']

theorem Shows.erase (c : ConnID) : Shows (pool.erase c) (sessions.erase c) := by
  intro c'
  rw [Table.lookup_erase_of,Table.lookup_erase_of]
  by_cases same : c' = c
  · simp [same]
  · simp [same,shows c']

/-- An upload does to the sessions, answers and writes what `Upload.handleUpload` does. -/
theorem upload_shows (connect : Table ConnID Session → UploadFrame → Table ConnID Session × Nat) {plain : List UInt8}
    {f : UploadFrame} (parsed : parseUploadFrame plain = .ok f) (later : f.seq ≠ 0) :
    Shows (upload pool f).1 (Upload.handleUpload connect sessions plain).1 ∧
      (upload pool f).2.status = (Upload.handleUpload connect sessions plain).2.status ∧
      (upload pool f).2.effects.flatMap Effect.written = (Upload.handleUpload connect sessions plain).2.wrote := by
  have there := shows f.connID
  unfold upload Upload.handleUpload
  simp only [parsed,if_neg later,there]
  cases found : pool.lookup f.connID with
  | none => exact ⟨shows,rfl,rfl⟩
  | some p =>
    by_cases empty : f.payload = []
    · simp [empty,shows]
    · cases failed : (deliverInOrder p.session f.seq f.payload).error with
      | some _ => simp [empty,failed,shows.erase,Effect.written]
      | none => simp [empty,failed,shows.insert,Effect.written]

end

def bytes (s : Text) : List UInt8 := s.map (fun c => UInt8.ofNat c.toNat)

def Call.alone : Call := { Around.alone with verdict := .accepted, received := [], closed := false }

@[simp] theorem Call.alone_connects : Call.alone.connects = true := rfl

def sampleID : ConnID := ⟨List.replicate 16 7,by decide⟩

end TunnelCat.Tunnel
