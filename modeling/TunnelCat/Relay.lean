import TunnelCat.Tunnel

/-!
Every way into an exit by which a client names a destination: the tunnel over HTTP and SNCU, and the relay for
UDP (`snc-exit/handler.go`, `udp_tunnel.go`, `udp_sessions.go`, `dns_forward.go`).
-/
namespace TunnelCat.Relay
open Bytes Frames NetIP HostPort Egress Tunnel

structure Endpoint where
  ip : IP
  port : Nat
deriving DecidableEq

def Endpoint.key (dst : Endpoint) : Endpoint := { dst with ip := dst.ip.canonical }

structure RelayFrame where
  connID : ConnID
  dst : Endpoint
  payload : List UInt8

def parseBody (connID : ConnID) (ip : IP) (rest : List UInt8) : Except String RelayFrame :=
  let bLen := beNat ((rest.drop 2).take 4)
  if rest.length < 6 then .error "truncated port/length"
  else if bLen > rest.length - 6 then
    .error ("body length overflow: bLen=" ++ toString bLen ++ " remaining=" ++ toString (rest.length - 6))
  else .ok ⟨connID,⟨ip,beNat (rest.take 2)⟩,(rest.drop 6).take bLen⟩

theorem relayID_length {plain : List UInt8} (long : 27 ≤ plain.length) : (plain.take 16).length = 16 := by
  simp only [List.length_take]
  omega

def parseUDPRelayFrame (plain : List UInt8) : Except String RelayFrame :=
  if long : 27 ≤ plain.length then
    let connID : ConnID := ⟨plain.take 16,relayID_length long⟩
    let rest := plain.drop 17
    if plain.getD 16 0 = 0x04 then parseBody connID (.four (BitVec.ofNat 32 (beNat (rest.take 4)))) (rest.drop 4)
    else if plain.getD 16 0 = 0x06 then
      if rest.length < 16 then .error "truncated IPv6"
      else parseBody connID (.sixteen (BitVec.ofNat 128 (beNat (rest.take 16)))) (rest.drop 16)
    else .error ("unknown family 0x" ++ hexEncode [plain.getD 16 0])
  else .error ("frame too short: " ++ toString plain.length ++ " bytes")

abbrev UDPPool := Table (ConnID × Endpoint) Endpoint

structure Exit where
  pool : Pool
  udpPool : UDPPool

inductive Action
  | tcp (e : Effect)
  | udpDialed (dst : Endpoint)
  | udpSent (dst : Endpoint) (data : List UInt8)
deriving DecidableEq

structure Shown where
  status : Nat
  frames : List (List UInt8)
  actions : List Action

/-- The surroundings of a request, with those of the relay: whether a socket opens and
    takes a datagram, what has arrived at it, and what becomes of a question to a
    resolver. -/
structure Surroundings extends Call where
  udpConnects : Bool
  udpWritable : Bool
  arrived : List (List UInt8)
  dnsDials : Endpoint → Bool
  dnsReply : Endpoint → Option (List UInt8)

def dnsUpstreams : List Endpoint :=
  [⟨.four 0x01010101#32,53⟩,⟨.four 0x08080808#32,53⟩,⟨.four 0x09090909#32,53⟩]

section
variable (S : Strings) (cfg : Config) (a : Surroundings)

def forwardDNS (query : List UInt8) : List Endpoint → Option (List UInt8) × List Action
  | [] => (none,[])
  | upstream :: rest =>
    let later := forwardDNS query rest
    if a.dnsDials upstream then
      match a.dnsReply upstream with
      | some resp => (some resp,[.udpDialed upstream,.udpSent upstream query])
      | none => (later.1,[.udpDialed upstream,.udpSent upstream query] ++ later.2)
    else (later.1,.udpDialed upstream :: later.2)

variable (t : Transport) (s : Exit) (r : Request)

def refuse : Exit × Shown := (s,⟨404,[],[]⟩)

def relay (connID : ConnID) (dst : Endpoint) (payload : List UInt8) : Exit × Shown :=
  let exchange (udpPool : UDPPool) (conn : Endpoint) (opened : List Action) : Exit × Shown :=
    if payload = [] then ({ s with udpPool },⟨200,a.arrived,opened⟩)
    else if a.udpWritable then ({ s with udpPool },⟨200,a.arrived,opened ++ [.udpSent conn payload]⟩)
    else ({ s with udpPool := udpPool.erase (connID,dst.key) },⟨404,[],opened⟩)
  match s.udpPool.lookup (connID,dst.key) with
  | some conn => exchange s.udpPool conn []
  | none =>
    if a.udpConnects then exchange (s.udpPool.insert (connID,dst.key) dst) dst [.udpDialed dst]
    else (s,⟨404,[],[.udpDialed dst]⟩)

/-- The answer to a token that the validator does not accept, or what follows. -/
def validated (accepted : Exit × Shown) : Exit × Shown :=
  match a.verdict with
  | .denied => refuse s
  | .transient => (s,⟨503,[],[]⟩)
  | .accepted => accepted

def relayFrame : Option RelayFrame := r.plain.bind (fun plain => (parseUDPRelayFrame plain).toOption)

def serveUDPRelay : Exit × Shown :=
  validated a s
    (match relayFrame r with
    | none => refuse s
    | some f => if cfg.isSelf (ipText f.dst.ip) then refuse s else relay a s f.connID f.dst f.payload)

def serveUDPDrain : Exit × Shown :=
  validated a s
    (match relayFrame r with
    | none => refuse s
    | some f => relay a s f.connID f.dst [])

def handleUDPRelay : Exit × Shown :=
  validated a s
    (match relayFrame r with
    | none => refuse s
    | some f =>
      if cfg.isSelf (ipText f.dst.ip) then refuse s
      else if f.dst.port = 53 then
        match forwardDNS a f.payload dnsUpstreams with
        | (some resp, actions) => (s,⟨200,[resp],actions⟩)
        | (none, actions) => (s,⟨404,[],actions⟩)
      else relay a s f.connID f.dst f.payload)

inductive Path
  | mediaUpload
  | contentSubmit
  | udpRelay
  | udpDrain

def Path.tunnels : Path → Bool
  | .mediaUpload => true
  | .contentSubmit => true
  | .udpRelay => false
  | .udpDrain => t = .sncu

def serveTunnel : Exit × Shown :=
  let served := serve S cfg a.toCall t s.pool r
  ({ s with pool := served.1 },⟨served.2.status,[],served.2.effects.map .tcp⟩)

def serveExit (path : Path) (s : Exit) (r : Request) : Exit × Shown :=
  match t, path with
  | .http, .udpRelay => serveUDPRelay cfg a s r
  | .http, .udpDrain => serveUDPDrain a s r
  | .sncu, .udpRelay => handleUDPRelay cfg a s r
  | t, _ => serveTunnel S cfg a t s r

end

def Addr.ip : Addr → IP
  | .v4 addr => .four addr
  | .v6 addr _ => .sixteen addr

def literal (host : Text) : Option IP := (parseAddr host).map (fun addr => (Addr.ip addr).canonical)

/-- What a request names: the target of a connect, with the payload that comes with it, or
    the destination of a datagram. -/
inductive Destination
  | target (host : Text) (port : Int) (payload : List UInt8)
  | datagram (dst : Endpoint)

def Destination.ip : Destination → Option IP
  | .target host _ _ => literal host
  | .datagram dst => some dst.ip.canonical

def Frame.target : Frame → Option Destination
  | .stream _ => none
  | .upload f =>
    if f.seq = 0 then
      (hostAndPort (text f.target)).bind
        (fun (host, port) => if dialable port then some (.target host port f.payload) else none)
    else none

def destination (t : Transport) (path : Path) (r : Request) : Option Destination :=
  if path.tunnels t then r.frame.bind Frame.target else (relayFrame r).map (fun f => .datagram f.dst)

section
variable (S : Strings) (cfg : Config)

/-- Loopback, link-local, an address of the exit, or a blacklisted one. -/
def Forbidden (ip : IP) : Prop :=
  ip.isLoopback = true ∨ ip.isLinkLocalUnicast = true ∨ (∃ host ∈ cfg.selfIPs, literal host = some ip) ∨
    ∃ addrs, cfg.bl = some addrs ∧ ∃ host ∈ addrs, literal host = some ip

def Action.Reaches (ip : IP) : Action → Prop
  | .tcp (.dialed host _) => literal host = some ip
  | .tcp (.wrote conn data) => data ≠ [] ∧ conn.via = none ∧ literal conn.host = some ip
  | .tcp (.returned _ _) => False
  | .udpDialed dst => dst.ip.canonical = ip
  | .udpSent dst _ => dst.ip.canonical = ip

/-- A request of an authenticated client names an address. -/
structure Names (t : Transport) (path : Path) (r : Request) (dest : Destination) (ip : IP) : Prop where
  ordinary : asAnon cfg t r.token = false
  named : destination t path r = some dest
  address : dest.ip = some ip

/-- If the request names a forbidden address, the exit leaves that address alone, whatever
    its pools hold and whatever happens around it. -/
def LeavesAlone (t : Transport) (path : Path) (r : Request) : Prop :=
  ∀ dest ip, Names cfg t path r dest ip → Forbidden cfg ip →
    ∀ (s : Exit) (a : Surroundings), a.verdict = .accepted →
      ∀ action ∈ (serveExit S cfg a t path s r).2.actions, ¬ action.Reaches ip

/-- What the path of a request looks for in its destination. A tunnel goes by the text of
    the host, and over HTTP by what looks like BitTorrent; the relay by the texts of the
    exit's own addresses, and over SNCU it turns questions to other resolvers to its own. -/
def Caught (t : Transport) (path : Path) : Destination → Prop
  | .target host port payload =>
    cfg.refuses S false host = true ∨ t = .http ∧ torrentBarred cfg port payload = true
  | .datagram dst =>
    path = .udpRelay ∧ (cfg.isSelf (ipText dst.ip) = true ∨
      t = .sncu ∧ dst.port = 53 ∧ ∀ upstream ∈ dnsUpstreams, upstream.ip.canonical ≠ dst.ip.canonical)

end

section
variable {S : Strings} {cfg : Config} {t : Transport} {path : Path} {r : Request}
variable {a : Surroundings} {host : Text} {port : Int} {query : List UInt8} {upstreams : List Endpoint} {f : RelayFrame}

theorem validated_accepted (accepted : a.verdict = .accepted) (s : Exit) (rest : Exit × Shown) :
    validated a s rest = rest := by
  simp [validated,accepted]

theorem target_eq_some {frame : Frame} {dest : Destination} (named : Frame.target frame = some dest) :
    ∃ f host port, frame = .upload f ∧ f.seq = 0 ∧ hostAndPort (text f.target) = some (host,port) ∧
      dialable port = true ∧ dest = .target host port f.payload := by
  cases frame with
  | stream c => simp [Frame.target] at named
  | upload f =>
    grind [Frame.target,Option.bind_eq_some_iff]

theorem connect_of_target {payload : List UInt8}
    (named : destination t path r = some (.target host port payload)) :
    path.tunnels t = true ∧ dialable port = true ∧ ∃ f, r.frame = some (.upload f) ∧ f.seq = 0 ∧ f.payload = payload ∧
      hostAndPort (text f.target) = some (host,port) := by
  unfold destination at named
  by_cases tunnel : path.tunnels t = true
  · grind [Option.bind_eq_some_iff,target_eq_some]
  · rw [if_neg tunnel] at named
    obtain ⟨f,_,other⟩ := Option.map_eq_some_iff.mp named
    cases other

theorem relay_of_datagram {dst : Endpoint} (named : destination t path r = some (.datagram dst)) :
    path.tunnels t = false ∧ ∃ f, relayFrame r = some f ∧ f.dst = dst := by
  unfold destination at named
  grind [Option.bind_eq_some_iff,target_eq_some,Option.map_eq_some_iff]

theorem serveExit_tunnel (tunnel : path.tunnels t = true) (a : Surroundings) (s : Exit) :
    serveExit S cfg a t path s r = serveTunnel S cfg a t s r := by
  cases t <;> cases path <;> first | rfl | simp [Path.tunnels] at tunnel

theorem forwardDNS_reaches {ip : IP}
    (others : ∀ upstream ∈ upstreams, upstream.ip.canonical ≠ ip) :
    ∀ action ∈ (forwardDNS a query upstreams).2, ¬ action.Reaches ip := by
  induction upstreams with
  | nil => simp [forwardDNS]
  | cons upstream rest ih =>
    grind [forwardDNS,Action.Reaches]

theorem forwardDNS_asks (silent : ∀ upstream, a.dnsReply upstream = none) {upstream : Endpoint} (member : upstream ∈ upstreams) :
    Action.udpDialed upstream ∈ (forwardDNS a query upstreams).2 := by
  induction upstreams with
  | nil => simp at member
  | cons first rest ih =>
    grind [forwardDNS]

theorem tunnel_caught {f : UploadFrame} (frame : r.frame = some (.upload f)) (first : f.seq = 0)
    (split : hostAndPort (text f.target) = some (host,port)) (ordinary : asAnon cfg t r.token = false)
    (caught : Caught S cfg t path (.target host port f.payload)) (accepted : a.verdict = .accepted)
    (pool : Pool) : (serve S cfg a.toCall t pool r).2.effects = [] := by
  cases t with
  | http =>
    have user : cfg.isAnon r.token = false := by simpa [asAnon] using ordinary
    rw [serve,handleTunnel_accepted S cfg a.toCall accepted,user,frame]
    simp only [tunnelFrame,if_pos first,connect,split]
    cases goes : route S cfg a.toAround false host port f.payload with
    | refused => rfl
    | peer p => rfl
    | primary =>
      rcases caught with refused | ⟨_,barred⟩
      · rw [route_refused port f.payload refused] at goes
        cases goes
      · exact absurd goes (route_torrent barred)
  | sncu =>
    rcases caught with refused | ⟨http,_⟩
    · simp only [serve,sncuHandle_accepted S cfg a.toCall accepted,frame,sncuFrame,if_pos first,sncuConnect,split,
        refused]
      rfl
    · cases http

def Surroundings.alone : Surroundings :=
  { Call.alone with
    udpConnects := true
    udpWritable := true
    arrived := []
    dnsDials := fun _ => true
    dnsReply := fun _ => none }

def Exit.empty : Exit := ⟨∅,∅⟩

theorem tunnel_dials {f : UploadFrame} (frame : r.frame = some (.upload f)) (first : f.seq = 0)
    (split : hostAndPort (text f.target) = some (host,port)) (port_ : dialable port = true)
    (ordinary : asAnon cfg t r.token = false) (missed : ¬ Caught S cfg t path (.target host port f.payload)) :
    Effect.dialed host port ∈ (serve S cfg Call.alone t ∅ r).2.effects := by
  simp only [Caught,not_or,not_and,Bool.not_eq_true] at missed
  obtain ⟨accepted,plain⟩ := missed
  cases t with
  | http =>
    have user : cfg.isAnon r.token = false := by simpa [asAnon] using ordinary
    have goes : route S cfg Call.alone.toAround false host port f.payload = .primary :=
      route_direct accepted (plain rfl) rfl rfl
    rw [serve,handleTunnel_accepted S cfg .alone rfl,user,frame]
    simp only [tunnelFrame,if_pos first,connect,split,goes]
    simp [getOrCreate_new port_]
  | sncu =>
    simp only [serve,sncuHandle_accepted S cfg .alone rfl,frame,sncuFrame,if_pos first,sncuConnect,split,accepted]
    simp [getOrCreate_new port_]

theorem relay_dials (connID : ConnID) (dst : Endpoint) (payload : List UInt8) :
    Action.udpDialed dst ∈ (relay .alone .empty connID dst payload).2.actions := by
  by_cases quiet : payload = [] <;> simp [relay,Exit.empty,Surroundings.alone,quiet]

theorem handleUDPRelay_dns (accepted : a.verdict = .accepted)
    (read : relayFrame r = some f) (other : ¬ cfg.isSelf (ipText f.dst.ip) = true) (dns : f.dst.port = 53) (s : Exit) :
    (handleUDPRelay cfg a s r).2.actions = (forwardDNS a f.payload dnsUpstreams).2 := by
  rw [handleUDPRelay,validated_accepted accepted,read]
  grind

theorem leavesAlone_of_caught
    (caught : ∀ dest ip, Names cfg t path r dest ip → Forbidden cfg ip → Caught S cfg t path dest) :
    LeavesAlone S cfg t path r := by
  intro dest ip names forbidden s a accepted action shown reached
  have catches := caught dest ip names forbidden
  cases dest with
  | target host port payload =>
    obtain ⟨tunnel,_,f,frame,first,rfl,split⟩ := connect_of_target names.named
    grind [serveExit_tunnel,serveTunnel,tunnel_caught,names.ordinary]
  | datagram dst =>
    obtain ⟨_,f,read,rfl⟩ := relay_of_datagram names.named
    obtain ⟨rfl,looked⟩ := catches
    have address : f.dst.ip.canonical = ip := Option.some.inj names.address
    by_cases own : cfg.isSelf (ipText f.dst.ip) = true
    · cases t <;>
        simp [serveExit,serveUDPRelay,handleUDPRelay,validated_accepted accepted,read,own,refuse] at shown
    · rcases looked with self | ⟨rfl,dns,others⟩
      · exact own self
      · rw [address] at others
        simp only [serveExit,handleUDPRelay_dns accepted read own dns] at shown
        exact forwardDNS_reaches others action shown reached

theorem drain_reaches (read : relayFrame r = some f) :
    Action.udpDialed f.dst ∈ (serveExit S cfg .alone .http .udpDrain .empty r).2.actions := by
  simp only [serveExit,serveUDPDrain,read]
  exact relay_dials f.connID f.dst []

theorem relay_reaches (read : relayFrame r = some f)
    (missed : ¬ Caught S cfg t .udpRelay (.datagram f.dst)) :
    ∃ action ∈ (serveExit S cfg .alone t .udpRelay .empty r).2.actions, action.Reaches f.dst.ip.canonical := by
  simp only [Caught,true_and,not_or,not_and,not_forall,not_not] at missed
  obtain ⟨other,resolvers⟩ := missed
  cases t with
  | http =>
    refine ⟨.udpDialed f.dst,?_,rfl⟩
    simp only [serveExit,serveUDPRelay,read,if_neg other]
    exact relay_dials f.connID f.dst f.payload
  | sncu =>
    by_cases dns : f.dst.port = 53
    · obtain ⟨upstream,member,same⟩ := resolvers rfl dns
      refine ⟨.udpDialed upstream,?_,same⟩
      rw [serveExit,handleUDPRelay_dns rfl read other dns]
      exact forwardDNS_asks (fun _ => rfl) member
    · refine ⟨.udpDialed f.dst,?_,rfl⟩
      simp only [serveExit,handleUDPRelay,read,if_neg other,if_neg dns]
      exact relay_dials f.connID f.dst f.payload

theorem caught_of_leavesAlone (alone : LeavesAlone S cfg t path r) :
    ∀ dest ip, Names cfg t path r dest ip → Forbidden cfg ip → Caught S cfg t path dest := by
  intro dest ip names forbidden
  by_contra missed
  have left_ := alone dest ip names forbidden .empty .alone rfl
  cases dest with
  | target host port payload =>
    obtain ⟨tunnel,port_,f,frame,first,rfl,split⟩ := connect_of_target names.named
    have dials := tunnel_dials frame first split port_ names.ordinary missed
    rw [serveExit_tunnel tunnel] at left_
    exact left_ (.tcp (.dialed host port)) (List.mem_map_of_mem dials) names.address
  | datagram dst =>
    obtain ⟨relayed,f,read,rfl⟩ := relay_of_datagram names.named
    have address : f.dst.ip.canonical = ip := Option.some.inj names.address
    cases path with
    | mediaUpload => simp [Path.tunnels] at relayed
    | contentSubmit => simp [Path.tunnels] at relayed
    | udpRelay =>
      grind [relay_reaches]
    | udpDrain =>
      obtain rfl : t = .http := by
        cases t with
        | http => rfl
        | sncu => simp [Path.tunnels] at relayed
      exact left_ (.udpDialed f.dst) (drain_reaches read) address

end

/-- An exit leaves the forbidden address that an authenticated request names alone exactly
    if the path of the request looks for it. -/
theorem destination_filter_iff (S : Strings) (cfg : Config) (t : Transport) (path : Path) (r : Request) :
    LeavesAlone S cfg t path r ↔ ∀ dest ip, Names cfg t path r dest ip → Forbidden cfg ip → Caught S cfg t path dest :=
  ⟨caught_of_leavesAlone,leavesAlone_of_caught⟩

def metadataDrain : Request :=
  ⟨"alice".toList,some (List.replicate 16 7 ++ [0x04,169,254,169,254,0,80,0,0,0,0])⟩

theorem link_local_dialled : ¬ ∀ S cfg t path r, LeavesAlone S cfg t path r := by
  intro alone
  have names : Names .bare .http .udpDrain metadataDrain (.datagram ⟨.four 0xa9fea9fe#32,80⟩) (.four 0xa9fea9fe#32) :=
    ⟨rfl,by rfl,rfl⟩
  have dialled : Action.udpDialed ⟨.four 0xa9fea9fe#32,80⟩ ∈
      (serveExit .ascii .bare .alone .http .udpDrain .empty metadataDrain).2.actions := by decide +kernel
  exact alone .ascii .bare .http .udpDrain metadataDrain _ _ names (.inr (.inl (by decide))) .empty .alone rfl _ dialled rfl

end TunnelCat.Relay
