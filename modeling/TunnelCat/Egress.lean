import TunnelCat.HostPort
import TunnelCat.Table

/-!
Where an exit sends a new connection (`snc-exit/handler.go`, the connect frame of
`handleTunnel`): the targets that it refuses, and the stages that hand a connection to
a peer before the exit dials the target itself.

A target is refused by its text (`Config.refuses`). BitTorrent, which is told by the
first payload or the port, goes to a peer or nowhere when the exit may not carry it; any
other connection may end up with the exit's own dial (`route_torrent`, `route_direct`).
-/
namespace TunnelCat.Egress
open NetIP HostPort

structure Strings where
  toLower : Text → Text
  toUpper : Text → Text
  trimSpace : Text → Text
  equalFold : Text → Text → Bool

def Strings.ascii : Strings where
  toLower := List.map Char.toLower
  toUpper := List.map Char.toUpper
  trimSpace s := ((s.dropWhile Char.isWhitespace).reverse.dropWhile Char.isWhitespace).reverse
  equalFold s t := s.map Char.toLower = t.map Char.toLower

/-- An entry of the allowlist of the bootstrap token, of the service blocks and of the
    whitelist. The star of a wildcard is cut off. -/
inductive HostRule
  | domain (value : Text)
  | wildcard (value : Text)
  | cidr (network : IPNet)

structure AnonBootstrap where
  token : Text
  entries : List HostRule

structure TorrentAllowed where
  blocked : List Text
  selfAllowed : Bool

structure Peer where
  addr : Text
  region : Text
  capabilities : Option (Table Text Bool)

structure Registry where
  myRegion : Text
  peers : List Peer
  alive : Table Text Bool

/-- What the handler holds when a request comes in: each cache may be absent, and its
    contents change as it is refreshed. -/
structure Config where
  selfIPs : List Text
  bl : Option (List Text)
  anonBoot : Option AnonBootstrap
  torrentAllowed : Option TorrentAllowed
  peers : Option Registry
  providerTag : Text
  svcBlocks : Option (List (HostRule × List Text))
  cidrCache : Option (Text → Text)
  wl : Option (List HostRule)
  probeDB : Option (Table Text Bool)

inductive Stage
  | torrent
  | sameCountry
  | serviceBlock
  | geo
  | whitelist
  | primary
  | fallback
deriving DecidableEq

def Stage.place : Stage → Nat
  | .torrent => 0
  | .sameCountry => 1
  | .serviceBlock => 2
  | .geo => 3
  | .whitelist => 4
  | .primary => 5
  | .fallback => 6

/-- The headers of a request, and what the calls made for it give: the order of the peers,
    whether the time is up at the nth look of a stage at the clock, which does not go back,
    and whether the nth candidate of a stage answers. -/
structure Around where
  noForward : Bool
  clientCC : Text
  clientIP : Text
  remoteIP : Text
  shuffle : Stage → List Peer → List Peer
  shuffles : ∀ stage peers, (shuffle stage peers).Perm peers
  late : Stage → Nat → Bool
  forward : ∀ s n s' n', s.place < s'.place ∨ s = s' ∧ n ≤ n' → late s n = true → late s' n' = true
  dials : Stage → Nat → Peer → Bool
  connects : Bool

def Around.alone : Around where
  noForward := true
  clientCC := []
  clientIP := []
  remoteIP := []
  shuffle _ peers := peers
  shuffles _ _ := .refl _
  late _ _ := false
  forward _ _ _ _ _ up := up
  dials _ _ _ := true
  connects := true

def Config.bare : Config where
  selfIPs := ["127.0.0.1".toList,"::1".toList,"localhost".toList]
  bl := none
  anonBoot := none
  torrentAllowed := none
  peers := none
  providerTag := []
  svcBlocks := none
  cidrCache := none
  wl := none
  probeDB := none

variable (S : Strings) (cfg : Config) (a : Around)

variable (r : Registry) (port : Int) (host : Text) (payload : List UInt8) (ip : Text)

def HostRule.applies : HostRule → Bool
  | .domain value => host ≠ [] && S.equalFold host value
  | .wildcard value => host ≠ [] && host.length > value.length && value.isSuffixOf (S.toLower host)
  | .cidr network => ip ≠ [] && (parseIP ip).any network.contains

def HostRule.listed : HostRule → Bool
  | .domain value => S.equalFold host value
  | .wildcard value => host.length > value.length && value.isSuffixOf (S.toLower host)
  | .cidr network => ip ≠ [] && (parseIP ip).any network.contains

def isAllowed (entries : List HostRule) (host ip : Text) : Bool := entries.any (HostRule.applies S host ip)

def isBlockedForRegion (entries : List (HostRule × List Text)) (host ip region : Text) : Bool :=
  region ≠ [] && entries.any (fun e => region ∈ e.2 && HostRule.applies S host ip e.1)

def isWhitelisted (entries : List HostRule) (host ip : Text) : Bool := entries.any (HostRule.listed S host ip)

def targetIP : Text := if (parseIP host).isSome then host else []

def AnonBootstrap.isBootstrapToken (ab : AnonBootstrap) (token : Text) : Bool :=
  token ≠ [] && ab.token ≠ [] && ab.token = token

def Config.isAnon (token : Text) : Bool := cfg.anonBoot.any (fun ab => ab.isBootstrapToken token)

def TorrentAllowed.isAllowed (ta : TorrentAllowed) (addr : Text) : Bool := S.toLower addr ∉ ta.blocked

def Config.isSelf : Bool := host ∈ cfg.selfIPs

def hostAndPort (target : Text) : Option (Text × Int) :=
  (splitHostPort target).bind (fun (host, port) => (atoi port).map (fun n => (host,n)))

def nonRoutable : Bool := (parseIP host).any (fun ip => ip.isLoopback || ip.isLinkLocalUnicast)

def isBlacklisted : Bool := cfg.bl.any (fun addrs => S.toLower host ∈ addrs)

/-- What the checks at the head of a connect turn away; the last one is made for the
    bootstrap token only. -/
def Config.refuses (isAnon : Bool) (host : Text) : Bool :=
  cfg.isSelf host || nonRoutable host || isBlacklisted S cfg host ||
    isAnon && !cfg.anonBoot.any (fun ab => isAllowed S ab.entries host (targetIP host))

def btHandshakeHeader : List UInt8 := 0x13 :: "BitTorrent protocol".toList.map (fun c => UInt8.ofNat c.toNat)

def isBitTorrentHandshake : Bool := btHandshakeHeader.isPrefixOf payload

def btPortRangeLow : Int := 6881
def btPortRangeHigh : Int := 6889

def isLikelyBitTorrentPort : Bool := port ≥ btPortRangeLow && port ≤ btPortRangeHigh

def Config.torrentEgress : Bool := cfg.torrentAllowed.any (fun ta => ta.selfAllowed)

def clientCC : Text :=
  let reported := S.toUpper (S.trimSpace a.clientCC)
  if reported ≠ [] then reported
  else
    match cfg.cidrCache with
    | none => []
    | some lookupCountry => lookupCountry (if a.clientIP = [] then a.remoteIP else a.clientIP)

def Registry.lives (p : Peer) : Bool := (r.alive.lookup p.addr).getD false

/-- `ShufflePeers`: the live peers in some order, or all of them when none is known to
    live. -/
def Registry.shufflePeers (stage : Stage) : List Peer :=
  let live := r.peers.filter r.lives
  a.shuffle stage (if r.alive.size = 0 ∨ live = [] then r.peers else live)

def Registry.peersCapableOf : List Peer :=
  a.shuffle .whitelist (r.peers.filter (fun p =>
    (r.alive.size = 0 || r.lives p) && (p.capabilities.bind (fun caps => caps.lookup host)).getD true))

def eligible (p : Peer) : Bool := !cfg.isSelf p.addr && p.region ≠ clientCC S cfg a

def firstAnswer (stage : Stage) : Nat → List Peer → Option Peer
  | _, [] => none
  | n, p :: rest => if a.dials stage n p then some p else firstAnswer stage (n + 1) rest

def dialBestPeer (stage : Stage) (candidates : List Peer) : Option Peer :=
  if a.late stage 0 then none else firstAnswer a stage 0 candidates

def torrentRedirect : Option Peer :=
  match cfg.peers, cfg.torrentAllowed with
  | some r, some ta =>
    if a.noForward then none
    else
      dialBestPeer a .torrent ((r.shufflePeers a .torrent).filter (fun p => eligible S cfg a p && ta.isAllowed S p.addr))
  | _, _ => none

/-- What the loop of the same-country redirect has done: the peers it has dialled, each at a look
    at the clock, and the one that has answered. -/
structure Redirected where
  dialled : List (Nat × Peer)
  peer : Option Peer

def redirectLoop : Nat → List Peer → Redirected
  | _, [] => ⟨[],none⟩
  | n, p :: rest =>
    if a.late .sameCountry n then ⟨[],none⟩
    else if !eligible S cfg a p then redirectLoop (n + 1) rest
    else if a.dials .sameCountry n p then ⟨[(n,p)],some p⟩
    else
      let later := redirectLoop (n + 1) rest
      ⟨(n,p) :: later.dialled,later.peer⟩

def atHome : Bool :=
  clientCC S cfg a ≠ [] && r.myRegion ≠ [] && r.myRegion = clientCC S cfg a

def sameCountry : Redirected :=
  if atHome S cfg a r then redirectLoop S cfg a 0 (r.shufflePeers a .sameCountry) else ⟨[],none⟩

def serviceBlock : Option Peer :=
  match cfg.svcBlocks with
  | none => none
  | some entries =>
    let blocked := isBlockedForRegion S entries host (targetIP host)
    if (r.myRegion ≠ [] ∨ cfg.providerTag ≠ []) ∧ (blocked r.myRegion ∨ blocked cfg.providerTag) then
      dialBestPeer a .serviceBlock
        ((r.shufflePeers a .serviceBlock).filter (fun p => eligible S cfg a p && !blocked p.region))
    else none

def geoPeer : Option Peer :=
  match cfg.cidrCache with
  | none => none
  | some lookupCountry =>
    if r.myRegion ≠ [] ∧ lookupCountry host ≠ [] ∧ lookupCountry host ≠ r.myRegion then
      dialBestPeer a .geo
        ((r.shufflePeers a .geo).filter (fun p => p.region = lookupCountry host && eligible S cfg a p))
    else none

def whitelistPeer : Option Peer :=
  match cfg.wl, cfg.probeDB with
  | some entries, some caps =>
    if isWhitelisted S entries host [] ∧ caps.lookup host = some false then
      dialBestPeer a .whitelist ((r.peersCapableOf a host).filter (eligible S cfg a))
    else none
  | _, _ => none

def redirect : Option Peer :=
  match cfg.peers with
  | none => none
  | some r =>
    if a.noForward then none
    else
      (sameCountry S cfg a r).peer.or ((serviceBlock S cfg a r host).or
        ((geoPeer S cfg a r host).or (whitelistPeer S cfg a r host)))

def fallbackPeer : Option Peer :=
  match cfg.peers with
  | none => none
  | some r =>
    if a.noForward then none
    else dialBestPeer a .fallback ((r.shufflePeers a .fallback).filter (eligible S cfg a))

inductive Route
  | refused
  | peer (p : Peer)
  | primary

def torrentBarred : Bool :=
  !cfg.torrentEgress && (isBitTorrentHandshake payload || isLikelyBitTorrentPort port)

def route (isAnon : Bool) (host : Text) (port : Int) (payload : List UInt8) : Route :=
  if cfg.refuses S isAnon host then .refused
  else if torrentBarred cfg port payload then
    match torrentRedirect S cfg a with
    | some p => .peer p
    | none => .refused
  else
    match redirect S cfg a host with
    | some p => .peer p
    | none => if a.late .primary 0 then .refused else .primary

variable {S cfg a}
variable {host} {isAnon : Bool} {port} {payload}

theorem route_refused (port : Int) (payload : List UInt8)
    (refused : cfg.refuses S isAnon host = true) : route S cfg a isAnon host port payload = .refused := by
  simp [route,refused]

theorem route_torrent
    (barred : torrentBarred cfg port payload = true) : route S cfg a isAnon host port payload ≠ .primary := by
  grind [route]

theorem route_direct
    (accepted : cfg.refuses S isAnon host = false) (plain : torrentBarred cfg port payload = false)
    (noForward : a.noForward = true) (inTime : a.late .primary 0 = false) :
    route S cfg a isAnon host port payload = .primary := by
  grind [redirect,route]

theorem route_accepted {outcome : Route}
    (goes : route S cfg a isAnon host port payload = outcome) (on : outcome ≠ .refused) :
    cfg.refuses S isAnon host = false := by
  grind [route_refused]

theorem allowed_of_accepted (accepted : cfg.refuses S true host = false) :
    ∃ ab, cfg.anonBoot = some ab ∧ isAllowed S ab.entries host (targetIP host) = true := by
  cases found : cfg.anonBoot with
  | none => simp [Config.refuses,found] at accepted
  | some ab =>
    grind [Config.refuses]

theorem isAllowed_mono {entries later : List HostRule} (kept : entries ⊆ later) {host ip : Text}
    (allowed : isAllowed S entries host ip = true) : isAllowed S later host ip = true := by
  obtain ⟨rule,member,applies⟩ := List.any_eq_true.mp allowed
  exact List.any_eq_true.mpr ⟨rule,kept member,applies⟩

end TunnelCat.Egress
