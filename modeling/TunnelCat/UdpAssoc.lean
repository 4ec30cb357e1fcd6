import TunnelCat.Bytes
import TunnelCat.NetIP
import TunnelCat.Runs
import TunnelCat.Table

/-!
The client's relay for UDP (`snc/core/udp_assoc.go`). One socket takes the datagrams of the SOCKS client and
those of the hosts; what reads as a SOCKS5 header is the client's.
-/
namespace TunnelCat.UdpAssoc
open Bytes NetIP Runs List

structure UDPAddr where
  ip : Option IP
  port : Nat
deriving DecidableEq

def UDPAddr.key (a : UDPAddr) : UDPAddr := { a with ip := a.ip.map IP.canonical }

def atypIPv4 : UInt8 := 0x01
def atypDomain : UInt8 := 0x03
def atypIPv6 : UInt8 := 0x04

structure Parsed where
  dst : UDPAddr
  payload : List UInt8
  frag : UInt8

def parsePort (ip : Option IP) (frag : UInt8) (rest : List UInt8) : Option Parsed :=
  if rest.length < 2 then none else some ⟨⟨ip,beNat (rest.take 2)⟩,rest.drop 2,frag⟩

/-- `parseSOCKS5UDPHeader`. The resolver gives the texts of the addresses of a name, and
    none when it fails. -/
def parseSOCKS5UDPHeader (lookupHost : List UInt8 → List String) : List UInt8 → Option Parsed
  | _ :: _ :: frag :: atyp :: rest =>
    if atyp = atypIPv4 then
      if rest.length < 4 then none
      else parsePort (some (.four (BitVec.ofNat 32 (beNat (rest.take 4))))) frag (rest.drop 4)
    else if atyp = atypIPv6 then
      if rest.length < 16 then none
      else parsePort (some (.sixteen (BitVec.ofNat 128 (beNat (rest.take 16))))) frag (rest.drop 16)
    else if atyp = atypDomain then
      match rest with
      | [] => none
      | dlen :: rest =>
        if rest.length < dlen.toNat then none
        else
          match lookupHost (rest.take dlen.toNat) with
          | [] => none
          | addr :: _ => parsePort (parseIP addr.toList) frag (rest.drop dlen.toNat)
    else none
  | _ => none

def buildSOCKS5UDPHeader (src : UDPAddr) (payload : List UInt8) : List UInt8 :=
  match src.ip.map IP.canonical with
  | some (.four addr) => [0,0,0,atypIPv4] ++ beBytes 4 addr.toNat ++ beBytes 2 src.port ++ payload
  | some (.sixteen addr) => [0,0,0,atypIPv6] ++ beBytes 16 addr.toNat ++ beBytes 2 src.port ++ payload
  | none => [0,0,0,atypIPv6] ++ List.replicate 16 0 ++ beBytes 2 src.port ++ payload

def socks5UDPFallbackSent : Nat := 3
def tunnelCBThreshold : Nat := 5
def tunnelCBCooldown : Int := 5 * 1000000000

structure DstStats where
  sentCount : Nat
  recvCount : Nat
  useTunnel : Bool
  tunnelErrStreak : Nat
  tunnelBlockedUntil : Option Int

def DstStats.new : DstStats := ⟨0,0,false,0,none⟩

structure Queued where
  origin : UDPAddr
  payload : List UInt8

structure Worker where
  dst : UDPAddr
  queue : List Queued

structure Session where
  tunnelOnly : Bool
  wildcatDNS : Bool
  blockQUIC : Bool
  stats : Table UDPAddr DstStats
  clientUDPAddr : Option UDPAddr
  tunnelWorkers : Table UDPAddr Worker
  drainActive : List UDPAddr
  fallbacks : List UDPAddr
  stopped : Bool

/-- What the session sends: a client's datagram directly, into the queue of a worker or
    from it through the tunnel, each with the address it came from; or an answer. -/
inductive Sent
  | direct (origin dst : UDPAddr) (payload : List UInt8)
  | enqueued (origin dst : UDPAddr) (payload : List UInt8)
  | tunnelled (origin dst : UDPAddr) (payload : List UInt8)
  | answer (client : UDPAddr) (datagram : List UInt8)

/-- A datagram arrives, a worker sends the first of its queue (with the frames that come
    back, or in vain), a drain brings frames, a fallback probe runs, or the control
    connection closes. -/
inductive Event
  | datagram (src : UDPAddr) (data : List UInt8)
  | work (dst : UDPAddr) (reply : Option (List (List UInt8)))
  | drain (dst : UDPAddr) (frames : List (List UInt8))
  | checkFallback (dst : UDPAddr)
  | close

structure Input where
  now : Int
  lookupHost : List UInt8 → List String
  shouldBypass : UDPAddr → Bool
  event : Event

structure Shown where
  clientUDPAddr : Option UDPAddr
  sent : List Sent

variable (s : Session) (i : Input) (dst : UDPAddr)

def isLANAddress : Bool :=
  match dst.ip with
  | none => false
  | some ip => ip.isLoopback || ip.isLinkLocalUnicast || ip.isPrivate

def Session.statsOf : DstStats := (s.stats.lookup dst.key).getD .new

def goSendViaTunnel (origin dst : UDPAddr) (payload : List UInt8) : Session × List Sent :=
  if (s.statsOf dst).tunnelBlockedUntil.any (fun until_ => i.now < until_) then (s,[])
  else
    let worker := (s.tunnelWorkers.lookup dst.key).getD ⟨dst,[]⟩
    ({ s with tunnelWorkers := s.tunnelWorkers.insert dst.key { worker with queue := worker.queue ++ [⟨origin,payload⟩] } },
      [.enqueued origin dst payload])

def DstStats.count (st : DstStats) : DstStats := if st.useTunnel then st else { st with sentCount := st.sentCount + 1 }

def forwardOutbound (origin dst : UDPAddr) (payload : List UInt8) : Session × List Sent :=
  if (dst.ip.bind IP.to4).isNone then (s,[])
  else if dst.port = 53 then
    if s.wildcatDNS && !s.tunnelOnly then (s,[.direct origin dst payload])
    else goSendViaTunnel s i origin dst payload
  else
    let st := s.statsOf dst
    let s := { s with stats := s.stats.insert dst.key st.count }
    if st.useTunnel || s.tunnelOnly || !(isLANAddress dst || i.shouldBypass dst) then goSendViaTunnel s i origin dst payload
    else
      ({ s with fallbacks := if st.count.sentCount = socks5UDPFallbackSent then dst.key :: s.fallbacks else s.fallbacks },
        [.direct origin dst payload])

def Session.answers (src : UDPAddr) (frames : List (List UInt8)) : List Sent :=
  match s.clientUDPAddr with
  | none => []
  | some client => frames.map (fun frame => .answer client (buildSOCKS5UDPHeader src frame))

def recordRecv (src : UDPAddr) : Session :=
  match s.stats.lookup src.key with
  | none => s
  | some st => { s with stats := s.stats.insert src.key { st with recvCount := st.recvCount + 1 } }

inductive Direction
  | outbound (dst : UDPAddr) (payload : List UInt8)
  | dropped
  | inbound

def Session.direction (data : List UInt8) : Direction :=
  match parseSOCKS5UDPHeader i.lookupHost data with
  | some ⟨dst, payload, frag⟩ =>
    if frag = 0 then if s.blockQUIC && dst.port = 443 then .dropped else .outbound dst payload else .inbound
  | none => .inbound

def relay (src : UDPAddr) (data : List UInt8) : Session × List Sent :=
  match s.direction i data with
  | .outbound dst payload => forwardOutbound { s with clientUDPAddr := some src } i src dst payload
  | .dropped => (s,[])
  | .inbound => (recordRecv s src,s.answers src [data])

def DstStats.attempt (st : DstStats) (now : Int) (ok : Bool) : DstStats :=
  if ok then { st with tunnelErrStreak := 0 }
  else if tunnelCBThreshold ≤ st.tunnelErrStreak + 1 then
    { st with tunnelErrStreak := 0, tunnelBlockedUntil := some (now + tunnelCBCooldown) }
  else { st with tunnelErrStreak := st.tunnelErrStreak + 1 }

def runTunnelWorker (reply : Option (List (List UInt8))) : Session × List Sent :=
  match s.tunnelWorkers.lookup dst.key with
  | some ⟨dst, q :: rest⟩ =>
    let st := (s.statsOf dst).attempt i.now reply.isSome
    let s := { s with
      tunnelWorkers := s.tunnelWorkers.insert dst.key ⟨dst,rest⟩
      stats := s.stats.insert dst.key st
      drainActive := if reply.isSome then dst.key :: s.drainActive else s.drainActive }
    (s,.tunnelled q.origin dst q.payload :: s.answers dst (reply.getD []))
  | _ => (s,[])

def checkFallback (key : UDPAddr) : Session :=
  match s.stats.lookup key with
  | none => s
  | some st =>
    if st.useTunnel || 0 < st.recvCount then s
    else { s with stats := s.stats.insert key { st with useTunnel := true } }

def act : Session × List Sent :=
  match i.event with
  | .datagram src data => relay s i src data
  | .work dst reply => runTunnelWorker s i dst reply
  | .drain dst frames => (s,if dst.key ∈ s.drainActive then s.answers dst frames else [])
  | .checkFallback dst => if dst.key ∈ s.fallbacks then (checkFallback s dst.key,[]) else (s,[])
  | .close => ({ s with stopped := true },[])

def step : Session × Shown :=
  let done := if s.stopped then (s,[]) else act s i
  (done.1,⟨done.1.clientUDPAddr,done.2⟩)

/-- `newUDPAssocSession`; without a bypass manager everything goes through the tunnel. -/
def newUDPAssocSession (bypass wildcatDNS blockQUIC : Bool) : Session :=
  ⟨!bypass,wildcatDNS,blockQUIC,∅,none,∅,[],[],false⟩

section
variable (IsClient : UDPAddr → Prop)

/-- What is forwarded came from the client, and what is answered goes to it. -/
def Sent.Bound : Sent → Prop
  | .direct origin _ _ => IsClient origin
  | .enqueued origin _ _ => IsClient origin
  | .tunnelled origin _ _ => IsClient origin
  | .answer client _ => IsClient client

structure Shown.Bound (o : Shown) : Prop where
  address : ∀ a, o.clientUDPAddr = some a → IsClient a
  sent : ∀ f ∈ o.sent, f.Bound IsClient

/-- No one but the client sends bytes that are taken for the client's. -/
def OnlyClientSpeaks (s : Session) (i : Input) : Prop :=
  ∀ src data dst payload, s.stopped = false → i.event = .datagram src data → s.direction i data = .outbound dst payload →
    IsClient src

structure Session.Bound (s : Session) : Prop where
  address : ∀ a, s.clientUDPAddr = some a → IsClient a
  queued : ∀ k w, s.tunnelWorkers.lookup k = some w → ∀ q ∈ w.queue, IsClient q.origin

variable {IsClient}
variable {s : Session}

theorem Session.Bound.quiet (bound : s.Bound IsClient) :
    s.Bound IsClient ∧ ∀ f ∈ ([] : List Sent), f.Bound IsClient :=
  ⟨bound,fun _ none => by cases none⟩

theorem goSendViaTunnel_bound (bound : s.Bound IsClient) (i : Input) {origin : UDPAddr}
    (client : IsClient origin) (dst : UDPAddr) (payload : List UInt8) :
    (goSendViaTunnel s i origin dst payload).1.Bound IsClient ∧
      ∀ f ∈ (goSendViaTunnel s i origin dst payload).2, f.Bound IsClient := by
  unfold goSendViaTunnel
  split_ifs
  · exact bound.quiet
  · refine ⟨⟨bound.address,?_⟩,?_⟩
    · intro k w found q member
      rcases Table.of_lookup_insert found with ⟨_,rfl⟩ | ⟨_,old⟩
      · rcases mem_append.mp member with earlier | new
        · -- the queue of the worker that was there, if one was
          cases there : s.tunnelWorkers.lookup dst.key with
          | none => simp [there] at earlier
          | some w =>
            rw [there] at earlier
            exact bound.queued _ w there q earlier
        · rw [mem_singleton.mp new]
          exact client
      · exact bound.queued k w old q member
    · intro f member
      rw [mem_singleton.mp member]
      exact client

theorem forwardOutbound_bound (bound : s.Bound IsClient) (i : Input) {origin : UDPAddr}
    (client : IsClient origin) (dst : UDPAddr) (payload : List UInt8) :
    (forwardOutbound s i origin dst payload).1.Bound IsClient ∧
      ∀ f ∈ (forwardOutbound s i origin dst payload).2, f.Bound IsClient := by
  have sends : ∀ f ∈ [Sent.direct origin dst payload], f.Bound IsClient := by
    intro f member
    rw [mem_singleton.mp member]
    exact client
  unfold forwardOutbound
  dsimp only
  split_ifs
  · exact bound.quiet
  · exact ⟨bound,sends⟩
  · exact goSendViaTunnel_bound bound i client dst payload
  · refine goSendViaTunnel_bound ?_ i client dst payload
    exact ⟨bound.address,bound.queued⟩
  · exact ⟨⟨bound.address,bound.queued⟩,sends⟩
  · exact ⟨⟨bound.address,bound.queued⟩,sends⟩

theorem answers_bound (address : ∀ a, s.clientUDPAddr = some a → IsClient a) (src : UDPAddr)
    (frames : List (List UInt8)) : ∀ f ∈ s.answers src frames, f.Bound IsClient := by
  intro f member
  unfold Session.answers at member
  cases known : s.clientUDPAddr with
  | none => simp [known] at member
  | some a =>
    simp only [known,mem_map] at member
    obtain ⟨_,_,rfl⟩ := member
    exact address a known

theorem recordRecv_bound (bound : s.Bound IsClient) (src : UDPAddr) : (recordRecv s src).Bound IsClient := by
  unfold recordRecv
  cases s.stats.lookup src.key <;> exact ⟨bound.address,bound.queued⟩

theorem runTunnelWorker_bound (bound : s.Bound IsClient) (i : Input) (dst : UDPAddr)
    (reply : Option (List (List UInt8))) :
    (runTunnelWorker s i dst reply).1.Bound IsClient ∧ ∀ f ∈ (runTunnelWorker s i dst reply).2, f.Bound IsClient := by
  unfold runTunnelWorker
  split
  · next dst' q rest found =>
    have queue := bound.queued _ _ found
    refine ⟨⟨bound.address,?_⟩,?_⟩
    · grind [bound.queued]
    · intro f member
      rcases mem_cons.mp member with rfl | later
      · exact queue q mem_cons_self
      · exact answers_bound bound.address dst' (reply.getD []) f later
  · exact bound.quiet

theorem checkFallback_bound (bound : s.Bound IsClient) (key : UDPAddr) :
    (checkFallback s key).Bound IsClient := by
  unfold checkFallback
  cases s.stats.lookup key with
  | none => exact bound
  | some st =>
    dsimp only
    split_ifs <;> exact ⟨bound.address,bound.queued⟩

theorem relay_bound (bound : s.Bound IsClient) (i : Input) (src : UDPAddr) (data : List UInt8)
    (speaks : ∀ dst payload, s.direction i data = .outbound dst payload → IsClient src) :
    (relay s i src data).1.Bound IsClient ∧ ∀ f ∈ (relay s i src data).2, f.Bound IsClient := by
  unfold relay
  cases way : s.direction i data with
  | outbound dst payload =>
    have client := speaks dst payload way
    refine forwardOutbound_bound ?_ i client dst payload
    refine ⟨?_,bound.queued⟩
    intro a is
    cases is
    exact client
  | dropped => exact bound.quiet
  | inbound => grind [recordRecv_bound,answers_bound,bound.address]

theorem step_bound (bound : s.Bound IsClient) {i : Input} (speaks : OnlyClientSpeaks IsClient s i) :
    (step s i).1.Bound IsClient ∧ (step s i).2.Bound IsClient := by
  have done : (if s.stopped then (s,[]) else act s i).1.Bound IsClient ∧
      ∀ f ∈ (if s.stopped then (s,[]) else act s i).2, f.Bound IsClient := by
    cases running : s.stopped with
    | true => exact bound.quiet
    | false =>
      simp only [Bool.false_eq_true,if_false,act]
      cases event : i.event with
      | datagram src data =>
        exact relay_bound bound i src data (fun dst payload => speaks src data dst payload running event)
      | work dst reply => exact runTunnelWorker_bound bound i dst reply
      | drain dst frames =>
        grind [answers_bound,bound.address]
      | checkFallback dst =>
        grind [checkFallback_bound]
      | close => exact ⟨⟨bound.address,bound.queued⟩,fun _ none => by cases none⟩
  exact ⟨done.1,⟨done.1.address,done.2⟩⟩

theorem goSendViaTunnel_address (s : Session) (i : Input) (origin dst : UDPAddr) (payload : List UInt8) :
    (goSendViaTunnel s i origin dst payload).1.clientUDPAddr = s.clientUDPAddr := by
  unfold goSendViaTunnel
  split_ifs <;> rfl

theorem forwardOutbound_address (s : Session) (i : Input) (origin dst : UDPAddr) (payload : List UInt8) :
    (forwardOutbound s i origin dst payload).1.clientUDPAddr = s.clientUDPAddr := by
  grind [forwardOutbound,goSendViaTunnel_address]

theorem speaks_of_bound {i : Input} (bound : (step s i).2.Bound IsClient) : OnlyClientSpeaks IsClient s i := by
  intro src data dst payload running event way
  grind [bound.address,step,act,relay,forwardOutbound_address]

/-- In every run, the session knows no address but the client's, forwards nothing that did
    not come from it and answers no one else, exactly when no one else sends bytes that
    read as a header. -/
theorem client_bound_iff (IsClient : UDPAddr → Prop) (bypass wildcatDNS blockQUIC : Bool) (inputs : List Input) :
    (∀ o ∈ trace step (newUDPAssocSession bypass wildcatDNS blockQUIC) inputs, o.Bound IsClient) ↔
      Along step (OnlyClientSpeaks IsClient) (newUDPAssocSession bypass wildcatDNS blockQUIC) inputs := by
  have kept : ∀ (s : Session) (i : Input), s.Bound IsClient → OnlyClientSpeaks IsClient s i →
      (step s i).1.Bound IsClient ∧ (step s i).2.Bound IsClient := fun _ _ bound speaks => step_bound bound speaks
  refine outputs_iff_along kept (fun _ _ _ shown => speaks_of_bound shown) inputs _ ?_
  constructor
  · intro a is
    cases is
  · intro k w found
    cases found

end

def crafted : Input where
  now := 0
  lookupHost _ := []
  shouldBypass _ := false
  event := .datagram ⟨some (.four 0x01010101#32),9999⟩ [0,0,0,1,8,8,8,8,0,80,0x68,0x69]

/-- A remote host makes itself the client and has its bytes forwarded where it wants. -/
theorem remote_host_forwarded :
    ¬ ∀ (client : UDPAddr) (bypass wildcatDNS blockQUIC : Bool) (inputs : List Input),
      ∀ o ∈ trace step (newUDPAssocSession bypass wildcatDNS blockQUIC) inputs, o.Bound (· = client) := by
  intro holds
  let remote : UDPAddr := ⟨some (.four 0x01010101#32),9999⟩
  let o : Shown := ⟨some remote,[.enqueued remote ⟨some (.four 0x08080808#32),80⟩ [0x68,0x69]]⟩
  have shown : trace step (newUDPAssocSession true false false) [crafted] = [o] := rfl
  have bound := holds ⟨some (.four 0x7f000001#32),5000⟩ true false false [crafted] o
    (by rw [shown]; exact mem_cons_self)
  exact absurd (bound.sent _ mem_cons_self) (by simp [Sent.Bound,remote])

end TunnelCat.UdpAssoc
