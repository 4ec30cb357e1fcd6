import TunnelCat.Ideal
import TunnelCat.Nodes

/-!
The signed node lists of the arbiter (`snc-arbiter/signing.go`, `handler.go`, `manifest_client_api.go`,
`torrent_magnets.go`) and the client's check of a manifest (`snc/core/discovery.go`). The client puts
the torrent fields into the document it verifies, although the arbiter does not sign them. So a
manifest with a magnet is refused, and the list that is published as a torrent is for its type.
-/
namespace TunnelCat.Manifest
open Nodes

structure NodeEntry where
  addr : String
  fingerprint : String
  rttMs : Rat
  load : Rat
  dataPlaneOK : Option Bool
deriving DecidableEq

namespace NodeEntry

def zero : NodeEntry := ⟨"","",0,0,none⟩

def fields : List (Field NodeEntry) :=
  [.always "addr" Codec.string NodeEntry.addr,
   .omitempty "fingerprint" Codec.string NodeEntry.fingerprint,
   .omitempty "rtt_ms" Codec.float64 NodeEntry.rttMs,
   .omitempty "load" Codec.float64 NodeEntry.load,
   .omitempty "data_plane_ok" Codec.flag NodeEntry.dataPlaneOK]

def decode : Json.Decoder NodeEntry := fun old doc =>
  let addr := doc.field "addr" Json.string old.addr
  let fingerprint := doc.field "fingerprint" Json.string old.fingerprint
  let rttMs := doc.field "rtt_ms" Json.float64 old.rttMs
  let load := doc.field "load" Json.float64 old.load
  let dataPlaneOK := doc.field "data_plane_ok" (Json.pointer Json.boolean false) old.dataPlaneOK
  ⟨⟨addr.value,fingerprint.value,rttMs.value,load.value,dataPlaneOK.value⟩,
    addr.ok && fingerprint.ok && rttMs.ok && load.ok && dataPlaneOK.ok⟩

theorem fields_distinct : Json.Distinct fields := by decide

theorem decode_marshal (e : NodeEntry) : decode zero (Json.marshal fields e) = ⟨e,true⟩ := by
  have addr := Json.always_read fields_distinct 0 rfl e
  have fingerprint := Json.omitempty_read fields_distinct 1 rfl e
  have rttMs := Json.omitempty_read fields_distinct 2 rfl e
  have load := Json.omitempty_read fields_distinct 3 rfl e
  have dataPlaneOK := Json.omitempty_read fields_distinct 4 rfl e
  simp only [Codec.string,Codec.float64,Codec.flag] at *
  simp only [decode,zero,addr,fingerprint,rttMs,load,dataPlaneOK,Bool.and_self]

def codec : Codec NodeEntry where
  encode := Json.marshal fields
  decode := decode
  zero := zero
  empty _ := false
  decode_encode := decode_marshal
  empty_zero _ same := absurd same (by simp)

end NodeEntry

structure NotificationEntry where
  id : String
  message : String
  createdAt : Int64

namespace NotificationEntry

def zero : NotificationEntry := ⟨"","",0⟩

def fields : List (Field NotificationEntry) :=
  [.always "id" Codec.string NotificationEntry.id,
   .always "message" Codec.string NotificationEntry.message,
   .always "created_at" Codec.int64 NotificationEntry.createdAt]

def decode : Json.Decoder NotificationEntry := fun old doc =>
  let id := doc.field "id" Json.string old.id
  let message := doc.field "message" Json.string old.message
  let createdAt := doc.field "created_at" Json.int64 old.createdAt
  ⟨⟨id.value,message.value,createdAt.value⟩,id.ok && message.ok && createdAt.ok⟩

theorem fields_distinct : Json.Distinct fields := by decide

theorem decode_marshal (e : NotificationEntry) : decode zero (Json.marshal fields e) = ⟨e,true⟩ := by
  have id := Json.always_read fields_distinct 0 rfl e
  have message := Json.always_read fields_distinct 1 rfl e
  have createdAt := Json.always_read fields_distinct 2 rfl e
  simp only [Codec.string,Codec.int64] at *
  simp only [decode,zero,id,message,createdAt,Bool.and_self]

def codec : Codec NotificationEntry where
  encode := Json.marshal fields
  decode := decode
  zero := zero
  empty _ := false
  decode_encode := decode_marshal
  empty_zero _ same := absurd same (by simp)

end NotificationEntry

structure SignedList where
  type : String
  ts : Int64
  nodes : List NodeEntry
  sig : String
  regions : Dict String
  relayEnabled : Option Bool
  notifications : List NotificationEntry
  nodeSNIs : Dict (List String)
  excluded : List String
  nodeWLWTPPorts : Dict (List Int64)
  selfRegion : String
  ipv6Enabled : Option Bool
  navlinkMirrors : List String
  torrentEnabled : Option Bool
  torrentMagnets : Dict String
  torrentManifestMagnet : String

namespace SignedList

def payload : List (Field SignedList) :=
  [.always "type" Codec.string SignedList.type,
   .always "ts" Codec.int64 SignedList.ts,
   .always "nodes" (Codec.slice NodeEntry.codec) SignedList.nodes]

def fields : List (Field SignedList) :=
  payload ++
    [.always "sig" Codec.string SignedList.sig,
     .omitempty "regions" (Codec.dict Codec.string) SignedList.regions,
     .omitempty "relay_enabled" Codec.flag SignedList.relayEnabled,
     .omitempty "notifications" (Codec.slice NotificationEntry.codec) SignedList.notifications,
     .omitempty "node_snis" (Codec.dict (Codec.slice Codec.string)) SignedList.nodeSNIs,
     .omitempty "excluded" (Codec.slice Codec.string) SignedList.excluded,
     .omitempty "node_wlwtp_ports" (Codec.dict (Codec.slice Codec.int64)) SignedList.nodeWLWTPPorts,
     .omitempty "self_region" Codec.string SignedList.selfRegion,
     .omitempty "ipv6_enabled" Codec.flag SignedList.ipv6Enabled,
     .omitempty "navlink_mirrors" (Codec.slice Codec.string) SignedList.navlinkMirrors,
     .omitempty "torrent_enabled" Codec.flag SignedList.torrentEnabled,
     .omitempty "torrent_magnets" (Codec.dict Codec.string) SignedList.torrentMagnets,
     .omitempty "torrent_manifest_magnet" Codec.string SignedList.torrentManifestMagnet]

def unmarshal (doc : Json) : Option SignedList :=
  let type := doc.field "type" Codec.string.decode ""
  let ts := doc.field "ts" Codec.int64.decode 0
  let nodes := doc.field "nodes" (Codec.slice NodeEntry.codec).decode []
  let sig := doc.field "sig" Codec.string.decode ""
  let regions := doc.field "regions" (Codec.dict Codec.string).decode Dict.empty
  let relayEnabled := doc.field "relay_enabled" Codec.flag.decode none
  let notifications := doc.field "notifications" (Codec.slice NotificationEntry.codec).decode []
  let nodeSNIs := doc.field "node_snis" (Codec.dict (Codec.slice Codec.string)).decode Dict.empty
  let excluded := doc.field "excluded" (Codec.slice Codec.string).decode []
  let nodeWLWTPPorts := doc.field "node_wlwtp_ports" (Codec.dict (Codec.slice Codec.int64)).decode Dict.empty
  let selfRegion := doc.field "self_region" Codec.string.decode ""
  let ipv6Enabled := doc.field "ipv6_enabled" Codec.flag.decode none
  let navlinkMirrors := doc.field "navlink_mirrors" (Codec.slice Codec.string).decode []
  let torrentEnabled := doc.field "torrent_enabled" Codec.flag.decode none
  let torrentMagnets := doc.field "torrent_magnets" (Codec.dict Codec.string).decode Dict.empty
  let torrentManifestMagnet := doc.field "torrent_manifest_magnet" Codec.string.decode ""
  if type.ok && ts.ok && nodes.ok && sig.ok && regions.ok && relayEnabled.ok && notifications.ok && nodeSNIs.ok &&
      excluded.ok && nodeWLWTPPorts.ok && selfRegion.ok && ipv6Enabled.ok && navlinkMirrors.ok && torrentEnabled.ok &&
      torrentMagnets.ok && torrentManifestMagnet.ok then
    some ⟨type.value,ts.value,nodes.value,sig.value,regions.value,relayEnabled.value,notifications.value,
      nodeSNIs.value,excluded.value,nodeWLWTPPorts.value,selfRegion.value,ipv6Enabled.value,navlinkMirrors.value,
      torrentEnabled.value,torrentMagnets.value,torrentManifestMagnet.value⟩
  else none

theorem fields_distinct : Json.Distinct fields := by decide

theorem unmarshal_marshal (m : SignedList) : unmarshal (Json.marshal fields m) = some m := by
  have type := Json.always_read fields_distinct 0 rfl m
  have ts := Json.always_read fields_distinct 1 rfl m
  have nodes := Json.always_read fields_distinct 2 rfl m
  have sig := Json.always_read fields_distinct 3 rfl m
  have regions := Json.omitempty_read fields_distinct 4 rfl m
  have relayEnabled := Json.omitempty_read fields_distinct 5 rfl m
  have notifications := Json.omitempty_read fields_distinct 6 rfl m
  have nodeSNIs := Json.omitempty_read fields_distinct 7 rfl m
  have excluded := Json.omitempty_read fields_distinct 8 rfl m
  have nodeWLWTPPorts := Json.omitempty_read fields_distinct 9 rfl m
  have selfRegion := Json.omitempty_read fields_distinct 10 rfl m
  have ipv6Enabled := Json.omitempty_read fields_distinct 11 rfl m
  have navlinkMirrors := Json.omitempty_read fields_distinct 12 rfl m
  have torrentEnabled := Json.omitempty_read fields_distinct 13 rfl m
  have torrentMagnets := Json.omitempty_read fields_distinct 14 rfl m
  have torrentManifestMagnet := Json.omitempty_read fields_distinct 15 rfl m
  simp only [Codec.string_zero,Codec.int64_zero,Codec.slice_zero,Codec.dict_zero,Codec.flag_zero] at *
  simp only [unmarshal,type,ts,nodes,sig,regions,relayEnabled,notifications,nodeSNIs,excluded,nodeWLWTPPorts,
    selfRegion,ipv6Enabled,navlinkMirrors,torrentEnabled,torrentMagnets,torrentManifestMagnet,Bool.and_self,if_true]

end SignedList

structure SignedManifest where
  type : String
  ts : Int64
  nodes : List NodeEntry
  sig : String
  regions : Dict String
  notifications : List NotificationEntry
  nodeSNIs : Dict (List String)
  excluded : List String
  nodeWLWTPPorts : Dict (List Int64)
  ipv6Enabled : Option Bool
  navlinkMirrors : List String
  torrentEnabled : Option Bool
  torrentMagnets : Dict String
  torrentManifestMagnet : String
  torrentHashes : Dict String

namespace SignedManifest

def payload : List (Field SignedManifest) :=
  [.always "type" Codec.string SignedManifest.type,
   .always "ts" Codec.int64 SignedManifest.ts,
   .always "nodes" (Codec.slice NodeEntry.codec) SignedManifest.nodes,
   .omitempty "torrent_magnets" (Codec.dict Codec.string) SignedManifest.torrentMagnets,
   .omitempty "torrent_manifest_magnet" Codec.string SignedManifest.torrentManifestMagnet,
   .omitempty "torrent_hashes" (Codec.dict Codec.string) SignedManifest.torrentHashes]

def unmarshal (doc : Json) : Option SignedManifest :=
  let type := doc.field "type" Codec.string.decode ""
  let ts := doc.field "ts" Codec.int64.decode 0
  let nodes := doc.field "nodes" (Codec.slice NodeEntry.codec).decode []
  let sig := doc.field "sig" Codec.string.decode ""
  let regions := doc.field "regions" (Codec.dict Codec.string).decode Dict.empty
  let notifications := doc.field "notifications" (Codec.slice NotificationEntry.codec).decode []
  let nodeSNIs := doc.field "node_snis" (Codec.dict (Codec.slice Codec.string)).decode Dict.empty
  let excluded := doc.field "excluded" (Codec.slice Codec.string).decode []
  let nodeWLWTPPorts := doc.field "node_wlwtp_ports" (Codec.dict (Codec.slice Codec.int64)).decode Dict.empty
  let ipv6Enabled := doc.field "ipv6_enabled" Codec.flag.decode none
  let navlinkMirrors := doc.field "navlink_mirrors" (Codec.slice Codec.string).decode []
  let torrentEnabled := doc.field "torrent_enabled" Codec.flag.decode none
  let torrentMagnets := doc.field "torrent_magnets" (Codec.dict Codec.string).decode Dict.empty
  let torrentManifestMagnet := doc.field "torrent_manifest_magnet" Codec.string.decode ""
  let torrentHashes := doc.field "torrent_hashes" (Codec.dict Codec.string).decode Dict.empty
  if type.ok && ts.ok && nodes.ok && sig.ok && regions.ok && notifications.ok && nodeSNIs.ok && excluded.ok &&
      nodeWLWTPPorts.ok && ipv6Enabled.ok && navlinkMirrors.ok && torrentEnabled.ok && torrentMagnets.ok &&
      torrentManifestMagnet.ok && torrentHashes.ok then
    some ⟨type.value,ts.value,nodes.value,sig.value,regions.value,notifications.value,nodeSNIs.value,excluded.value,
      nodeWLWTPPorts.value,ipv6Enabled.value,navlinkMirrors.value,torrentEnabled.value,torrentMagnets.value,
      torrentManifestMagnet.value,torrentHashes.value⟩
  else none

def ofList (m : SignedList) : SignedManifest :=
  ⟨m.type,m.ts,m.nodes,m.sig,m.regions,m.notifications,m.nodeSNIs,m.excluded,m.nodeWLWTPPorts,m.ipv6Enabled,
    m.navlinkMirrors,m.torrentEnabled,m.torrentMagnets,m.torrentManifestMagnet,Dict.empty⟩

open SignedList (fields fields_distinct) in
theorem unmarshal_list (m : SignedList) : unmarshal (Json.marshal fields m) = some (ofList m) := by
  have type := Json.always_read fields_distinct 0 rfl m
  have ts := Json.always_read fields_distinct 1 rfl m
  have nodes := Json.always_read fields_distinct 2 rfl m
  have sig := Json.always_read fields_distinct 3 rfl m
  have regions := Json.omitempty_read fields_distinct 4 rfl m
  have notifications := Json.omitempty_read fields_distinct 6 rfl m
  have nodeSNIs := Json.omitempty_read fields_distinct 7 rfl m
  have excluded := Json.omitempty_read fields_distinct 8 rfl m
  have nodeWLWTPPorts := Json.omitempty_read fields_distinct 9 rfl m
  have ipv6Enabled := Json.omitempty_read fields_distinct 11 rfl m
  have navlinkMirrors := Json.omitempty_read fields_distinct 12 rfl m
  have torrentEnabled := Json.omitempty_read fields_distinct 13 rfl m
  have torrentMagnets := Json.omitempty_read fields_distinct 14 rfl m
  have torrentManifestMagnet := Json.omitempty_read fields_distinct 15 rfl m
  have unwritten : ∀ f ∈ fields, Json.foldName f.name ≠ Json.foldName "torrent_hashes" := by decide
  have torrentHashes := Json.field_absent unwritten (Codec.dict Codec.string).decode Dict.empty m
  simp only [Codec.string_zero,Codec.int64_zero,Codec.slice_zero,Codec.dict_zero,Codec.flag_zero] at *
  simp only [unmarshal,ofList,type,ts,nodes,sig,regions,notifications,nodeSNIs,excluded,nodeWLWTPPorts,ipv6Enabled,
    navlinkMirrors,torrentEnabled,torrentMagnets,torrentManifestMagnet,torrentHashes,Bool.and_self,if_true]

end SignedManifest

inductive VerifyError
  | parse
  | unexpectedType (type : String)
  | signature
  | noControlNodes

/-- The text of an error, up to what the JSON reader adds to it and the quoting of the type. -/
def VerifyError.text : VerifyError → String
  | .parse => "parse"
  | .unexpectedType type => "unexpected manifest type " ++ type
  | .signature => "signature verification failed"
  | .noControlNodes => "manifest contains no control nodes"

structure Verified where
  addrs : List String
  regions : Dict String
  notifications : List NotificationEntry
  nodeSNIs : Dict (List String)
  nodeWLWTPPorts : Dict (List Int64)
  fingerprints : Dict String
  loadFactors : Dict Rat
  ipv6Enabled : Option Bool
  navlinkMirrors : List String
  torrentEnabled : Option Bool
  torrentMagnets : Dict String
  manifestTorrentMagnet : String
  torrentHashes : Dict String

section
variable (S : Signatures Json)

def signatureOK (pubkey : Option S.Public) (m : SignedManifest) : Bool :=
  match pubkey with
  | none => true
  | some pub =>
    match S.readSig m.sig with
    | none => false
    | some sig => S.verify pub (Json.marshal SignedManifest.payload m) sig

def usable (m : SignedManifest) : List NodeEntry :=
  m.nodes.filter (fun n => n.addr ≠ "" && !m.excluded.contains n.addr)

def verify (pubkey : Option S.Public) (data : Json) : Except VerifyError Verified :=
  match SignedManifest.unmarshal data with
  | none => .error .parse
  | some m =>
    if m.type ≠ "manifest" then .error (.unexpectedType m.type)
    else if !signatureOK S pubkey m then .error .signature
    else
      let addrs := (usable m).map NodeEntry.addr
      let fingerprints := (usable m).foldl
        (fun d n => if n.fingerprint ≠ "" then d.insert n.addr n.fingerprint else d) Dict.empty
      let loadFactors := (usable m).foldl (fun d n => if 0 < n.load then d.insert n.addr n.load else d) Dict.empty
      if addrs.isEmpty then .error .noControlNodes
      else .ok ⟨addrs,m.regions,m.notifications,m.nodeSNIs,m.nodeWLWTPPorts,fingerprints,loadFactors,m.ipv6Enabled,
        m.navlinkMirrors,m.torrentEnabled,m.torrentMagnets,m.torrentManifestMagnet,m.torrentHashes⟩

def Accepted (pubkey : Option S.Public) (data : Json) : Prop := ∃ v, verify S pubkey data = .ok v

variable {S}

theorem accepted_iff {pubkey : Option S.Public} {data : Json} {m : SignedManifest}
    (read : SignedManifest.unmarshal data = some m) :
    Accepted S pubkey data ↔ m.type = "manifest" ∧ signatureOK S pubkey m = true ∧
      ∃ n ∈ m.nodes, n.addr ≠ "" ∧ n.addr ∉ m.excluded := by
  have left : (∃ n ∈ m.nodes, n.addr ≠ "" ∧ n.addr ∉ m.excluded) ↔ (usable m).isEmpty = false := by
    simp [usable]
  rw [left]
  unfold Accepted verify
  rw [read]
  dsimp only
  by_cases type : m.type = "manifest"
  · rw [if_neg (not_not_intro type)]
    cases signature : signatureOK S pubkey m with
    | false => simp
    | true =>
      cases nodes : usable m with
      | nil => simp
      | cons n rest => simp [type]
  · simp [type]

end

def entryOf (n : Node) : NodeEntry := ⟨n.addr,n.fingerprint,n.rttMs,n.load,n.dataPlaneOK⟩

def unsignedList (now : Int64) (type : String) (nodes : List Node) (regionFn : String → String) : SignedList where
  type := type
  ts := now
  nodes := nodes.map entryOf
  sig := ""
  regions := nodes.foldl
    (fun d n => if regionFn n.addr ≠ "" then d.insert n.addr (regionFn n.addr) else d) Dict.empty
  relayEnabled := none
  notifications := []
  nodeSNIs := Dict.empty
  excluded := []
  nodeWLWTPPorts := Dict.empty
  selfRegion := ""
  ipv6Enabled := none
  navlinkMirrors := []
  torrentEnabled := none
  torrentMagnets := Dict.empty
  torrentManifestMagnet := ""

section
variable (S : Signatures Json)

def signedList (priv : S.Secret) (now : Int64) (type : String) (nodes : List Node) (regionFn : String → String) :
    SignedList :=
  let out := unsignedList now type nodes regionFn
  { out with sig := S.sigText (S.sign priv (Json.marshal SignedList.payload out)) }

def signList (priv : S.Secret) (now : Int64) (type : String) (nodes : List Node) (regionFn : String → String) : Json :=
  Json.marshal SignedList.fields (signedList S priv now type nodes regionFn)

/-- What the arbiter's handlers work with. `regionOf` is the CIDR lookup of an
    address and `validate` the user of a session, empty for none. -/
structure Handler where
  signer : S.Secret
  db : DB
  env : Env
  regionOf : String → String
  validate : String → String
  notifCache : List NotificationEntry
  ipv6Enabled : Bool
  torrentEnabled : Bool
  softwareMagnets : Dict String
  manifestMagnet : String
  clientTelemetryKey : String

structure Refusal where
  status : Nat
  message : String

/-- An answer, and the rows of the node table that it was made from. -/
structure Served where
  body : Json
  rows : List Node

end

def isSpace (c : Char) : Bool :=
  (9 ≤ c.toNat && c.toNat ≤ 13) || (0x2000 ≤ c.toNat && c.toNat ≤ 0x200a) ||
    [0x20,0x85,0xa0,0x1680,0x2028,0x2029,0x202f,0x205f,0x3000].contains c.toNat

def trimSpace (cs : List Char) : List Char := ((cs.dropWhile isSpace).reverse.dropWhile isSpace).reverse

def splitSNIList (s : String) : List String :=
  (((s.toList.splitOn ',').map trimSpace).filter (fun cs => cs ≠ [])).map String.ofList

def sniMap (selected : List Node) : Dict (List String) :=
  selected.foldl (fun d n =>
    if n.sniList = "" || (splitSNIList n.sniList).isEmpty then d else d.insert n.addr (splitSNIList n.sniList))
    Dict.empty

def portMap (ports : Dict (List Int64)) (selected : List Node) : Dict (List Int64) :=
  selected.foldl (fun d n =>
    match ports.lookup n.addr with
    | some pts => if pts.isEmpty then d else d.insert n.addr pts
    | none => d) Dict.empty

namespace Handler
variable {S : Signatures Json} (h : Handler S)

def regionFnWithOverrides (nodes : List Node) (addr : String) : String :=
  let overrides := nodes.foldl (fun d n => if n.regionOverride ≠ "" then d.insert n.addr n.regionOverride else d)
    Dict.empty
  match overrides.lookup addr with
  | some v => v
  | none => h.regionOf addr

def notificationsFor (session : String) : List NotificationEntry :=
  if session = "" || h.validate session = "" then h.notifCache
  else
    match activeNotifications h.env h.db (h.validate session) with
    | none => h.notifCache
    | some rows => rows.map (fun n => ⟨n.id,n.message,n.createdAt⟩)

def excludedAddrs : List String := (listExcludedNodes h.env h.db).getD []

def mirrors : List Node := (liveNodes h.env h.db .navlinkMirror).getD []

def addNavlinkMirrors (m : SignedList) : SignedList :=
  if h.mirrors.isEmpty then m else { m with navlinkMirrors := h.mirrors.map Node.addr }

def checkClientOrLegacyKey (authorization legacy : String) : Bool :=
  if authorization = "" then false
  else if h.clientTelemetryKey ≠ "" && authorization = "Bearer " ++ h.clientTelemetryKey then true
  else legacy ≠ "" && authorization = "Bearer " ++ legacy

def checkManifestClientKey (authorization : String) : Bool :=
  h.checkClientOrLegacyKey authorization h.clientTelemetryKey

def apiNodes : Except Refusal Served :=
  match liveNodes h.env h.db .control with
  | none => .error ⟨500,"internal error"⟩
  | some controls =>
    .ok ⟨signList S h.signer h.env.now "controls" controls (h.regionFnWithOverrides controls),controls⟩

def apiManifest (token session : String) : Except Refusal Served :=
  if token = "" then .error ⟨401,"X-Node-Token required"⟩
  else
    match nodeByToken h.env h.db token with
    | some (some node) =>
      if node.type ≠ .exit then .error ⟨401,"unauthorized"⟩
      else
        match liveNodes h.env h.db .control with
        | none => .error ⟨500,"internal error"⟩
        | some controls =>
          let selected := selectManifestNodes h.env controls maxManifestNodes
          let data := signList S h.signer h.env.now "manifest" selected (h.regionFnWithOverrides controls)
          match SignedList.unmarshal data with
          | none => .ok ⟨data,selected⟩
          | some m =>
            let notifs := h.notificationsFor session
            let nodeSNIs := sniMap selected
            .ok ⟨Json.marshal SignedList.fields
              { m with
                ipv6Enabled := some h.ipv6Enabled
                notifications := if notifs.isEmpty then m.notifications else notifs
                nodeSNIs := if nodeSNIs.entries.isEmpty then m.nodeSNIs else nodeSNIs
                excluded := if h.excludedAddrs.isEmpty then m.excluded else h.excludedAddrs },selected⟩
    | _ => .error ⟨401,"unauthorized"⟩

structure FetchRequest where
  authorization : String
  session : String
  allowed : Bool

def advise (r : FetchRequest) (selected : List Node) (m : SignedList) : SignedList :=
  let notifs := h.notificationsFor r.session
  let nodeSNIs := sniMap selected
  let ports := portMap ((allWLWTPPorts h.env h.db).getD Dict.empty) selected
  h.addNavlinkMirrors
    { m with
      ipv6Enabled := some h.ipv6Enabled
      torrentEnabled := some h.torrentEnabled
      torrentMagnets := h.softwareMagnets
      torrentManifestMagnet := h.manifestMagnet
      notifications := if notifs.isEmpty then m.notifications else notifs
      nodeSNIs := if nodeSNIs.entries.isEmpty then m.nodeSNIs else nodeSNIs
      excluded := if h.excludedAddrs.isEmpty then m.excluded else h.excludedAddrs
      nodeWLWTPPorts := if ports.entries.isEmpty then m.nodeWLWTPPorts else ports }

def apiManifestClientFetch (r : FetchRequest) : Except Refusal Served :=
  if !h.checkManifestClientKey r.authorization then .error ⟨401,"unauthorized"⟩
  else if !r.allowed then .error ⟨429,"too many requests"⟩
  else
    match liveNodes h.env h.db .control with
    | none => .error ⟨500,"internal error"⟩
    | some controls =>
      let selected := selectManifestNodes h.env controls maxManifestNodes
      let data := signList S h.signer h.env.now "manifest" selected (h.regionFnWithOverrides controls)
      match SignedList.unmarshal data with
      | none => .ok ⟨data,selected⟩
      | some m => .ok ⟨Json.marshal SignedList.fields (h.advise r selected m),selected ++ h.mirrors⟩

def publishManifestTorrent : Option Json :=
  (liveNodes h.env h.db .control).map (fun controls =>
    signList S h.signer h.env.now "controls" controls (h.regionFnWithOverrides controls))

/-- The ways on which a signed control list reaches clients. -/
inductive Path
  | clientFetch (r : FetchRequest)
  | torrent

def served : Path → Option Json
  | .clientFetch r => (h.apiManifestClientFetch r).toOption.map Served.body
  | .torrent => h.publishManifestTorrent

end Handler

theorem signList_read (S : Signatures Json) (priv : S.Secret) (now : Int64) (type : String) (nodes : List Node)
    (regionFn : String → String) :
    SignedList.unmarshal (signList S priv now type nodes regionFn) = some (signedList S priv now type nodes regionFn) :=
  SignedList.unmarshal_marshal _

theorem payload_eq_iff {m : SignedManifest} {l : SignedList} (type : m.type = l.type) (ts : m.ts = l.ts)
    (nodes : m.nodes = l.nodes) (hashes : m.torrentHashes = Dict.empty) :
    Json.marshal SignedList.payload l = Json.marshal SignedManifest.payload m ↔
      m.torrentMagnets = Dict.empty ∧ m.torrentManifestMagnet = "" := by
  have noHashes : (Codec.dict Codec.string).empty m.torrentHashes = true := by rw [hashes]; rfl
  have magnets : (Codec.dict Codec.string).empty m.torrentMagnets = true ↔ m.torrentMagnets = Dict.empty := by
    grind [Codec.dict]
  have magnet : Codec.string.empty m.torrentManifestMagnet = true ↔ m.torrentManifestMagnet = "" := by
    simp [Codec.string]
  rw [← magnets,← magnet]
  cases first : (Codec.dict Codec.string).empty m.torrentMagnets <;>
    cases second : Codec.string.empty m.torrentManifestMagnet <;>
      simp [Json.marshal,Json.members,SignedList.payload,SignedManifest.payload,Field.always,Field.omitempty,type,ts,
        nodes,noHashes,first,second]

/-- The signature of a list verifies for a manifest with the same type, time and
    nodes exactly when no torrent field is set. -/
theorem signatureOK_iff {S : Signatures Json} {priv : S.Secret} {l : SignedList} {m : SignedManifest}
    (type : m.type = l.type) (ts : m.ts = l.ts) (nodes : m.nodes = l.nodes) (hashes : m.torrentHashes = Dict.empty)
    (sig : m.sig = S.sigText (S.sign priv (Json.marshal SignedList.payload l))) :
    signatureOK S (some (S.pub priv)) m = true ↔ m.torrentMagnets = Dict.empty ∧ m.torrentManifestMagnet = "" := by
  grind [signatureOK,S.readSig_sigText,S.verify_sign_iff,payload_eq_iff]

namespace Handler
variable {S : Signatures Json} (h : Handler S)

theorem addNavlinkMirrors_eq (m : SignedList) :
    h.addNavlinkMirrors m =
      { m with navlinkMirrors := if h.mirrors.isEmpty then m.navlinkMirrors else h.mirrors.map Node.addr } := by
  unfold addNavlinkMirrors
  cases h.mirrors.isEmpty <;> rfl

theorem apiManifestClientFetch_ok {r : FetchRequest} (key : h.checkManifestClientKey r.authorization = true)
    (allowed : r.allowed = true) {controls : List Node} (found : liveNodes h.env h.db .control = some controls) :
    h.apiManifestClientFetch r = .ok
      ⟨Json.marshal SignedList.fields (h.advise r (selectManifestNodes h.env controls maxManifestNodes)
          (signedList S h.signer h.env.now "manifest" (selectManifestNodes h.env controls maxManifestNodes)
            (h.regionFnWithOverrides controls))),
        selectManifestNodes h.env controls maxManifestNodes ++ h.mirrors⟩ := by
  grind [apiManifestClientFetch,signList_read]

theorem apiManifestClientFetch_inv {r : FetchRequest} {s : Served} (answered : h.apiManifestClientFetch r = .ok s) :
    h.checkManifestClientKey r.authorization = true ∧ r.allowed = true ∧
      ∃ controls, liveNodes h.env h.db .control = some controls := by
  grind [apiManifestClientFetch]

theorem client_manifest_accepted_iff (r : FetchRequest) (controls selected : List Node) :
    Accepted S (some (S.pub h.signer))
        (Json.marshal SignedList.fields (h.advise r selected
          (signedList S h.signer h.env.now "manifest" selected (h.regionFnWithOverrides controls)))) ↔
      h.softwareMagnets = Dict.empty ∧ h.manifestMagnet = "" ∧
        ∃ n ∈ selected, n.addr ≠ "" ∧ n.addr ∉ h.excludedAddrs := by
  have excluded : (if h.excludedAddrs.isEmpty then [] else h.excludedAddrs) = h.excludedAddrs := by
    cases h.excludedAddrs <;> rfl
  rw [accepted_iff (SignedManifest.unmarshal_list _),
    signatureOK_iff (l := unsignedList h.env.now "manifest" selected (h.regionFnWithOverrides controls))
      (by simp [SignedManifest.ofList,advise,addNavlinkMirrors_eq,signedList])
      (by simp [SignedManifest.ofList,advise,addNavlinkMirrors_eq,signedList])
      (by simp [SignedManifest.ofList,advise,addNavlinkMirrors_eq,signedList])
      (by simp [SignedManifest.ofList])
      (by simp [SignedManifest.ofList,advise,addNavlinkMirrors_eq,signedList])]
  simp only [SignedManifest.ofList,advise,addNavlinkMirrors_eq,signedList,unsignedList,excluded,true_and,and_assoc,
    List.mem_map,exists_exists_and_eq_and,entryOf]

theorem torrent_refused {doc : Json} (published : h.publishManifestTorrent = some doc) :
    ¬ Accepted S (some (S.pub h.signer)) doc := by
  obtain ⟨controls,_,rfl⟩ := Option.map_eq_some_iff.mp published
  intro accepted
  have type := ((accepted_iff (SignedManifest.unmarshal_list _)).mp accepted).1
  simp [SignedManifest.ofList,signedList,unsignedList] at type

/-- When a list that is served on a path is accepted: never on the torrent, and
    on the client's request when no magnet is known and some selected node has an
    address that is not excluded. -/
def Agrees : Path → Prop
  | .clientFetch r => h.checkManifestClientKey r.authorization = true → r.allowed = true →
      ∀ controls, liveNodes h.env h.db .control = some controls →
        h.softwareMagnets = Dict.empty ∧ h.manifestMagnet = "" ∧
          ∃ n ∈ selectManifestNodes h.env controls maxManifestNodes, n.addr ≠ "" ∧ n.addr ∉ h.excludedAddrs
  | .torrent => liveNodes h.env h.db .control = none

/-- The lists that the arbiter serves are accepted by its clients exactly on the
    paths and in the configurations that agree. -/
theorem served_accepted_iff (path : Path) :
    (∀ doc, h.served path = some doc → Accepted S (some (S.pub h.signer)) doc) ↔ h.Agrees path := by
  cases path with
  | clientFetch r =>
    constructor
    · intro all key allowed controls found
      have answered := h.apiManifestClientFetch_ok key allowed found
      exact (h.client_manifest_accepted_iff r controls _).mp (all _ (by rw [served,answered]; rfl))
    · intro agrees doc shown
      cases answered : h.apiManifestClientFetch r with
      | error e => simp [served,answered,Except.toOption] at shown
      | ok s =>
        obtain ⟨key,allowed,controls,found⟩ := h.apiManifestClientFetch_inv answered
        rw [served,h.apiManifestClientFetch_ok key allowed found] at shown
        cases shown
        exact (h.client_manifest_accepted_iff r controls _).mpr (agrees key allowed controls found)
  | torrent =>
    constructor
    · intro all
      cases found : liveNodes h.env h.db .control with
      | none => exact found
      | some controls =>
        obtain ⟨doc,published⟩ : ∃ doc, h.publishManifestTorrent = some doc := by simp [publishManifestTorrent,found]
        exact absurd (all doc published) (h.torrent_refused published)
    · intro agrees doc shown
      rw [served,publishManifestTorrent,(show liveNodes h.env h.db .control = none from agrees)] at shown
      cases shown

end Handler

noncomputable def sampleHandler : Handler (Signatures.symbolic Json) where
  signer := (0 : Nat)
  db :=
    { users := [⟨1,"owner"⟩], userSeq := 1
      nodes := [{ id := 1, ownerID := 1, type := .control, addr := "198.51.100.7:443", fingerprint := "", token := some "t",
                  status := .approved, lastHeartbeat := some 1000, rttMs := 20, load := 0, dataPlaneOK := none,
                  regionOverride := "", sniList := "", pinned := false, clubID := none }]
      clubs := [], events := [], notifications := [], excludedNodes := [], wlwtpPorts := Dict.empty }
  env := .quiet 1000
  regionOf _ := ""
  validate _ := ""
  notifCache := []
  ipv6Enabled := true
  torrentEnabled := true
  softwareMagnets := Dict.empty.insert "snc-win" "magnet:?xt=urn:btih:00"
  manifestMagnet := ""
  clientTelemetryKey := "key"

/-- A manifest with a magnet is refused by the client. -/
theorem magnet_manifest_refused :
    ¬ ∀ (S : Signatures Json) (h : Handler S) (path : Handler.Path) (doc : Json), h.served path = some doc →
        Accepted S (some (S.pub h.signer)) doc := by
  intro holds
  have key : sampleHandler.checkManifestClientKey "Bearer key" = true := by decide
  have answered := sampleHandler.apiManifestClientFetch_ok (r := ⟨"Bearer key","",true⟩) key rfl rfl
  have accepted := holds _ sampleHandler (.clientFetch ⟨"Bearer key","",true⟩) _ (by rw [Handler.served,answered]; rfl)
  have noMagnet := ((sampleHandler.client_manifest_accepted_iff _ _ _).mp accepted).1
  exact absurd noMagnet (by decide)

end TunnelCat.Manifest
