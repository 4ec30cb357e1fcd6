import TunnelCat.KeyString
import TunnelCat.Manifest

/-!
Who is shown the nodes of a club: the arbiter's manifest for the exits, its open node list, its manifest
for clients and the top-up (`snc-arbiter/manifest_topup_api.go`). Only the top-up looks at clubs;
`liveNodes` does not. So a club's nodes are kept to its members exactly as long as no live control has
a club, and no live mirror when clients can fetch a manifest.
-/
namespace TunnelCat.Listings
open Nodes Manifest KeyString List

structure TopupRequest where
  key : KeyData
  exclude : List String

def TopupRequest.unmarshal (doc : Json) : Option TopupRequest :=
  let username := doc.field "username" Json.string ""
  let servers := doc.field "servers" (Json.slice Json.string "") []
  let controlNodes := doc.field "control_nodes" (Json.slice Json.string "") []
  let arbiterPubkey := doc.field "arbiter_pubkey" Json.string ""
  let nodeId := doc.field "node_id" Json.string ""
  let apiKey := doc.field "api_key" Json.string ""
  let clientId := doc.field "client_id" Json.string ""
  let keyId := doc.field "key_id" Json.string ""
  let authSig := doc.field "auth_sig" Json.string ""
  let exclude := doc.field "exclude" (Json.slice Json.string "") []
  if username.ok && servers.ok && controlNodes.ok && arbiterPubkey.ok && nodeId.ok && apiKey.ok && clientId.ok &&
      keyId.ok && authSig.ok && exclude.ok then
    some ⟨⟨username.value,"",servers.value,controlNodes.value,arbiterPubkey.value,nodeId.value,apiKey.value,
      clientId.value,keyId.value,authSig.value,"",false⟩,exclude.value⟩
  else none

section
variable {S : Signatures Json} (h : Handler S)

def authSigOK (key : KeyData) : Bool :=
  match S.readSig key.authSig with
  | none => false
  | some sig => S.verify (S.pub h.signer) (keyAuthCanonical key) sig

theorem authSigOK_signPayload (p : KeyData) (password : String) :
    authSigOK h { signPayload S p h.signer with password := password } = true := by
  -- the signed document has neither the password nor the signatures
  have sig : S.readSig (signPayload S p h.signer).authSig = some (S.sign h.signer (keyAuthCanonical p)) :=
    S.readSig_sigText _
  simp only [authSigOK,sig]
  exact (S.verify_sign_iff _ _ _).mpr rfl

/-- What the arbiter gives out, a client reads with all its fields, and `handleKeyAuth` and the top-up, which
    rebuild the same document from them, take its signature under any password. -/
theorem issued_key_used (A : Sealing Body Body.least) (nonce : Nonce nonceSize) (p : KeyData)
    (named : p.username ≠ "") (own : p.arbiterPubkey = S.keyText (S.pub h.signer)) :
    ∃ kd, parseKeyString S A (buildSignedKey S A nonce p h.signer) = .ok kd ∧
      { kd with authSig := p.authSig, sig := p.sig } = p ∧
      ∀ password, authSigOK h { kd with password := password } = true := by
  refine ⟨signPayload S p h.signer,parse_buildSignedKey nonce named own,?_,?_⟩
  · cases p
    simp [signPayload]
  · apply authSigOK_signPayload

theorem issued_key_used_sample :
    let p := sampleKey sampleScheme sampleHandler.signer
    let ks := buildSignedKey sampleScheme sampleSealing (zeroNonce _) p sampleHandler.signer
    ∃ kd, parseKeyString sampleScheme sampleSealing ks = .ok kd ∧
      { kd with authSig := p.authSig, sig := p.sig } = p ∧
      ∀ password, authSigOK sampleHandler { kd with password := password } = true := by
  apply issued_key_used
  · simp [sampleKey]
  · rfl

variable (db : DB) (now : Int64)

def addClub (user : User) (pool : List Node) (c : Club) : List Node :=
  match hasClubAccess h.env db c.id user.id with
  | some true =>
    match clubNodes h.env db c.id .control with
    | some nodes => pool ++ nodes
    | none => pool
  | _ => pool

def topupPool (username : String) (controls : List Node) : List Node :=
  match getOrCreateUser h.env h.db username with
  | none => controls
  | some (db, user) =>
    match allClubs h.env db with
    | none => controls
    | some clubs => clubs.foldl (addClub h db user) controls

/-- `POST /api/manifest/topup`. The body is `none` when it holds no document within
    its 8 KiB, and `allowed` is the verdict of the rate limiter. -/
def apiManifestTopup (allowed : Bool) (body : Option Json) : Except Refusal Served :=
  if !allowed then .error ⟨429,"too many requests"⟩
  else
    match body.bind TopupRequest.unmarshal with
    | none => .error ⟨400,"bad request"⟩
    | some req =>
      if req.key.username = "" || req.key.authSig = "" then .error ⟨400,"invalid request"⟩
      else if !authSigOK h req.key then .error ⟨401,"invalid key"⟩
      else
        match liveNodes h.env h.db .control with
        | none => .error ⟨500,"internal error"⟩
        | some controls =>
          let candidates := (topupPool h req.key.username controls).filter (fun n => !req.exclude.contains n.addr)
          -- the draw is below the length, so there is no node only when there are no candidates
          match candidates[h.env.intn candidates.length]? with
          | none => .ok ⟨.obj [("exhausted",.bool true)],[]⟩
          | some picked => .ok ⟨Json.marshal NodeEntry.fields (entryOf picked),[picked]⟩

variable {pool : List Node} {n : Node}

theorem mem_addClub {db : DB} {user : User} {c : Club}
    (member : n ∈ addClub h db user pool c) : n ∈ pool ∨ HasAccess db c.id user.id ∧ n.clubID = some c.id := by
  unfold addClub at member
  grind [hasClubAccess_true,mem_clubNodes]

theorem mem_addClubs {db : DB} {user : User} {clubs : List Club}
    (member : n ∈ clubs.foldl (addClub h db user) pool) :
    n ∈ pool ∨ ∃ c, HasAccess db c user.id ∧ n.clubID = some c := by
  induction clubs generalizing pool with
  | nil => exact .inl member
  | cons c rest ih =>
    rcases ih member with before | added
    · rcases mem_addClub h before with old | ⟨access,club⟩
      · exact .inl old
      · exact .inr ⟨c.id,access,club⟩
    · exact .inr added

theorem hasAccess_withUser (username : String) {clubID user : Int} :
    HasAccess (db.withUser username).1 clubID user ↔ HasAccess db clubID user := by
  grind [withUser_clubs,HasAccess,DB.isMember]

theorem mem_topupPool {username : String} {controls : List Node}
    (member : n ∈ topupPool h username controls) :
    n ∈ controls ∨ ∃ c, HasAccess h.db c (h.db.withUser username).2.id ∧ n.clubID = some c := by
  unfold topupPool at member
  split at member
  · exact .inl member
  · next db user found =>
    obtain ⟨_,pair⟩ := Env.run_eq_some.mp found
    grind [mem_addClubs,hasAccess_withUser]

variable {s : Served}

theorem apiManifestTopup_ok {allowed : Bool} {body : Option Json}
    (answered : apiManifestTopup h allowed body = .ok s) :
    (s.rows = [] ∨ ∃ n, s.rows = [n] ∧ s.body = Json.marshal NodeEntry.fields (entryOf n)) ∧
    ∃ req controls, body.bind TopupRequest.unmarshal = some req ∧ liveNodes h.env h.db .control = some controls ∧
      ∀ n ∈ s.rows, n ∈ topupPool h req.key.username controls := by
  unfold apiManifestTopup at answered
  split_ifs at answered
  split at answered
  · cases answered
  · grind [mem_of_mem_filter]

inductive Request
  | manifest (token session : String)
  | nodes
  | clientFetch (r : Handler.FetchRequest)
  | topup (allowed : Bool) (body : Option Json)

def answer : Request → Except Refusal Served
  | .manifest token session => h.apiManifest token session
  | .nodes => h.apiNodes
  | .clientFetch r => h.apiManifestClientFetch r
  | .topup allowed body => apiManifestTopup h allowed body

/-- The answer goes to someone outside the club: every listing but the top-up of a
    user who has access to it. -/
def Outside (clubID : Int) : Request → Prop
  | .topup _ body => ∀ req, body.bind TopupRequest.unmarshal = some req →
      ¬ HasAccess db clubID (db.withUser req.key.username).2.id
  | _ => True

/-- No answer shows a node of a club to someone outside it, whatever fails and is drawn. -/
def Confidential : Prop :=
  ∀ env : Env, env.now = now → ∀ req s, answer { h with env := env } req = .ok s →
    ∀ n ∈ s.rows, ∀ clubID, n.clubID = some clubID → ¬ Outside h.db clubID req

def Shows (body : Json) (rows : List Node) : Prop :=
  ∃ m, SignedList.unmarshal body = some m ∧ m.nodes.map NodeEntry.addr ++ m.navlinkMirrors = rows.map Node.addr

theorem shows_signed (priv : S.Secret) (now : Int64) (type : String) (nodes : List Node) (regionFn : String → String) :
    (signedList S priv now type nodes regionFn).nodes.map NodeEntry.addr = nodes.map Node.addr := by
  simp [signedList,unsignedList,entryOf]

theorem apiManifest_ok {token session : String} (answered : h.apiManifest token session = .ok s) :
    Shows s.body s.rows ∧ ∃ controls, liveNodes h.env h.db .control = some controls ∧
      s.rows = selectManifestNodes h.env controls maxManifestNodes := by
  unfold Handler.apiManifest at answered
  by_cases anonymous : token = ""
  · rw [if_pos anonymous] at answered
    cases answered
  rw [if_neg anonymous] at answered
  split at answered
  · next node _ =>
    by_cases other : node.type ≠ .exit
    · rw [if_pos other] at answered
      cases answered
    rw [if_neg other] at answered
    split at answered
    · cases answered
    · next controls found =>
      simp only [signList_read] at answered
      cases answered
      refine ⟨⟨_,SignedList.unmarshal_marshal _,?_⟩,controls,found,rfl⟩
      simp only [shows_signed]
      exact append_nil _
  · cases answered

theorem apiNodes_ok (answered : h.apiNodes = .ok s) :
    Shows s.body s.rows ∧ liveNodes h.env h.db .control = some s.rows := by
  unfold Handler.apiNodes at answered
  split at answered
  · cases answered
  · next controls found =>
    cases answered
    refine ⟨⟨_,signList_read S h.signer _ _ _ _,?_⟩,found⟩
    rw [shows_signed]
    exact append_nil _

theorem clientFetch_ok {r : Handler.FetchRequest} (answered : h.apiManifestClientFetch r = .ok s) :
    Shows s.body s.rows ∧ h.clientTelemetryKey ≠ "" ∧ ∃ controls, liveNodes h.env h.db .control = some controls ∧
      s.rows = selectManifestNodes h.env controls maxManifestNodes ++ h.mirrors := by
  obtain ⟨key,allowed,controls,found⟩ := h.apiManifestClientFetch_inv answered
  rw [h.apiManifestClientFetch_ok key allowed found] at answered
  cases answered
  refine ⟨⟨_,SignedList.unmarshal_marshal _,?_⟩,?_,controls,found,rfl⟩
  · have none : (if h.mirrors.isEmpty then [] else h.mirrors.map Node.addr) = h.mirrors.map Node.addr := by
      cases h.mirrors <;> rfl
    simp only [Handler.advise,Handler.addNavlinkMirrors_eq,shows_signed,map_append]
    exact congrArg _ none
  · intro unset
    simp [Handler.checkManifestClientKey,Handler.checkClientOrLegacyKey,unset] at key

theorem mem_mirrors (member : n ∈ h.mirrors) :
    n ∈ h.db.nodes ∧ h.db.live h.env.now .navlinkMirror heartbeatTTL n = true := by
  unfold Handler.mirrors at member
  cases found : liveNodes h.env h.db .navlinkMirror with
  | none => simp [found] at member
  | some nodes =>
    rw [found] at member
    exact (mem_liveNodes found n).mp member

/-- No live node of the type belongs to a club. -/
def Common (type : NodeType) : Prop :=
  ∀ n ∈ h.db.nodes, h.db.live now type heartbeatTTL n = true → n.clubID = none

theorem answer_rows {req : Request} (answered : answer h req = .ok s) (member : n ∈ s.rows) :
    n ∈ h.db.nodes ∧ h.db.live h.env.now .control heartbeatTTL n = true ∨
    h.clientTelemetryKey ≠ "" ∧ n ∈ h.db.nodes ∧ h.db.live h.env.now .navlinkMirror heartbeatTTL n = true ∨
    ∃ clubID, n.clubID = some clubID ∧ ¬ Outside h.db clubID req := by
  cases req with
  | manifest token session =>
    obtain ⟨_,controls,found,rows⟩ := apiManifest_ok h answered
    rw [rows] at member
    exact .inl ((mem_liveNodes found n).mp (mem_selectManifestNodes member))
  | nodes => exact .inl ((mem_liveNodes (apiNodes_ok h answered).2 n).mp member)
  | clientFetch r =>
    obtain ⟨_,key,controls,found,rows⟩ := clientFetch_ok h answered
    rw [rows] at member
    rcases mem_append.mp member with selected | mirror
    · exact .inl ((mem_liveNodes found n).mp (mem_selectManifestNodes selected))
    · exact .inr (.inl ⟨key,mem_mirrors h mirror⟩)
  | topup allowed body =>
    obtain ⟨_,req,controls,read,found,pool⟩ := apiManifestTopup_ok h answered
    rcases mem_topupPool h (pool n member) with general | ⟨clubID,access,club⟩
    · exact .inl ((mem_liveNodes found n).mp general)
    · exact .inr (.inr ⟨clubID,club,fun outside => outside req read access⟩)

/-- The rows of an answer are those that its body lists: all of them, or the one of a top-up. -/
theorem answer_shows {req : Request} (answered : answer h req = .ok s) :
    Shows s.body s.rows ∨ s.rows = [] ∨ ∃ n, s.rows = [n] ∧ s.body = Json.marshal NodeEntry.fields (entryOf n) := by
  cases req with
  | manifest token session => exact .inl (apiManifest_ok h answered).1
  | nodes => exact .inl (apiNodes_ok h answered).1
  | clientFetch r => exact .inl (clientFetch_ok h answered).1
  | topup allowed body => exact .inr (apiManifestTopup_ok h answered).1

/-- The nodes of clubs are kept to their members exactly when no live control has
    a club, and no live mirror if clients can fetch a manifest. -/
theorem confidential_iff (now : Int64) :
    Confidential h now ↔ Common h now .control ∧ (h.clientTelemetryKey ≠ "" → Common h now .navlinkMirror) := by
  constructor
  · intro confidential
    have shown := confidential (.quiet now) rfl
    constructor
    · intro n member live
      cases club : n.clubID with
      | none => rfl
      | some clubID =>
        have listed := (@mem_liveNodes (.quiet now) h.db .control _ rfl n).mpr ⟨member,live⟩
        exact absurd trivial (shown .nodes _ rfl n listed clubID club)
    · intro key n member live
      cases club : n.clubID with
      | none => rfl
      | some clubID =>
        let quiet : Handler S := { h with env := .quiet now }
        have bearer : quiet.checkManifestClientKey ("Bearer " ++ h.clientTelemetryKey) = true := by
          have long : "Bearer " ++ h.clientTelemetryKey ≠ "" := by simp [String.append_eq_empty_iff]
          simp [Handler.checkManifestClientKey,Handler.checkClientOrLegacyKey,quiet,key,long]
        have answered := quiet.apiManifestClientFetch_ok (r := ⟨"Bearer " ++ h.clientTelemetryKey,"",true⟩) bearer rfl rfl
        have listed : n ∈ quiet.mirrors :=
          (@mem_liveNodes (.quiet now) h.db .navlinkMirror _ rfl n).mpr ⟨member,live⟩
        exact absurd trivial
          (shown (.clientFetch ⟨"Bearer " ++ h.clientTelemetryKey,"",true⟩) _ answered n (mem_append_right _ listed)
            clubID club)
  · rintro ⟨controls,mirrors⟩ env rfl req s answered n member clubID club
    rcases answer_rows { h with env := env } answered member with ⟨row,live⟩ | ⟨key,row,live⟩ | ⟨other,same,inside⟩
    · cases (controls n row live).symm.trans club
    · cases (mirrors key n row live).symm.trans club
    · cases same.symm.trans club
      exact inside

end

noncomputable def clubHandler : Handler (Signatures.symbolic Json) :=
  { sampleHandler with
    db := { sampleHandler.db with
      nodes := sampleHandler.db.nodes.map (fun n => { n with clubID := some 1 })
      clubs := [⟨1,none⟩] } }

/-- The node list shows the control of a club to everyone. -/
theorem club_node_listed : ¬ ∀ (S : Signatures Json) (h : Handler S) (now : Int64), Confidential h now := by
  intro holds
  have row : ∀ n ∈ clubHandler.db.nodes, n.clubID = some 1 ∧
      clubHandler.db.live 1000 .control heartbeatTTL n = true := by decide
  obtain ⟨n,member⟩ : ∃ n, n ∈ clubHandler.db.nodes := ⟨_,mem_cons_self⟩
  have listed := (@mem_liveNodes (.quiet 1000) clubHandler.db .control _ rfl n).mpr ⟨member,(row n member).2⟩
  exact holds _ clubHandler 1000 (.quiet 1000) rfl .nodes _ rfl n listed 1 (row n member).1 trivial

end TunnelCat.Listings
