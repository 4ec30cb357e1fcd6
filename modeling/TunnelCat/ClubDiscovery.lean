import TunnelCat.Bytes
import TunnelCat.Manifest
import TunnelCat.Runs

/-!
The extra controls of a club (`snc/core/club_discovery.go`). A client polls for the club's manifest
(`signClubManifest` in `snc-arbiter/signing.go`) and tells the application when the number of nodes has
changed.
-/
namespace TunnelCat.ClubDiscovery
open Bytes Manifest Runs

structure SignedClubManifest where
  type : String
  clubID : Int64
  ts : Int64
  nonce : String
  cipher : String
  sig : String

namespace SignedClubManifest

def payload : List (Field SignedClubManifest) :=
  [.always "type" Codec.string type,
   .always "club_id" Codec.int64 clubID,
   .always "ts" Codec.int64 ts,
   .always "nonce" Codec.string nonce,
   .always "cipher" Codec.string cipher]

def fields : List (Field SignedClubManifest) := payload ++ [.always "sig" Codec.string sig]

def unmarshal (doc : Json) : Option SignedClubManifest :=
  let type := doc.field "type" Codec.string.decode ""
  let clubID := doc.field "club_id" Codec.int64.decode 0
  let ts := doc.field "ts" Codec.int64.decode 0
  let nonce := doc.field "nonce" Codec.string.decode ""
  let cipher := doc.field "cipher" Codec.string.decode ""
  let sig := doc.field "sig" Codec.string.decode ""
  if type.ok && clubID.ok && ts.ok && nonce.ok && cipher.ok && sig.ok then
    some ⟨type.value,clubID.value,ts.value,nonce.value,cipher.value,sig.value⟩
  else none

theorem fields_distinct : Json.Distinct fields := by decide

theorem unmarshal_marshal (m : SignedClubManifest) : unmarshal (Json.marshal fields m) = some m := by
  have type := Json.always_read fields_distinct 0 rfl m
  have clubID := Json.always_read fields_distinct 1 rfl m
  have ts := Json.always_read fields_distinct 2 rfl m
  have nonce := Json.always_read fields_distinct 3 rfl m
  have cipher := Json.always_read fields_distinct 4 rfl m
  have sig := Json.always_read fields_distinct 5 rfl m
  simp only [Codec.string_zero,Codec.int64_zero] at *
  simp only [unmarshal,type,clubID,ts,nonce,cipher,sig,Bool.and_self,if_true]

end SignedClubManifest

section
variable (S : Signatures Json) (A : List UInt8 → Sealing Body Body.least)

def keySize : Nat := 32

def clubManifestNonceSize : Nat := 24

def signClubManifest (priv : S.Secret) (clubID : Int64) (clubKey : List UInt8) (nodes : List NodeEntry) (now : Int64)
    (nonce : Nonce clubManifestNonceSize) : Option Json :=
  if clubKey.length ≠ keySize then none
  else
    let ct := (A clubKey).encrypt nonce.val (.document ((Codec.slice NodeEntry.codec).encode nodes))
    let m : SignedClubManifest := ⟨"club_manifest",clubID,now,base64Encode nonce.val,base64Encode ct,""⟩
    some (Json.marshal SignedClubManifest.fields { m with sig := S.sigText (S.sign priv (Json.marshal SignedClubManifest.payload m)) })

inductive Reply
  | failed
  | status (code : Nat) (body : Option Body)

inductive KeyError
  | request
  | notMember
  | http (code : Nat)
  | parse
  | decodeKey
deriving DecidableEq

structure FetchKeyResult where
  key : List UInt8
  membershipNumber : Int64
  membershipClub : String
deriving DecidableEq

def fetchKey : Reply → Except KeyError FetchKeyResult
  | .failed => .error .request
  | .status code body =>
    if code = 403 then .error .notMember
    else if code ≠ 200 then .error (.http code)
    else
      match body.bind Body.unmarshal with
      | none => .error .parse
      | some doc =>
        let club := doc.field "club" Json.string ""
        let key := doc.field "key" Json.string ""
        let membershipNumber := doc.field "membership_number" Json.int64 0
        let membershipClub := doc.field "membership_club" Json.string ""
        if club.ok && key.ok && membershipNumber.ok && membershipClub.ok then
          match base64Decode key.value with
          | none => .error .decodeKey
          | some bytes =>
            .ok ⟨bytes,membershipNumber.value,if membershipClub.value = "" then club.value else membershipClub.value⟩
        else .error .parse

/-- What a manifest is refused for. On a nonce of another size `Open` panics, which ends the client. -/
inductive FetchError
  | request
  | http (code : Nat)
  | read
  | parse
  | unexpectedType (type : String)
  | signature
  | decodeNonce
  | decodeCipher
  | aeadInit
  | panics
  | decrypt
  | parseNodes

def signatureOK (pubkey : Option S.Public) (m : SignedClubManifest) : Bool :=
  match pubkey with
  | none => true
  | some pub => ((S.readSig m.sig).map (S.verify pub (Json.marshal SignedClubManifest.payload m))).getD false

def openNodes (key nonce ct : List UInt8) : Except FetchError (List NodeEntry) :=
  if key.length ≠ keySize then .error .aeadInit
  else if nonce.length ≠ clubManifestNonceSize then .error .panics
  else
    match (A key).decrypt nonce ct with
    | none => .error .decrypt
    | some plain =>
      match plain.unmarshal with
      | none => .error .parseNodes
      | some doc =>
        let nodes := (Codec.slice NodeEntry.codec).decode [] doc
        if nodes.ok then .ok nodes.value else .error .parseNodes

def decryptManifest (pubkey : Option S.Public) (key : List UInt8) (m : SignedClubManifest) : Except FetchError (List NodeEntry) :=
  if m.type ≠ "club_manifest" then .error (.unexpectedType m.type)
  else if !signatureOK S pubkey m then .error .signature
  else
    match base64Decode m.nonce with
    | none => .error .decodeNonce
    | some nonce =>
      match base64Decode m.cipher with
      | none => .error .decodeCipher
      | some ct => openNodes A key nonce ct

def fetchAndDecrypt (pubkey : Option S.Public) (key : List UInt8) : Reply → Except FetchError (List NodeEntry)
  | .failed => .error .request
  | .status code body =>
    if code ≠ 200 then .error (.http code)
    else
      match body with
      | none => .error .read
      | some data =>
        match data.unmarshal.bind SignedClubManifest.unmarshal with
        | none => .error .parse
        | some m => decryptManifest S A pubkey key m

end

section
variable {S : Signatures Json} {A : List UInt8 → Sealing Body Body.least} {priv : S.Secret} {pubkey : Option S.Public}

theorem signatureOK_signed (own : ∀ pub ∈ pubkey, pub = S.pub priv)
    (m : SignedClubManifest) : signatureOK S pubkey
      { m with sig := S.sigText (S.sign priv (Json.marshal SignedClubManifest.payload m)) } = true := by
  cases pubkey with
  | none => rfl
  | some pub =>
    obtain rfl := own pub rfl
    simp only [signatureOK,S.readSig_sigText]
    exact (S.verify_sign_iff priv _ _).mpr rfl

theorem openNodes_sealed {key : List UInt8} (size : key.length = keySize) (nonce : Nonce clubManifestNonceSize)
    (nodes : List NodeEntry) :
    openNodes A key nonce.val ((A key).encrypt nonce.val (.document ((Codec.slice NodeEntry.codec).encode nodes))) = .ok nodes := by
  have read : (Codec.slice NodeEntry.codec).decode [] ((Codec.slice NodeEntry.codec).encode nodes) = ⟨nodes,true⟩ :=
    (Codec.slice NodeEntry.codec).decode_encode nodes
  simp [openNodes,size,nonce.2,(A key).decrypt_encrypt,Body.unmarshal,read]

theorem fetchAndDecrypt_signed {clubID now : Int64}
    {clubKey : List UInt8} {nodes : List NodeEntry} {nonce : Nonce clubManifestNonceSize} {doc : Json}
    (made : signClubManifest S A priv clubID clubKey nodes now nonce = some doc)
    (own : ∀ pub ∈ pubkey, pub = S.pub priv) :
    fetchAndDecrypt S A pubkey clubKey (.status 200 (some (.document doc))) = .ok nodes := by
  unfold signClubManifest at made
  split at made
  · cases made
  · next size =>
    cases made
    have opened := openNodes_sealed (A := A) (not_not.mp size) nonce nodes
    have verified := signatureOK_signed own ⟨"club_manifest",clubID,now,base64Encode nonce.val,
      base64Encode ((A clubKey).encrypt nonce.val (.document ((Codec.slice NodeEntry.codec).encode nodes))),""⟩
    simp [fetchAndDecrypt,Body.unmarshal,SignedClubManifest.unmarshal_marshal,decryptManifest,verified,base64Decode_encode,opened]

end

/-- A client with a callback for changes. The code does not keep what it passed to it. -/
structure ClubDiscoverer (S : Signatures Json) where
  pubkey : Option S.Public
  serverURL : String
  key : Option (List UInt8)
  nodes : List NodeEntry
  membershipNumber : Int64
  membershipClub : String
  passed : List String

section
variable {S : Signatures Json} (A : List UInt8 → Sealing Body Body.least)

def newClubDiscoverer (pubkey : Option S.Public) : ClubDiscoverer S := ⟨pubkey,"",none,[],0,"",[]⟩

def ClubDiscoverer.controls (d : ClubDiscoverer S) : List String := d.nodes.map NodeEntry.addr

def withKey (d : ClubDiscoverer S) (reply : Reply) : ClubDiscoverer S :=
  match d.key with
  | some _ => d
  | none =>
    match fetchKey reply with
    | .error _ => d
    | .ok res => { d with key := some res.key, membershipNumber := res.membershipNumber, membershipClub := res.membershipClub }

def polled (d : ClubDiscoverer S) (key manifest : Reply) : Option (List NodeEntry) :=
  if d.serverURL = "" then none
  else (withKey d key).key.bind (fun key => (fetchAndDecrypt S A d.pubkey key manifest).toOption)

def ClubDiscoverer.update (d : ClubDiscoverer S) (nodes : List NodeEntry) : ClubDiscoverer S :=
  { d with
    nodes := nodes
    passed := if nodes.length ≠ d.nodes.length then nodes.map NodeEntry.addr else d.passed }

def pollOnce (d : ClubDiscoverer S) (key manifest : Reply) : ClubDiscoverer S :=
  if d.serverURL = "" then d
  else
    match polled A d key manifest with
    | none => withKey d key
    | some nodes => (withKey d key).update nodes

inductive Input
  | setServerURL (url : String)
  | poll (key manifest : Reply)

def step (d : ClubDiscoverer S) : Input → ClubDiscoverer S × Unit
  | .setServerURL url => ({ d with serverURL := url },())
  | .poll key manifest => (pollOnce A d key manifest,())

def Current (d : ClubDiscoverer S) : Prop := d.passed = d.controls

/-- A poll that brings as many nodes as there are brings the same addresses. -/
def SameAddrs (d : ClubDiscoverer S) : Input → Prop
  | .setServerURL _ => True
  | .poll key manifest =>
    ∀ nodes ∈ polled A d key manifest, nodes.length = d.nodes.length → nodes.map NodeEntry.addr = d.nodes.map NodeEntry.addr

section
variable {A} {d : ClubDiscoverer S}

theorem withKey_kept (d : ClubDiscoverer S) (reply : Reply) :
    (withKey d reply).nodes = d.nodes ∧ (withKey d reply).passed = d.passed := by
  grind [withKey]

theorem current_withKey (reply : Reply) : Current (withKey d reply) ↔ Current d := by
  grind [withKey_kept,Current,ClubDiscoverer.controls]

theorem current_update (current : Current d) (nodes : List NodeEntry) :
    Current (d.update nodes) ↔ (nodes.length = d.nodes.length → nodes.map NodeEntry.addr = d.nodes.map NodeEntry.addr) := by
  grind [Current,ClubDiscoverer.controls,ClubDiscoverer.update]

theorem step_current (current : Current d) (i : Input) : Current (step A d i).1 ↔ SameAddrs A d i := by
  cases i with
  | setServerURL url => exact iff_of_true current trivial
  | poll key manifest =>
    grind [step,pollOnce,SameAddrs,polled,current_withKey,current_update,withKey_kept]

end

/-- After every poll the application has the current addresses, exactly when each poll that brings
    as many nodes as there are brings the same addresses. -/
theorem onChange_current_iff (pubkey : Option S.Public) (inputs : List Input) :
    (∀ first rest, inputs = first ++ rest →
        (final (step A) (newClubDiscoverer pubkey) first).passed = (final (step A) (newClubDiscoverer pubkey) first).controls) ↔
      Along (step A) (SameAddrs A) (newClubDiscoverer pubkey) inputs :=
  states_iff_along (P := Current) (J := fun _ => True)
    (fun _ i current _ same => ⟨(step_current current i).mpr same,trivial⟩)
    (fun _ i current _ after => (step_current current i).mp after) inputs _ rfl trivial

end

section
variable {S : Signatures Json} {A : List UInt8 → Sealing Body Body.least}

def sampleKey : List UInt8 := List.replicate 32 0

def sampleKeyReply : Reply :=
  .status 200 (some (.document (.obj [("club",.str "cat_club"),("key",.str (base64Encode sampleKey)),("membership_number",.num 7)])))

theorem fetchKey_sample : fetchKey sampleKeyReply = .ok ⟨sampleKey,7,"cat_club"⟩ := by decide +kernel

def sampleEntry (addr : String) : NodeEntry := ⟨addr,"",0,0,none⟩

def sampleReply (S : Signatures Json) (A : List UInt8 → Sealing Body Body.least) (priv : S.Secret) (addr : String) : Reply :=
  .status 200 ((signClubManifest S A priv 1 sampleKey [sampleEntry addr] 0 (zeroNonce clubManifestNonceSize)).map .document)

theorem fetchAndDecrypt_sample (priv : S.Secret) (addr : String) :
    fetchAndDecrypt S A (some (S.pub priv)) sampleKey (sampleReply S A priv addr) = .ok [sampleEntry addr] := by
  have made : signClubManifest S A priv 1 sampleKey [sampleEntry addr] 0 (zeroNonce clubManifestNonceSize) = some _ :=
    if_neg (by decide)
  exact fetchAndDecrypt_signed made (by simp)

def otherNode (S : Signatures Json) (A : List UInt8 → Sealing Body Body.least) (priv : S.Secret) : List Input :=
  [.setServerURL "https://198.51.100.1",.poll sampleKeyReply (sampleReply S A priv "198.51.100.7:443"),
    .poll .failed (sampleReply S A priv "198.51.100.8:443")]

theorem otherNode_final (priv : S.Secret) :
    final (step A) (newClubDiscoverer (some (S.pub priv))) (otherNode S A priv) =
      ⟨some (S.pub priv),"https://198.51.100.1",some sampleKey,[sampleEntry "198.51.100.8:443"],7,"cat_club",["198.51.100.7:443"]⟩ := by
  simp [otherNode,final,step,newClubDiscoverer,pollOnce,polled,withKey,fetchKey_sample,fetchAndDecrypt_sample,Except.toOption,
    ClubDiscoverer.update,sampleEntry]

end

/-- A club has one node, and then another one. -/
theorem other_node_not_passed :
    ¬ ∀ (S : Signatures Json) (A : List UInt8 → Sealing Body Body.least) (pubkey : Option S.Public) (inputs : List Input),
      ∀ first rest, inputs = first ++ rest →
        (final (step A) (newClubDiscoverer pubkey) first).passed = (final (step A) (newClubDiscoverer pubkey) first).controls := by
  intro always
  let S := Signatures.symbolic Json
  let A : List UInt8 → Sealing Body Body.least := fun _ => Sealing.symbolic Body Body.least
  have current := always S A (some (S.pub (0 : Nat))) (otherNode S A (0 : Nat)) _ [] (List.append_nil _).symm
  have reached := otherNode_final (S := S) (A := A) (0 : Nat)
  rw [reached] at current
  exact absurd current (by simp [ClubDiscoverer.controls,sampleEntry])

end TunnelCat.ClubDiscovery
