import TunnelCat.Bytes
import TunnelCat.Ideal
import TunnelCat.Marshal

/-!
Key strings (`snc/core/key.go`, `snc-arbiter/keyenc.go`): the base64 text of a magic number, a nonce and
the encrypted JSON of the key data. Every client carries the secret, so anyone can write one. A string
of version 2 is signed under the public key that it carries itself; nothing else ties it to an arbiter.
-/
namespace TunnelCat.KeyString
open Bytes

/-- `KeyData` of the client and `keyPayload` of the arbiter, which have the same fields in one order. -/
structure KeyData where
  username : String
  password : String
  servers : List String
  controlNodes : List String
  arbiterPubkey : String
  nodeId : String
  apiKey : String
  clientId : String
  keyId : String
  authSig : String
  sig : String
  isAdmin : Bool

section
open KeyData

def canonicalFields : List (Field KeyData) :=
  [.always "username" Codec.string username,
   .always "password" Codec.string password,
   .omitempty "servers" (Codec.slice Codec.string) servers,
   .omitempty "control_nodes" (Codec.slice Codec.string) controlNodes,
   .omitempty "arbiter_pubkey" Codec.string arbiterPubkey,
   .always "node_id" Codec.string nodeId,
   .omitempty "api_key" Codec.string apiKey,
   .omitempty "client_id" Codec.string clientId,
   .omitempty "key_id" Codec.string keyId]

def keyFields : List (Field KeyData) :=
  canonicalFields ++
    [.omitempty "auth_sig" Codec.string authSig,
     .omitempty "sig" Codec.string sig,
     .omitempty "is_admin" Codec.boolean isAdmin]

/-- The arbiter's own declaration of what `sig` signs. -/
def keyPayloadCanonical : List (Field KeyData) :=
  [.always "username" Codec.string username,
   .always "password" Codec.string password,
   .omitempty "servers" (Codec.slice Codec.string) servers,
   .omitempty "control_nodes" (Codec.slice Codec.string) controlNodes,
   .omitempty "arbiter_pubkey" Codec.string arbiterPubkey,
   .always "node_id" Codec.string nodeId,
   .omitempty "api_key" Codec.string apiKey,
   .omitempty "client_id" Codec.string clientId,
   .omitempty "key_id" Codec.string keyId]

def keyPayloadAuthCanonical : List (Field KeyData) :=
  [.always "username" Codec.string username,
   .omitempty "servers" (Codec.slice Codec.string) servers,
   .omitempty "control_nodes" (Codec.slice Codec.string) controlNodes,
   .omitempty "arbiter_pubkey" Codec.string arbiterPubkey,
   .always "node_id" Codec.string nodeId,
   .omitempty "api_key" Codec.string apiKey,
   .omitempty "client_id" Codec.string clientId,
   .omitempty "key_id" Codec.string keyId]

end

variable (kd : KeyData)

def keyCanonical : Json := Json.marshal canonicalFields kd

def keyAuthCanonical : Json := Json.marshal keyPayloadAuthCanonical kd

def KeyData.unmarshal (doc : Json) : Option KeyData :=
  let username := doc.field "username" Json.string ""
  let password := doc.field "password" Json.string ""
  let servers := doc.field "servers" (Json.slice Json.string "") []
  let controlNodes := doc.field "control_nodes" (Json.slice Json.string "") []
  let arbiterPubkey := doc.field "arbiter_pubkey" Json.string ""
  let nodeId := doc.field "node_id" Json.string ""
  let apiKey := doc.field "api_key" Json.string ""
  let clientId := doc.field "client_id" Json.string ""
  let keyId := doc.field "key_id" Json.string ""
  let authSig := doc.field "auth_sig" Json.string ""
  let sig := doc.field "sig" Json.string ""
  let isAdmin := doc.field "is_admin" Json.boolean false
  if username.ok && password.ok && servers.ok && controlNodes.ok && arbiterPubkey.ok && nodeId.ok && apiKey.ok &&
      clientId.ok && keyId.ok && authSig.ok && sig.ok && isAdmin.ok then
    some ⟨username.value,password.value,servers.value,controlNodes.value,arbiterPubkey.value,nodeId.value,
      apiKey.value,clientId.value,keyId.value,authSig.value,sig.value,isAdmin.value⟩
  else none

theorem keyFields_distinct : Json.Distinct keyFields := by decide

theorem unmarshal_marshal : KeyData.unmarshal (Json.marshal keyFields kd) = some kd := by
  have username := Json.always_read keyFields_distinct 0 rfl kd
  have password := Json.always_read keyFields_distinct 1 rfl kd
  have servers := Json.omitempty_read keyFields_distinct 2 rfl kd
  have controlNodes := Json.omitempty_read keyFields_distinct 3 rfl kd
  have arbiterPubkey := Json.omitempty_read keyFields_distinct 4 rfl kd
  have nodeId := Json.always_read keyFields_distinct 5 rfl kd
  have apiKey := Json.omitempty_read keyFields_distinct 6 rfl kd
  have clientId := Json.omitempty_read keyFields_distinct 7 rfl kd
  have keyId := Json.omitempty_read keyFields_distinct 8 rfl kd
  have authSig := Json.omitempty_read keyFields_distinct 9 rfl kd
  have sig := Json.omitempty_read keyFields_distinct 10 rfl kd
  have isAdmin := Json.omitempty_read keyFields_distinct 11 rfl kd
  simp only [Codec.string,Codec.slice,Codec.boolean] at *
  simp only [KeyData.unmarshal,username,password,servers,controlNodes,arbiterPubkey,nodeId,apiKey,clientId,keyId,
    authSig,sig,isAdmin,Bool.and_self,if_true]

def keyMagicV1 : Nat := 0x534E4301
def keyMagicV2 : Nat := 0x534E4302
def nonceSize : Nat := 24
def macSize : Nat := 16

inductive SignatureError
  | missingPubkey
  | missingSignature
  | invalidPubkey
  | invalidEncoding
  | verificationFailed

def SignatureError.text : SignatureError → String
  | .missingPubkey => "V2 key missing arbiter pubkey"
  | .missingSignature => "missing signature"
  | .invalidPubkey => "invalid arbiter pubkey"
  | .invalidEncoding => "invalid signature encoding"
  | .verificationFailed => "signature verification failed"

inductive KeyError
  | base64
  | tooShort
  | badMagic (magic : Nat)
  | decrypt
  | json
  | missingUsername
  | signature (e : SignatureError)

/-- The text of an error, up to what the decoder, the cipher or the JSON reader adds to it. -/
def KeyError.text : KeyError → String
  | .base64 => "key: base64 decode"
  | .tooShort => "key: too short"
  | .badMagic magic => "key: bad magic " ++ hexEncode (beBytes 4 magic)
  | .decrypt => "key: decrypt"
  | .json => "key: json"
  | .missingUsername => "key: missing username"
  | .signature e => "key: signature: " ++ e.text

section
variable (S : Signatures Json) (A : Sealing Body Body.least)

variable (nonce : Nonce nonceSize) (p kd : KeyData)

def verifyKeySignature : Except SignatureError Unit :=
  if kd.arbiterPubkey = "" then .error .missingPubkey
  else if kd.sig = "" then .error .missingSignature
  else
    match S.readKey kd.arbiterPubkey with
    | none => .error .invalidPubkey
    | some pub =>
      match S.readSig kd.sig with
      | none => .error .invalidEncoding
      | some sig => if S.verify pub (keyCanonical kd) sig then .ok () else .error .verificationFailed

def parseKeyString (ks : String) : Except KeyError KeyData :=
  match base64Decode ks with
  | none => .error .base64
  | some raw =>
    if raw.length < 4 + nonceSize + macSize + 1 then .error .tooShort
    else
      let magic := beNat (raw.take 4)
      if magic ≠ keyMagicV1 ∧ magic ≠ keyMagicV2 then .error (.badMagic magic)
      else
        match A.decrypt ((raw.drop 4).take nonceSize) (raw.drop (4 + nonceSize)) with
        | none => .error .decrypt
        | some plaintext =>
          match plaintext.unmarshal.bind KeyData.unmarshal with
          | none => .error .json
          | some kd =>
            if kd.username = "" then .error .missingUsername
            else if magic = keyMagicV2 then
              match verifyKeySignature S kd with
              | .error e => .error (.signature e)
              | .ok _ => .ok kd
            else .ok kd

def Opens (ks : String) (magic : Nat) (kd : KeyData) : Prop :=
  ∃ raw plaintext, base64Decode ks = some raw ∧ 4 + nonceSize + macSize + 1 ≤ raw.length ∧
    beNat (raw.take 4) = magic ∧ A.decrypt ((raw.drop 4).take nonceSize) (raw.drop (4 + nonceSize)) = some plaintext ∧
    plaintext.unmarshal.bind KeyData.unmarshal = some kd

def SelfSigned : Prop :=
  ∃ pub sig, S.readKey kd.arbiterPubkey = some pub ∧ S.readSig kd.sig = some sig ∧
    S.verify pub (keyCanonical kd) sig = true

variable {S A} {ks : String} {magic : Nat}

theorem opens_unique {magic' : Nat} {kd kd' : KeyData} (first : Opens A ks magic kd)
    (second : Opens A ks magic' kd') : magic = magic' ∧ kd = kd' := by
  obtain ⟨raw,plaintext,decoded,_,rfl,opened,read⟩ := first
  obtain ⟨raw',plaintext',decoded',_,rfl,opened',read'⟩ := second
  grind

variable {kd}

theorem verifyKeySignature_ok (accepted : verifyKeySignature S kd = .ok ()) : SelfSigned S kd := by
  unfold verifyKeySignature at accepted
  split_ifs at accepted
  split at accepted
  · cases accepted
  · next pub key =>
    split at accepted
    · cases accepted
    · next sig signature =>
      split_ifs at accepted with verified
      exact ⟨pub,sig,key,signature,verified⟩

/-- What a string is read to: what it decrypts to, with a user, and under
    version 2 signed under the key it carries. -/
theorem parse_ok (parsed : parseKeyString S A ks = .ok kd) :
    ∃ magic, Opens A ks magic kd ∧ (magic = keyMagicV1 ∨ magic = keyMagicV2 ∧ SelfSigned S kd) := by
  simp only [parseKeyString] at parsed
  split at parsed
  · cases parsed
  · next raw decoded =>
    by_cases short : raw.length < 4 + nonceSize + macSize + 1
    · rw [if_pos short] at parsed
      cases parsed
    rw [if_neg short] at parsed
    have long := Nat.not_lt.mp short
    by_cases bad : beNat (raw.take 4) ≠ keyMagicV1 ∧ beNat (raw.take 4) ≠ keyMagicV2
    · rw [if_pos bad] at parsed
      cases parsed
    rw [if_neg bad] at parsed
    split at parsed
    · cases parsed
    · next plaintext opened =>
      split at parsed
      · cases parsed
      · next found read =>
        split_ifs at parsed with nobody two
        · split at parsed
          · cases parsed
          · next accepted =>
            cases parsed
            exact ⟨_,⟨raw,plaintext,decoded,long,rfl,opened,read⟩,.inr ⟨two,verifyKeySignature_ok accepted⟩⟩
        · cases parsed
          refine ⟨_,⟨raw,plaintext,decoded,long,rfl,opened,read⟩,.inl ?_⟩
          by_contra other
          exact bad ⟨other,two⟩

theorem parse_of_opens (opens : Opens A ks magic kd)
    (named : kd.username ≠ "")
    (fine : magic = keyMagicV1 ∨ magic = keyMagicV2 ∧ verifyKeySignature S kd = .ok ()) :
    parseKeyString S A ks = .ok kd := by
  obtain ⟨raw,plaintext,decoded,long,rfl,opened,read⟩ := opens
  grind [keyMagicV1,keyMagicV2,parseKeyString]

variable (S A)

def encodeKey (kd : KeyData) (magic : Nat) : String :=
  base64Encode (beBytes 4 magic ++ (nonce.1 ++ A.encrypt nonce.1 (.document (Json.marshal keyFields kd))))

def encodeKeyString (kd : KeyData) : String := encodeKey A nonce kd keyMagicV1

def signPayload (priv : S.Secret) : KeyData :=
  { p with
    authSig := S.sigText (S.sign priv (keyAuthCanonical p))
    sig := S.sigText (S.sign priv (Json.marshal keyPayloadCanonical p)) }

def buildSignedKey (priv : S.Secret) : String :=
  encodeKey A nonce (signPayload S p priv) keyMagicV2

variable {S A}

theorem opens_encodeKey (kd : KeyData) (small : magic < 256 ^ 4) :
    Opens A (encodeKey A nonce kd magic) magic kd := by
  obtain ⟨nonce,size⟩ := nonce
  have four : (beBytes 4 magic).length = 4 := length_beBytes 4 magic
  have tag := A.encrypt_long nonce (.document (Json.marshal keyFields kd))
  refine ⟨_,.document (Json.marshal keyFields kd),base64Decode_encode _,?_,?_,?_,?_⟩
  · simp only [List.length_append,macSize,Body.least] at tag ⊢
    omega
  · rw [List.take_left' four,beNat_beBytes,Nat.mod_eq_of_lt small]
  · grind [A.decrypt_encrypt]
  · exact unmarshal_marshal kd

/-- What the client checks is what the arbiter has signed: both serialise alike. -/
theorem keyCanonical_signPayload (priv : S.Secret) :
    keyCanonical (signPayload S p priv) = Json.marshal keyPayloadCanonical p := rfl

theorem parse_encodeKeyString (named : kd.username ≠ "") :
    parseKeyString S A (encodeKeyString A nonce kd) = .ok kd :=
  parse_of_opens (opens_encodeKey nonce kd (by decide)) named (.inl rfl)

theorem parse_buildSignedKey {p : KeyData} {priv : S.Secret} (named : p.username ≠ "")
    (own : p.arbiterPubkey = S.keyText (S.pub priv)) :
    parseKeyString S A (buildSignedKey S A nonce p priv) = .ok (signPayload S p priv) := by
  refine parse_of_opens (opens_encodeKey nonce _ (by decide)) named (.inr ⟨rfl,?_⟩)
  grind [signPayload,S.verify_sign_iff,verifyKeySignature,keyCanonical_signPayload,S.keyText_ne,S.sigText_ne,S.readKey_keyText,S.readSig_sigText]

variable (S A)

/-- Someone can write the string who holds none of the `Genuine` secrets: the
    signature that its key data carry, if it is one, is `Known` to them. The
    secret of the encryption is known to everyone, so nothing else is asked. -/
def InReach (Genuine : S.Secret → Prop) (Issued : S.Secret → Json → Prop) (ks : String) : Prop :=
  ∀ magic kd, Opens A ks magic kd → ∀ sig, S.readSig kd.sig = some sig → S.Known Genuine Issued sig

def magicOf (ks : String) : Option Nat := (base64Decode ks).map (fun raw => beNat (raw.take 4))

variable {S A}

theorem magicOf_opens (opens : Opens A ks magic kd) :
    magicOf ks = some magic := by
  obtain ⟨raw,_,decoded,_,rfl,_,_⟩ := opens
  rw [magicOf,decoded,Option.map_some]

/-- Key data of version 2 were signed by the genuine arbiter whose public key
    they carry, if it is one's. -/
theorem parsed_key_signed {Genuine : S.Secret → Prop} {Issued : S.Secret → Json → Prop} {ks : String} {kd : KeyData}
    (reach : InReach S A Genuine Issued ks) (parsed : parseKeyString S A ks = .ok kd) :
    magicOf ks = some keyMagicV1 ∨
    magicOf ks = some keyMagicV2 ∧ ∃ pub sig, S.readKey kd.arbiterPubkey = some pub ∧ S.readSig kd.sig = some sig ∧
      S.verify pub (keyCanonical kd) sig = true ∧ ∀ k, Genuine k → S.pub k = pub → Issued k (keyCanonical kd) := by
  obtain ⟨magic,opens,first | ⟨second,pub,sig,key,signature,verified⟩⟩ := parse_ok parsed
  · exact .inl (first ▸ magicOf_opens opens)
  · refine .inr ⟨second ▸ magicOf_opens opens,pub,sig,key,signature,verified,?_⟩
    rintro k genuine rfl
    exact Signatures.issued_of_known (reach magic kd opens sig signature) genuine verified

end

def sampleKey (S : Signatures Json) (priv : S.Secret) : KeyData where
  username := "alice"
  password := "secret"
  servers := []
  controlNodes := ["198.51.100.7:443"]
  arbiterPubkey := S.keyText (S.pub priv)
  nodeId := "n1"
  apiKey := ""
  clientId := "clt_1"
  keyId := ""
  authSig := ""
  sig := ""
  isAdmin := false

noncomputable def sampleScheme : Signatures Json := Signatures.symbolic Json

noncomputable def sampleSealing : Sealing Body Body.least := Sealing.symbolic Body Body.least

def sampleSecret : sampleScheme.Secret := (0 : Nat)

def SampleIssued (k : sampleScheme.Secret) (m : Json) : Prop :=
  k = sampleSecret ∧ m = keyCanonical (sampleKey sampleScheme sampleSecret)

theorem sample_key_signed :
    let ks := buildSignedKey sampleScheme sampleSealing (zeroNonce _) (sampleKey sampleScheme sampleSecret) sampleSecret
    let kd := signPayload sampleScheme (sampleKey sampleScheme sampleSecret) sampleSecret
    InReach sampleScheme sampleSealing (· = sampleSecret) SampleIssued ks ∧
    parseKeyString sampleScheme sampleSealing ks = .ok kd ∧
    (magicOf ks = some keyMagicV1 ∨
    magicOf ks = some keyMagicV2 ∧ ∃ pub sig, sampleScheme.readKey kd.arbiterPubkey = some pub ∧
      sampleScheme.readSig kd.sig = some sig ∧ sampleScheme.verify pub (keyCanonical kd) sig = true ∧
      ∀ k, k = sampleSecret → sampleScheme.pub k = pub → SampleIssued k (keyCanonical kd)) := by
  intro ks kd
  have parsed : parseKeyString sampleScheme sampleSealing ks = .ok kd :=
    parse_buildSignedKey (zeroNonce _) (by simp [sampleKey]) rfl
  have reach : InReach sampleScheme sampleSealing (· = sampleSecret) SampleIssued ks := by
    intro magic found opens sig read
    obtain ⟨_,rfl⟩ := opens_unique opens (opens_encodeKey (zeroNonce _) kd (by decide))
    cases (sampleScheme.readSig_sigText _).symm.trans read
    exact .issued sampleSecret _ ⟨rfl,rfl⟩
  exact ⟨reach,parsed,parsed_key_signed reach parsed⟩

/-- Someone without any arbiter's secret writes a string of version 1, and its
    control nodes are taken though no arbiter signed anything. -/
theorem unsigned_key_taken :
    ¬ ∀ (S : Signatures Json) (A : Sealing Body Body.least) (Genuine : S.Secret → Prop) (Issued : S.Secret → Json → Prop)
      (ks : String) (kd : KeyData), InReach S A Genuine Issued ks → parseKeyString S A ks = .ok kd →
        ∃ k, Genuine k ∧ Issued k (keyCanonical kd) := by
  intro holds
  let kd : KeyData := { sampleKey sampleScheme sampleSecret with arbiterPubkey := "" }
  have reach : InReach sampleScheme sampleSealing (· = sampleSecret) (fun _ _ => False)
      (encodeKeyString sampleSealing (zeroNonce _) kd) := by
    intro magic found opens sig read
    obtain ⟨_,rfl⟩ := opens_unique opens (opens_encodeKey (zeroNonce _) kd (by decide))
    cases sampleScheme.readSig_empty.symm.trans read
  obtain ⟨_,_,issued⟩ := holds _ _ _ _ _ kd reach (parse_encodeKeyString (zeroNonce _) (by simp [kd,sampleKey]))
  exact issued

end TunnelCat.KeyString
