import TunnelCat.Slices

/-!
The datagrams of the UDP transport (`snc/core/udp_relay.go`, `snc-exit/udp_tunnel.go`): requests and
responses behind a magic number, the number of the request and a type, with the length before each part.
-/
namespace TunnelCat.SncuCodec
open Bytes Slices List

def udpRelayMagic : Nat := 0x534E4355
def udpRelayTypeRequest : UInt8 := 0x01

def udpExitMagic : Nat := 0x534E4355
def udpExitTypeResponse : UInt8 := 0x02

variable (reqID : UInt32) (data : Data)

def udpEncodeRequest (path token body : Data) : Data :=
  beBytes 4 udpRelayMagic ++ (beBytes 4 reqID.toNat ++ (udpRelayTypeRequest :: (beBytes 2 path.length ++ (path ++
    (beBytes 2 token.length ++ (token ++ (beBytes 4 body.length ++ body)))))))

def udpExitEncodeResponse (status : Nat) (body : Data) : Data :=
  beBytes 4 udpExitMagic ++ (beBytes 4 reqID.toNat ++ (udpExitTypeResponse :: (beBytes 2 status ++
    (beBytes 4 body.length ++ body))))

/-! ### Decoding

A decoder that gives up returns what it has read so far. -/

structure Request where
  path : Data := []
  token : Data := []
  body : Data := []
  ok : Bool := false

def udpDecodeRequest : Option Request := do
  if data.length < 9 + 2 + 2 + 4 then return {}
  let pLen ← uint 2 data 9
  if 11 + pLen + 2 > data.length then return {}
  let path ← slice data 11 (11 + pLen)
  let o := 11 + pLen
  let tLen ← uint 2 data o
  if o + 2 + tLen + 4 > data.length then return { path }
  let token ← slice data (o + 2) (o + 2 + tLen)
  let o := o + 2 + tLen
  let bLen ← uint 4 data o
  if o + 4 + bLen > data.length then return { path, token }
  let body ← slice data (o + 4) (o + 4 + bLen)
  return { path, token, body, ok := true }

def udpExitDecodeRequest : Option Request := do
  if data.length < 9 + 2 + 2 + 4 then return {}
  let pLen ← uint 2 data 9
  if 11 + pLen + 2 > data.length then return {}
  let path ← slice data 11 (11 + pLen)
  let o := 11 + pLen
  let tLen ← uint 2 data o
  if o + 2 + tLen + 4 > data.length then return { path }
  let token ← slice data (o + 2) (o + 2 + tLen)
  let o := o + 2 + tLen
  let bLen ← uint 4 data o
  if o + 4 + bLen > data.length then return { path, token }
  let body ← slice data (o + 4) (o + 4 + bLen)
  return { path, token, body, ok := true }

structure Response where
  status : Nat := 0
  body : Data := []
  ok : Bool := false

def udpDecodeResponse : Option Response := do
  if data.length < 4 + 4 + 1 + 2 + 4 then return {}
  let status ← uint 2 data 9
  let bLen ← uint 4 data 11
  if 15 + bLen > data.length then return { status }
  let body ← slice data 15 (15 + bLen)
  return { status, body, ok := true }

theorem exit_eq_client : udpExitDecodeRequest data = udpDecodeRequest data := rfl

theorem udpDecodeRequest_total : ∃ r, udpDecodeRequest data = some r := by
  refine total_guard fun _ => total_bind (uint_total (by omega)) fun pLen _ => ?_
  refine total_guard fun _ => total_bind (slice_total (by omega)) fun path _ => ?_
  refine total_bind (uint_total (by omega)) fun tLen _ => ?_
  refine total_guard fun _ => total_bind (slice_total (by omega)) fun token _ => ?_
  refine total_bind (uint_total (by omega)) fun bLen _ => ?_
  exact total_guard fun _ => total_bind (slice_total (by omega)) fun body _ => ⟨_,rfl⟩

theorem udpDecodeResponse_total : ∃ r, udpDecodeResponse data = some r := by
  refine total_guard fun _ => total_bind (uint_total (by omega)) fun status _ => ?_
  refine total_bind (uint_total (by omega)) fun bLen _ => ?_
  exact total_guard fun _ => total_bind (slice_total (by omega)) fun body _ => ⟨_,rfl⟩

theorem decode_encode_request {path token body : Data} (path_fits : path.length < 2 ^ 16)
    (token_fits : token.length < 2 ^ 16) (body_fits : body.length < 2 ^ 32) :
    udpDecodeRequest (udpEncodeRequest reqID path token body) = some ⟨path,token,body,true⟩ := by
  generalize data_eq : udpEncodeRequest reqID path token body = data
  have size : data.length = 17 + path.length + token.length + body.length := by
    simp only [← data_eq,udpEncodeRequest,length_append,length_cons,length_beBytes]
    omega
  have start : data.drop 0 = udpEncodeRequest reqID path token body := data_eq.symm
  obtain ⟨pLen,path_,rest⟩ := prefixed_drop (drop_byte (drop_field (drop_field start))) path_fits
  obtain ⟨tLen,token_,rest⟩ := prefixed_drop rest token_fits
  have last : data.drop (11 + path.length + 2 + token.length) = beBytes 4 body.length ++ (body ++ []) := by
    rw [append_nil]
    exact rest
  obtain ⟨bLen,body_,-⟩ := prefixed_drop last body_fits
  simp only [Nat.zero_add,Nat.reduceAdd] at pLen path_ tLen token_ bLen body_
  unfold udpDecodeRequest
  rw [if_neg (by omega),pLen]
  simp only [Option.bind_eq_bind,Option.bind_some]
  rw [if_neg (by omega),path_,Option.bind_some,tLen,Option.bind_some,if_neg (by omega),token_,Option.bind_some,bLen,
    Option.bind_some,if_neg (by omega),body_]
  rfl

theorem decode_encode_response {status : Nat} (body : Data) (fits : status < 2 ^ 16) :
    udpDecodeResponse (udpExitEncodeResponse reqID status body) = some ⟨status,body.take (body.length % 2 ^ 32),true⟩ := by
  generalize data_eq : udpExitEncodeResponse reqID status body = data
  have size : data.length = 15 + body.length := by
    simp only [← data_eq,udpExitEncodeResponse,length_append,length_cons,length_beBytes]
    omega
  have start : data.drop 0 = udpExitEncodeResponse reqID status body := data_eq.symm
  have at9 := drop_byte (drop_field (drop_field start))
  have at11 := drop_field at9
  have inside : body.length % 2 ^ 32 ≤ body.length := Nat.mod_le _ _
  have part : data.drop 15 = body := drop_field at11
  unfold udpDecodeResponse
  rw [if_neg (by omega),uint_drop at9 fits]
  simp only [Option.bind_eq_bind,Option.bind_some]
  rw [uint_drop_mod at11,Option.bind_some,if_neg (by omega),slice_eq (by omega),part]
  rfl

/-- Both decoders of requests read what `udpEncodeRequest` wrote, agree on every datagram, and none reads out of
    range. A response is read back exactly when its body fits in its length field. -/
theorem sncu_codec :
    (∀ (reqID : UInt32) (path token body : Data), path.length < 2 ^ 16 → token.length < 2 ^ 16 → body.length < 2 ^ 32 →
      udpDecodeRequest (udpEncodeRequest reqID path token body) = some ⟨path,token,body,true⟩ ∧
      udpExitDecodeRequest (udpEncodeRequest reqID path token body) = some ⟨path,token,body,true⟩) ∧
    (∀ (reqID : UInt32) (status : Nat) (body : Data), status < 2 ^ 16 →
      (udpDecodeResponse (udpExitEncodeResponse reqID status body) = some ⟨status,body,true⟩ ↔ body.length < 2 ^ 32)) ∧
    ∀ data, udpExitDecodeRequest data = udpDecodeRequest data ∧ (udpDecodeRequest data).isSome ∧
      (udpDecodeResponse data).isSome := by
  refine ⟨?_,?_,?_⟩
  · intro reqID path token body path_fits token_fits body_fits
    rw [exit_eq_client,decode_encode_request reqID path_fits token_fits body_fits]
    exact ⟨rfl,rfl⟩
  · intro reqID status body fits
    rw [decode_encode_response reqID body fits]
    simp only [Option.some.injEq,Response.mk.injEq,true_and,and_true]
    exact take_mod_iff (by decide)
  · intro data
    exact ⟨exit_eq_client data,Option.isSome_iff_exists.mpr (udpDecodeRequest_total data),
      Option.isSome_iff_exists.mpr (udpDecodeResponse_total data)⟩

end TunnelCat.SncuCodec
