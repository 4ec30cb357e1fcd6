import TunnelCat.DhtNode
import TunnelCat.Download
import TunnelCat.Frames
import TunnelCat.Slices

/-!
The frames of an upload and of its answer, read by position as the exit (`snc-exit/handler.go`) and the
client (`snc/core/tunnel.go`) read them.

The end of the data in an answer is computed in 32 bits, so `parseResponse` returns what the exit put in
as long as that is four bytes shorter than the length field allows (`upload_codec_iff`).
-/
namespace TunnelCat.UploadCodec
open Bytes Slices Frames List
open DhtNode (hexDecode)
open Download (sealTunnelData openFrame)

/-- The sixteen bytes of an id: zeros where the text has none. What a longer text would write after
    them is overwritten. -/
def connIDOf (connIDHex : String) : ConnID where
  bytes := ((hexDecode connIDHex.toList).getD [] ++ replicate 16 0).take 16
  length_eq := by simp

def buildUploadPlain (connIDHex : String) (seq : UInt32) (target payload : Data) : Data :=
  Frames.buildUploadPlain (connIDOf connIDHex) seq.toNat target payload

structure Fields where
  connID : String
  seq : Nat
  target : Data
  payload : Data

namespace Exit

def parseUploadFrame (plain : Data) : Option (Except String Fields) := do
  if plain.length < 1 + 16 + 4 + 2 then return .error "frame too short"
  let type ← plain[0]?
  if type ≠ frameTypeUpload then return .error ("unexpected type 0x" ++ hexEncode [type])
  let connID := hexEncode (← slice plain 1 17)
  let seq ← uint 4 plain 17
  let tgtLen ← uint 2 plain 21
  if tgtLen > plain.length - 23 then return .error "target length overflow"
  let target ← slice plain 23 (23 + tgtLen)
  let payload ← sliceFrom plain (23 + tgtLen)
  return .ok ⟨connID,seq,target,payload⟩

end Exit

namespace Core

def parseUploadFrame (plain : Data) : Option (Except String Fields) := do
  if plain.length < 1 + 16 + 4 + 2 then return .error "frame too short"
  let type ← plain[0]?
  if type ≠ frameTypeUpload then return .error ("unexpected type 0x" ++ hexEncode [type])
  let connID := hexEncode (← slice plain 1 17)
  let seq ← uint 4 plain 17
  let tgtLen ← uint 2 plain 21
  if tgtLen > plain.length - 23 then return .error "target length overflow"
  let target ← slice plain 23 (23 + tgtLen)
  let payload ← sliceFrom plain (23 + tgtLen)
  return .ok ⟨connID,seq,target,payload⟩

end Core

def Fields.of (f : UploadFrame) : Fields := ⟨hexEncode f.connID.bytes,f.seq,f.target,f.payload⟩

theorem core_eq_exit (plain : Data) : Core.parseUploadFrame plain = Exit.parseUploadFrame plain := rfl

theorem exit_parse (plain : Data) : Exit.parseUploadFrame plain = some ((Frames.parseUploadFrame plain).map Fields.of) := by
  unfold Exit.parseUploadFrame Frames.parseUploadFrame
  by_cases short : plain.length < 23
  · simp [short,Except.map]
  have first : ∃ type, plain[0]? = some type ∧ plain.head? = some type ∧ plain.take 1 = [type] := by
    obtain ⟨type,rest,rfl⟩ := exists_cons_of_length_pos (show 0 < plain.length by omega)
    exact ⟨type,rfl,rfl,rfl⟩
  obtain ⟨type,here,head,one⟩ := first
  rw [if_neg short,dif_neg short,here,head,one]
  by_cases upload : type = frameTypeUpload
  · simp only [upload,ne_eq,not_true_eq_false,if_false,Option.bind_eq_bind,Option.bind_some]
    rw [slice_eq (i := 1) (k := 16) (by omega),uint_eq (by omega),uint_eq (by omega)]
    simp only [Option.bind_some]
    split
    · rfl
    · next fits =>
      rw [slice_eq (by omega),sliceFrom_eq (by omega),drop_drop]
      rfl
  · simp [upload,Except.map]

theorem hexValue_digit : ∀ n : Fin 16, NetIP.hexValue (hexDigit n) = some n.1 := by decide

theorem hexDecode_encode (bytes : Data) : hexDecode (hexEncode bytes).toList = some bytes := by
  rw [hexEncode,String.toList_ofList]
  induction bytes with
  | nil => rfl
  | cons b rest ih =>
    have high := hexValue_digit ⟨b.toNat / 16,by have := b.toNat_lt; omega⟩
    have low := hexValue_digit ⟨b.toNat % 16,by omega⟩
    simp only [flatMap_cons,cons_append,nil_append,hexDecode] at high low ⊢
    rw [high,low,ih]
    simp only [Option.some.injEq,List.cons.injEq,and_true]
    rw [Nat.div_add_mod' b.toNat 16]
    exact UInt8.ofNat_toNat

theorem connIDOf_encode (id : ConnID) : connIDOf (hexEncode id.bytes) = id := by
  simp [connIDOf,hexDecode_encode,take_left' id.length_eq]

theorem exit_parse_build (id : ConnID) (seq : UInt32) {target : Data} (payload : Data) (short : target.length < 2 ^ 16) :
    Exit.parseUploadFrame (buildUploadPlain (hexEncode id.bytes) seq target payload) =
      some (.ok ⟨hexEncode id.bytes,seq.toNat,target,payload⟩) := by
  rw [exit_parse,buildUploadPlain,connIDOf_encode,parse_build _ _ _ _ short,Nat.mod_eq_of_lt seq.toNat_lt]
  rfl

section
variable (A : Cipher)

def minPadding : Nat := 512

/-- `buildUploadResponse` of the exit. The padding is random. -/
def buildUploadResponse (nonce : Nonce 12) (random : Nat → UInt8) (data : Data) : Data :=
  let dlen := data.length
  let padLen := if dlen > minPadding then dlen else minPadding
  sealTunnelData A nonce (beBytes 4 dlen ++ (data ++ (range (padLen - dlen)).map random))

def parseResponse (body : Data) : Option (Except String Data) := do
  if body.length = 0 then return .ok []
  match openFrame A body with
  | none => return .error "response decrypt"
  | some plain =>
    if plain.length < 4 then return .error "response frame too short"
    let dlen ← uint 4 plain 0
    if dlen = 0 then return .ok []
    if dlen > plain.length - 4 then return .error ("response dlen " ++ toString dlen ++ " > available " ++ toString (plain.length - 4))
    -- both ends are `uint32`
    return .ok (← slice plain 4 ((4 + dlen) % 2 ^ 32))

theorem response_iff (nonce : Nonce 12) (random : Nat → UInt8) {data : Data} (small : data.length < 2 ^ 32) :
    parseResponse A (buildUploadResponse A nonce random data) = some (.ok data) ↔ data.length < 2 ^ 32 - 4 := by
  have sealed := Download.length_sealTunnelData A nonce
  rw [parseResponse,buildUploadResponse,if_neg (by rw [sealed]; omega),Download.openFrame_seal]
  generalize pad : (range ((if data.length > minPadding then data.length else minPadding) - data.length)).map random = padding
  have size : (beBytes 4 data.length ++ (data ++ padding)).length = 4 + (data.length + padding.length) := by
    simp only [length_append,length_beBytes]
  have dlen : uint 4 (beBytes 4 data.length ++ (data ++ padding)) 0 = some data.length := uint_drop (i := 0) rfl small
  simp only [dlen,Option.bind_eq_bind,Option.bind_some]
  rw [if_neg (by omega)]
  by_cases empty : data.length = 0
  · simp [length_eq_zero_iff.mp empty]
  rw [if_neg empty,if_neg (by omega)]
  constructor
  · -- past the end of the field the slice ends before it begins
    intro read
    by_contra long
    have cut : (4 + data.length) % 2 ^ 32 < 4 := by omega
    rw [slice,if_neg (by omega)] at read
    cases read
  · intro fits
    have data_ : (beBytes 4 data.length ++ (data ++ padding)).drop 4 = data ++ padding := drop_left' (length_beBytes 4 _)
    rw [Nat.mod_eq_of_lt (by omega),slice_drop data_ (by omega)]
    rfl

end

/-- Both parsers read what `buildUploadPlain` wrote, and agree on every string without reading out of range.
    Of an answer with less than 2 ^ 32 bytes `parseResponse` returns the data exactly when there are
    less than 2 ^ 32 - 4 of them. -/
theorem upload_codec_iff (A : Cipher) :
    (∀ (id : ConnID) (seq : UInt32) (target payload : Data), target.length < 2 ^ 16 →
      let frame := buildUploadPlain (hexEncode id.bytes) seq target payload
      Exit.parseUploadFrame frame = some (.ok ⟨hexEncode id.bytes,seq.toNat,target,payload⟩) ∧
      Core.parseUploadFrame frame = some (.ok ⟨hexEncode id.bytes,seq.toNat,target,payload⟩)) ∧
    (∀ plain, Core.parseUploadFrame plain = Exit.parseUploadFrame plain ∧ (Exit.parseUploadFrame plain).isSome) ∧
    ∀ (nonce : Nonce 12) (random : Nat → UInt8) (data : Data), data.length < 2 ^ 32 →
      (parseResponse A (buildUploadResponse A nonce random data) = some (.ok data) ↔ data.length < 2 ^ 32 - 4) := by
  refine ⟨?_,?_,fun nonce random data small => response_iff A nonce random small⟩
  · intro id seq target payload short
    exact ⟨exit_parse_build id seq payload short,by rw [core_eq_exit]; exact exit_parse_build id seq payload short⟩
  · intro plain
    refine ⟨core_eq_exit plain,?_⟩
    simp [exit_parse]

/-- An answer with 2 ^ 32 - 4 bytes: the end of the data is 0. -/
theorem long_response_lost : ¬ ∀ (A : Cipher) (nonce : Nonce 12) (random : Nat → UInt8) (data : Data),
    data.length < 2 ^ 32 → parseResponse A (buildUploadResponse A nonce random data) = some (.ok data) := by
  intro all
  have long : (replicate (2 ^ 32 - 4) (0 : UInt8)).length = 2 ^ 32 - 4 := length_replicate
  have read := all Cipher.plain (zeroNonce 12) (fun _ => 0) (replicate (2 ^ 32 - 4) 0) (by rw [long]; decide)
  rw [response_iff _ _ _ (by rw [long]; decide),long] at read
  exact absurd read (by decide)

end TunnelCat.UploadCodec
