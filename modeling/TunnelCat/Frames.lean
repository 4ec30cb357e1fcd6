import TunnelCat.Bytes

/-!
The upload frame between client and exit, after decryption: a type byte, the
connection, the sequence number in four bytes, the length of the target in two,
the target and the payload.
-/
namespace TunnelCat.Frames
open Bytes List

/-- The sixteen random bytes that name a connection. -/
structure ConnID where
  bytes : List UInt8
  length_eq : bytes.length = 16
deriving DecidableEq

def frameTypeUpload : UInt8 := 0x00

variable (connID : ConnID) (seq : Nat) (target payload : List UInt8)

def buildUploadPlain : List UInt8 :=
  frameTypeUpload :: (connID.bytes ++ (beBytes 4 seq ++ (beBytes 2 target.length ++ (target ++ payload))))

structure UploadFrame where
  connID : ConnID
  seq : Nat
  target : List UInt8
  payload : List UInt8

def parseUploadFrame (plain : List UInt8) : Except String UploadFrame :=
  if short : plain.length < 23 then .error "frame too short"
  else if plain.head? ≠ some frameTypeUpload then .error ("unexpected type 0x" ++ hexEncode (plain.take 1))
  else if beNat ((plain.drop 21).take 2) > plain.length - 23 then .error "target length overflow"
  else .ok
    { connID := ⟨(plain.drop 1).take 16,by simp only [length_take,length_drop]; omega⟩
      seq := beNat ((plain.drop 17).take 4)
      target := (plain.drop 23).take (beNat ((plain.drop 21).take 2))
      payload := (plain.drop 23).drop (beNat ((plain.drop 21).take 2)) }

/-- The exit reads what the client wrote: the sequence number modulo 2 ^ 32, and of a
    target that is too long for its length field only the first bytes. The others then
    stand before the payload. -/
theorem parse_build_cut :
    parseUploadFrame (buildUploadPlain connID seq target payload) =
      .ok ⟨connID,seq % 2 ^ 32,target.take (target.length % 65536),target.drop (target.length % 65536) ++ payload⟩ := by
  have idLength := connID.length_eq
  have afterType : (buildUploadPlain connID seq target payload).drop 1 =
      connID.bytes ++ (beBytes 4 seq ++ (beBytes 2 target.length ++ (target ++ payload))) := rfl
  have afterID : (buildUploadPlain connID seq target payload).drop 17 =
      beBytes 4 seq ++ (beBytes 2 target.length ++ (target ++ payload)) := by
    rw [show 17 = 1 + 16 from rfl,← drop_drop,afterType,drop_left' idLength]
  have afterSeq : (buildUploadPlain connID seq target payload).drop 21 =
      beBytes 2 target.length ++ (target ++ payload) := by
    rw [show 21 = 17 + 4 from rfl,← drop_drop,afterID,drop_left' (length_beBytes 4 seq)]
  have afterLength : (buildUploadPlain connID seq target payload).drop 23 = target ++ payload := by
    rw [show 23 = 21 + 2 from rfl,← drop_drop,afterSeq,drop_left' (length_beBytes 2 _)]
  have length : (buildUploadPlain connID seq target payload).length = 23 + target.length + payload.length := by
    simp only [buildUploadPlain,length_cons,length_append,length_beBytes]
    omega
  have targetLength : beNat ((beBytes 2 target.length ++ (target ++ payload)).take 2) = target.length % 65536 := by
    grind [length_beBytes,beNat_beBytes]
  have inside : target.length % 65536 ≤ target.length := Nat.mod_le _ _
  unfold parseUploadFrame
  rw [dif_neg (by omega),if_neg (by simp [buildUploadPlain]),if_neg (by rw [afterSeq]; omega)]
  simp only [afterType,afterID,afterSeq,afterLength,targetLength,take_left' idLength,
    take_left' (length_beBytes 4 seq),beNat_beBytes_four,take_append_of_le_length inside,
    drop_append_of_le_length inside]

theorem parse_build (short : target.length < 65536) :
    parseUploadFrame (buildUploadPlain connID seq target payload) = .ok ⟨connID,seq % 2 ^ 32,target,payload⟩ := by
  grind [parse_build_cut,drop_length]

end TunnelCat.Frames
