import TunnelCat.Bytes
import TunnelCat.Resync
import TunnelCat.Uvarint

/-!
The framing of binary log records (`binlog/binlog.go`) and a decoder for a buffer whose oldest part may have
been overwritten. Every access to a slice is checked here as Go checks it.
-/
namespace TunnelCat.Binlog
open Bytes Resync Uvarint List

def startMagic : UInt16 := 0xC5A7
def endMagic : UInt16 := 0x7A5C
def minRecordLen : Nat := 2 + 1 + 1 + 2 + 2

structure Record where
  tag : UInt8
  payload : List UInt8
deriving DecidableEq

def crcRound (crc : UInt16) : UInt16 := if crc &&& 0x8000 ≠ 0 then crc <<< 1 ^^^ 0x1021 else crc <<< 1

def crc16Table (i : UInt8) : UInt16 := crcRound^[8] (i.toUInt16 <<< 8)

variable (data dst b : List UInt8) (records : List Record)

def crc16 : UInt16 :=
  data.foldl (fun crc b => crc <<< 8 ^^^ crc16Table ((crc >>> 8).toUInt8 ^^^ b)) 0xFFFF

example : crc16 ("123456789".toList.map (fun c => UInt8.ofNat c.toNat)) = 0x29B1 := by decide +kernel

def putUint16 (v : UInt16) : List UInt8 := beBytes 2 v.toNat

def body (r : Record) : List UInt8 := r.tag :: (put (r.payload.length % 2 ^ 64) ++ r.payload)

def appendRecord (r : Record) : List UInt8 :=
  dst ++ (putUint16 startMagic ++ (body r ++ (putUint16 (crc16 (body r)) ++ putUint16 endMagic)))

inductive Panic
  | outOfRange
deriving DecidableEq

def index (i : Int) : Except Panic UInt8 :=
  if 0 ≤ i ∧ i < b.length then .ok (b.getD i.toNat 0) else .error .outOfRange

def slice (lo hi : Int) : Except Panic (List UInt8) :=
  if 0 ≤ lo ∧ lo ≤ hi ∧ hi ≤ b.length then .ok ((b.take hi.toNat).drop lo.toNat) else .error .outOfRange

def toInt (x : Int) : Int := x.bmod (2 ^ 64)

def uint16 : UInt16 := UInt16.ofNat (beNat b)

def findFrom (b : List UInt8) (hi lo : UInt8) : Nat → Nat → Except Panic Int
  | _, 0 => .ok (-1)
  | i, left+1 => do
    let x ← index b i
    let y ← index b (i + 1)
    if x = hi ∧ y = lo then pure i else findFrom b hi lo (i + 1) left

def findMagic (magic : UInt16) : Except Panic Int :=
  if b.length < 2 then .ok (-1) else findFrom b (magic >>> 8).toUInt8 magic.toUInt8 0 (b.length - 1)

def decodeOneRecord : Except Panic (Option (Record × Int)) :=
  if b.length < minRecordLen then .ok none
  else do
    let tag ← index b 2
    let lengthAndMore ← slice b 3 b.length
    let payloadLen := (read lengthAndMore).1
    let n := (read lengthAndMore).2
    if n ≤ 0 then pure none
    else
      let pos := 3 + n
      let bodyEnd := toInt (pos + toInt payloadLen)
      if payloadLen > b.length ∨ bodyEnd < pos ∨ toInt (bodyEnd + 4) > b.length then pure none
      else
        let gotCRC ← slice b bodyEnd (bodyEnd + 2)
        let covered ← slice b 2 bodyEnd
        if uint16 gotCRC ≠ crc16 covered then pure none
        else
          let gotEnd ← slice b (bodyEnd + 2) (bodyEnd + 4)
          if uint16 gotEnd ≠ endMagic then pure none
          else
            let payload ← slice b pos bodyEnd
            pure (some (⟨tag,payload⟩,bodyEnd + 4))

/-- What one turn of the decoder comes to: there is no start magic any more, none of a
    record, or a record; and where it goes on. -/
inductive Turn
  | none
  | bad (next : Int)
  | record (r : Record) (next : Int)

def turn (i : Int) : Except Panic Turn := do
  let ahead ← slice data i data.length
  let off ← findMagic ahead startMagic
  if off < 0 then pure .none
  else
    let b ← slice data (i + off) data.length
    match ← decodeOneRecord b with
    | none => pure (.bad (i + off + 1))
    | some (r, consumed) => pure (.record r (i + off + consumed))

def decodeLoop (data : List UInt8) : Nat → Int → List Record → Nat → Option (Except Panic (List Record × Nat))
  | 0, _, _, _ => none
  | turns+1, i, records, corrupt =>
    if i < data.length then
      match turn data i with
      | .error p => some (.error p)
      | .ok .none => some (.ok (records,corrupt))
      | .ok (.bad next) => decodeLoop data turns next records (corrupt + 1)
      | .ok (.record r next) => decodeLoop data turns next (records ++ [r]) corrupt
    else some (.ok (records,corrupt))

/-- Each turn moves on by a byte at least, so that there are never more than these. -/
def decodeRecords : Option (Except Panic (List Record × Nat)) :=
  decodeLoop data (data.length + 1) 0 [] 0

def MagicAt : Prop := putUint16 startMagic <+: b

instance : DecidablePred MagicAt := fun b => inferInstanceAs (Decidable (putUint16 startMagic <+: b))

def covered (r : Record) (v : List UInt8) : List UInt8 := r.tag :: (v ++ r.payload)

/-- A complete frame of a record begins here, with its checksum and end magic. -/
def FrameAt (r : Record) (rest : List UInt8) : Prop :=
  ∃ v, Encodes v r.payload.length ∧
    data = putUint16 startMagic ++ (covered r v ++ (putUint16 (crc16 (covered r v)) ++ (putUint16 endMagic ++ rest)))

def maxAlloc : Nat := 2 ^ 48

structure Slice where
  bytes : List UInt8
  fits : bytes.length ≤ maxAlloc

theorem toInt_eq {x : Int} (low : 0 ≤ x) (high : x < 2 ^ 63) : toInt x = x := by
  grind [toInt]

theorem slice_append (x y z : List UInt8) {lo hi : Int} (lo_ : lo = x.length) (hi_ : hi = x.length + y.length) :
    slice (x ++ (y ++ z)) lo hi = .ok y := by
  subst lo_ hi_
  have inside : (0 : Int) ≤ x.length ∧ (x.length : Int) ≤ x.length + y.length ∧
      (x.length + y.length : Int) ≤ (x ++ (y ++ z)).length := by
    simp only [length_append]
    omega
  grind [slice,Int.toNat_natCast]

theorem slice_end (x y : List UInt8) {lo : Int} (lo_ : lo = x.length) : slice (x ++ y) lo (x ++ y).length = .ok y := by
  have whole : slice (x ++ (y ++ [])) lo (x ++ y).length = .ok y := slice_append x y [] lo_ (by simp)
  simpa using whole

variable {k i : Nat} {v crc_ end_ rest : List UInt8} {rs : List Record}

theorem slice_drop (inside : k ≤ b.length) : slice b k b.length = .ok (b.drop k) := by
  have parts : slice (b.take k ++ b.drop k) k (b.take k ++ b.drop k).length = .ok (b.drop k) :=
    slice_end (b.take k) (b.drop k) (by simp [inside])
  simpa using parts

@[simp] theorem length_putUint16 (v : UInt16) : (putUint16 v).length = 2 := length_beBytes 2 _

theorem uint16_put (v : UInt16) : uint16 (putUint16 v) = v := by
  grind [v.toNat_lt,uint16,putUint16,beNat_beBytes,UInt16.ofNat_toNat]

variable {b}

theorem put_uint16 (two : b.length = 2) : putUint16 (uint16 b) = b := by
  have small : beNat b < 256 ^ 2 := two ▸ beNat_lt b
  apply beNat_inj
  · rw [length_putUint16,two]
  · have same : (UInt16.ofNat (beNat b)).toNat = beNat b := by
      exact Nat.mod_eq_of_lt small
    rw [putUint16,beNat_beBytes,uint16,same]
    exact Nat.mod_eq_of_lt small

theorem access_tag (tag : UInt8) (t : List UInt8) :
    index (putUint16 startMagic ++ tag :: t) 2 = .ok tag ∧
      slice (putUint16 startMagic ++ tag :: t) 3 (putUint16 startMagic ++ tag :: t).length = .ok t := by
  constructor
  · grind [index,length_putUint16]
  · have parts : putUint16 startMagic ++ tag :: t = (putUint16 startMagic ++ [tag]) ++ t := by simp
    rw [parts]
    exact slice_end _ _ rfl

variable {r : Record}

theorem decode_laid_out (encodes : Encodes v r.payload.length)
    (crc2 : crc_.length = 2) (end2 : end_.length = 2)
    (fits : (putUint16 startMagic ++ (covered r v ++ (crc_ ++ (end_ ++ rest)))).length ≤ maxAlloc) :
    decodeOneRecord (putUint16 startMagic ++ (covered r v ++ (crc_ ++ (end_ ++ rest)))) =
      .ok (if uint16 crc_ = crc16 (covered r v) ∧ uint16 end_ = endMagic then
        some (r,(7 + v.length + r.payload.length : Nat)) else none) := by
  set b := putUint16 startMagic ++ (covered r v ++ (crc_ ++ (end_ ++ rest))) with b_
  have some_ := encodes.pos
  have length : b.length = 7 + v.length + r.payload.length + rest.length := by
    simp only [b_,covered,length_append,length_cons,length_putUint16,end2]
    omega
  have bound : b.length ≤ 2 ^ 48 := fits
  obtain ⟨tag,afterTag⟩ : index b 2 = .ok r.tag ∧
      slice b 3 b.length = .ok (v ++ (r.payload ++ (crc_ ++ (end_ ++ rest)))) := by
    grind [covered,access_tag]
  have crcAt : slice b (3 + v.length + r.payload.length) (3 + v.length + r.payload.length + 2) = .ok crc_ := by
    have parts : b = (putUint16 startMagic ++ covered r v) ++ (crc_ ++ (end_ ++ rest)) := by simp [b_]
    rw [parts]
    refine slice_append _ _ _ ?_ ?_
    all_goals simp only [covered,length_append,length_cons,length_putUint16,crc2]; omega
  have endAt : slice b (3 + v.length + r.payload.length + 2) (3 + v.length + r.payload.length + 4) = .ok end_ := by
    have parts : b = (putUint16 startMagic ++ (covered r v ++ crc_)) ++ (end_ ++ rest) := by simp [b_]
    rw [parts]
    refine slice_append _ _ _ ?_ ?_
    all_goals simp only [covered,length_append,length_cons,length_putUint16,crc2]; omega
  have coveredAt : slice b 2 (3 + v.length + r.payload.length) = .ok (covered r v) := by
    refine slice_append _ _ _ (by simp) ?_
    simp only [covered,length_append,length_cons,length_putUint16]
    omega
  have payloadAt : slice b (3 + v.length) (3 + v.length + r.payload.length) = .ok r.payload := by
    have parts : b = (putUint16 startMagic ++ (r.tag :: v)) ++ (r.payload ++ (crc_ ++ (end_ ++ rest))) := by
      simp [b_,covered]
    rw [parts]
    refine slice_append _ _ _ ?_ ?_
    all_goals simp only [length_append,length_cons,length_putUint16]; omega
  have bodyEnd : toInt (3 + v.length + toInt r.payload.length) = 3 + v.length + r.payload.length := by
    rw [toInt_eq (x := r.payload.length) (by omega) (by omega),toInt_eq (by omega) (by omega)]
  have ends : toInt (3 + v.length + r.payload.length + 4) = 3 + v.length + r.payload.length + 4 :=
    toInt_eq (by omega) (by omega)
  have inside : ¬ (r.payload.length > b.length ∨ (3 + v.length + r.payload.length : Int) < 3 + v.length ∨
      (3 + v.length + r.payload.length + 4 : Int) > b.length) := by omega
  unfold decodeOneRecord
  rw [if_neg (by unfold minRecordLen; omega),tag,afterTag]
  simp only [bind,Except.bind,read_encoded encodes,bodyEnd,ends,crcAt,coveredAt,endAt,payloadAt,pure,Except.pure]
  rw [if_neg (by omega),if_neg inside]
  by_cases crcGood : uint16 crc_ = crc16 (covered r v)
  · by_cases endGood : uint16 end_ = endMagic
    · simp only [crcGood,endGood]
      simp
      omega
    · simp [endGood]
  · simp [crcGood]

theorem FrameAt.marked {b : List UInt8} (frame : FrameAt b r rest) : MagicAt b := by
  obtain ⟨v,-,rfl⟩ := frame
  exact prefix_append _ _

theorem free_of_unmarked (unmarked : ¬ MagicAt b) : ¬ HasFrame FrameAt b := by
  rintro ⟨r,rest,frame⟩
  exact unmarked frame.marked

theorem drop_frame (r : Record) (v rest : List UInt8) (crc end_ : UInt16) :
    (putUint16 startMagic ++ (covered r v ++ (putUint16 crc ++ (putUint16 end_ ++ rest)))).drop
        (7 + v.length + r.payload.length) = rest ∧
      7 + v.length + r.payload.length ≤
        (putUint16 startMagic ++ (covered r v ++ (putUint16 crc ++ (putUint16 end_ ++ rest)))).length := by
  constructor
  · grind [drop_left',covered,length_putUint16]
  · simp only [covered,length_append,length_cons,length_putUint16]
    omega

theorem decode_frame {b : List UInt8} (fits : b.length ≤ maxAlloc) (frame : FrameAt b r rest) :
    ∃ n : Nat, decodeOneRecord b = .ok (some (r,n)) ∧ b.drop n = rest ∧ 0 < n ∧ n ≤ b.length := by
  obtain ⟨v,encodes,rfl⟩ := frame
  have decoded := decode_laid_out encodes (length_putUint16 _) (length_putUint16 _) fits
  simp only [uint16_put] at decoded
  obtain ⟨after,inside⟩ := drop_frame r v rest (crc16 (covered r v)) endMagic
  exact ⟨_,decoded,after,by omega,inside⟩

/-- Where a uvarint stands behind the tag, but what follows is too short for a payload of
    that length, the record is taken for truncated, also where the length is no `int`. -/
theorem decode_truncated {tag : UInt8} {w : List UInt8} {n : Nat} (encodes : Encodes v n) (short : w.length < n + 4)
    (fits : (putUint16 startMagic ++ (tag :: (v ++ w))).length ≤ maxAlloc) :
    decodeOneRecord (putUint16 startMagic ++ (tag :: (v ++ w))) = .ok none := by
  set b := putUint16 startMagic ++ (tag :: (v ++ w)) with b_
  have some_ := encodes.pos
  have length : b.length = 3 + v.length + w.length := by
    simp only [b_,length_append,length_cons,length_putUint16]
    omega
  have bound : b.length ≤ 2 ^ 48 := fits
  by_cases minimal : b.length < minRecordLen
  · exact if_pos minimal
  obtain ⟨tag_,afterTag⟩ := access_tag tag (v ++ w)
  have outside : n > b.length ∨ toInt (3 + v.length + toInt n) < 3 + v.length ∨
      toInt (toInt (3 + v.length + toInt n) + 4) > b.length := by
    grind [toInt_eq]
  unfold decodeOneRecord
  rw [if_neg minimal,tag_,afterTag]
  simp only [bind,Except.bind,read_encoded encodes,pure,Except.pure]
  rw [if_neg (by omega),if_pos outside]

theorem split_room {w : List UInt8} {n : Nat} (room : n + 4 ≤ w.length) :
    ∃ payload crc_ end_ rest : List UInt8, w = payload ++ (crc_ ++ (end_ ++ rest)) ∧ payload.length = n ∧
      crc_.length = 2 ∧ end_.length = 2 := by
  refine ⟨w.take n,(w.drop n).take 2,((w.drop n).drop 2).take 2,((w.drop n).drop 2).drop 2,?_,?_,?_,?_⟩
  · rw [take_append_drop,take_append_drop,take_append_drop]
  all_goals simp only [length_take,length_drop]; omega

theorem frame_of_checks (encodes : Encodes v r.payload.length)
    (crc2 : crc_.length = 2) (end2 : end_.length = 2) (crcGood : uint16 crc_ = crc16 (covered r v))
    (endGood : uint16 end_ = endMagic) :
    FrameAt (putUint16 startMagic ++ (covered r v ++ (crc_ ++ (end_ ++ rest)))) r rest := by
  refine ⟨v,encodes,?_⟩
  rw [← crcGood,← endGood,put_uint16 crc2,put_uint16 end2]

theorem decode_free (fits : b.length ≤ maxAlloc) (marked : MagicAt b) (free : ¬ HasFrame FrameAt b) :
    decodeOneRecord b = .ok none := by
  obtain ⟨more,rfl⟩ := marked
  by_cases minimal : (putUint16 startMagic ++ more).length < minRecordLen
  · exact if_pos minimal
  cases more with
  | nil => simp [minRecordLen] at minimal
  | cons tag t =>
    by_cases number : 0 < (read t).2
    · obtain ⟨v,w,rfl,encodes,-⟩ := (read_iff number).mp rfl
      by_cases room : w.length < (read (v ++ w)).1 + 4
      · exact decode_truncated encodes room fits
      obtain ⟨payload,crc_,end_,rest,rfl,size,crc2,end2⟩ := split_room (Nat.not_lt.mp room)
      replace encodes : Encodes v payload.length := size.symm ▸ encodes
      have parts : putUint16 startMagic ++ (tag :: (v ++ (payload ++ (crc_ ++ (end_ ++ rest))))) =
          putUint16 startMagic ++ (covered ⟨tag,payload⟩ v ++ (crc_ ++ (end_ ++ rest))) := by simp [covered]
      rw [parts] at fits free ⊢
      rw [decode_laid_out encodes crc2 end2 fits]
      refine congrArg Except.ok (if_neg ?_)
      rintro ⟨crcGood,endGood⟩
      exact free ⟨_,rest,frame_of_checks encodes crc2 end2 crcGood endGood⟩
    · obtain ⟨tag_,afterTag⟩ := access_tag tag t
      unfold decodeOneRecord
      rw [if_neg minimal,tag_,afterTag]
      simp only [bind,Except.bind,pure,Except.pure]
      rw [if_pos (by omega)]

theorem frame_functional : Functional FrameAt := by
  rintro data r rest r' rest' ⟨v,encodes,rfl⟩ ⟨v',encodes',same⟩
  simp only [covered,append_cancel_left_eq,cons_append,List.cons.injEq,append_assoc] at same
  obtain ⟨tags,more⟩ := same
  obtain ⟨rfl,length,after⟩ := encodes.unique encodes' more
  obtain ⟨payloads,ends⟩ := append_inj after length
  cases r
  simp_all

theorem magicAt_iff {x y : UInt8} : MagicAt (x :: y :: rest) ↔ x = 0xC5 ∧ y = 0xA7 := by
  have bytes : putUint16 startMagic = [0xC5,0xA7] := by decide
  grind [MagicAt]

theorem MagicAt.two (marked : MagicAt b) : 2 ≤ b.length := by
  have := marked.length_le
  rwa [length_putUint16] at this

theorem index_drop (inside : i < b.length) : ∃ x, index b i = .ok x ∧ b.drop i = x :: b.drop (i + 1) := by
  rw [index]
  simp [inside]

theorem findFrom_spec (b : List UInt8) : ∀ (left i : Nat), i + left + 1 = b.length →
    (findFrom b 0xC5 0xA7 i left = .ok (-1) ∧ ∀ k, i ≤ k → ¬ MagicAt (b.drop k)) ∨
      ∃ k : Nat, findFrom b 0xC5 0xA7 i left = .ok k ∧ i ≤ k ∧ MagicAt (b.drop k) ∧ ∀ j, i ≤ j → j < k → ¬ MagicAt (b.drop j) := by
  intro left
  induction left with
  | zero =>
    intro i all
    refine .inl ⟨rfl,?_⟩
    intro k from_ marked
    have two := marked.two
    rw [length_drop] at two
    omega
  | succ left ih =>
    intro i all
    obtain ⟨x,first,here⟩ := index_drop (b := b) (i := i) (by omega)
    obtain ⟨y,second,next⟩ := index_drop (b := b) (i := i + 1) (by omega)
    rw [next] at here
    have second' : index b (i + 1 : Int) = .ok y := by exact_mod_cast second
    have unfolded : findFrom b 0xC5 0xA7 i (left + 1) =
        if x = 0xC5 ∧ y = 0xA7 then .ok (i : Int) else findFrom b 0xC5 0xA7 (i + 1) left := by
      simp only [findFrom,first,second',bind,Except.bind,pure,Except.pure]
    rw [unfolded]
    by_cases found : x = 0xC5 ∧ y = 0xA7
    · refine .inr ⟨i,if_pos found,le_refl i,?_,fun j low high => by omega⟩
      rw [here]
      exact magicAt_iff.mpr found
    · have plain : ¬ MagicAt (b.drop i) := by
        rw [here]
        exact fun marked => found (magicAt_iff.mp marked)
      rw [if_neg found]
      rcases ih (i + 1) (by omega) with ⟨none_,free⟩ | ⟨k,at_,from_,marked,least⟩
      · grind
      · refine .inr ⟨k,at_,by omega,marked,fun j low high => ?_⟩
        grind

theorem findMagic_spec (b : List UInt8) :
    (findMagic b startMagic = .ok (-1) ∧ ∀ k, ¬ MagicAt (b.drop k)) ∨
      ∃ k : Nat, findMagic b startMagic = .ok k ∧ MagicAt (b.drop k) ∧ ∀ j < k, ¬ MagicAt (b.drop j) := by
  unfold findMagic
  by_cases short : b.length < 2
  · refine .inl ⟨if_pos short,fun k marked => ?_⟩
    have two := marked.two
    rw [length_drop] at two
    omega
  · rw [if_neg short]
    rcases findFrom_spec b (b.length - 1) 0 (by omega) with ⟨none_,free⟩ | ⟨k,at_,-,marked,least⟩
    · exact .inl ⟨none_,fun k => free k (Nat.zero_le k)⟩
    · exact .inr ⟨k,at_,marked,fun j => least j (Nat.zero_le j)⟩

variable {data}

theorem turn_spec (fits : data.length ≤ maxAlloc) (inside : i ≤ data.length) :
    (turn data i = .ok .none ∧ ∀ k, ¬ MagicAt (data.drop (i + k))) ∨
    ∃ k : Nat, (∀ j < k, ¬ MagicAt (data.drop (i + j))) ∧ MagicAt (data.drop (i + k)) ∧
      (turn data i = .ok (.bad ((i + k + 1 : Nat) : Int)) ∧ ¬ HasFrame FrameAt (data.drop (i + k)) ∨
        ∃ r n, turn data i = .ok (.record r ((i + k + n : Nat) : Int)) ∧ 0 < n ∧ i + k + n ≤ data.length ∧
          FrameAt (data.drop (i + k)) r (data.drop (i + k + n))) := by
  unfold turn
  simp only [slice_drop data inside,bind,Except.bind]
  rcases findMagic_spec (data.drop i) with ⟨none_,free⟩ | ⟨k,at_,marked,least⟩
  · simp only [drop_drop] at free
    exact .inl ⟨by rw [none_]; rfl,free⟩
  · simp only [drop_drop] at marked least
    have within : i + k ≤ data.length := by
      have two := marked.two
      rw [length_drop] at two
      omega
    have ahead : slice data (i + k : Int) data.length = .ok (data.drop (i + k)) := by
      exact_mod_cast slice_drop data within
    have small : (data.drop (i + k)).length ≤ maxAlloc := by
      rw [length_drop]
      omega
    refine .inr ⟨k,least,marked,?_⟩
    simp only [at_]
    simp only [ahead]
    by_cases frame : HasFrame FrameAt (data.drop (i + k))
    · obtain ⟨r,rest,frame⟩ := frame
      obtain ⟨n,decoded,after,some_,short⟩ := decode_frame small frame
      rw [drop_drop] at after
      rw [length_drop] at short
      refine .inr ⟨r,n,?_,some_,by omega,after ▸ frame⟩
      simp only [decoded]
      rfl
    · refine .inl ⟨?_,frame⟩
      simp only [decode_free small marked frame]
      rfl

theorem greedy_passed {c : Nat}
    (plain : ∀ j < k, ¬ MagicAt (data.drop (i + j))) (greedy : Greedy FrameAt MagicAt (data.drop (i + k)) rs c) :
    Greedy FrameAt MagicAt (data.drop i) rs c := by
  have parts : (data.drop i).take k ++ data.drop (i + k) = data.drop i := by
    rw [← drop_drop]
    exact take_append_drop k _
  grind [greedy.append,drop_drop,free_of_unmarked]

theorem greedy_unmarked (free : ∀ k, ¬ MagicAt (data.drop (i + k))) :
    Greedy FrameAt MagicAt (data.drop i) [] 0 := by
  have unmarked : marks MagicAt (data.drop i) (data.drop i).length = 0 := by
    refine Nat.count_iff_forall_not.mpr ?_
    intro k _
    rw [drop_drop]
    exact free k
  rw [← unmarked]
  refine .done ?_
  intro k
  rw [drop_drop]
  exact free_of_unmarked (free k)

theorem greedy_bad {c : Nat}
    (plain : ∀ j < k, ¬ MagicAt (data.drop (i + j))) (marked : MagicAt (data.drop (i + k)))
    (free : ¬ HasFrame FrameAt (data.drop (i + k))) (greedy : Greedy FrameAt MagicAt (data.drop (i + k + 1)) rs c) :
    Greedy FrameAt MagicAt (data.drop i) rs (c + 1) := by
  grind [greedy_passed,marked.two,drop_eq_getElem_cons,greedy.bad]

theorem unmarked_end (all : data.length ≤ i) (k : Nat) : ¬ MagicAt (data.drop (i + k)) := by
  intro marked
  have two := marked.two
  rw [length_drop] at two
  omega

theorem decodeLoop_greedy (fits : data.length ≤ maxAlloc) :
    ∀ turns i records corrupt, i ≤ data.length → data.length - i < turns →
      ∃ rs c, decodeLoop data turns (i : Nat) records corrupt = some (.ok (records ++ rs,corrupt + c)) ∧
        Greedy FrameAt MagicAt (data.drop i) rs c := by
  intro turns
  induction turns with
  | zero => omega
  | succ turns ih =>
    intro i records corrupt inside enough
    rw [decodeLoop]
    by_cases more : (i : Int) < data.length
    · rw [if_pos more]
      rcases turn_spec fits inside with ⟨none_,free⟩ | ⟨k,plain,marked,⟨bad,free⟩ | ⟨r,n,found,some_,within,frame⟩⟩
      · exact ⟨[],0,by simp [none_],greedy_unmarked free⟩
      · have two := marked.two
        rw [length_drop] at two
        obtain ⟨rs,c,rest,greedy⟩ := ih (i + k + 1) records (corrupt + 1) (by omega) (by omega)
        refine ⟨rs,c + 1,by simp only [bad]; rw [rest,Nat.add_assoc,Nat.add_comm 1 c],?_⟩
        exact greedy_bad plain marked free greedy
      · obtain ⟨rs,c,rest,greedy⟩ := ih (i + k + n) (records ++ [r]) corrupt within (by omega)
        refine ⟨r :: rs,c,by simp only [found]; rw [rest,append_assoc,singleton_append],?_⟩
        exact greedy_passed plain (greedy.take frame)
    · grind [greedy_unmarked,unmarked_end]

theorem decode_returns (data : Slice) : ∃ records corrupt, decodeRecords data.bytes = some (.ok (records,corrupt)) ∧
    Greedy FrameAt MagicAt data.bytes records corrupt := by
  obtain ⟨records,corrupt,returned,greedy⟩ :=
    decodeLoop_greedy data.fits (data.bytes.length + 1) 0 [] 0 (Nat.zero_le _) (by omega)
  simp only [Nat.zero_add] at returned greedy
  exact ⟨records,corrupt,returned,greedy⟩

/-- `DecodeRecords` returns, for every slice, the frames from the left and the number of
    start magics between them that begin none. -/
theorem decode_greedy (data : Slice) : ∃ records corrupt, decodeRecords data.bytes = some (.ok (records,corrupt)) ∧
    ∀ rs c, Greedy FrameAt MagicAt data.bytes rs c ↔ rs = records ∧ c = corrupt := by
  obtain ⟨records,corrupt,returned,greedy⟩ := decode_returns data
  refine ⟨records,corrupt,returned,fun rs c => ⟨fun other => other.unique frame_functional greedy,?_⟩⟩
  rintro ⟨rfl,rfl⟩
  exact greedy

example : decodeRecords ([0xC5,0xA7] ++ appendRecord [] ⟨1,[7]⟩) = some (.ok ([⟨1,[7]⟩],1)) := by decide +kernel

def appendRecords : List UInt8 := records.foldl appendRecord dst

theorem appendRecords_append :
    appendRecords dst records = dst ++ appendRecords [] records := by
  induction records generalizing dst with
  | nil => simp [appendRecords]
  | cons r rest ih =>
    have later := ih (appendRecord [] r)
    grind [appendRecords,appendRecord]

theorem frame_appended (fits : r.payload.length < 2 ^ 64) (rest : List UInt8) :
    FrameAt (appendRecord [] r ++ rest) r rest := by
  have length := Nat.mod_eq_of_lt fits
  refine ⟨put r.payload.length,encodes_put fits,?_⟩
  simp only [appendRecord,body,covered,length]
  simp

theorem appendRecords_cons (r : Record) (rest : List Record) :
    appendRecords [] (r :: rest) = appendRecord [] r ++ appendRecords [] rest := appendRecords_append _ rest

theorem unmarked_before {before : List UInt8} (plain : ∀ k, ¬ MagicAt (before.drop k)) (records : List Record)
    (inside : k < before.length) : ¬ MagicAt ((before ++ appendRecords [] records).drop k) := by
  have unmarked := plain k
  rw [drop_append_of_le_length (Nat.le_of_lt inside)]
  match tail : before.drop k with
  | [] =>
    grind [length_nil]
  | x :: y :: more =>
    rw [tail] at unmarked
    exact fun marked => unmarked (magicAt_iff.mpr (magicAt_iff.mp marked))
  | [x] =>
    intro marked
    cases records with
    | nil => exact absurd marked.two (by simp [appendRecords])
    | cons r rest =>
      rw [appendRecords_cons] at marked
      have second : (0xC5 : UInt8) = 0xA7 := (magicAt_iff.mp marked).2
      exact absurd second (by decide)

theorem greedy_appended (before : List UInt8) (plain : ∀ k, ¬ MagicAt (before.drop k)) (records : List Record)
    (fits : ∀ r ∈ records, r.payload.length < 2 ^ 64) :
    Greedy FrameAt MagicAt (appendRecords before records) records 0 := by
  have all : Greedy FrameAt MagicAt (appendRecords [] records) records 0 := by
    induction records with
    | nil =>
      refine .nil (free_of_unmarked ?_)
      intro marked
      exact absurd marked.two (by simp)
    | cons r rest ih =>
      have later := ih (fun q member => fits q (mem_cons_of_mem r member))
      grind [appendRecords_cons,later.take,frame_appended]
  grind [appendRecords_append,all.append,unmarked_before,free_of_unmarked]

theorem payload_length_le (before : List UInt8) {records : List Record} (member : r ∈ records) :
    r.payload.length ≤ (appendRecords before records).length := by
  rw [appendRecords_append,length_append]
  induction records with
  | nil => cases member
  | cons q rest ih =>
    grind [appendRecords_cons,appendRecord,body]

/-- `DecodeRecords` gives back the records that were appended, also after bytes among which
    no start magic stands. -/
theorem decode_records (before : List UInt8) (records : List Record) (data : Slice)
    (written : data.bytes = appendRecords before records) (plain : ∀ k, ¬ MagicAt (before.drop k)) :
    decodeRecords data.bytes = some (.ok (records,0)) := by
  have fits : ∀ r ∈ records, r.payload.length < 2 ^ 64 := by
    intro r member
    have inside := payload_length_le before member
    rw [← written] at inside
    calc r.payload.length ≤ 2 ^ 48 := Nat.le_trans inside data.fits
      _ < 2 ^ 64 := by decide
  have greedy := greedy_appended before plain records fits
  rw [← written] at greedy
  obtain ⟨rs,c,returned,found⟩ := decode_returns data
  obtain ⟨rfl,rfl⟩ := greedy.unique frame_functional found
  exact returned

def sampleRecords : List Record := [⟨1,putUint16 startMagic ++ [7,0]⟩,⟨8,[]⟩]

theorem decode_records_sample :
    decodeRecords (appendRecords [0xA7,0xC5] sampleRecords) = some (.ok (sampleRecords,0)) := by
  have plain : ∀ k, ¬ MagicAt (drop k [0xA7,0xC5]) := by
    intro k
    match k with
    | 0 => decide
    | 1 => decide
    | k+2 => simp [MagicAt,putUint16,beBytes]
  exact decode_records [0xA7,0xC5] sampleRecords ⟨appendRecords [0xA7,0xC5] sampleRecords,by decide +kernel⟩ rfl plain

end TunnelCat.Binlog
