import TunnelCat.Binlog

/-!
The decoder of the command line tool for logs (`tools/decode_snc_log.py`), which is written in Python to do
what `binlog.DecodeRecords` does. Its numbers have no width, its slices end where the bytes end, and an access
out of range is an exception.
-/
namespace TunnelCat.LogTool
open Bytes Resync Uvarint List
open Binlog (Record Slice putUint16 uint16 covered MagicAt FrameAt)

def startMagic : Nat := 0xC5A7
def endMagic : Nat := 0x7A5C
def minRecordLen : Nat := 2 + 1 + 1 + 2 + 2

def crcRound (crc : Nat) : Nat := if crc &&& 0x8000 ≠ 0 then (crc <<< 1 ^^^ 0x1021) &&& 0xFFFF else crc <<< 1 &&& 0xFFFF

def buildCrc16Table : List Nat := (List.range 256).map (fun i => crcRound^[8] (i <<< 8))

def crcByte (crc : Nat) (b : UInt8) : Nat :=
  (crc <<< 8 &&& 0xFFFF) ^^^ buildCrc16Table.getD ((crc >>> 8 ^^^ b.toNat) &&& 0xFF) 0

variable (data b : List UInt8)

def crc16 : Nat := data.foldl crcByte 0xFFFF

inductive Exception
  | indexError
  | structError
deriving DecidableEq

def item (i : Nat) : Except Exception UInt8 :=
  match b[i]? with
  | none => .error .indexError
  | some x => .ok x

def cut (lo hi : Nat) : List UInt8 := (b.take hi).drop lo

def unpackFrom (offset : Nat) : Except Exception Nat :=
  if offset + 2 ≤ b.length then .ok (beNat (cut b offset (offset + 2))) else .error .structError

def find (pair : List UInt8) (start : Nat) : Int :=
  match (List.range (data.length + 1)).find? (fun k => start ≤ k && pair.isPrefixOf (data.drop k)) with
  | none => -1
  | some k => k

def readUvarintLoop (data : List UInt8) (pos : Nat) : List Nat → Nat → Nat → Except Exception (Option Nat × Nat)
  | [], _, _ => .ok (none,0)
  | i :: places, result, shift => do
    let b ← item data i
    if b < 0x80 then pure (some (result ||| b.toNat <<< shift),(i - pos) + 1)
    else readUvarintLoop data pos places (result ||| (b &&& 0x7F).toNat <<< shift) (shift + 7)

def readUvarint (pos : Nat) : Except Exception (Option Nat × Nat) :=
  readUvarintLoop data pos (List.range' pos (min (pos + 10) data.length - pos)) 0 0

def findMagic (magic start : Nat) : Int :=
  find data [UInt8.ofNat (magic >>> 8 &&& 0xFF),UInt8.ofNat (magic &&& 0xFF)] start

def decodeOneRecord : Except Exception (Option (UInt8 × List UInt8 × Nat)) :=
  if b.length < minRecordLen then .ok none
  else do
    let tag ← item b 2
    match ← readUvarint b 3 with
    | (none, _) => pure none
    | (some payloadLen, n) =>
      if n ≤ 0 then pure none
      else
        let pos := 3 + n
        let bodyEnd := pos + payloadLen
        if payloadLen > b.length ∨ bodyEnd + 4 > b.length then pure none
        else
          let gotCrc ← unpackFrom b bodyEnd
          if gotCrc ≠ crc16 (cut b 2 bodyEnd) then pure none
          else
            let gotEnd ← unpackFrom b (bodyEnd + 2)
            if gotEnd ≠ endMagic then pure none
            else pure (some (tag,cut b pos bodyEnd,bodyEnd + 4))

def decodeLoop (data : List UInt8) : Nat → Nat → List (UInt8 × List UInt8) → Nat →
    Option (Except Exception (List (UInt8 × List UInt8) × Nat))
  | 0, _, _, _ => none
  | turns+1, i, records, corrupt =>
    if i < data.length then
      let off := findMagic data startMagic i
      if off < 0 then some (.ok (records,corrupt))
      else
        match decodeOneRecord (data.drop off.toNat) with
        | .error e => some (.error e)
        | .ok none => decodeLoop data turns (off.toNat + 1) records (corrupt + 1)
        | .ok (some (tag,payload,consumed)) => decodeLoop data turns (off.toNat + consumed) (records ++ [(tag,payload)]) corrupt
    else some (.ok (records,corrupt))

/-- Each turn moves on by a byte at least, so that there are never more than these. -/
def decodeRecords : Option (Except Exception (List (UInt8 × List UInt8) × Nat)) :=
  decodeLoop data (data.length + 1) 0 [] 0

theorem crcRound_word (crc : UInt16) : (Binlog.crcRound crc).toNat = crcRound crc.toNat := by
  have top : crc &&& 0x8000 ≠ 0 ↔ crc.toNat &&& 0x8000 ≠ 0 := by
    rw [Ne,← UInt16.toNat_inj]
    rfl
  have field := fun x => Nat.and_two_pow_sub_one_eq_mod x 16
  have shifted : (crc <<< 1).toNat = crc.toNat <<< 1 % 2 ^ 16 := by simp [UInt16.toNat_shiftLeft]
  unfold Binlog.crcRound crcRound
  by_cases high : crc &&& 0x8000 ≠ 0
  · rw [if_pos high,if_pos (top.mp high),field,Nat.xor_mod_two_pow]
    rfl
  · rw [if_neg high,if_neg (fun h => high (top.mpr h)),shifted,field]

theorem crc16Table_word (i : UInt8) : (Binlog.crc16Table i).toNat = buildCrc16Table.getD i.toNat 0 := by
  have iterated : ∀ (n : Nat) (crc : UInt16), (Binlog.crcRound^[n] crc).toNat = crcRound^[n] crc.toNat := by
    intro n
    induction n with
    | zero => intro crc; rfl
    | succ n ih =>
      grind [Function.iterate_succ_apply,crcRound_word]
  have small := i.toNat_lt
  have entry : buildCrc16Table.getD i.toNat 0 = crcRound^[8] (i.toNat <<< 8) := by
    simp [buildCrc16Table,small]
  have start : (i.toUInt16 <<< 8).toNat = i.toNat <<< 8 := by
    have below : i.toNat <<< 8 < 2 ^ 16 := by
      omega
    exact Nat.mod_eq_of_lt below
  rw [entry,Binlog.crc16Table,iterated,start]

theorem crcByte_word (crc : UInt16) (b : UInt8) :
    crcByte crc.toNat b = (crc <<< 8 ^^^ Binlog.crc16Table ((crc >>> 8).toUInt8 ^^^ b)).toNat := by
  have shifted : crc.toNat <<< 8 &&& 0xFFFF = (crc <<< 8).toNat := by
    exact Nat.and_two_pow_sub_one_eq_mod _ 16
  have place : (crc.toNat >>> 8 ^^^ b.toNat) &&& 0xFF = ((crc >>> 8).toUInt8 ^^^ b).toNat := by
    refine (Nat.and_two_pow_sub_one_eq_mod _ 8).trans ?_
    rw [Nat.xor_mod_two_pow,Nat.mod_eq_of_lt b.toNat_lt]
    rfl
  rw [crcByte,shifted,place,← crc16Table_word,← UInt16.toNat_xor]

theorem crc16_agree : crc16 data = (Binlog.crc16 data).toNat := by
  have folded : ∀ crc : UInt16, data.foldl crcByte crc.toNat =
      (data.foldl (fun crc b => crc <<< 8 ^^^ Binlog.crc16Table ((crc >>> 8).toUInt8 ^^^ b)) crc : UInt16).toNat := by
    induction data with
    | nil => intro crc; rfl
    | cons b rest ih =>
      intro crc
      rw [foldl_cons,crcByte_word]
      exact ih _
  exact folded 0xFFFF

structure Begins (t : List UInt8) (room : Nat) (v : List UInt8) : Prop where
  first : v <+: t
  continued : Continued v
  short : v.length ≤ room

variable {v w : List UInt8} {b data}

theorem begins_cons {b : UInt8} {t : List UInt8} {room : Nat} (more : ¬ b < 0x80) :
    Begins (b :: t) (room + 1) v ↔ ∃ w, v = b :: w ∧ Begins t room w := by
  constructor
  · rintro ⟨first,continued,short⟩
    obtain ⟨c,w,rfl⟩ := exists_cons_of_ne_nil continued.ne_nil
    obtain ⟨rfl,tail⟩ := cons_prefix_cons.mp first
    rw [Continued,if_neg more] at continued
    exact ⟨w,rfl,tail,continued,Nat.le_of_succ_le_succ short⟩
  · rintro ⟨w,rfl,first,continued,short⟩
    refine ⟨cons_prefix_cons.mpr ⟨rfl,first⟩,?_,Nat.succ_le_succ short⟩
    rw [Continued,if_neg more]
    exact continued

theorem or_above {x s : Nat} (low : x < 2 ^ s) (m : Nat) : x ||| m <<< s = x + 2 ^ s * m := by
  grind [Nat.shiftLeft_eq,Nat.mul_comm,Nat.two_pow_add_eq_or_of_lt]

theorem item_drop {i : Nat} (inside : i < b.length) :
    ∃ x, item b i = .ok x ∧ b.drop i = x :: b.drop (i + 1) := by
  simp [item,inside]

theorem readUvarintLoop_spec (data : List UInt8) (pos : Nat) : ∀ left i x : Nat,
    i + left = min (pos + 10) data.length - pos → x < 2 ^ (7 * i) →
    (∃ v, Begins (data.drop (pos + i)) (10 - i) v ∧
        readUvarintLoop data pos (List.range' (pos + i) left) x (7 * i) = .ok (some (x + 2 ^ (7 * i) * value v),i + v.length)) ∨
      (∀ v, ¬ Begins (data.drop (pos + i)) (10 - i) v) ∧
        readUvarintLoop data pos (List.range' (pos + i) left) x (7 * i) = .ok (none,0) := by
  intro left
  induction left with
  | zero =>
    intro i x all _
    refine .inr ⟨?_,rfl⟩
    intro v begins
    have some_ := length_pos_iff.mpr begins.continued.ne_nil
    have length := begins.first.length_le
    have short := begins.short
    rw [length_drop] at length
    omega
  | succ left ih =>
    intro i x all low
    obtain ⟨b,read_,here⟩ := item_drop (b := data) (i := pos + i) (by omega)
    rw [List.range'_succ,readUvarintLoop,read_]
    simp only [bind,Except.bind,pure,Except.pure]
    by_cases last : b < 0x80
    · have digit : b.toNat < 128 := UInt8.lt_iff_toNat_lt.mp last
      have single : value [b] = b.toNat := by
        simp only [value]
        omega
      refine .inl ⟨[b],⟨?_,by simp [Continued,last],?_⟩,?_⟩
      · rw [here]
        exact cons_prefix_cons.mpr ⟨rfl, nil_prefix⟩
      · simp only [length_singleton]
        omega
      · rw [if_pos last,or_above low,single,length_singleton,Nat.add_sub_cancel_left]
    · have low' : x + 2 ^ (7 * i) * (b.toNat % 128) < 2 ^ (7 * (i + 1)) :=
        calc x + 2 ^ (7 * i) * (b.toNat % 128) < 2 ^ (7 * i) + 2 ^ (7 * i) * 127 :=
              Nat.add_lt_add_of_lt_of_le low (Nat.mul_le_mul_left _ (by omega))
          _ = 2 ^ (7 * (i + 1)) := by ring
      have room : 10 - i = 10 - (i + 1) + 1 := by omega
      rw [if_neg last,seven_bits,or_above low,here,room]
      rcases ih (i + 1) _ (by omega) low' with ⟨v,begins,found⟩ | ⟨none_,found⟩
      · refine .inl ⟨b :: v,(begins_cons last).mpr ⟨v,rfl,begins⟩,?_⟩
        refine found.trans ?_
        have number : x + 2 ^ (7 * i) * (b.toNat % 128) + 2 ^ (7 * (i + 1)) * value v =
            x + 2 ^ (7 * i) * value (b :: v) := by
          rw [value]
          ring
        have length : i + 1 + v.length = i + (b :: v).length := by
          rw [length_cons]
          omega
        rw [number,length]
      · grind [begins_cons]

theorem readUvarint_spec (data : List UInt8) (pos : Nat) :
    (∃ v, Begins (data.drop pos) 10 v ∧ readUvarint data pos = .ok (some (value v),v.length)) ∨
      (∀ v, ¬ Begins (data.drop pos) 10 v) ∧ readUvarint data pos = .ok (none,0) := by
  have all := readUvarintLoop_spec data pos (min (pos + 10) data.length - pos) 0 0 (by omega) (by decide)
  simpa [readUvarint] using all

theorem Begins.unique {t : List UInt8} {room : Nat} (first : Begins t room v) (second : Begins t room w) : v = w := by
  obtain ⟨rest,one⟩ := first.first
  obtain ⟨rest',other⟩ := second.first
  exact first.continued.unique second.continued (one.trans other.symm)

theorem readUvarint_begins {pos : Nat} (begins : Begins (data.drop pos) 10 v) :
    readUvarint data pos = .ok (some (value v),v.length) := by
  grind [readUvarint_spec,begins.unique]

theorem cut_append (x y z : List UInt8) {lo hi : Nat} (lo_ : lo = x.length) (hi_ : hi = x.length + y.length) :
    cut (x ++ (y ++ z)) lo hi = y := by
  subst lo_ hi_
  rw [cut,← append_assoc,take_left' (by simp),drop_left]

theorem unpackFrom_append (x y z : List UInt8) {offset : Nat} (at_ : offset = x.length) (two : y.length = 2) :
    unpackFrom (x ++ (y ++ z)) offset = .ok (beNat y) := by
  grind [unpackFrom,cut_append]

theorem beNat_word (two : b.length = 2) (v : UInt16) : beNat b = v.toNat ↔ uint16 b = v := by
  grind [beNat_lt,uint16,UInt16.toNat_inj,UInt16.toNat_ofNat']

theorem access_tag {tag : UInt8} (continued : Continued v) (short : v.length ≤ 10) :
    item (putUint16 Binlog.startMagic ++ tag :: (v ++ w)) 2 = .ok tag ∧
      readUvarint (putUint16 Binlog.startMagic ++ tag :: (v ++ w)) 3 = .ok (some (value v),v.length) := by
  refine ⟨rfl,readUvarint_begins ⟨?_,continued,short⟩⟩
  exact prefix_append v w

theorem decode_laid_out (rest : List UInt8) {r : Record} {crc_ end_ : List UInt8} (encodes : Encodes v r.payload.length)
    (crc2 : crc_.length = 2) (end2 : end_.length = 2) :
    decodeOneRecord (putUint16 Binlog.startMagic ++ (covered r v ++ (crc_ ++ (end_ ++ rest)))) =
      .ok (if uint16 crc_ = Binlog.crc16 (covered r v) ∧ uint16 end_ = Binlog.endMagic then
        some (r.tag,r.payload,7 + v.length + r.payload.length) else none) := by
  set b := putUint16 Binlog.startMagic ++ (covered r v ++ (crc_ ++ (end_ ++ rest))) with b_
  have some_ := encodes.pos
  have length : b.length = 7 + v.length + r.payload.length + rest.length := by
    simp only [b_,covered,length_append,length_cons,Binlog.length_putUint16]
    omega
  obtain ⟨tag,number⟩ : item b 2 = .ok r.tag ∧ readUvarint b 3 = .ok (some r.payload.length,v.length) := by
    have parts : b = putUint16 Binlog.startMagic ++ r.tag :: (v ++ (r.payload ++ (crc_ ++ (end_ ++ rest)))) := by
      simp [b_,covered]
    rw [parts,← encodes.spells]
    exact access_tag encodes.continued encodes.short
  have crcAt : unpackFrom b (3 + v.length + r.payload.length) = .ok (beNat crc_) := by
    have parts : b = (putUint16 Binlog.startMagic ++ covered r v) ++ (crc_ ++ (end_ ++ rest)) := by simp [b_]
    grind [unpackFrom_append,length_append,length_cons,Binlog.length_putUint16]
  have endAt : unpackFrom b (3 + v.length + r.payload.length + 2) = .ok (beNat end_) := by
    have parts : b = (putUint16 Binlog.startMagic ++ (covered r v ++ crc_)) ++ (end_ ++ rest) := by simp [b_]
    grind [unpackFrom_append]
  have coveredAt : cut b 2 (3 + v.length + r.payload.length) = covered r v := by
    refine cut_append _ _ _ (by simp) ?_
    simp only [covered,length_append,length_cons,Binlog.length_putUint16]
    omega
  have payloadAt : cut b (3 + v.length) (3 + v.length + r.payload.length) = r.payload := by
    have parts : b = (putUint16 Binlog.startMagic ++ (r.tag :: v)) ++ (r.payload ++ (crc_ ++ (end_ ++ rest))) := by
      simp [b_,covered]
    rw [parts]
    refine cut_append _ _ _ ?_ ?_
    all_goals simp only [length_append,length_cons,Binlog.length_putUint16]; omega
  have inside : ¬ (r.payload.length > b.length ∨ 3 + v.length + r.payload.length + 4 > b.length) := by omega
  unfold decodeOneRecord
  rw [if_neg (by unfold minRecordLen; omega),tag]
  simp only [bind,Except.bind,number,pure,Except.pure]
  rw [if_neg (by omega),if_neg inside]
  simp only [crcAt,coveredAt,endAt,payloadAt,crc16_agree,beNat_word crc2,Ne,
    show endMagic = Binlog.endMagic.toNat from rfl,beNat_word end2]
  by_cases crcGood : uint16 crc_ = Binlog.crc16 (covered r v)
  · by_cases endGood : uint16 end_ = Binlog.endMagic
    · simp only [crcGood,endGood]
      simp
      omega
    · simp [endGood]
  · simp [crcGood]

theorem decode_frame {rest : List UInt8} {r : Record} (frame : FrameAt b r rest) :
    ∃ n : Nat, decodeOneRecord b = .ok (some (r.tag,r.payload,n)) ∧ b.drop n = rest ∧ 0 < n ∧ n ≤ b.length := by
  obtain ⟨v,encodes,rfl⟩ := frame
  grind [decode_laid_out,Binlog.length_putUint16,Binlog.crc16,covered,Binlog.endMagic,Binlog.uint16_put,Binlog.drop_frame]

theorem decode_truncated {tag : UInt8} (continued : Continued v) (short : v.length ≤ 10)
    (missing : w.length < value v + 4) : decodeOneRecord (putUint16 Binlog.startMagic ++ tag :: (v ++ w)) = .ok none := by
  set b := putUint16 Binlog.startMagic ++ tag :: (v ++ w) with b_
  have length : b.length = 3 + v.length + w.length := by
    simp only [b_,length_append,length_cons,Binlog.length_putUint16]
    omega
  by_cases minimal : b.length < minRecordLen
  · exact if_pos minimal
  obtain ⟨tag_,number⟩ : item b 2 = .ok tag ∧ readUvarint b 3 = .ok (some (value v),v.length) :=
    access_tag continued short
  have some_ := length_pos_iff.mpr continued.ne_nil
  unfold decodeOneRecord
  rw [if_neg minimal,tag_]
  simp only [bind,Except.bind,number,pure,Except.pure]
  rw [if_neg (by omega),if_pos (by omega)]

theorem decode_free (fits : b.length ≤ Binlog.maxAlloc) (marked : MagicAt b) (free : ¬ HasFrame FrameAt b) :
    decodeOneRecord b = .ok none := by
  obtain ⟨more,rfl⟩ := marked
  by_cases minimal : (putUint16 Binlog.startMagic ++ more).length < minRecordLen
  · exact if_pos minimal
  cases more with
  | nil => simp [minRecordLen] at minimal
  | cons tag t =>
    rcases readUvarint_spec (putUint16 Binlog.startMagic ++ tag :: t) 3 with ⟨v,⟨first,continued,short⟩,-⟩ | ⟨-,found⟩
    · obtain ⟨w,(rfl : v ++ w = t)⟩ := first
      by_cases room : w.length < value v + 4
      · exact decode_truncated continued short room
      obtain ⟨payload,crc_,end_,rest,rfl,size,crc2,end2⟩ := Binlog.split_room (Nat.not_lt.mp room)
      have small : payload.length ≤ 2 ^ 48 := by
        refine Nat.le_trans ?_ fits
        simp only [length_append,length_cons]
        omega
      have encodes : Encodes v payload.length := ⟨continued,size.symm,short,Nat.lt_of_le_of_lt small (by decide)⟩
      have parts : putUint16 Binlog.startMagic ++ tag :: (v ++ (payload ++ (crc_ ++ (end_ ++ rest)))) =
          putUint16 Binlog.startMagic ++ (covered ⟨tag,payload⟩ v ++ (crc_ ++ (end_ ++ rest))) := by simp [covered]
      rw [parts] at free ⊢
      rw [decode_laid_out _ encodes crc2 end2]
      refine congrArg Except.ok (if_neg ?_)
      rintro ⟨crcGood,endGood⟩
      exact free ⟨_,rest,Binlog.frame_of_checks encodes crc2 end2 crcGood endGood⟩
    · have tag_ : item (putUint16 Binlog.startMagic ++ tag :: t) 2 = .ok tag := rfl
      unfold decodeOneRecord
      rw [if_neg minimal,tag_]
      simp only [bind,Except.bind,found,pure,Except.pure]

theorem findMagic_spec (data : List UInt8) (i : Nat) :
    (findMagic data startMagic i = -1 ∧ ∀ k, ¬ MagicAt (data.drop (i + k))) ∨
      ∃ k : Nat, findMagic data startMagic i = (i + k : Nat) ∧ MagicAt (data.drop (i + k)) ∧
        ∀ j < k, ¬ MagicAt (data.drop (i + j)) := by
  have pair : [UInt8.ofNat (startMagic >>> 8 &&& 0xFF),UInt8.ofNat (startMagic &&& 0xFF)] = putUint16 Binlog.startMagic := by
    decide
  have marked (k : Nat) : (putUint16 Binlog.startMagic).isPrefixOf (data.drop k) = true ↔ MagicAt (data.drop k) :=
    isPrefixOf_iff_prefix
  unfold findMagic find
  rw [pair]
  cases found : (List.range (data.length + 1)).find? (fun k => i ≤ k && (putUint16 Binlog.startMagic).isPrefixOf (data.drop k)) with
  | none =>
    refine .inl ⟨rfl,?_⟩
    grind [length_drop]
  | some k =>
    obtain ⟨here,-,before⟩ := List.find?_range_eq_some.mp found
    simp only [Bool.and_eq_true,decide_eq_true_eq,marked] at here
    obtain ⟨from_,here⟩ := here
    have place : i + (k - i) = k := Nat.add_sub_cancel' from_
    refine .inr ⟨k - i,by rw [place],by rw [place]; exact here,?_⟩
    intro j less again
    have missed := before (i + j) (by omega)
    simp [(marked (i + j)).mpr again] at missed

theorem decodeLoop_greedy (fits : data.length ≤ Binlog.maxAlloc) :
    ∀ turns i records corrupt, data.length - i < turns →
      ∃ (rs : List Record) (c : Nat), decodeLoop data turns i records corrupt =
        some (.ok (records ++ rs.map (fun r => (r.tag,r.payload)),corrupt + c)) ∧
        Greedy FrameAt MagicAt (data.drop i) rs c := by
  intro turns
  induction turns with
  | zero => omega
  | succ turns ih =>
    intro i records corrupt enough
    rw [decodeLoop]
    by_cases more : i < data.length
    · rw [if_pos more]
      rcases findMagic_spec data i with ⟨none_,free⟩ | ⟨k,found,marked,plain⟩
      · exact ⟨[],0,by simp [none_],Binlog.greedy_unmarked free⟩
      · have small : (data.drop (i + k)).length ≤ Binlog.maxAlloc := by
          rw [length_drop]
          omega
        simp only [found,Int.toNat_natCast]
        rw [if_neg (by omega)]
        by_cases frame : HasFrame FrameAt (data.drop (i + k))
        · obtain ⟨r,rest,frame⟩ := frame
          obtain ⟨n,decoded,after,some_,-⟩ := decode_frame frame
          rw [drop_drop] at after
          obtain ⟨rs,c,later,greedy⟩ := ih (i + k + n) (records ++ [(r.tag,r.payload)]) corrupt (by omega)
          rw [after] at greedy
          refine ⟨r :: rs,c,?_,Binlog.greedy_passed plain (greedy.take frame)⟩
          simp only [decoded]
          rw [later,append_assoc,map_cons,singleton_append]
        · obtain ⟨rs,c,later,greedy⟩ := ih (i + k + 1) records (corrupt + 1) (by omega)
          refine ⟨rs,c + 1,?_,Binlog.greedy_bad plain marked frame greedy⟩
          simp only [decode_free small marked frame]
          rw [later,Nat.add_assoc,Nat.add_comm 1 c]
    · grind [Binlog.greedy_unmarked,Binlog.unmarked_end]

theorem decode_returns (data : Slice) : ∃ (records : List Record) (corrupt : Nat),
    decodeRecords data.bytes = some (.ok (records.map (fun r => (r.tag,r.payload)),corrupt)) ∧
      Greedy FrameAt MagicAt data.bytes records corrupt := by
  obtain ⟨records,corrupt,returned,greedy⟩ :=
    decodeLoop_greedy data.fits (data.bytes.length + 1) 0 [] 0 (by omega)
  simp only [Nat.zero_add] at returned greedy
  exact ⟨records,corrupt,returned,greedy⟩

/-- The decoders in Go and in Python both return, for every buffer, and with the same
    records and the same number of places where none began. -/
theorem decoders_agree (data : Slice) : ∃ records corrupt, Binlog.decodeRecords data.bytes = some (.ok (records,corrupt)) ∧
    decodeRecords data.bytes = some (.ok (records.map (fun r => (r.tag,r.payload)),corrupt)) := by
  obtain ⟨records,corrupt,go,greedy⟩ := Binlog.decode_returns data
  obtain ⟨rs,c,python,found⟩ := decode_returns data
  obtain ⟨rfl,rfl⟩ := greedy.unique Binlog.frame_functional found
  exact ⟨records,corrupt,go,python⟩

example : decodeRecords ([0xC5,0xA7,1] ++ List.replicate 9 0xFF ++ [0x7F] ++ Binlog.appendRecord [] ⟨1,[7]⟩) =
    some (.ok ([(1,[7])],1)) := by decide +kernel

end TunnelCat.LogTool
