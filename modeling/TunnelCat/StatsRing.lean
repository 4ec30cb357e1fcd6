import Mathlib.Data.List.DropRight
import TunnelCat.Binlog

/-!
The ring of the client that holds its newest stat records (`ringBuffer` in `snc/core/log_upload.go`). A
snapshot is a suffix of what was written (`write_suffix`, `snapshot_suffix`), the longest that fits as
long as no frame has ended exactly at the end of the buffer before it was full: there the place to
write goes back to the front and the buffer does not count as full.
-/
namespace TunnelCat.StatsRing
open List
open Binlog (Record appendRecord appendRecords)

structure RingBuffer where
  buf : List UInt8
  pos : Nat
  full : Bool

def newRingBuffer (size : Nat) : RingBuffer := ⟨List.replicate size 0,0,false⟩

def copyAt (dst : List UInt8) (k : Nat) (src : List UInt8) : List UInt8 :=
  dst.take k ++ (src.take (dst.length - k) ++ dst.drop (k + src.length))

variable (rb : RingBuffer) (records : List Record)

def RingBuffer.write (framed : List UInt8) : RingBuffer :=
  if framed.length ≥ rb.buf.length then
    ⟨copyAt rb.buf 0 (framed.drop (framed.length - rb.buf.length)),0,true⟩
  else if rb.pos + framed.length ≤ rb.buf.length then
    ⟨copyAt rb.buf rb.pos framed,(rb.pos + framed.length) % rb.buf.length,rb.full⟩
  else
    ⟨copyAt (copyAt rb.buf rb.pos (framed.take (rb.buf.length - rb.pos))) 0 (framed.drop (rb.buf.length - rb.pos)),
      (rb.pos + framed.length) % rb.buf.length,true⟩

def RingBuffer.writeRecord (r : Record) : RingBuffer := rb.write (appendRecord [] r)

def RingBuffer.snapshot : List UInt8 :=
  if rb.full then
    copyAt (copyAt (List.replicate rb.buf.length 0) 0 (rb.buf.drop rb.pos)) (rb.buf.length - rb.pos) (rb.buf.take rb.pos)
  else copyAt (List.replicate rb.pos 0) 0 (rb.buf.take rb.pos)

def RingBuffer.writeRecords : RingBuffer := records.foldl RingBuffer.writeRecord rb

variable {dst src : List UInt8} {rb} {size : Nat}

theorem copyAt_inside {k : Nat} (fits : k + src.length ≤ dst.length) :
    copyAt dst k src = dst.take k ++ (src ++ dst.drop (k + src.length)) := by
  grind [take_of_length_le,copyAt]

theorem copyAt_end {x y : List UInt8} {k : Nat} (at_ : x.length = k) (same : src.length = y.length) :
    copyAt (x ++ y) k src = x ++ src := by
  grind [copyAt_inside]

theorem copyAt_all (same : src.length = dst.length) : copyAt dst 0 src = src :=
  copyAt_end (x := []) rfl same

theorem snapshot_eq (inside : rb.pos ≤ rb.buf.length) :
    rb.snapshot = if rb.full then rb.buf.drop rb.pos ++ rb.buf.take rb.pos else rb.buf.take rb.pos := by
  unfold RingBuffer.snapshot
  have taken : (rb.buf.take rb.pos).length = rb.pos := length_take_of_le inside
  split
  · have dropped : (rb.buf.drop rb.pos).length = rb.buf.length - rb.pos := length_drop
    have first : copyAt (replicate rb.buf.length 0) 0 (rb.buf.drop rb.pos) =
        rb.buf.drop rb.pos ++ replicate rb.pos 0 := by
      grind [copyAt_inside]
    rw [first]
    exact copyAt_end dropped (by rw [taken,length_replicate])
  · exact copyAt_all (by rw [taken,length_replicate])

theorem length_snapshot (inside : rb.pos ≤ rb.buf.length) :
    rb.snapshot.length = if rb.full then rb.buf.length else rb.pos := by
  grind [snapshot_eq]

section
variable {rb : RingBuffer} {framed : List UInt8}

theorem write_long (long : rb.buf.length ≤ framed.length) :
    rb.write framed = ⟨framed.drop (framed.length - rb.buf.length),0,true⟩ := by
  rw [RingBuffer.write,if_pos long,copyAt_all (by rw [length_drop]; omega)]

theorem write_fits (short : framed.length < rb.buf.length) (fits : rb.pos + framed.length ≤ rb.buf.length) :
    rb.write framed = ⟨rb.buf.take rb.pos ++ framed ++ rb.buf.drop (rb.pos + framed.length),
      (rb.pos + framed.length) % rb.buf.length,rb.full⟩ := by
  grind [RingBuffer.write,copyAt_inside]

variable (inside : rb.pos ≤ rb.buf.length)
include inside

theorem write_behind (short : framed.length < rb.buf.length)
    (behind : rb.buf.length < rb.pos + framed.length) :
    rb.write framed = ⟨framed.drop (rb.buf.length - rb.pos) ++
        (rb.buf.take rb.pos ++ framed.take (rb.buf.length - rb.pos)).drop (framed.drop (rb.buf.length - rb.pos)).length,
      (framed.drop (rb.buf.length - rb.pos)).length,true⟩ := by
  set first := rb.buf.length - rb.pos with first_
  have taken : (rb.buf.take rb.pos).length = rb.pos := length_take_of_le inside
  have head : (framed.take first).length = first := length_take_of_le (by omega)
  have tail : (framed.drop first).length = rb.pos + framed.length - rb.buf.length := by
    rw [length_drop]
    omega
  have once : copyAt rb.buf rb.pos (framed.take first) = rb.buf.take rb.pos ++ framed.take first := by
    rw [copyAt_inside (by omega),drop_eq_nil_of_le (by omega),append_nil]
  have turned : (rb.pos + framed.length) % rb.buf.length = (framed.drop first).length := by
    rw [tail,Nat.mod_eq_sub_mod (by omega),Nat.mod_eq_of_lt (by omega)]
  rw [RingBuffer.write,if_neg (Nat.not_le.mpr short),if_neg (Nat.not_le.mpr behind),← first_,once,turned,
    copyAt_inside (by rw [length_append]; omega),take_zero,nil_append,Nat.zero_add]

theorem write_keeps (framed : List UInt8) :
    (rb.write framed).buf.length = rb.buf.length ∧ (rb.write framed).pos ≤ rb.buf.length := by
  rcases Nat.lt_or_ge framed.length rb.buf.length with short | long
  · rcases Nat.lt_or_ge rb.buf.length (rb.pos + framed.length) with behind | fits
    · grind [write_behind]
    · rw [write_fits short fits]
      simp only [length_append,length_drop,length_take]
      exact ⟨by omega,Nat.le_of_lt (Nat.mod_lt _ (by omega))⟩
  · rw [write_long long]
    simp only [length_drop]
    omega

theorem newest_suffix : rb.buf.take rb.pos <:+ rb.snapshot := by
  grind [snapshot_eq]

theorem write_suffix (framed : List UInt8) :
    (rb.write framed).snapshot <:+ rb.snapshot ++ framed := by
  obtain ⟨length,kept⟩ := write_keeps inside framed
  have newest : rb.buf.take rb.pos ++ framed <:+ rb.snapshot ++ framed :=
    suffix_append_self_iff.mpr (newest_suffix inside)
  have taken : (rb.buf.take rb.pos).length = rb.pos := length_take_of_le inside
  rw [snapshot_eq (by omega)]
  rcases Nat.lt_or_ge framed.length rb.buf.length with short | long
  · rcases Nat.lt_or_ge rb.buf.length (rb.pos + framed.length) with behind | fits
    · have room : (framed.drop (rb.buf.length - rb.pos)).length ≤ rb.pos := by
        rw [length_drop]
        omega
      rw [write_behind inside short behind,take_left' rfl,drop_left' rfl,
        drop_append_of_le_length (by omega),append_assoc,take_append_drop]
      exact (suffix_append_self_iff.mpr (drop_suffix _ _)).trans newest
    · have reached : (rb.buf.take rb.pos ++ framed).length = rb.pos + framed.length := by rw [length_append,taken]
      rw [write_fits short fits]
      rcases Nat.eq_or_lt_of_le fits with end_ | before
      · -- The place to write goes back to the front.
        simp only [end_,Nat.mod_self,take_zero,append_nil,drop_length]
        split
        · exact newest
        · exact nil_suffix
      · simp only [Nat.mod_eq_of_lt before,take_left' reached,drop_left' reached]
        split
        · rename_i full
          rw [snapshot_eq inside,if_pos full,← drop_drop,← append_assoc]
          exact suffix_append_self_iff.mpr (suffix_append_self_iff.mpr (drop_suffix _ _))
        · exact newest
  · -- Of a frame that is longer than the buffer only the end is kept.
    grind [write_long,drop_suffix]

omit inside

theorem write_filling (filling : (rb.write framed).full = false) :
    rb.full = false ∧ framed.length < rb.buf.length ∧ rb.pos + framed.length ≤ rb.buf.length ∧
      (rb.write framed).pos = (rb.pos + framed.length) % rb.buf.length := by
  grind [RingBuffer.write]

end

def framed : List UInt8 := appendRecords [] records

theorem framed_append_one (r : Record) :
    framed (records ++ [r]) = framed records ++ appendRecord [] r := by
  simp [framed,appendRecords,appendRecord]

theorem writeRecords_append_one (rb : RingBuffer) (records : List Record) (r : Record) :
    rb.writeRecords (records ++ [r]) = (rb.writeRecords records).writeRecord r := by
  simp [RingBuffer.writeRecords]

theorem writeRecords_keeps (size : Nat) (records : List Record) :
    ((newRingBuffer size).writeRecords records).buf.length = size ∧
      ((newRingBuffer size).writeRecords records).pos ≤ size := by
  induction records using reverseRecOn with
  | nil => exact ⟨length_replicate,Nat.zero_le size⟩
  | append_singleton records r ih =>
    obtain ⟨length,inside⟩ := ih
    rw [writeRecords_append_one]
    obtain ⟨same,kept⟩ := write_keeps (inside.trans (Nat.le_of_eq length.symm)) (appendRecord [] r)
    exact ⟨same.trans length,kept.trans (Nat.le_of_eq length)⟩

theorem snapshot_suffix (size : Nat) (records : List Record) :
    ((newRingBuffer size).writeRecords records).snapshot <:+ framed records := by
  induction records using reverseRecOn with
  | nil => exact suffix_refl _
  | append_singleton records r ih =>
    obtain ⟨length,inside⟩ := writeRecords_keeps size records
    rw [writeRecords_append_one,framed_append_one]
    exact (write_suffix (inside.trans (Nat.le_of_eq length.symm)) _).trans (suffix_append_self_iff.mpr ih)

theorem snapshot_eq_rtake (size : Nat) (records : List Record) :
    ((newRingBuffer size).writeRecords records).snapshot =
      (framed records).rtake ((newRingBuffer size).writeRecords records).snapshot.length :=
  suffix_iff_eq_drop.mp (snapshot_suffix size records)

theorem appendRecord_pos (r : Record) : 0 < (appendRecord [] r).length := by
  simp [appendRecord]

theorem framed_prefix {first records : List Record} (part : first <+: records) :
    (framed first).length ≤ (framed records).length := by
  obtain ⟨rest,rfl⟩ := part
  rw [framed,framed,appendRecords,appendRecords,foldl_append]
  exact (Binlog.appendRecords_append (appendRecords [] first) rest ▸ prefix_append _ _).length_le

variable {records}

theorem framed_pos (more : records ≠ []) : 0 < (framed records).length := by
  cases records with
  | nil => exact absurd rfl more
  | cons r rest =>
    grind [appendRecord_pos,framed,Binlog.appendRecords_cons]

/-- The frames come to the size of the buffer, and the last is not the only one. -/
def EndsExactly (size : Nat) (records : List Record) : Prop := (framed records).length = size ∧ 1 < records.length

theorem filling_all (never : ∀ first, first <+: records → ¬ EndsExactly size first)
    (filling : ((newRingBuffer size).writeRecords records).full = false) :
    ((newRingBuffer size).writeRecords records).pos = (framed records).length := by
  induction records using reverseRecOn with
  | nil => rfl
  | append_singleton records r ih =>
    rw [writeRecords_append_one] at filling ⊢
    obtain ⟨before,short,fits,pos⟩ := write_filling filling
    have all := ih (fun first part => never first (part.trans (prefix_append _ _))) before
    rw [(writeRecords_keeps size records).1] at short
    rw [(writeRecords_keeps size records).1,all] at fits pos
    have other : (framed records).length + (appendRecord [] r).length ≠ size := by
      intro same
      refine never _ (prefix_refl _) ⟨by rw [framed_append_one,length_append,same],?_⟩
      have more : records ≠ [] := by
        rintro rfl
        have none_ : (framed []).length = 0 := rfl
        omega
      have some_ := length_pos_iff.mpr more
      rw [length_append,length_singleton]
      omega
    rw [framed_append_one,length_append]
    exact pos.trans (Nat.mod_eq_of_lt (by omega))

variable (less : (framed records).length < size)
include less

theorem not_full :
    ((newRingBuffer size).writeRecords records).full = false := by
  grind [writeRecords_keeps,snapshot_suffix,length_snapshot]

theorem filling_less :
    ((newRingBuffer size).writeRecords records).pos = (framed records).length := by
  refine filling_all ?_ (not_full less)
  rintro first part ⟨same,-⟩
  have shorter := framed_prefix part
  omega

theorem snapshot_all :
    ((newRingBuffer size).writeRecords records).snapshot = framed records := by
  obtain ⟨length,inside⟩ := writeRecords_keeps size records
  refine (snapshot_suffix size records).eq_of_length ?_
  grind [length_snapshot,not_full,filling_less]

omit less

theorem snapshot_exact (exact : EndsExactly size records) :
    ((newRingBuffer size).writeRecords records).snapshot.length = 0 := by
  obtain ⟨total,more⟩ := exact
  induction records using reverseRecOn with
  | nil => cases more
  | append_singleton records r _ =>
    have some_ := appendRecord_pos r
    rw [framed_append_one,length_append] at total
    have less : (framed records).length < size := by omega
    have pos := filling_less less
    obtain ⟨length,inside⟩ := writeRecords_keeps size records
    have before : 0 < (framed records).length := by
      refine framed_pos ?_
      rintro rfl
      exact Nat.lt_irrefl 1 more
    obtain ⟨same,kept⟩ := write_keeps (inside.trans (Nat.le_of_eq length.symm)) (appendRecord [] r)
    rw [writeRecords_append_one,RingBuffer.writeRecord,length_snapshot (kept.trans (Nat.le_of_eq same.symm)),
      write_fits (by omega) (by omega)]
    simp only [not_full less,pos,length,total,Nat.mod_self,Bool.false_eq_true,if_false]

/-- A snapshot is the newest bytes, as many as there are or as the buffer can hold, after
    every call if and only if no frame but the first ends exactly at the end of the buffer
    before the buffer is full. -/
theorem snapshot_newest_iff (size : Nat) (records : List Record) :
    (∀ first, first <+: records → ((newRingBuffer size).writeRecords first).snapshot =
      (framed first).rtake (min (framed first).length size)) ↔
      ∀ first, first <+: records → ¬ EndsExactly size first := by
  constructor
  · intro newest first part exact
    have bytes := congrArg List.length (newest first part)
    have more := framed_pos (ne_nil_of_length_pos (Nat.zero_lt_of_lt exact.2))
    rw [snapshot_exact exact,rtake,length_drop,exact.1] at bytes
    rw [exact.1] at more
    omega
  · intro never first part
    obtain ⟨length,inside⟩ := writeRecords_keeps size first
    have within := (snapshot_suffix size first).length_le
    rw [snapshot_eq_rtake size first]
    rw [length_snapshot (inside.trans (Nat.le_of_eq length.symm)),length] at within ⊢
    cases full : ((newRingBuffer size).writeRecords first).full with
    | true =>
      rw [full,if_pos rfl] at within
      rw [if_pos rfl,Nat.min_eq_right within]
    | false =>
      have all := filling_all (fun early before => never early (before.trans part)) full
      rw [all] at inside
      rw [if_neg Bool.false_ne_true,all,Nat.min_eq_left inside]

/-- Two records without a payload fill sixteen bytes, and the snapshot is empty. -/
theorem snapshot_lost : ¬ ∀ (size : Nat) (records : List Record),
    ((newRingBuffer size).writeRecords records).snapshot = (framed records).rtake (min (framed records).length size) := by
  intro all
  have lost : ((newRingBuffer 16).writeRecords [⟨8,[]⟩,⟨8,[]⟩]).snapshot.length = 0 := by decide +kernel
  have total : (framed [⟨8,[]⟩,⟨8,[]⟩]).length = 16 := by decide +kernel
  rw [all 16 [⟨8,[]⟩,⟨8,[]⟩],rtake,length_drop,total] at lost
  cases lost

end TunnelCat.StatsRing
