import Mathlib.Data.Nat.Bitwise
import Mathlib.Tactic.Ring

/-!
Unsigned numbers in groups of seven bits, the lowest first, as Go's `encoding/binary`
writes and reads them. A writer fills a buffer of ten bytes; a reader also takes texts that
are longer than they need to be, but none that spells a number of more than 64 bits.

`Encodes` says what a text of a number is. The writer writes one (`encodes_put`), and the
reader finds the one that stands at the beginning of the bytes and nothing else (`read_iff`).
-/
namespace TunnelCat.Uvarint
open List

def maxLen : Nat := 10

def putLoop : Nat → Nat → List UInt8
  | 0, _ => []
  | room+1, x => if 128 ≤ x then (UInt8.ofNat x ||| 0x80) :: putLoop room (x >>> 7) else [UInt8.ofNat x]

def put (x : Nat) : List UInt8 := putLoop maxLen x

def readLoop : List UInt8 → Nat → Nat → Nat → Nat × Int
  | [], _, _, _ => (0,0)
  | b :: rest, i, x, s =>
    if i = maxLen then (0,-(i + 1))
    else if b < 0x80 then
      if i = maxLen - 1 ∧ 1 < b then (0,-(i + 1)) else (x ||| (b.toNat <<< s) % 2 ^ 64,i + 1)
    else readLoop rest (i + 1) (x ||| ((b &&& 0x7f).toNat <<< s) % 2 ^ 64) (s + 7)

/-- The number at the beginning of the bytes and how many of them spell it; not more than
    none if they end too early or go on too long. -/
def read (buf : List UInt8) : Nat × Int := readLoop buf 0 0 0

def value : List UInt8 → Nat
  | [] => 0
  | b :: rest => b.toNat % 128 + 128 * value rest

def Continued : List UInt8 → Prop
  | [] => False
  | b :: rest => if b < 0x80 then rest = [] else Continued rest

structure Encodes (v : List UInt8) (n : Nat) : Prop where
  continued : Continued v
  spells : value v = n
  short : v.length ≤ maxLen
  fits : n < 2 ^ 64

variable {v rest rest' buf : List UInt8} {b : UInt8} {k : Int}

theorem Continued.ne_nil (continued : Continued v) : v ≠ [] := by
  rintro rfl
  exact continued

theorem Encodes.pos {n : Nat} (encodes : Encodes v n) : 0 < v.length :=
  length_pos_iff.mpr encodes.continued.ne_nil

theorem Continued.unique {w : List UInt8} (first : Continued v) (second : Continued w)
    (same : v ++ rest = w ++ rest') : v = w := by
  induction v generalizing w with
  | nil => exact absurd rfl first.ne_nil
  | cons b v ih =>
    obtain ⟨c,w,rfl⟩ := exists_cons_of_ne_nil second.ne_nil
    obtain ⟨rfl,more⟩ := List.cons.inj same
    rw [Continued] at first second
    by_cases last : b < 0x80
    · rw [if_pos last] at first second
      rw [first,second]
    · rw [if_neg last] at first second
      rw [ih first second more]

theorem low_bits (x : Nat) : (UInt8.ofNat x ||| 0x80).toNat % 128 = x % 128 ∧ ¬ (UInt8.ofNat x ||| 0x80) < 0x80 := by
  have all : ∀ b : Fin 256, (UInt8.ofNat b.val ||| 0x80).toNat % 128 = b.val % 128 ∧
      ¬ (UInt8.ofNat b.val ||| 0x80) < 0x80 := by decide +kernel
  have same : UInt8.ofNat (x % 256) = UInt8.ofNat x := by
    apply UInt8.toNat_inj.mp
    simp
  obtain ⟨low,high⟩ := all ⟨x % 256,Nat.mod_lt _ (by decide)⟩
  simp only [same] at low high
  exact ⟨by omega,high⟩

theorem last_byte {x : Nat} (small : x < 128) : Continued [UInt8.ofNat x] ∧ value [UInt8.ofNat x] = x := by
  have byte : (UInt8.ofNat x).toNat = x := by
    rw [UInt8.toNat_ofNat']
    omega
  have last : UInt8.ofNat x < 0x80 := by
    rw [UInt8.lt_iff_toNat_lt,byte]
    exact small
  constructor
  · simp [Continued,last]
  · simp only [value]
    omega

theorem put_spells {room x : Nat} (fits : x < 128 ^ (room + 1)) :
    Continued (putLoop (room + 1) x) ∧ value (putLoop (room + 1) x) = x ∧ (putLoop (room + 1) x).length ≤ room + 1 := by
  induction room generalizing x with
  | zero =>
    have small : x < 128 := by omega
    obtain ⟨continued,spells⟩ := last_byte small
    rw [putLoop,if_neg (Nat.not_le.mpr small)]
    exact ⟨continued,spells,le_refl 1⟩
  | succ room ih =>
    rw [putLoop]
    by_cases large : 128 ≤ x
    · have rest : x >>> 7 < 128 ^ (room + 1) := by
        rw [Nat.shiftRight_eq_div_pow]
        exact Nat.div_lt_of_lt_mul (by rw [Nat.mul_comm]; exact fits)
      obtain ⟨continued,spells,short⟩ := ih rest
      obtain ⟨low,high⟩ := low_bits x
      have parts : x = x % 128 + 128 * (x >>> 7) := by
        omega
      simp only [large,if_true,Continued,high,value,spells,low,length_cons]
      exact ⟨continued,parts.symm,by omega⟩
    · obtain ⟨continued,spells⟩ := last_byte (Nat.not_le.mp large)
      rw [if_neg large]
      exact ⟨continued,spells,by simp⟩

theorem encodes_put {x : Nat} (fits : x < 2 ^ 64) : Encodes (put x) x := by
  have room : x < 128 ^ (9 + 1) := Nat.lt_trans fits (by decide)
  obtain ⟨continued,spells,short⟩ := put_spells room
  exact ⟨continued,spells,short,fits⟩

theorem seven_bits (b : UInt8) : (b &&& 0x7f).toNat = b.toNat % 128 := by
  have mask : (0x7f : UInt8).toNat = 2 ^ 7 - 1 := rfl
  rw [UInt8.toNat_and,mask,Nat.and_two_pow_sub_one_eq_mod]

theorem or_shift {x s m : Nat} (low : x < 2 ^ s) (fits : 2 ^ s * m < 2 ^ 64) :
    x ||| (m <<< s) % 2 ^ 64 = x + 2 ^ s * m := by
  rw [Nat.shiftLeft_eq,Nat.mul_comm m,Nat.mod_eq_of_lt fits,Nat.or_comm,← Nat.two_pow_add_eq_or_of_lt low,Nat.add_comm]

structure Remainder (buf : List UInt8) (i x n : Nat) (k : Int) (v rest : List UInt8) : Prop where
  parts : buf = v ++ rest
  continued : Continued v
  spells : n = x + 2 ^ (7 * i) * value v
  taken : k = i + v.length
  short : i + v.length ≤ maxLen
  fits : n < 2 ^ 64

variable {i x n : Nat}

theorem remainder_last (last : b < 0x80) :
    (∃ v rest', Remainder (b :: rest) i x n k v rest') ↔
      n = x + 2 ^ (7 * i) * b.toNat ∧ k = i + 1 ∧ i + 1 ≤ maxLen ∧ n < 2 ^ 64 := by
  have digit : b.toNat < 128 := UInt8.lt_iff_toNat_lt.mp last
  have single : value [b] = b.toNat := by
    simp only [value]
    omega
  constructor
  · rintro ⟨v,rest',r⟩
    obtain ⟨c,w,rfl⟩ := exists_cons_of_ne_nil r.continued.ne_nil
    obtain ⟨rfl,-⟩ := List.cons.inj r.parts
    have ends := r.continued
    rw [Continued,if_pos last] at ends
    subst ends
    exact ⟨single ▸ r.spells,by simpa using r.taken,r.short,r.fits⟩
  · rintro ⟨spells,taken,short,fits⟩
    exact ⟨[b],rest,rfl,by simp [Continued,last],single.symm ▸ spells,by simpa using taken,short,fits⟩

theorem remainder_more (more : ¬ b < 0x80) :
    (∃ v rest', Remainder (b :: rest) i x n k v rest') ↔
      ∃ v rest', Remainder rest (i + 1) (x + 2 ^ (7 * i) * (b.toNat % 128)) n k v rest' := by
  have spelt (w : List UInt8) : x + 2 ^ (7 * i) * value (b :: w) =
      x + 2 ^ (7 * i) * (b.toNat % 128) + 2 ^ (7 * (i + 1)) * value w := by
    rw [value]
    ring
  have counted (w : List UInt8) : i + (b :: w).length = i + 1 + w.length := by
    rw [length_cons]
    omega
  constructor
  · rintro ⟨v,rest',r⟩
    obtain ⟨c,w,rfl⟩ := exists_cons_of_ne_nil r.continued.ne_nil
    obtain ⟨rfl,parts⟩ := List.cons.inj r.parts
    have continued := r.continued
    rw [Continued,if_neg more] at continued
    refine ⟨w,rest',parts,continued,(spelt w).symm ▸ r.spells,?_,counted w ▸ r.short,r.fits⟩
    have taken := r.taken
    have same := counted w
    omega
  · rintro ⟨w,rest',r⟩
    refine ⟨b :: w,rest',by rw [r.parts]; rfl,by simpa [Continued,more] using r.continued,spelt w ▸ r.spells,?_,?_,r.fits⟩
    · have taken := r.taken
      have same := counted w
      omega
    · exact counted w ▸ r.short

theorem not_remainder (beyond : maxLen ≤ i) : ¬ Remainder buf i x n k v rest := by
  intro r
  have some_ := length_pos_iff.mpr r.continued.ne_nil
  have short := r.short
  omega

theorem last_fits {i : Nat} (within : i < maxLen) (last : b < 0x80) (small : ¬ (i = maxLen - 1 ∧ 1 < b)) :
    2 ^ (7 * i) * b.toNat < 2 ^ 64 := by
  have digit : b.toNat < 128 := UInt8.lt_iff_toNat_lt.mp last
  by_cases tenth : i = maxLen - 1
  · have one : b.toNat ≤ 1 := by
      by_contra more
      exact small ⟨tenth,UInt8.lt_iff_toNat_lt.mpr (Nat.not_le.mp more)⟩
    have power : 2 ^ (7 * i) ≤ 2 ^ 63 := Nat.pow_le_pow_right (by decide) (by unfold maxLen at within; omega)
    calc 2 ^ (7 * i) * b.toNat ≤ 2 ^ 63 * 1 := Nat.mul_le_mul power one
      _ < 2 ^ 64 := by decide
  · have power : 2 ^ (7 * i) ≤ 2 ^ 56 := Nat.pow_le_pow_right (by decide) (by unfold maxLen at within tenth; omega)
    calc 2 ^ (7 * i) * b.toNat ≤ 2 ^ 56 * 127 := Nat.mul_le_mul power (by omega)
      _ < 2 ^ 64 := by decide

theorem readLoop_last (within : i < maxLen)
    (low : x < 2 ^ (7 * i)) (last : b < 0x80) (pos : 0 < k) :
    readLoop (b :: rest) i x (7 * i) = (n,k) ↔ ∃ v rest', Remainder (b :: rest) i x n k v rest' := by
  rw [remainder_last last,readLoop,if_neg (by omega),if_pos last]
  by_cases tooLarge : i = maxLen - 1 ∧ 1 < b
  · -- the tenth byte has room for one bit
    rw [if_pos tooLarge]
    obtain ⟨rfl,more⟩ := tooLarge
    have two : 2 ≤ b.toNat := UInt8.lt_iff_toNat_lt.mp more
    constructor
    · intro same
      have negative := (Prod.mk.inj same).2
      omega
    · rintro ⟨spells,-,-,fits⟩
      simp only [maxLen] at spells
      omega
  · have fits := last_fits within last tooLarge
    have below : x < 2 ^ 64 := Nat.lt_of_lt_of_le low (Nat.pow_le_pow_right (by decide) (by unfold maxLen at within; omega))
    have sum : x + 2 ^ (7 * i) * b.toNat < 2 ^ 64 := by
      rw [← or_shift low fits]
      exact Nat.or_lt_two_pow below (Nat.mod_lt _ (by decide))
    rw [if_neg tooLarge,or_shift low fits,Prod.mk.injEq]
    constructor
    · rintro ⟨rfl,rfl⟩
      exact ⟨rfl,rfl,within,sum⟩
    · rintro ⟨spells,taken,-⟩
      exact ⟨spells.symm,taken.symm⟩

theorem readLoop_iff (buf : List UInt8) (within : i < maxLen) (low : x < 2 ^ (7 * i)) (pos : 0 < k) :
    readLoop buf i x (7 * i) = (n,k) ↔ ∃ v rest, Remainder buf i x n k v rest := by
  induction buf generalizing i x with
  | nil =>
    constructor
    · intro same
      have zero : 0 = k := (Prod.mk.inj same).2
      omega
    · rintro ⟨v,rest,r⟩
      exact absurd (append_eq_nil_iff.mp r.parts.symm).1 r.continued.ne_nil
  | cons b rest ih =>
    by_cases last : b < 0x80
    · exact readLoop_last within low last pos
    rw [remainder_more last,readLoop,if_neg (by omega),if_neg last]
    by_cases next : i + 1 < maxLen
    · have power : 2 ^ (7 * i) ≤ 2 ^ 56 := Nat.pow_le_pow_right (by decide) (by unfold maxLen at next; omega)
      have fits :=
        calc 2 ^ (7 * i) * (b.toNat % 128) ≤ 2 ^ 56 * 127 := Nat.mul_le_mul power (by omega)
          _ < 2 ^ 64 := by decide
      have low' :=
        calc x + 2 ^ (7 * i) * (b.toNat % 128) < 2 ^ (7 * i) + 2 ^ (7 * i) * 127 :=
              Nat.add_lt_add_of_lt_of_le low (Nat.mul_le_mul_left _ (by omega))
          _ = 2 ^ (7 * (i + 1)) := by ring
      rw [seven_bits,or_shift low fits]
      exact ih next low'
    · -- after ten bytes that go on there is nothing to read
      have tenth : i + 1 = maxLen := by omega
      refine iff_of_false ?_ (fun ⟨v,rest',r⟩ => not_remainder tenth.ge r)
      intro same
      cases rest with
      | nil =>
        have zero : 0 = k := (Prod.mk.inj same).2
        omega
      | cons c more =>
        rw [readLoop,if_pos tenth] at same
        have negative := (Prod.mk.inj same).2
        omega

theorem read_iff {n : Nat} (pos : 0 < k) :
    read buf = (n,k) ↔ ∃ v rest, buf = v ++ rest ∧ Encodes v n ∧ k = v.length := by
  unfold read
  have start := readLoop_iff buf (n := n) (i := 0) (x := 0) (by decide) (by decide) pos
  rw [start]
  constructor
  · rintro ⟨v,rest,r⟩
    have spells := r.spells
    simp only [Nat.mul_zero,Nat.pow_zero,Nat.one_mul,Nat.zero_add] at spells
    exact ⟨v,rest,r.parts,⟨r.continued,spells.symm,by simpa using r.short,r.fits⟩,by simpa using r.taken⟩
  · rintro ⟨v,rest,parts,encodes,taken⟩
    exact ⟨v,rest,parts,encodes.continued,by simp [encodes.spells],by simpa using taken,
      by simpa using encodes.short,encodes.fits⟩

theorem read_encoded {n : Nat} (encodes : Encodes v n) (rest : List UInt8) :
    read (v ++ rest) = (n,(v.length : Int)) :=
  (read_iff (by simpa using encodes.pos)).mpr ⟨v,rest,rfl,encodes,rfl⟩

theorem Encodes.unique {w : List UInt8} {n m : Nat} (first : Encodes v n) (second : Encodes w m)
    (same : v ++ rest = w ++ rest') : v = w ∧ n = m ∧ rest = rest' := by
  have read_ := read_encoded first rest
  rw [same,read_encoded second rest',Prod.mk.injEq] at read_
  have length : v.length = w.length := by omega
  obtain ⟨texts,rests⟩ := append_inj same length
  exact ⟨texts,read_.1.symm,rests⟩

end TunnelCat.Uvarint
