import Mathlib.Algebra.Group.Nat.Defs
import Mathlib.Data.Nat.Basic
import Mathlib.Data.List.Basic
import Mathlib.Tactic.Ring

/-!
Byte strings: numbers written in bytes, high byte first, their order, and the hex and
base64 texts of a byte string.
-/
namespace TunnelCat.Bytes
open List

def beBytes : Nat → Nat → List UInt8
  | 0, _ => []
  | k+1, n => beBytes k (n / 256) ++ [UInt8.ofNat n]

variable (bytes : List UInt8) (n : Nat)

def beNat : Nat := bytes.foldl (fun acc b => acc * 256 + b.toNat) 0

@[simp] theorem length_beBytes (k n : Nat) : (beBytes k n).length = k := by
  induction k generalizing n with
  | zero => rfl
  | succ k ih => simp [beBytes,ih]

theorem beNat_append (b : UInt8) : beNat (bytes ++ [b]) = beNat bytes * 256 + b.toNat := by
  simp [beNat]

theorem beNat_beBytes (k n : Nat) : beNat (beBytes k n) = n % 256 ^ k := by
  induction k generalizing n with
  | zero => simp [beBytes,beNat,Nat.mod_one]
  | succ k ih =>
    have low : (UInt8.ofNat n).toNat = n % 256 := UInt8.toNat_ofNat'
    have whole : n % 256 ^ (k + 1) = n % 256 + 256 * (n / 256 % 256 ^ k) := by rw [Nat.pow_succ',Nat.mod_mul]
    rw [beBytes,beNat_append,ih]
    omega

theorem beNat_beBytes_four : beNat (beBytes 4 n) = n % 2 ^ 32 := by
  have field : 256 ^ 4 = 2 ^ 32 := by decide
  rw [beNat_beBytes,field]

private theorem foldl_bytes (acc : Nat) :
    bytes.foldl (fun acc b => acc * 256 + b.toNat) acc = acc * 256 ^ bytes.length + beNat bytes := by
  induction bytes generalizing acc with
  | nil => simp [beNat]
  | cons b rest ih =>
    have head : beNat (b :: rest) = rest.foldl (fun acc b => acc * 256 + b.toNat) b.toNat := by simp [beNat]
    rw [foldl_cons,ih,head,ih,length_cons]
    ring

theorem beNat_concat (high low : List UInt8) : beNat (high ++ low) = beNat high * 256 ^ low.length + beNat low := by
  unfold beNat
  rw [foldl_append,foldl_bytes]
  rfl

theorem beNat_cons (b : UInt8) (rest : List UInt8) : beNat (b :: rest) = b.toNat * 256 ^ rest.length + beNat rest := by
  rw [← singleton_append,beNat_concat]
  simp [beNat]

theorem beNat_lt : beNat bytes < 256 ^ bytes.length := by
  induction bytes with
  | nil => simp [beNat]
  | cons b rest ih =>
    have digit := b.toNat_lt
    rw [beNat_cons,length_cons,Nat.pow_succ']
    calc b.toNat * 256 ^ rest.length + beNat rest
        < b.toNat * 256 ^ rest.length + 256 ^ rest.length := Nat.add_lt_add_left ih _
      _ = (b.toNat + 1) * 256 ^ rest.length := by ring
      _ ≤ 256 * 256 ^ rest.length := Nat.mul_le_mul_right _ (by omega)

def lessBytes : List UInt8 → List UInt8 → Bool
  | a :: rest, b :: rest' => if a ≠ b then decide (a < b) else lessBytes rest rest'
  | _, _ => false

private theorem beNat_cons_lt {a b : UInt8} {rest rest' : List UInt8} (same : rest.length = rest'.length) (less : a < b) :
    beNat (a :: rest) < beNat (b :: rest') := by
  have digits : a.toNat + 1 ≤ b.toNat := UInt8.lt_iff_toNat_lt.mp less
  rw [beNat_cons,beNat_cons,same]
  calc a.toNat * 256 ^ rest'.length + beNat rest
      < a.toNat * 256 ^ rest'.length + 256 ^ rest'.length := Nat.add_lt_add_left (same ▸ beNat_lt rest) _
    _ = (a.toNat + 1) * 256 ^ rest'.length := by ring
    _ ≤ b.toNat * 256 ^ rest'.length := Nat.mul_le_mul_right _ digits
    _ ≤ b.toNat * 256 ^ rest'.length + beNat rest' := Nat.le_add_right _ _

theorem lessBytes_iff : ∀ {bytes bytes' : List UInt8}, bytes.length = bytes'.length →
    (lessBytes bytes bytes' = true ↔ beNat bytes < beNat bytes')
  | [], [], _ => by simp [lessBytes]
  | [], _ :: _, same => by simp at same
  | _ :: _, [], same => by simp at same
  | a :: rest, b :: rest', same => by
    have tails : rest.length = rest'.length := by simpa using same
    by_cases equal : a = b
    · subst equal
      rw [beNat_cons,beNat_cons,tails,Nat.add_lt_add_iff_left,← lessBytes_iff tails]
      simp [lessBytes]
    · simp only [lessBytes,ne_eq,equal,not_false_eq_true,if_true,decide_eq_true_eq]
      rcases UInt8.lt_or_lt_of_ne equal with less | greater
      · exact ⟨fun _ => beNat_cons_lt tails less,fun _ => less⟩
      · have := beNat_cons_lt tails.symm greater
        exact ⟨fun less => absurd (UInt8.lt_trans less greater) (UInt8.lt_irrefl a),fun less => by omega⟩

theorem beNat_inj : ∀ {bytes bytes' : List UInt8}, bytes.length = bytes'.length → beNat bytes = beNat bytes' →
    bytes = bytes'
  | [], [], _, _ => rfl
  | [], _ :: _, same, _ => by simp at same
  | _ :: _, [], same, _ => by simp at same
  | a :: rest, b :: rest', same, equal => by
    have tails : rest.length = rest'.length := by simpa using same
    by_cases heads : a = b
    · subst heads
      rw [beNat_cons,beNat_cons,tails,Nat.add_left_cancel_iff] at equal
      rw [beNat_inj tails equal]
    · rcases UInt8.lt_or_lt_of_ne heads with less | greater
      · have := beNat_cons_lt tails less
        omega
      · have := beNat_cons_lt tails.symm greater
        omega

def hexDigit : Char := "0123456789abcdef".toList.getD n '0'

def hexEncode : String :=
  String.ofList (bytes.flatMap (fun b => [hexDigit (b.toNat / 16),hexDigit (b.toNat % 16)]))

private theorem hexDigit_pair : ∀ b : Fin 256, ∀ c : Fin 256, hexDigit (b / 16) = hexDigit (c / 16) →
    hexDigit (b % 16) = hexDigit (c % 16) → b = c := by
  have injective : ∀ m : Fin 16, ∀ n : Fin 16, hexDigit m = hexDigit n → m = n := by decide
  intro b c high low
  have highs := injective ⟨b / 16,by omega⟩ ⟨c / 16,by omega⟩ high
  have lows := injective ⟨b % 16,by omega⟩ ⟨c % 16,by omega⟩ low
  simp only [Fin.mk.injEq] at highs lows
  omega

theorem hexEncode_injective {bytes bytes' : List UInt8} (same : hexEncode bytes = hexEncode bytes') :
    bytes = bytes' := by
  unfold hexEncode at same
  rw [String.ofList_inj] at same
  induction bytes generalizing bytes' with
  | nil =>
    cases bytes' with
    | nil => rfl
    | cons c rest => simp at same
  | cons b rest ih =>
    cases bytes' with
    | nil => simp at same
    | cons c rest' =>
      simp only [flatMap_cons,cons_append,List.cons.injEq] at same
      obtain ⟨high,low,tails⟩ := same
      have heads := hexDigit_pair ⟨b.toNat,b.toNat_lt⟩ ⟨c.toNat,c.toNat_lt⟩ high low
      rw [UInt8.toNat_inj.mp (Fin.mk.inj heads),ih tails]

/-! ### Base64 text

`base64.RawURLEncoding`: the URL alphabet, no padding. Reading skips line ends
and does not look at the bits that the last digit has left over. -/

def base64Digit : Char :=
  "ABCDEFGHIJKLMNOPQRSTUVWXYZabcdefghijklmnopqrstuvwxyz0123456789-_".toList.getD n 'A'

def sextets : List UInt8 → List Nat
  | a :: b :: c :: rest =>
    [a.toNat / 4,a.toNat % 4 * 16 + b.toNat / 16,b.toNat % 16 * 4 + c.toNat / 64,c.toNat % 64] ++ sextets rest
  | [a, b] => [a.toNat / 4,a.toNat % 4 * 16 + b.toNat / 16,b.toNat % 16 * 4]
  | [a] => [a.toNat / 4,a.toNat % 4 * 16]
  | [] => []

def base64Encode : String := String.ofList ((sextets bytes).map base64Digit)

def base64Value (c : Char) : Option Nat :=
  if 'A' ≤ c ∧ c ≤ 'Z' then some (c.toNat - 65)
  else if 'a' ≤ c ∧ c ≤ 'z' then some (c.toNat - 71)
  else if '0' ≤ c ∧ c ≤ '9' then some (c.toNat + 4)
  else if c = '-' then some 62
  else if c = '_' then some 63
  else none

def fromSextets : List Nat → Option (List UInt8)
  | a :: b :: c :: d :: rest =>
    (fromSextets rest).map
      ([UInt8.ofNat (a * 4 + b / 16),UInt8.ofNat (b % 16 * 16 + c / 4),UInt8.ofNat (c % 4 * 64 + d)] ++ ·)
  | [a, b, c] => some [UInt8.ofNat (a * 4 + b / 16),UInt8.ofNat (b % 16 * 16 + c / 4)]
  | [a, b] => some [UInt8.ofNat (a * 4 + b / 16)]
  | [_] => none
  | [] => some []

def base64Decode (s : String) : Option (List UInt8) :=
  ((s.toList.filter (fun c => c ≠ '\r' ∧ c ≠ '\n')).mapM base64Value).bind fromSextets

private theorem base64Value_digit : ∀ n : Fin 64, base64Value (base64Digit n) = some n.val ∧
    base64Digit n ≠ '\r' ∧ base64Digit n ≠ '\n' := by decide +kernel

theorem sextets_lt : ∀ n ∈ sextets bytes, n < 64 := by
  fun_induction sextets bytes with
  | case1 a b c rest ih =>
    have := a.toNat_lt
    have := b.toNat_lt
    intro n member
    simp only [cons_append,mem_cons] at member
    rcases member with rfl | rfl | rfl | rfl | later
    · omega
    · omega
    · have := c.toNat_lt
      omega
    · omega
    · exact ih n later
  | case2 a b =>
    have := a.toNat_lt
    have := b.toNat_lt
    simp
    omega
  | case3 a =>
    have := a.toNat_lt
    simp
    omega
  | case4 => simp

theorem fromSextets_sextets : fromSextets (sextets bytes) = some bytes := by
  have whole : ∀ (x : UInt8) (n : Nat), n = x.toNat → UInt8.ofNat n = x := by
    rintro x n rfl
    exact UInt8.ofNat_toNat
  fun_induction sextets bytes with
  | case1 a b c rest ih =>
    have := b.toNat_lt
    have := c.toNat_lt
    simp only [cons_append,nil_append,fromSextets,ih,Option.map_some]
    rw [whole a _ (by omega),whole b _ (by omega),whole c _ (by omega)]
  | case2 a b =>
    have := b.toNat_lt
    simp only [fromSextets]
    rw [whole a _ (by omega),whole b _ (by omega)]
  | case3 a =>
    simp only [fromSextets]
    rw [whole a _ (by omega)]
  | case4 => rfl

theorem base64Decode_encode : base64Decode (base64Encode bytes) = some bytes := by
  have read : ∀ digits : List Nat, (∀ n ∈ digits, n < 64) →
      ((digits.map base64Digit).filter (fun c => c ≠ '\r' ∧ c ≠ '\n')).mapM base64Value = some digits := by
    intro digits small
    induction digits with
    | nil => rfl
    | cons n rest ih =>
      obtain ⟨value,notReturn,notLine⟩ := base64Value_digit ⟨n,small n mem_cons_self⟩
      have kept : decide (base64Digit n ≠ '\r' ∧ base64Digit n ≠ '\n') = true := decide_eq_true ⟨notReturn,notLine⟩
      rw [map_cons,filter_cons,if_pos kept,mapM_cons,value,
        ih (fun m later => small m (mem_cons_of_mem _ later))]
      rfl
  rw [base64Decode,base64Encode,String.toList_ofList,read _ (sextets_lt bytes)]
  exact fromSextets_sextets bytes

theorem base64Encode_printable : ∀ d ∈ (base64Encode bytes).toList, 33 ≤ d.toNat ∧ d.toNat < 128 := by
  have digits : ∀ n : Fin 64, 33 ≤ (base64Digit n).toNat ∧ (base64Digit n).toNat < 128 := by decide +kernel
  intro d member
  rw [base64Encode,String.toList_ofList] at member
  obtain ⟨n,inside,rfl⟩ := mem_map.mp member
  exact digits ⟨n,sextets_lt bytes n inside⟩

end TunnelCat.Bytes
