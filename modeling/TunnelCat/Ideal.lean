import TunnelCat.Json
import Mathlib.Data.Countable.Basic
import Mathlib.Data.Rat.Encodable
import Mathlib.Logic.Equiv.List

/-!
Ideal cryptography. A signature verifies under the public key of a secret exactly when that secret made
it for that message. Who holds none of some secrets knows the signatures of the others, and those that
were given out (`Known`). For every countable type of messages there is such a scheme
(`Signatures.symbolic`).
-/
namespace TunnelCat
open List
namespace Json

inductive Token
  | null
  | bool (b : Bool)
  | num (n : Rat)
  | str (s : String)
  | arr (length : Nat)
  | obj (length : Nat)
  | name (s : String)

instance : Countable String :=
  haveI : Countable Char := Function.Injective.countable (f := Char.toNat) (fun a b same => by
    exact Char.toNat_inj.mp same)
  Function.Injective.countable (f := String.toList) (fun _ _ same => String.toList_inj.mp same)

def Token.code : Token → Nat × Bool × Rat × String × Nat
  | .null => (0,false,0,"",0)
  | .bool b => (1,b,0,"",0)
  | .num n => (2,false,n,"",0)
  | .str s => (3,false,0,s,0)
  | .arr k => (4,false,0,"",k)
  | .obj k => (5,false,0,"",k)
  | .name s => (6,false,0,s,0)

theorem Token.code_injective : Function.Injective Token.code := by
  intro a b same
  cases a <;> cases b <;> simp_all [code]

mutual
def tokens : Json → List Token
  | .null => [.null]
  | .bool b => [.bool b]
  | .num n => [.num n]
  | .str s => [.str s]
  | .arr items => .arr items.length :: itemTokens items
  | .obj members => .obj members.length :: memberTokens members
def itemTokens : List Json → List Token
  | [] => []
  | item :: rest => tokens item ++ itemTokens rest
def memberTokens : List (String × Json) → List Token
  | [] => []
  | (k, v) :: rest => .name k :: (tokens v ++ memberTokens rest)
end

mutual
theorem tokens_cancel : ∀ (a b : Json) (s t : List Token), tokens a ++ s = tokens b ++ t → a = b ∧ s = t
  | .arr xs, .arr ys, s, t, same => by
    simp only [tokens,cons_append,List.cons.injEq,Token.arr.injEq] at same
    obtain ⟨rfl,rest⟩ := itemTokens_cancel xs ys s t same.1 same.2
    exact ⟨rfl,rest⟩
  | .obj xs, .obj ys, s, t, same => by
    simp only [tokens,cons_append,List.cons.injEq,Token.obj.injEq] at same
    obtain ⟨rfl,rest⟩ := memberTokens_cancel xs ys s t same.1 same.2
    exact ⟨rfl,rest⟩
  | .null, b, s, t, same => by cases b <;> simp_all [tokens]
  | .bool _, b, s, t, same => by cases b <;> simp_all [tokens]
  | .num _, b, s, t, same => by cases b <;> simp_all [tokens]
  | .str _, b, s, t, same => by cases b <;> simp_all [tokens]
  | .arr _, .null, s, t, same | .arr _, .bool _, s, t, same | .arr _, .num _, s, t, same
  | .arr _, .str _, s, t, same | .arr _, .obj _, s, t, same => by simp [tokens] at same
  | .obj _, .null, s, t, same | .obj _, .bool _, s, t, same | .obj _, .num _, s, t, same
  | .obj _, .str _, s, t, same | .obj _, .arr _, s, t, same => by simp [tokens] at same
theorem itemTokens_cancel : ∀ (xs ys : List Json) (s t : List Token), xs.length = ys.length →
    itemTokens xs ++ s = itemTokens ys ++ t → xs = ys ∧ s = t
  | [], [], s, t, _, same => ⟨rfl,by simpa [itemTokens] using same⟩
  | x :: xs, y :: ys, s, t, long, same => by
    simp only [itemTokens,append_assoc] at same
    obtain ⟨rfl,rest⟩ := tokens_cancel x y _ _ same
    obtain ⟨rfl,last⟩ := itemTokens_cancel xs ys s t (by simpa using long) rest
    exact ⟨rfl,last⟩
theorem memberTokens_cancel : ∀ (xs ys : List (String × Json)) (s t : List Token), xs.length = ys.length →
    memberTokens xs ++ s = memberTokens ys ++ t → xs = ys ∧ s = t
  | [], [], s, t, _, same => ⟨rfl,by simpa [memberTokens] using same⟩
  | (k, x) :: xs, (l, y) :: ys, s, t, long, same => by
    simp only [memberTokens,cons_append,append_assoc,List.cons.injEq,Token.name.injEq] at same
    obtain ⟨rfl,same⟩ := same
    obtain ⟨rfl,rest⟩ := tokens_cancel x y _ _ same
    obtain ⟨rfl,last⟩ := memberTokens_cancel xs ys s t (by simpa using long) rest
    exact ⟨rfl,last⟩
end

instance : Countable Json := by
  have pieces : Countable Token := Token.code_injective.countable
  have apart : Function.Injective tokens := fun a b same => (tokens_cancel a b [] [] (by rw [same])).1
  exact apart.countable

end Json

instance : Countable Body := by
  have bytes : Countable UInt8 := Function.Injective.countable (f := UInt8.toNat) (fun _ _ => UInt8.toNat_inj.mp)
  have parts : Function.Injective (fun b : Body => match b with
      | .document doc => Sum.inl (β := List UInt8) doc
      | .other raw => .inr raw) := by
    intro a b same
    cases a <;> cases b <;> simp_all
  exact parts.countable

/-- A signature scheme for messages of type `M`. -/
structure Signatures (M : Type) where
  Secret : Type
  Public : Type
  Sig : Type
  pub : Secret → Public
  sign : Secret → M → Sig
  verify : Public → M → Sig → Bool
  sigText : Sig → String
  readSig : String → Option Sig
  keyText : Public → String
  readKey : String → Option Public
  readSig_sigText : ∀ s, readSig (sigText s) = some s
  readSig_empty : readSig "" = none
  readKey_keyText : ∀ p, readKey (keyText p) = some p
  readKey_empty : readKey "" = none
  verify_iff : ∀ k m s, verify (pub k) m s = true ↔ s = sign k m
  sign_injective : ∀ k m k' m', sign k m = sign k' m' → k = k' ∧ m = m'

namespace Signatures
variable {M : Type}

theorem verify_sign_iff (S : Signatures M) (k : S.Secret) (m m' : M) :
    S.verify (S.pub k) m (S.sign k m') = true ↔ m' = m := by
  grind [S.verify_iff,S.sign_injective]

theorem sigText_ne (S : Signatures M) (s : S.Sig) : S.sigText s ≠ "" := by
  intro same
  simpa [same,S.readSig_empty] using S.readSig_sigText s

theorem keyText_ne (S : Signatures M) (p : S.Public) : S.keyText p ≠ "" := by
  intro same
  simpa [same,S.readKey_empty] using S.readKey_keyText p

/-- The signatures that someone can show who holds none of the `Genuine` secrets
    and has seen what their holders `Issued`. -/
inductive Known (S : Signatures M) (Genuine : S.Secret → Prop) (Issued : S.Secret → M → Prop) : S.Sig → Prop
  | own (k : S.Secret) (m : M) (other : ¬ Genuine k) : Known S Genuine Issued (S.sign k m)
  | issued (k : S.Secret) (m : M) (given : Issued k m) : Known S Genuine Issued (S.sign k m)
  | junk (s : S.Sig) (unsigned : ∀ k m, s ≠ S.sign k m) : Known S Genuine Issued s

theorem issued_of_known {S : Signatures M} {Genuine : S.Secret → Prop} {Issued : S.Secret → M → Prop} {s : S.Sig}
    (known : Known S Genuine Issued s) {k : S.Secret} (genuine : Genuine k) {m : M}
    (verified : S.verify (S.pub k) m s = true) : Issued k m := by
  have made : s = S.sign k m := (S.verify_iff k m s).mp verified
  cases known with
  | own k' m' other =>
    grind [S.sign_injective]
  | issued k' m' given =>
    obtain ⟨rfl,rfl⟩ := S.sign_injective _ _ _ _ made
    exact given
  | junk s unsigned => exact absurd made (unsigned k m)

def unary (n : Nat) : String := String.ofList (List.replicate (n + 1) '1')

theorem unary_injective : Function.Injective unary := by
  intro a b same
  have lengths := congrArg (fun s => s.toList.length) same
  simpa [unary] using lengths

theorem unary_ne (n : Nat) : unary n ≠ "" := by
  intro same
  have : (unary n).toList = [] := by rw [same]; rfl
  simp [unary] at this

theorem partialInv_unary {α : Type} {f : α → Nat} (apart : Function.Injective f) :
    Function.partialInv (fun a => unary (f a)) "" = none := by
  cases found : Function.partialInv (fun a => unary (f a)) "" with
  | none => rfl
  | some a =>
    have same := ((unary_injective.comp apart).isPartialInv a "").mp found
    exact absurd same (unary_ne _)

noncomputable def symbolic (M : Type) [Countable M] : Signatures M where
  Secret := Nat
  Public := Nat
  Sig := Nat × M
  pub := id
  sign k m := (k,m)
  verify p m s := by classical exact decide (s = (p,m))
  sigText s := unary ((exists_injective_nat (Nat × M)).choose s)
  readSig := Function.partialInv (fun s => unary ((exists_injective_nat (Nat × M)).choose s))
  keyText := unary
  readKey := Function.partialInv unary
  readSig_sigText := Function.partialInv_left (unary_injective.comp (exists_injective_nat (Nat × M)).choose_spec)
  readSig_empty := partialInv_unary (exists_injective_nat (Nat × M)).choose_spec
  readKey_keyText := Function.partialInv_left unary_injective
  readKey_empty := partialInv_unary Function.injective_id
  verify_iff k m s := by simp
  sign_injective _ _ _ _ same := Prod.mk.inj same

end Signatures

abbrev Nonce (size : Nat) := { bytes : List UInt8 // bytes.length = size }

def zeroNonce (size : Nat) : Nonce size := ⟨List.replicate size 0,length_replicate⟩

/-- Authenticated encryption under one key: what was sealed under a nonce opens
    under it, and is a tag of 16 bytes longer than the plaintext, whose length is
    at least `least`. -/
structure Sealing (P : Type) (least : P → Nat) where
  encrypt : List UInt8 → P → List UInt8
  decrypt : List UInt8 → List UInt8 → Option P
  decrypt_encrypt : ∀ n p, decrypt n (encrypt n p) = some p
  encrypt_long : ∀ n p, 16 + least p ≤ (encrypt n p).length

namespace Sealing

noncomputable def symbolic (P : Type) (least : P → Nat) [Countable P] : Sealing P least where
  encrypt _ p := List.replicate (16 + Nat.pair ((exists_injective_nat P).choose p) (least p)) 0
  decrypt _ := Function.partialInv (fun p =>
    List.replicate (16 + Nat.pair ((exists_injective_nat P).choose p) (least p)) 0)
  decrypt_encrypt _ := Function.partialInv_left (by
    intro p q same
    have lengths := congrArg List.length same
    simp only [length_replicate,Nat.add_left_cancel_iff,Nat.pair_eq_pair] at lengths
    exact (exists_injective_nat P).choose_spec lengths.1)
  encrypt_long n p := by
    have bound := Nat.right_le_pair ((exists_injective_nat P).choose p) (least p)
    rw [length_replicate]
    omega

end Sealing

/-- Authenticated encryption of bytes: the tag is all that is added. -/
structure Cipher extends Sealing (List UInt8) List.length where
  encrypt_short : ∀ n p, (encrypt n p).length ≤ 16 + p.length

def Cipher.plain : Cipher where
  encrypt _ p := List.replicate 16 0 ++ p
  decrypt _ c := some (c.drop 16)
  decrypt_encrypt _ p := by rw [drop_left' (length_replicate ..)]
  encrypt_long _ p := by rw [length_append,length_replicate]
  encrypt_short _ p := by rw [length_append,length_replicate]

theorem Cipher.length_encrypt (A : Cipher) (n p : List UInt8) : (A.encrypt n p).length = 16 + p.length :=
  Nat.le_antisymm (A.encrypt_short n p) (A.encrypt_long n p)

/-- Random texts that are long enough never to come twice. -/
structure Draws where
  text : Nat → String
  text_injective : Function.Injective text

def Draws.unary : Draws := ⟨Signatures.unary,Signatures.unary_injective⟩

end TunnelCat
