import Mathlib.Data.Nat.Bitwise
import Mathlib.Data.List.Basic

/-!
Go's `net` and `net/netip` as far as programs need them that look at addresses:
the addresses and their kinds, the networks, `ParseAddr`, `ParseIP`, `ParseCIDR`
and `IPNet.Contains`. An address of four
or sixteen bytes is the number that its bytes spell, high byte first; a network
carries the proof that its mask is that of a length and that its address has no
bit outside it, so it is a block of consecutive addresses (`Net.block`).
-/
namespace TunnelCat.NetIP

/-- A `net.IP`, a slice of four or sixteen bytes. -/
inductive IP
  | four (addr : BitVec 32)
  | sixteen (addr : BitVec 128)
deriving DecidableEq

def mapped (addr : BitVec 128) : Bool := addr >>> 32 = 0xffff

def IP.to4 : IP → Option (BitVec 32)
  | .four addr => some addr
  | .sixteen addr => if mapped addr then some (addr.setWidth 32) else none

variable (s : List Char) (ip : IP)

def IP.canonical : IP :=
  match ip.to4 with
  | some addr => .four addr
  | none => ip

def IP.isLoopback : Bool :=
  match ip.canonical with
  | .four addr => addr >>> 24 = 127
  | .sixteen addr => addr = 1

def IP.isLinkLocalUnicast : Bool :=
  match ip.canonical with
  | .four addr => addr >>> 16 = 0xa9fe
  | .sixteen addr => addr >>> 118 = 0x3fa

def IP.isPrivate : Bool :=
  match ip.canonical with
  | .four addr => addr >>> 24 = 10 || addr >>> 20 = 0xac1 || addr >>> 16 = 0xc0a8
  | .sixteen addr => addr >>> 121 = 0x7e

def cidrMask (w n : Nat) : BitVec w := BitVec.allOnes w <<< (w - n)

/-- An address and its mask, of one width. -/
structure Net (w : Nat) where
  ip : BitVec w
  mask : BitVec w
  valid : ∃ n ≤ w, mask = cidrMask w n ∧ ip &&& mask = ip

/-- The network of an address: the bits outside the mask are cleared. -/
def Net.of {w : Nat} (addr : BitVec w) (n : Nat) (fits : n ≤ w) : Net w where
  ip := addr &&& cidrMask w n
  mask := cidrMask w n
  valid := ⟨n,fits,rfl,by rw [BitVec.and_assoc,BitVec.and_self]⟩

inductive IPNet
  | four (net : Net 32)
  | sixteen (net : Net 128)

/-- What `networkNumberAndMask` gives: number and mask of four bytes, also for a
    network inside `::ffff:0:0/96`, else of sixteen. -/
inductive NumberAndMask
  | four (number mask : BitVec 32)
  | sixteen (number mask : BitVec 128)

def networkNumberAndMask : IPNet → NumberAndMask
  | .four net => .four net.ip net.mask
  | .sixteen net =>
    if mapped net.ip then .four (net.ip.setWidth 32) (net.mask.setWidth 32) else .sixteen net.ip net.mask

def IPNet.contains (n : IPNet) (ip : IP) : Bool :=
  match networkNumberAndMask n, ip.to4, ip with
  | .four number mask, some addr, _ => number &&& mask = addr &&& mask
  | .sixteen number mask, none, .sixteen addr => number &&& mask = addr &&& mask
  | _, _, _ => false

inductive Addr
  | v4 (addr : BitVec 32)
  | v6 (addr : BitVec 128) (zone : List Char)

def ipv4Loop : List Char → List Nat → Nat → Nat → Option (List Nat)
  | [], fields, val, _ => if fields.length < 3 then none else some (fields ++ [val])
  | c :: rest, fields, val, digLen =>
    if c.isDigit then
      if digLen = 1 ∧ val = 0 then none
      else if val * 10 + (c.toNat - '0'.toNat) > 255 then none
      else ipv4Loop rest fields (val * 10 + (c.toNat - '0'.toNat)) (digLen + 1)
    else if c = '.' then
      -- an octet needs a digit, and the last one ends the text
      if digLen = 0 ∨ rest = [] then none
      else if fields.length = 3 then none
      else ipv4Loop rest (fields ++ [val]) 0 0
    else none

def parseIPv4Fields : Option (List Nat) := ipv4Loop s [] 0 0

def spell (base : Nat) (digits : List Nat) : Nat := digits.foldl (fun acc d => acc * base + d) 0

def hexValue (c : Char) : Option Nat :=
  if c.isDigit then some (c.toNat - '0'.toNat)
  else if 'a' ≤ c ∧ c ≤ 'f' then some (c.toNat - 'a'.toNat + 10)
  else if 'A' ≤ c ∧ c ≤ 'F' then some (c.toNat - 'A'.toNat + 10)
  else none

def hexDigits : List Char → List Nat × List Char
  | [] => ([],[])
  | c :: rest =>
    match hexValue c with
    | none => ([],c :: rest)
    | some d => (d :: (hexDigits rest).1,(hexDigits rest).2)

def ipv6Loop : Nat → List Char → List Nat → Option Nat → Option (List Char × List Nat × Option Nat)
  | 0, s, groups, ellipsis => some (s,groups,ellipsis)
  | left+1, s, groups, ellipsis =>
    let digits := (hexDigits s).1
    let group := spell 16 digits
    if digits.length > 4 ∨ digits.length = 0 then none
    else
      match (hexDigits s).2 with
      | [] => some ([],groups ++ [group],ellipsis)
      | '.' :: _ =>
        -- the text from this group on must be an IPv4 address in the place of two groups
        if ellipsis = none ∧ groups.length ≠ 6 then none
        else if groups.length + 2 > 8 then none
        else
          match parseIPv4Fields s with
          | some [a, b, c, d] => some ([],groups ++ [a * 256 + b,c * 256 + d],ellipsis)
          | _ => none
      | [':'] => none
      | ':' :: ':' :: rest =>
        if ellipsis.isSome then none
        else if rest = [] then some ([],groups ++ [group],some (groups.length + 1))
        else ipv6Loop left rest (groups ++ [group]) (some (groups.length + 1))
      | ':' :: rest => ipv6Loop left rest (groups ++ [group]) ellipsis
      | _ => none

def expand (groups : List Nat) : Option Nat → Option (List Nat)
  | none => if groups.length < 8 then none else some groups
  | some at_ =>
    if groups.length < 8 then some (groups.take at_ ++ List.replicate (8 - groups.length) 0 ++ groups.drop at_)
    else none

def ipv6Groups : Option (List Nat) :=
  match s with
  | [':', ':'] => some (List.replicate 8 0)
  | ':' :: ':' :: rest => finish (ipv6Loop 8 rest [] (some 0))
  | _ => finish (ipv6Loop 8 s [] none)
where
  finish : Option (List Char × List Nat × Option Nat) → Option (List Nat)
    | some ([], groups, ellipsis) => expand groups ellipsis
    | _ => none

def parseIPv6 : Option Addr :=
  let address := s.takeWhile (· ≠ '%')
  match s.dropWhile (· ≠ '%') with
  | ['%'] => none
  | zone => (ipv6Groups address).map (fun groups => .v6 (BitVec.ofNat 128 (spell 65536 groups)) (zone.drop 1))

def parseIPv4 : Option Addr :=
  (parseIPv4Fields s).map (fun octets => .v4 (BitVec.ofNat 32 (spell 256 octets)))

def parseAddr : Option Addr :=
  match s.find? (fun c => c = '.' ∨ c = ':' ∨ c = '%') with
  | some '.' => parseIPv4 s
  | some ':' => parseIPv6 s
  | _ => none

/-- `net.ParseIP`, which takes no zone. An IPv4 address comes in sixteen bytes there;
    nothing tells it from the four. -/
def parseIP : Option IP :=
  match parseAddr s with
  | some (.v4 addr) => some (.four addr)
  | some (.v6 addr []) => some (.sixteen addr)
  | _ => none

def dtoi : Option Nat :=
  if s = [] ∨ s.any (fun c => !c.isDigit) then none
  else if spell 10 (s.map (fun c => c.toNat - '0'.toNat)) ≥ 0xFFFFFF then none
  else some (spell 10 (s.map (fun c => c.toNat - '0'.toNat)))

def parseCIDR (s : String) : Option IPNet :=
  match s.toList.dropWhile (· ≠ '/') with
  | [] => none
  | _ :: mask =>
    match parseAddr (s.toList.takeWhile (· ≠ '/')), dtoi mask with
    | some (.v4 addr), some n => if fits : n ≤ 32 then some (.four (Net.of addr n fits)) else none
    | some (.v6 addr []), some n => if fits : n ≤ 128 then some (.sixteen (Net.of addr n fits)) else none
    | _, _ => none

theorem and_cidrMask {w : Nat} (x : BitVec w) (n : Nat) : x &&& cidrMask w n = (x >>> (w - n)) <<< (w - n) := by
  grind [cidrMask]

theorem and_cidrMask_toNat {w : Nat} (x : BitVec w) (n : Nat) :
    (x &&& cidrMask w n).toNat = x.toNat / 2 ^ (w - n) * 2 ^ (w - n) := by
  rw [and_cidrMask,BitVec.toNat_shiftLeft,BitVec.toNat_ushiftRight,Nat.shiftLeft_eq,Nat.shiftRight_eq_div_pow]
  exact Nat.mod_eq_of_lt (Nat.lt_of_le_of_lt (Nat.div_mul_le_self _ _) x.isLt)

theorem cidrMask_toNat {w n : Nat} (fits : n ≤ w) : (cidrMask w n).toNat + 2 ^ (w - n) = 2 ^ w := by
  have split : 2 ^ w = 2 ^ n * 2 ^ (w - n) := by rw [← Nat.pow_add]; congr 1; omega
  have whole := and_cidrMask_toNat (BitVec.allOnes w) n
  rw [BitVec.allOnes_and,BitVec.toNat_allOnes] at whole
  obtain ⟨count,ones⟩ : ∃ count, 2 ^ n = count + 1 := ⟨2 ^ n - 1,by have := Nat.two_pow_pos n; omega⟩
  have positive := Nat.two_pow_pos (w - n)
  rw [ones,Nat.add_mul,Nat.one_mul] at split
  have quotient : (2 ^ w - 1) / 2 ^ (w - n) = count := by
    refine Nat.div_eq_of_lt_le ?_ ?_
    · omega
    · rw [Nat.add_mul]
      omega
  rw [whole,quotient,split]

namespace Net
variable {w : Nat}

def first (e : Net w) : Nat := e.ip.toNat

def last (e : Net w) : Nat := e.ip.toNat + (2 ^ w - 1 - e.mask.toNat)

/-- A network is an aligned block of a power of two, whose addresses are those
    that agree with it under the mask. -/
theorem block (e : Net w) : ∃ k, 2 ^ k ∣ e.first ∧ e.last + 1 = e.first + 2 ^ k ∧
    ∀ x : BitVec w, x &&& e.mask = e.ip ↔ e.first ≤ x.toNat ∧ x.toNat ≤ e.last := by
  obtain ⟨n,fits,mask,cleared⟩ := e.valid
  have size := cidrMask_toNat fits
  have aligned : e.first = e.first / 2 ^ (w - n) * 2 ^ (w - n) := by
    have masked := and_cidrMask_toNat e.ip n
    rw [← mask,cleared] at masked
    exact masked
  have positive := Nat.two_pow_pos (w - n)
  have length : e.last + 1 = e.first + 2 ^ (w - n) := by
    unfold last first
    rw [mask]
    omega
  refine ⟨w - n,⟨_,aligned.trans (Nat.mul_comm _ _)⟩,length,?_⟩
  intro x
  rw [mask,BitVec.toNat_eq,and_cidrMask_toNat]
  change x.toNat / 2 ^ (w - n) * 2 ^ (w - n) = e.first ↔ _
  have below : x.toNat / 2 ^ (w - n) * 2 ^ (w - n) ≤ x.toNat := Nat.div_mul_le_self _ _
  have above : x.toNat < x.toNat / 2 ^ (w - n) * 2 ^ (w - n) + 2 ^ (w - n) := Nat.lt_div_mul_add positive
  constructor
  · omega
  · grind [Nat.div_eq_of_lt_le]

theorem first_le_last (e : Net w) : e.first ≤ e.last := Nat.le_add_right _ _

theorem last_lt (e : Net w) : e.last < 2 ^ w := by
  obtain ⟨n,fits,mask,cleared⟩ := e.valid
  have size := cidrMask_toNat fits
  have masked := and_cidrMask_toNat e.ip n
  rw [← mask,cleared] at masked
  -- the address is a multiple of the size of the block, and so is 2 ^ w
  obtain ⟨t,whole⟩ : ∃ t, 2 ^ w = t * 2 ^ (w - n) := ⟨2 ^ n,by rw [← Nat.pow_add]; congr 1; omega⟩
  have below : e.ip.toNat / 2 ^ (w - n) < t := by
    rw [Nat.div_lt_iff_lt_mul (Nat.two_pow_pos _),← whole]
    exact e.ip.isLt
  have step : (e.ip.toNat / 2 ^ (w - n) + 1) * 2 ^ (w - n) ≤ t * 2 ^ (w - n) := Nat.mul_le_mul_right _ below
  rw [Nat.add_mul] at step
  unfold last
  rw [mask]
  omega

theorem nested (p q : Net w) (after : p.first ≤ q.first) (inside : q.first ≤ p.last) :
    q.last ≤ p.last ∨ (q.first = p.first ∧ p.last ≤ q.last) := by
  obtain ⟨a,⟨u,firstP⟩,lengthP,_⟩ := p.block
  obtain ⟨b,⟨t,firstQ⟩,lengthQ,_⟩ := q.block
  rcases Nat.le_total b a with smaller | larger
  · -- the inner block is aligned to its own size, and so are both ends of the outer one
    obtain ⟨v,sizes⟩ : 2 ^ b ∣ 2 ^ a := Nat.pow_dvd_pow 2 smaller
    have ends : 2 ^ b * t < 2 ^ b * (v * u + v) := by
      grind [Nat.mul_assoc]
    have step : 2 ^ b * (t + 1) ≤ 2 ^ b * (v * u + v) :=
      Nat.mul_le_mul_left _ (Nat.lt_of_mul_lt_mul_left ends)
    have outer : p.first + 2 ^ a = 2 ^ b * (v * u + v) := by rw [firstP,sizes,Nat.mul_add,Nat.mul_assoc]
    rw [Nat.mul_add] at step
    omega
  · obtain ⟨v,sizes⟩ : 2 ^ a ∣ 2 ^ b := Nat.pow_dvd_pow 2 larger
    have wider : 2 ^ a ≤ 2 ^ b := Nat.pow_le_pow_right (by omega) larger
    have start : q.first = 2 ^ a * (v * t) := by rw [firstQ,sizes,Nat.mul_assoc]
    have low : u ≤ v * t := Nat.le_of_mul_le_mul_left (by omega : 2 ^ a * u ≤ 2 ^ a * (v * t)) (Nat.two_pow_pos a)
    have high : v * t < u + 1 := by
      refine Nat.lt_of_mul_lt_mul_left (a := 2 ^ a) ?_
      rw [Nat.mul_add]
      omega
    have same : q.first = p.first := by rw [start,firstP,show v * t = u by omega]
    omega

end Net

theorem mapped_iff (addr : BitVec 128) : mapped addr = true ↔ addr.toNat / 2 ^ 32 = 0xffff := by
  simp [mapped,BitVec.toNat_eq,Nat.shiftRight_eq_div_pow]

theorem mapped_of_holds {e : Net 128} (start : mapped e.ip = true) {x : BitVec 128} (inside : x &&& e.mask = e.ip) :
    mapped x = true := by
  obtain ⟨k,⟨t,aligned⟩,length,holds⟩ := e.block
  obtain ⟨from_,upto⟩ := (holds x).mp inside
  rw [mapped_iff] at start ⊢
  change e.first / 2 ^ 32 = _ at start
  rcases Nat.lt_or_ge 32 k with wide | narrow
  · -- a block of more than 2 ^ 32 addresses starts at an even multiple of 2 ^ 32
    obtain ⟨j,rfl⟩ : ∃ j, k = 33 + j := ⟨k - 33,by omega⟩
    rw [aligned,Nat.pow_add,Nat.mul_assoc] at start
    omega
  · obtain ⟨v,sizes⟩ : 2 ^ k ∣ 2 ^ 32 := Nat.pow_dvd_pow 2 narrow
    have block : (2 : Nat) ^ 32 * 0x10000 = 2 ^ k * (v * 0x10000) := by rw [sizes,Nat.mul_assoc]
    have below : t < v * 0x10000 := by
      refine Nat.lt_of_mul_lt_mul_left (a := 2 ^ k) ?_
      omega
    have step : 2 ^ k * (t + 1) ≤ 2 ^ k * (v * 0x10000) := Nat.mul_le_mul_left _ below
    rw [Nat.mul_add] at step
    omega

end TunnelCat.NetIP
