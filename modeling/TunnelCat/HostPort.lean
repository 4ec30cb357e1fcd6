import TunnelCat.NetIP

/-!
The texts of network addresses in Go: `net.SplitHostPort`, `strconv.Atoi` and
`IP.String`. A text is the list of its bytes as characters.
-/
namespace TunnelCat.HostPort
open NetIP

abbrev Text := List Char

variable (s : Text)

def lastColon : Option (Text × Text) :=
  match s.reverse.dropWhile (· ≠ ':') with
  | [] => none
  | _ :: before => some (before.reverse,(s.reverse.takeWhile (· ≠ ':')).reverse)

def splitHostPort : Option (Text × Text) :=
  match lastColon s with
  | none => none
  | some (before, port) =>
    if '[' ∈ port ∨ ']' ∈ port then none
    else
      match before with
      | '[' :: rest =>
        match rest.reverse with
        | ']' :: host => if '[' ∈ host ∨ ']' ∈ host then none else some (host.reverse,port)
        | _ => none
      | _ => if ':' ∈ before ∨ '[' ∈ before ∨ ']' ∈ before then none else some (before,port)

def digits : Option Nat :=
  if s = [] ∨ s.any (fun c => !c.isDigit) then none else some (spell 10 (s.map (fun c => c.toNat - '0'.toNat)))

def atoi : Option Int :=
  match s with
  | '-' :: rest => (digits rest).bind (fun n => if n ≤ 2 ^ 63 then some (-n) else none)
  | '+' :: rest => (digits rest).bind (fun n => if n < 2 ^ 63 then some n else none)
  | _ => (digits s).bind (fun n => if n < 2 ^ 63 then some n else none)

def digitsOf (base : Nat) : Nat → Nat → List Nat
  | 0, _ => []
  | n+1, x => digitsOf base n (x / base) ++ [x % base]

def hexText (x : Nat) : Text := Nat.toDigits 16 x

def ipv4Text (addr : BitVec 32) : Text :=
  List.intercalate ['.'] ((digitsOf 256 4 addr.toNat).map (Nat.toDigits 10))

def zerosAt (groups : List Nat) (i : Nat) : Nat := ((groups.drop i).takeWhile (· = 0)).length

def longestZeros (groups : List Nat) : Option (Nat × Nat) :=
  (List.range groups.length).foldl (fun best i =>
    if 2 ≤ zerosAt groups i ∧ (best.map (fun b => b.2)).getD 0 < zerosAt groups i then some (i,zerosAt groups i) else best)
    none

def ipv6Text (addr : BitVec 128) : Text :=
  let groups := digitsOf 65536 8 addr.toNat
  match longestZeros groups with
  | none => List.intercalate [':'] (groups.map hexText)
  | some (i, n) =>
    List.intercalate [':'] ((groups.take i).map hexText) ++ [':',':'] ++
      List.intercalate [':'] ((groups.drop (i + n)).map hexText)

def ipText (ip : IP) : Text :=
  match ip.canonical with
  | .four addr => ipv4Text addr
  | .sixteen addr => ipv6Text addr

example : splitHostPort "[2001:db8::1]:443".toList = some ("2001:db8::1".toList,"443".toList) := by decide

example : ipText (.sixteen 0x20010db8000000000000000000000001#128) = "2001:db8::1".toList := by decide

end TunnelCat.HostPort
