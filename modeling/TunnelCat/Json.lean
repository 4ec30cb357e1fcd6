import Mathlib.Data.Rat.Defs

/-!
JSON documents and the part of Go's `encoding/json` that reads them into Go values. A document stands for
the text that holds it. A struct field takes the members whose name folds to its own, in order; `null`
leaves it as it is, and a value of another type is an error that does not stop the decoding.
-/
namespace TunnelCat
universe u

inductive Json
  | null
  | bool (b : Bool)
  | num (n : Rat)
  | str (s : String)
  | arr (items : List Json)
  | obj (members : List (String × Json))

namespace Json

/-- A letter without its case, as `encoding/json` folds it: besides the ASCII
    letters, the long s and the Kelvin sign fold onto an ASCII letter. -/
def foldRune (c : Char) : Char :=
  if c = 'ſ' then 's' else if c = 'K' then 'k' else c.toLower

def foldName (name : String) : List Char := name.toList.map foldRune

structure Decoded (α : Type u) where
  value : α
  ok : Bool

abbrev Decoder (α : Type u) := α → Json → Decoded α

def string : Decoder String
  | _, .str s => ⟨s,true⟩
  | old, .null => ⟨old,true⟩
  | old, _ => ⟨old,false⟩

def fieldStep {α : Type u} (name : String) (decode : Decoder α) (d : Decoded α) (m : String × Json) : Decoded α :=
  if foldName m.1 = foldName name then ⟨(decode d.value m.2).value,d.ok && (decode d.value m.2).ok⟩ else d

/-- The struct field `name` after a document has been decoded into a struct
    whose fields all have different folded names. -/
def field {α : Type u} (name : String) (decode : Decoder α) (zero : α) : Json → Decoded α
  | .obj members => members.foldl (fieldStep name decode) ⟨zero,true⟩
  | .null => ⟨zero,true⟩
  | _ => ⟨zero,false⟩

def rawMembers : Json → Option (List (String × Json))
  | .obj members => some members
  | .null => some []
  | _ => none

def rawEntry (key : String) (members : List (String × Json)) : Option Json :=
  (members.reverse.find? (fun m => m.1 = key)).map (·.2)

end Json

/-- A body or a plaintext: a JSON document, or bytes that hold none. -/
inductive Body
  | document (doc : Json)
  | other (raw : List UInt8)

def Body.unmarshal : Body → Option Json
  | .document doc => some doc
  | .other _ => none

/-- The least length of a body: a document is not empty. -/
def Body.least : Body → Nat
  | .document _ => 1
  | .other raw => raw.length

end TunnelCat
