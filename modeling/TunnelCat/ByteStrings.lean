import TunnelCat.Trim

/-!
Strings of Go as the bytes that they are, and `strings.TrimSpace` of them.
-/
namespace TunnelCat.ByteStrings
open Trim List

abbrev GoString := List UInt8

/-- The bytes of a literal, which has only ASCII letters. -/
def ascii (s : String) : GoString := s.toList.map (fun c => UInt8.ofNat c.toNat)

/-- The white space of Unicode, in UTF-8. -/
def spaces : List GoString :=
  [[9],[10],[11],[12],[13],[32],[0xc2,0x85],[0xc2,0xa0],[0xe1,0x9a,0x80],[0xe2,0x80,0x80],[0xe2,0x80,0x81],[0xe2,0x80,0x82],
    [0xe2,0x80,0x83],[0xe2,0x80,0x84],[0xe2,0x80,0x85],[0xe2,0x80,0x86],[0xe2,0x80,0x87],[0xe2,0x80,0x88],[0xe2,0x80,0x89],
    [0xe2,0x80,0x8a],[0xe2,0x80,0xa8],[0xe2,0x80,0xa9],[0xe2,0x80,0xaf],[0xe2,0x81,0x9f],[0xe3,0x80,0x80]]

/-- `strings.TrimSpace`. -/
def trimSpace (s : GoString) : GoString := trim spaces s

theorem spaces_filled : ∀ w ∈ spaces, w ≠ [] := by decide

theorem spaces_unprintable : ∀ w ∈ spaces, ∀ x ∈ w, x < 33 ∨ 128 ≤ x := by decide +kernel

theorem trimmed_of_printable {s : GoString} (printable : ∀ x ∈ s, 33 ≤ x ∧ x < 128) : Trimmed spaces s := by
  refine trimmed_of_foreign spaces_filled ?_
  grind [spaces_unprintable,UInt8.not_le]

end TunnelCat.ByteStrings
