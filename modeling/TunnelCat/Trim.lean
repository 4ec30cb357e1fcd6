import Mathlib.Data.List.Infix

/-!
Cutting words off both ends of a string, as often as one is there. What is left is trimmed: it
neither begins nor ends with one of the words (`trim_trimmed`). A trimmed string comes back from
itself with one more letter at its end, if that letter is a word and in no other one
(`trim_concat`).
-/
namespace TunnelCat.Trim
open List
universe u
variable {α : Type u}

def Bare (words : List (List α)) (s : List α) : Prop := ∀ w ∈ words, ¬ w <+: s

structure Trimmed (words : List (List α)) (s : List α) : Prop where
  left : Bare words s
  right : Bare (words.map List.reverse) s.reverse

theorem Bare.of_start {words : List (List α)} {s t : List α} (bare : Bare words s) (start : t <+: s) : Bare words t :=
  fun w member there => bare w member (there.trans start)

theorem reversed_filled {words : List (List α)} (filled : ∀ w ∈ words, w ≠ []) : ∀ w ∈ words.map reverse, w ≠ [] := by
  intro w member
  obtain ⟨v,original,rfl⟩ := mem_map.mp member
  exact fun empty => filled v original (reverse_eq_nil_iff.mp empty)

theorem trimmed_of_foreign {words : List (List α)} {s : List α} (filled : ∀ w ∈ words, w ≠ [])
    (foreign : ∀ x ∈ s, ∀ w ∈ words, x ∉ w) : Trimmed words s := by
  have bare : ∀ (words : List (List α)) (s : List α), (∀ w ∈ words, w ≠ []) → (∀ x ∈ s, ∀ w ∈ words, x ∉ w) →
      Bare words s := by
    intro words s filled foreign w member there
    obtain ⟨x,rest,rfl⟩ := exists_cons_of_ne_nil (filled w member)
    exact foreign x (there.subset mem_cons_self) _ member mem_cons_self
  refine ⟨bare words s filled foreign,bare _ _ (reversed_filled filled) ?_⟩
  intro x inside w member
  obtain ⟨v,original,rfl⟩ := mem_map.mp member
  simpa using foreign x (by simpa using inside) v original

theorem trimmed_of_ends {words : List (List α)} {s : List α} {x y : α} (filled : ∀ w ∈ words, w ≠ [])
    (first : s.head? = some x) (last : s.getLast? = some y) (foreign : ∀ w ∈ words, x ∉ w ∧ y ∉ w) : Trimmed words s := by
  have bare : ∀ (words : List (List α)) (s : List α) (x : α), (∀ w ∈ words, w ≠ []) → s.head? = some x →
      (∀ w ∈ words, x ∉ w) → Bare words s := by
    intro words s x filled first foreign w member there
    obtain ⟨y,rest,rfl⟩ := exists_cons_of_ne_nil (filled w member)
    obtain ⟨more,rfl⟩ := there
    obtain rfl : y = x := Option.some.inj first
    exact foreign _ member mem_cons_self
  refine ⟨bare words s x filled first (fun w member => (foreign w member).1),bare _ _ y (reversed_filled filled) ?_ ?_⟩
  · rw [List.head?_reverse]
    exact last
  · intro w member
    obtain ⟨v,original,rfl⟩ := mem_map.mp member
    exact fun inside => (foreign v original).2 (mem_reverse.mp inside)

variable [DecidableEq α]

def cut (words : List (List α)) : Nat → List α → List α
  | 0, s => s
  | fuel + 1, s =>
    match words.find? (fun w => w <+: s) with
    | none => s
    | some w => cut words fuel (s.drop w.length)

def trimLeft (words : List (List α)) (s : List α) : List α := cut words s.length s

def trimRight (words : List (List α)) (s : List α) : List α := (trimLeft (words.map List.reverse) s.reverse).reverse

def trim (words : List (List α)) (s : List α) : List α := trimRight words (trimLeft words s)

variable {words : List (List α)} {s : List α}

theorem cut_of_bare (bare : Bare words s) (fuel : Nat) : cut words fuel s = s := by
  have none_ : words.find? (fun w => w <+: s) = none := by simpa [Bare] using bare
  cases fuel with
  | zero => rfl
  | succ fuel => simp [cut,none_]

theorem cut_suffix (fuel : Nat) (s : List α) : cut words fuel s <:+ s := by
  induction fuel generalizing s with
  | zero => exact suffix_refl s
  | succ fuel ih =>
    unfold cut
    split
    · exact suffix_refl s
    · exact (ih _).trans (drop_suffix _ s)

theorem cut_bare (filled : ∀ w ∈ words, w ≠ []) (fuel : Nat) (s : List α) (enough : s.length ≤ fuel) :
    Bare words (cut words fuel s) := by
  induction fuel generalizing s with
  | zero =>
    obtain rfl := length_eq_zero_iff.mp (Nat.le_zero.mp enough)
    intro w member there
    exact filled w member (prefix_nil.mp there)
  | succ fuel ih =>
    unfold cut
    split
    case h_1 none_ => simpa [Bare] using none_
    case h_2 w found =>
      have long : 0 < w.length := length_pos_iff.mpr (filled w (mem_of_find?_eq_some found))
      refine ih _ ?_
      rw [length_drop]
      omega

theorem trimRight_start (s : List α) : trimRight words s <+: s := by
  have back := reverse_prefix.mpr (@cut_suffix _ _ (words.map reverse) s.reverse.length s.reverse)
  simpa [trimRight,trimLeft] using back

theorem trim_trimmed (filled : ∀ w ∈ words, w ≠ []) (s : List α) : Trimmed words (trim words s) := by
  constructor
  · exact (cut_bare filled _ s le_rfl).of_start (trimRight_start _)
  · have bare := cut_bare (reversed_filled filled) _ (trimLeft words s).reverse le_rfl
    rw [trim,trimRight,reverse_reverse]
    exact bare

theorem trim_of_trimmed (trimmed : Trimmed words s) : trim words s = s := by
  rw [trim,trimLeft,cut_of_bare trimmed.left,trimRight,trimLeft,cut_of_bare trimmed.right,reverse_reverse]

theorem cut_letter {x : α} (filled : ∀ w ∈ words, w ≠ []) (word : [x] ∈ words) (alone : ∀ w ∈ words, x ∈ w → w = [x])
    (bare : Bare words s) (fuel : Nat) : cut words (fuel + 1) (x :: s) = s := by
  unfold cut
  split
  case h_1 none_ =>
    have absent := List.find?_eq_none.mp none_ [x] word
    simp at absent
  case h_2 w found =>
    have member := mem_of_find?_eq_some found
    have start : w <+: x :: s := by simpa using List.find?_some found
    obtain ⟨y,rest,rfl⟩ := exists_cons_of_ne_nil (filled w member)
    obtain ⟨rfl,_⟩ := cons_prefix_cons.mp start
    obtain rfl : rest = [] := by simpa using alone _ member mem_cons_self
    exact cut_of_bare bare fuel

theorem trim_concat {x : α} (filled : ∀ w ∈ words, w ≠ []) (word : [x] ∈ words) (alone : ∀ w ∈ words, x ∈ w → w = [x])
    (trimmed : Trimmed words s) : trim words (s ++ [x]) = s := by
  cases s with
  | nil =>
    have gone : trimLeft words [x] = [] := cut_letter filled word alone trimmed.left 0
    rw [nil_append,trim,gone]
    rfl
  | cons first rest =>
    have bare : Bare words (first :: rest ++ [x]) := by
      intro w member there
      rcases prefix_concat_iff.mp there with whole | within
      · have only := alone w member (by simp [whole])
        rw [whole] at only
        simp at only
      · exact trimmed.left w member within
    have alone' : ∀ w ∈ words.map reverse, x ∈ w → w = [x] := by
      intro w member inside
      obtain ⟨v,original,rfl⟩ := mem_map.mp member
      rw [alone v original (mem_reverse.mp inside)]
      rfl
    have back := cut_letter (reversed_filled filled) (mem_map.mpr ⟨[x],word,rfl⟩) alone' trimmed.right
      (first :: rest).length
    rw [trim,trimLeft,cut_of_bare bare,trimRight,trimLeft]
    simpa using congrArg reverse back

end TunnelCat.Trim
