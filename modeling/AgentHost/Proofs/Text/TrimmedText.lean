import AgentHost.Text.Blank
import Mathlib.Data.List.Infix
import Mathlib.Data.List.TakeWhile

namespace AgentHost.Text

section Blanks

variable {blank : Char → Bool} {piece text : List Char}

theorem infix_dropWhile_iff {first : Char} (opens : piece.head? = some first)
    (solid : blank first = false) : piece <:+: text.dropWhile blank ↔ piece <:+: text := by
  refine ⟨fun inside => inside.trans (List.dropWhile_suffix _).isInfix, ?_⟩
  rintro ⟨front, back, rfl⟩
  obtain ⟨rest, rfl⟩ := List.head?_eq_some_iff.mp opens
  rw [List.append_assoc, List.dropWhile_append]
  split
  · rw [List.cons_append, List.dropWhile_cons_of_neg (by simp [solid])]
    exact (List.prefix_append _ _).isInfix
  · exact ⟨_, _, List.append_assoc _ _ _⟩

theorem infix_trim_iff {s : String} {first last : Char} (opens : piece.head? = some first)
    (solid : isBlank first = false) (closes : piece.getLast? = some last)
    (firm : isBlank last = false) : piece <:+: (trim s).toList ↔ piece <:+: s.toList := by
  have turned : piece.reverse.head? = some last := List.head?_reverse.trans closes
  rw [trim, String.toList_ofList, ← List.reverse_infix, List.reverse_reverse,
    infix_dropWhile_iff turned firm, List.reverse_infix, infix_dropWhile_iff opens solid]

theorem mem_trim_iff {s : String} {c : Char} (solid : isBlank c = false) :
    c ∈ (trim s).toList ↔ c ∈ s.toList := by
  rw [← List.singleton_infix_iff, ← List.singleton_infix_iff]
  exact infix_trim_iff rfl solid rfl solid

theorem trim_isEmpty (s : String) : (trim s).isEmpty = allBlank s := by
  cases blank : allBlank s with
  | true =>
    have none : s.toList.dropWhile isBlank = [] :=
      List.dropWhile_eq_nil_iff.mpr (List.all_eq_true.mp blank)
    rw [trim, none]
    rfl
  | false =>
    obtain ⟨c, member, solid⟩ := List.all_eq_false.mp blank
    have left := (mem_trim_iff (Bool.eq_false_iff.mpr solid)).mpr member
    refine Bool.eq_false_iff.mpr fun empty => ?_
    rw [String.isEmpty_iff.mp empty] at left
    exact absurd left List.not_mem_nil

end Blanks

end AgentHost.Text
