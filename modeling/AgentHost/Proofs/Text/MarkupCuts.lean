import AgentHost.Text.Markup
import Mathlib.Data.List.Basic

namespace AgentHost.Text

section Marker

variable {marker : List Char}

theorem cutAt_here {c : Char} {rest : List Char} (here : marker <+: c :: rest) :
    cutAt marker (c :: rest) = some ([], (c :: rest).drop marker.length) := by
  rw [cutAt, if_pos (List.isPrefixOf_iff_prefix.mpr here)]

theorem cutAt_elsewhere {c : Char} {rest : List Char} (elsewhere : ¬ marker <+: c :: rest) :
    cutAt marker (c :: rest) =
      (cutAt marker rest).map fun (before, after) => (c :: before, after) := by
  rw [cutAt, if_neg fun here => elsewhere (List.isPrefixOf_iff_prefix.mp here)]

theorem cutAt_parts {text before after : List Char} (found : cutAt marker text = some (before, after)) :
    text = before ++ marker ++ after := by
  induction text generalizing before with
  | nil => simp [cutAt] at found
  | cons c rest ih =>
    by_cases here : marker <+: c :: rest
    · rw [cutAt_here here] at found
      obtain ⟨rfl, rfl⟩ := Prod.mk.inj (Option.some.inj found)
      exact (List.prefix_iff_eq_append.mp here).symm
    · rw [cutAt_elsewhere here] at found
      obtain ⟨⟨first, last⟩, cut, parts⟩ := Option.map_eq_some_iff.mp found
      obtain ⟨rfl, rfl⟩ := Prod.mk.inj parts
      rw [ih cut]
      rfl

theorem cutAt_append {text before after : List Char} (found : cutAt marker text = some (before, after))
    (more : List Char) : cutAt marker (text ++ more) = some (before, after ++ more) := by
  induction text generalizing before with
  | nil => simp [cutAt] at found
  | cons c rest ih =>
    have longer : c :: rest <+: c :: (rest ++ more) := List.prefix_append _ _
    by_cases here : marker <+: c :: rest
    · rw [cutAt_here here] at found
      obtain ⟨rfl, rfl⟩ := Prod.mk.inj (Option.some.inj found)
      rw [List.cons_append, cutAt_here (here.trans longer), ← List.cons_append,
        List.drop_append_of_le_length here.length_le]
    · have long : marker.length ≤ (c :: rest).length := by
        have parts := congrArg List.length (cutAt_parts found)
        simp only [List.length_append] at parts
        omega
      have later : ¬ marker <+: c :: (rest ++ more) :=
        fun later => here (List.prefix_of_prefix_length_le later longer long)
      rw [cutAt_elsewhere here] at found
      obtain ⟨⟨first, last⟩, cut, parts⟩ := Option.map_eq_some_iff.mp found
      obtain ⟨rfl, rfl⟩ := Prod.mk.inj parts
      rw [List.cons_append, cutAt_elsewhere later, ih cut]
      rfl

theorem heldSuffix_suffix (text : List Char) : heldSuffix marker text <:+ text := by
  induction text with
  | nil => exact List.suffix_refl _
  | cons c rest ih =>
    unfold heldSuffix
    split
    · exact List.suffix_refl _
    · exact ih.trans (List.suffix_cons _ _)

def passed (marker text : List Char) : List Char :=
  text.take (text.length - (heldSuffix marker text).length)

theorem passed_held (text : List Char) : passed marker text ++ heldSuffix marker text = text := by
  have rest := List.suffix_iff_eq_drop.mp (@heldSuffix_suffix marker text)
  rw [passed]
  nth_rewrite 2 [rest]
  exact List.take_append_drop _ _

theorem not_begins {text : List Char} (other : ¬ (text.isPrefixOf marker && text != marker) = true)
    (more : List Char) : ¬ ((text ++ more).isPrefixOf marker && (text ++ more) != marker) = true := by
  intro begins
  simp only [Bool.and_eq_true, List.isPrefixOf_iff_prefix, bne_iff_ne, ne_eq] at begins other
  obtain ⟨ahead, proper⟩ := begins
  have first : text <+: marker := (List.prefix_append _ _).trans ahead
  apply other
  refine ⟨first, fun whole => proper ?_⟩
  rw [whole] at ahead ⊢
  exact ahead.eq_of_length_le (by simp)

theorem heldSuffix_append (text more : List Char) :
    heldSuffix marker (text ++ more) = heldSuffix marker (heldSuffix marker text ++ more) := by
  induction text with
  | nil => rfl
  | cons c rest ih =>
    rw [heldSuffix.eq_2 marker c rest]
    split
    · rfl
    · next other =>
      rw [List.cons_append, heldSuffix, ← List.cons_append, if_neg (not_begins other more)]
      exact ih

theorem passed_cons {c : Char} {rest : List Char}
    (same : heldSuffix marker (c :: rest) = heldSuffix marker rest) :
    passed marker (c :: rest) = c :: passed marker rest := by
  apply (List.append_left_inj (heldSuffix marker rest)).mp
  rw [List.cons_append, passed_held, ← same, passed_held]

theorem passed_append (text more : List Char) :
    passed marker (text ++ more) =
      passed marker text ++ passed marker (heldSuffix marker text ++ more) := by
  apply (List.append_left_inj (heldSuffix marker (text ++ more))).mp
  rw [passed_held, heldSuffix_append, List.append_assoc, passed_held, ← List.append_assoc, passed_held]

theorem cutAt_held {text : List Char} (absent : cutAt marker text = none) (more : List Char) :
    cutAt marker (text ++ more) = (cutAt marker (heldSuffix marker text ++ more)).map
      fun (before, after) => (passed marker text ++ before, after) := by
  induction text with
  | nil => simp [heldSuffix, passed]
  | cons c rest ih =>
    have elsewhere : ¬ marker <+: c :: rest := fun here => by simp [cutAt_here here] at absent
    by_cases begins : ((c :: rest).isPrefixOf marker && (c :: rest) != marker) = true
    · -- all of the text may begin a marker, so nothing of it has been passed
      have held : heldSuffix marker (c :: rest) = c :: rest := if_pos begins
      rw [passed, held]
      simp
    · have held : heldSuffix marker (c :: rest) = heldSuffix marker rest := if_neg begins
      have later : ¬ marker <+: c :: (rest ++ more) := fun here => by
        rcases List.prefix_or_prefix_of_prefix here (List.prefix_append (c :: rest) more) with
          whole | first
        · exact elsewhere whole
        · -- the text would begin a marker, and would be held
          have proper : c :: rest ≠ marker := fun same => elsewhere (same ▸ List.prefix_refl _)
          exact begins (by simp [first, proper])
      have restAbsent : cutAt marker rest = none := by
        rw [cutAt_elsewhere elsewhere] at absent
        exact Option.map_eq_none_iff.mp absent
      rw [List.cons_append, cutAt_elsewhere later, ih restAbsent, held, passed_cons held,
        Option.map_map]
      rfl

end Marker

namespace Markup

theorem scan_of_found {inside : Bool} {text before after : List Char}
    (found : cutAt (sought inside) text = some (before, after)) :
    scan inside text = ((if inside then [] else before) ++ (scan (!inside) after).1,
      (scan (!inside) after).2) := by
  rw [scan]
  split
  · next first last again =>
    rw [found, Option.some.injEq, Prod.mk.injEq] at again
    obtain ⟨rfl, rfl⟩ := again
    rfl
  · next absent => simp [found] at absent

theorem scan_of_absent {inside : Bool} {text : List Char} (absent : cutAt (sought inside) text = none) :
    scan inside text = (if inside then [] else passed (sought inside) text,
      ⟨inside, heldSuffix (sought inside) text⟩) := by
  rw [scan]
  split
  · next first last found => simp [absent] at found
  · rfl

/-- A text may be scanned in two pieces, the second of which starts with what the first has held
    back. -/
theorem scan_append (inside : Bool) (text more : List Char) :
    let (shown, state) := scan inside text
    scan inside (text ++ more) = (shown ++ (scan state.inside (state.held ++ more)).1,
      (scan state.inside (state.held ++ more)).2) := by
  induction inside, text using scan.induct with
  | case1 inside text before after found _ _ _ rest =>
    rw [scan_of_found found, scan_of_found (cutAt_append found more), rest]
    simp only [List.append_assoc]
  | case2 inside text absent =>
    have longer := cutAt_held absent more
    rw [scan_of_absent absent]
    dsimp only
    cases again : cutAt (sought inside) (heldSuffix (sought inside) text ++ more) with
    | some parts =>
      obtain ⟨before, after⟩ := parts
      rw [again, Option.map_some] at longer
      rw [scan_of_found longer, scan_of_found again]
      cases inside <;> simp
    | none =>
      rw [again, Option.map_none] at longer
      rw [scan_of_absent longer, scan_of_absent again, heldSuffix_append, passed_append]
      cases inside <;> rfl

theorem push_append (state : Markup) (a b : String) :
    state.push (a ++ b) = ((state.push a).1 ++ ((state.push a).2.push b).1,
      ((state.push a).2.push b).2) := by
  have two := scan_append state.inside (state.held ++ a.toList) b.toList
  dsimp only at two
  simp only [push, String.toList_append]
  rw [← List.append_assoc, two]
  simp

end Markup

end AgentHost.Text
