import AgentHost.Proofs.Text.MarkupCuts
import AgentHost.Proofs.Text.TrimmedText

namespace AgentHost.Text

section Marker

variable {marker : List Char}

theorem cutAt_eq_none_iff (nonempty : marker ≠ []) {text : List Char} :
    cutAt marker text = none ↔ ¬ marker <:+: text := by
  induction text with
  | nil => simp [cutAt, nonempty]
  | cons c rest ih =>
    rw [List.infix_cons_iff, not_or, ← ih]
    by_cases here : marker <+: c :: rest
    · simp [cutAt_here here, here]
    · simp [cutAt_elsewhere here, here]

def Ahead (marker before : List Char) : Prop :=
  ∀ tail, tail <:+ before → tail ≠ [] → ¬ marker <+: tail ++ marker

theorem Ahead.suffix {before tail : List Char} (ahead : Ahead marker before) (ends : tail <:+ before) :
    Ahead marker tail := fun last suffix => ahead last (suffix.trans ends)

theorem ahead_of_found {text before after : List Char}
    (found : cutAt marker text = some (before, after)) : Ahead marker before := by
  induction text generalizing before with
  | nil => simp [cutAt] at found
  | cons c rest ih =>
    have parts := cutAt_parts found
    intro tail ends solid here
    by_cases begins : marker <+: c :: rest
    · rw [cutAt_here begins] at found
      obtain ⟨rfl, _⟩ := Prod.mk.inj (Option.some.inj found)
      exact solid (List.suffix_nil.mp ends)
    · rw [cutAt_elsewhere begins] at found
      obtain ⟨⟨first, last⟩, cut, same⟩ := Option.map_eq_some_iff.mp found
      obtain ⟨rfl, rfl⟩ := Prod.mk.inj same
      rcases List.suffix_cons_iff.mp ends with rfl | later
      · rw [parts] at begins
        exact begins (here.trans (List.prefix_append _ _))
      · exact ih cut tail later solid here

theorem cutAt_of_ahead (nonempty : marker ≠ []) {before : List Char} (ahead : Ahead marker before)
    (after : List Char) : cutAt marker (before ++ marker ++ after) = some (before, after) := by
  induction before with
  | nil =>
    obtain ⟨c, rest, rfl⟩ := List.exists_cons_of_ne_nil nonempty
    have here : c :: rest <+: c :: (rest ++ after) := List.prefix_append _ _
    rw [List.nil_append, List.cons_append, cutAt_here here, ← List.cons_append, List.drop_left]
  | cons c rest ih =>
    have elsewhere : ¬ marker <+: c :: (rest ++ marker ++ after) := fun here =>
      ahead _ (List.suffix_refl _) (List.cons_ne_nil _ _)
        (List.prefix_of_prefix_length_le here (List.prefix_append (c :: rest ++ marker) after)
          (by simp only [List.cons_append, List.length_cons, List.length_append]; omega))
    rw [List.cons_append, List.cons_append, cutAt_elsewhere elsewhere,
      ih (ahead.suffix (List.suffix_cons c rest))]
    rfl

theorem Ahead.absent {before piece : List Char} (ahead : Ahead marker before) (nonempty : marker ≠ [])
    (inside : piece <:+: before) : cutAt marker piece = none := by
  rw [cutAt_eq_none_iff nonempty]
  intro again
  obtain ⟨front, back, whole⟩ := again.trans inside
  have ends : marker ++ back <:+ before := ⟨front, by rw [← whole, List.append_assoc]⟩
  exact ahead _ ends (by simp [nonempty]) (by rw [List.append_assoc]; exact List.prefix_append _ _)

def Apart (marker first second : List Char) : Prop :=
  ∀ begins ends, marker = begins ++ ends → begins ≠ [] → ends ≠ [] → begins <:+ first →
    ¬ ends <+: second

theorem Apart.suffix {first second tail : List Char} (apart : Apart marker first second)
    (ends : tail <:+ first) : Apart marker tail second :=
  fun begins rest parts solid more suffix => apart begins rest parts solid more (suffix.trans ends)

theorem cutAt_apart {first second : List Char} (apart : Apart marker first second)
    (absent : cutAt marker first = none) : cutAt marker (first ++ second) =
      (cutAt marker second).map fun (before, after) => (first ++ before, after) := by
  induction first with
  | nil => simp
  | cons c rest ih =>
    have elsewhere : ¬ marker <+: c :: rest := fun here => by simp [cutAt_here here] at absent
    have later : ¬ marker <+: c :: (rest ++ second) := fun here => by
      rcases List.prefix_or_prefix_of_prefix here (List.prefix_append (c :: rest) second) with
        whole | ⟨ends, parts⟩
      · exact elsewhere whole
      · -- a marker that begins here would end in the second text
        have more : ends ≠ [] := by
          rintro rfl
          rw [List.append_nil] at parts
          exact elsewhere (parts ▸ List.prefix_refl _)
        rw [← parts, ← List.cons_append, List.prefix_append_right_inj] at here
        exact apart _ ends parts.symm (List.cons_ne_nil _ _) more (List.suffix_refl _) here
    rw [cutAt_elsewhere elsewhere, Option.map_eq_none_iff] at absent
    rw [List.cons_append, cutAt_elsewhere later, ih (apart.suffix (List.suffix_cons c rest)) absent,
      Option.map_map]
    rfl

end Marker

namespace Markup

section RemoveAll

variable {marker : List Char} {nonempty : marker ≠ []}

theorem removeAll_of_found {text before after : List Char}
    (found : cutAt marker text = some (before, after)) :
    removeAll marker nonempty text = before ++ removeAll marker nonempty after := by
  rw [removeAll]
  split
  · next first last again =>
    rw [found, Option.some.injEq, Prod.mk.injEq] at again
    obtain ⟨rfl, rfl⟩ := again
    rfl
  · next absent => simp [found] at absent

theorem removeAll_of_absent {text : List Char} (absent : cutAt marker text = none) :
    removeAll marker nonempty text = text := by
  rw [removeAll]
  split
  · next first last found => simp [absent] at found
  · rfl

theorem removeAll_length_le (text : List Char) :
    (removeAll marker nonempty text).length ≤ text.length := by
  induction text using removeAll.induct marker nonempty with
  | case1 text before after found ih =>
    rw [removeAll_of_found found, cutAt_parts found]
    simp only [List.length_append]
    omega
  | case2 text absent => exact Nat.le_of_eq (congrArg List.length (removeAll_of_absent absent))

theorem removeAll_length_lt {text : List Char} (inside : marker <:+: text) :
    (removeAll marker nonempty text).length < text.length := by
  cases found : cutAt marker text with
  | none => exact absurd inside ((cutAt_eq_none_iff nonempty).mp found)
  | some parts =>
    have positive := List.length_pos_iff.mpr nonempty
    have rest := @removeAll_length_le marker nonempty parts.2
    rw [removeAll_of_found found, cutAt_parts found]
    simp only [List.length_append]
    omega

theorem removeAll_eq_self_iff {text : List Char} :
    removeAll marker nonempty text = text ↔ ¬ marker <:+: text := by
  refine ⟨fun same inside => ?_, fun absent => ?_⟩
  · have shorter := @removeAll_length_lt marker nonempty text inside
    rw [same] at shorter
    exact Nat.lt_irrefl _ shorter
  · exact removeAll_of_absent ((cutAt_eq_none_iff nonempty).mpr absent)

theorem mem_removeAll {c : Char} (other : c ∉ marker) {text : List Char} (member : c ∈ text) :
    c ∈ removeAll marker nonempty text := by
  induction text using removeAll.induct marker nonempty with
  | case1 text before after found ih =>
    rw [removeAll_of_found found, List.mem_append]
    rw [cutAt_parts found, List.mem_append, List.mem_append] at member
    rcases member with (first | inside) | last
    · exact .inl first
    · exact absurd inside other
    · exact .inr (ih last)
  | case2 text absent => rwa [removeAll_of_absent absent]

theorem removeAll_append {first second : List Char} (apart : Apart marker first second) :
    removeAll marker nonempty (first ++ second) =
      removeAll marker nonempty first ++ removeAll marker nonempty second := by
  induction first using removeAll.induct marker nonempty with
  | case1 first before after found ih =>
    have ends : after <:+ first := ⟨before ++ marker, (cutAt_parts found).symm⟩
    rw [removeAll_of_found found, removeAll_of_found (cutAt_append found second),
      ih (apart.suffix ends), List.append_assoc]
  | case2 first absent =>
    have cut := cutAt_apart apart absent
    rw [removeAll_of_absent absent]
    cases found : cutAt marker second with
    | none =>
      rw [found, Option.map_none] at cut
      rw [removeAll_of_absent cut, removeAll_of_absent found]
    | some parts =>
      rw [found, Option.map_some] at cut
      rw [removeAll_of_found cut, removeAll_of_found found, List.append_assoc]

theorem removeAll_split {text first second : List Char}
    (parts : removeAll marker nonempty text = first ++ second) :
    ∃ front back, text = front ++ back ∧ removeAll marker nonempty front = first ∧
      removeAll marker nonempty back = second := by
  induction text using removeAll.induct marker nonempty generalizing first with
  | case1 text before after found ih =>
    have ahead := ahead_of_found found
    rw [removeAll_of_found found] at parts
    rcases List.append_eq_append_iff.mp parts with ⟨more, rfl, rest⟩ | ⟨more, rfl, rfl⟩
    · -- cut behind the marker: what follows it is cut in its turn
      obtain ⟨front, back, rfl, left, right⟩ := ih rest
      refine ⟨before ++ marker ++ front, back, ?_, ?_, right⟩
      · rw [cutAt_parts found]
        simp only [List.append_assoc]
      · rw [removeAll_of_found (cutAt_of_ahead nonempty ahead front), left]
    · -- cut ahead of the marker, which stays whole in the second part
      refine ⟨first, more ++ marker ++ after, ?_, ?_, ?_⟩
      · rw [cutAt_parts found]
        simp only [List.append_assoc]
      · exact removeAll_of_absent (ahead.absent nonempty (List.infix_append' [] first more))
      · exact removeAll_of_found
          (cutAt_of_ahead nonempty (ahead.suffix (List.suffix_append first more)) after)
  | case2 text absent =>
    rw [removeAll_of_absent absent] at parts
    rw [cutAt_eq_none_iff nonempty] at absent
    have kept {piece : List Char} (inside : piece <:+: text) :
        removeAll marker nonempty piece = piece :=
      removeAll_eq_self_iff.mpr fun again => absent (again.trans inside)
    rw [parts] at kept
    exact ⟨first, second, parts, kept (List.infix_append' [] first second),
      kept (List.suffix_append first second).isInfix⟩

theorem exists_stretch {text piece : List Char} (inside : piece <:+: removeAll marker nonempty text) :
    ∃ stretch, stretch <:+: text ∧ removeAll marker nonempty stretch = piece := by
  obtain ⟨front, back, whole⟩ := inside
  rw [List.append_assoc] at whole
  obtain ⟨before, rest, rfl, _, right⟩ := removeAll_split whole.symm
  obtain ⟨stretch, after, rfl, same, _⟩ := removeAll_split right
  exact ⟨stretch, ⟨before, after, by rw [List.append_assoc]⟩, same⟩

end RemoveAll

section Tags

structure Bracketed (text : List Char) : Prop where
  opens : text.head? = some '<'
  closes : text.getLast? = some '>'

structure Tag (text : List Char) : Prop extends Bracketed text where
  inner : ∀ begins ends, text = begins ++ ends → begins ≠ [] → ends ≠ [] →
    ends.head? ≠ some '<' ∧ begins.getLast? ≠ some '>'

theorem Tag.of_split {text : List Char} (bracketed : Bracketed text)
    (inner : ∀ i < text.length, 0 < i →
      (text.drop i).head? ≠ some '<' ∧ (text.take i).getLast? ≠ some '>') : Tag text := by
  refine ⟨bracketed, fun begins ends parts solid more => ?_⟩
  have positive := List.length_pos_iff.mpr solid
  have later := List.length_pos_iff.mpr more
  have cut := inner begins.length (by rw [parts, List.length_append]; omega) positive
  rw [parts, List.drop_left, List.take_left] at cut
  exact cut

theorem sought_tag (inside : Bool) : Tag (sought inside) := by
  cases inside with
  | false => exact .of_split ⟨rfl, rfl⟩ (by decide)
  | true => exact .of_split ⟨rfl, rfl⟩ (by decide)

variable {marker : List Char} {nonempty : marker ≠ []} {text piece : List Char}

theorem removeAll_head? (tag : Tag marker) (text : List Char) :
    text.head? = some '<' ∨ (removeAll marker nonempty text).head? = text.head? := by
  cases found : cutAt marker text with
  | none => exact .inr (congrArg List.head? (removeAll_of_absent found))
  | some parts =>
    rw [removeAll_of_found found, cutAt_parts found]
    cases parts.1 with
    | nil =>
      left
      rw [List.nil_append, List.head?_append, tag.opens]
      rfl
    | cons c rest => exact .inr rfl

theorem removeAll_getLast? (tag : Tag marker) (text : List Char) :
    text.getLast? = some '>' ∨ (removeAll marker nonempty text).getLast? = text.getLast? := by
  induction text using removeAll.induct marker nonempty with
  | case1 text before after found ih =>
    rw [removeAll_of_found found, cutAt_parts found]
    cases last : after.getLast? with
    | none => simp [List.getLast?_append, last, tag.closes]
    | some c =>
      rw [last] at ih
      rcases ih with closing | same
      · simp [List.getLast?_append, last, closing]
      · simp [List.getLast?_append, last, same]
  | case2 text absent => exact .inr (congrArg List.getLast? (removeAll_of_absent absent))

theorem Bracketed.of_removeAll (tag : Tag marker)
    (bracketed : Bracketed (removeAll marker nonempty text)) : Bracketed text where
  opens := (removeAll_head? tag text).elim id fun same => same.symm.trans bracketed.opens
  closes := (removeAll_getLast? tag text).elim id fun same => same.symm.trans bracketed.closes

theorem apart_before {front : List Char} (tag : Tag marker) (opens : text.head? = some '<') :
    Apart marker front text := by
  rintro begins ends parts solid more - ⟨rest, rfl⟩
  have inner := (tag.inner begins ends parts solid more).1
  obtain ⟨c, others, rfl⟩ := List.exists_cons_of_ne_nil more
  exact inner opens

theorem apart_after {back : List Char} (tag : Tag marker) (closes : text.getLast? = some '>') :
    Apart marker text back := by
  rintro begins ends parts solid more ⟨rest, rfl⟩ -
  have inner := (tag.inner begins ends parts solid more).2
  rw [List.getLast?_append_of_ne_nil _ solid] at closes
  exact inner closes

/-- A tag is left in a text exactly if removing tags turns a stretch of the text into it. -/
theorem infix_removeAll_iff (tag : Tag marker) (bracketed : Bracketed piece) :
    piece <:+: removeAll marker nonempty text ↔
      ∃ stretch, stretch <:+: text ∧ removeAll marker nonempty stretch = piece := by
  refine ⟨exists_stretch, ?_⟩
  rintro ⟨stretch, ⟨front, back, rfl⟩, rfl⟩
  -- the stretch begins with `<` and ends with `>`, so no marker straddles its ends
  have whole := bracketed.of_removeAll tag
  have opens : (stretch ++ back).head? = some '<' := by rw [List.head?_append, whole.opens]; rfl
  rw [List.append_assoc, removeAll_append (apart_before tag opens),
    removeAll_append (apart_after tag whole.closes)]
  exact ⟨_, _, List.append_assoc _ _ _⟩

end Tags

section Strip

theorem toList_strip (text : String) :
    (strip text).toList = removeAll (sought true) (sought_nonempty true)
      (removeAll (sought false) (sought_nonempty false) text.toList) := String.toList_ofList

theorem infix_strip_iff {piece : List Char} (bracketed : Bracketed piece) (text : String) :
    piece <:+: (strip text).toList ↔ ∃ stretch : String,
      stretch.toList <:+: text.toList ∧ (strip stretch).toList = piece := by
  rw [toList_strip, infix_removeAll_iff (sought_tag true) bracketed]
  constructor
  · rintro ⟨half, inside, rfl⟩
    obtain ⟨stretch, within, rfl⟩ := exists_stretch inside
    exact ⟨String.ofList stretch, by rwa [String.toList_ofList],
      by rw [toList_strip, String.toList_ofList]⟩
  · rintro ⟨stretch, inside, rfl⟩
    rw [toList_strip] at bracketed ⊢
    have half := bracketed.of_removeAll (sought_tag true)
    exact ⟨_, (infix_removeAll_iff (sought_tag false) half).mpr ⟨stretch.toList, inside, rfl⟩, rfl⟩

/-- Stripping twice differs from stripping once exactly if stripping leaves a tag. -/
theorem strip_strip_iff (text : String) : strip (strip text) = strip text ↔
    ∀ inside, ¬ sought inside <:+: (strip text).toList := by
  rw [← String.toList_inj, toList_strip (strip text)]
  generalize (strip text).toList = left
  constructor
  · intro same
    -- a pass that removes a tag shortens the text, but the text is unchanged
    have opened : ¬ sought false <:+: left := by
      intro again
      have first := @removeAll_length_lt _ (sought_nonempty false) left again
      have second := @removeAll_length_le _ (sought_nonempty true)
        (removeAll (sought false) (sought_nonempty false) left)
      rw [same] at second
      omega
    rw [removeAll_eq_self_iff.mpr opened, removeAll_eq_self_iff] at same
    rintro (_ | _)
    · exact opened
    · exact same
  · intro clean
    rw [removeAll_eq_self_iff.mpr (clean false), removeAll_eq_self_iff.mpr (clean true)]

theorem mem_strip {text : String} {c : Char} (other : ∀ inside, c ∉ sought inside)
    (member : c ∈ text.toList) : c ∈ (strip text).toList := by
  rw [toList_strip]
  exact mem_removeAll (other true) (mem_removeAll (other false) member)

theorem sought_infix_trim_iff (inside : Bool) (text : String) :
    sought inside <:+: (trim text).toList ↔ sought inside <:+: text.toList := by
  cases inside <;> exact infix_trim_iff rfl (by decide) rfl (by decide)

end Strip

end Markup

end AgentHost.Text
