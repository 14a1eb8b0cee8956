import AgentHost.Proofs.Text.MarkupCuts

namespace AgentHost.Text

section Marker

variable {marker : List Char}

structure LongestBeginning (marker text held : List Char) : Prop where
  suffix : held <:+ text
  begins : held <+: marker
  proper : held ≠ marker
  longest : ∀ other, other <:+ text → other <+: marker → other ≠ marker →
    other.length ≤ held.length

theorem heldSuffix_longest (nonempty : marker ≠ []) (text : List Char) :
    LongestBeginning marker text (heldSuffix marker text) := by
  induction text with
  | nil =>
    refine ⟨List.suffix_refl _, List.nil_prefix, nonempty.symm, ?_⟩
    intro other ends _ _
    exact ends.length_le
  | cons c rest ih =>
    unfold heldSuffix
    split
    · rename_i begins
      simp only [Bool.and_eq_true, List.isPrefixOf_iff_prefix, bne_iff_ne, ne_eq] at begins
      exact ⟨List.suffix_refl _, begins.1, begins.2, fun other ends _ _ => ends.length_le⟩
    · rename_i apart
      refine ⟨ih.suffix.trans (List.suffix_cons _ _), ih.begins, ih.proper, ?_⟩
      intro other ends begins proper
      rcases List.suffix_cons_iff.mp ends with rfl | later
      · exact absurd (by simp [begins, proper]) apart
      · exact ih.longest other later begins proper

end Marker

namespace Markup

structure Reading where
  visible : List Char
  inside : Bool
  since : List Char

/-- Reads a text from left to right, a marker at a time where one stands and otherwise a character.
    `since` is the text after the last marker. -/
def read (inside : Bool) (since : List Char) : List Char → Reading
  | [] => ⟨[], inside, since⟩
  | c :: rest =>
    if (sought inside).isPrefixOf (c :: rest) then
      read (!inside) [] ((c :: rest).drop (sought inside).length)
    else
      let later := read inside (since ++ [c]) rest
      { later with visible := if inside then later.visible else c :: later.visible }
termination_by text => text.length
decreasing_by
  · have positive := List.length_pos_iff.mpr (sought_nonempty inside)
    simp only [List.length_drop, List.length_cons]
    omega
  · simp

/-- The text outside the spans. A span without an end runs to the end of the text. -/
def visible (text : String) : String := String.ofList (read false [] text.toList).visible

theorem read_of_absent {inside : Bool} {text : List Char}
    (absent : cutAt (sought inside) text = none) (since : List Char) :
    read inside since text = ⟨if inside then [] else text, inside, since ++ text⟩ := by
  induction text generalizing since with
  | nil => cases inside <;> simp [read]
  | cons c rest ih =>
    have elsewhere : ¬ sought inside <+: c :: rest := by
      intro here
      simp [cutAt_here here] at absent
    rw [cutAt_elsewhere elsewhere, Option.map_eq_none_iff] at absent
    rw [read, if_neg (fun here => elsewhere (List.isPrefixOf_iff_prefix.mp here)), ih absent]
    cases inside <;> simp

theorem read_of_found {inside : Bool} {text before after : List Char}
    (found : cutAt (sought inside) text = some (before, after)) (since : List Char) :
    read inside since text =
      { read (!inside) [] after with
        visible := (if inside then [] else before) ++ (read (!inside) [] after).visible } := by
  induction text generalizing before since with
  | nil => simp [cutAt] at found
  | cons c rest ih =>
    by_cases here : sought inside <+: c :: rest
    · rw [cutAt_here here] at found
      obtain ⟨rfl, rfl⟩ := Prod.mk.inj (Option.some.inj found)
      rw [read, if_pos (List.isPrefixOf_iff_prefix.mpr here)]
      cases inside <;> rfl
    · rw [cutAt_elsewhere here] at found
      obtain ⟨⟨first, last⟩, cut, parts⟩ := Option.map_eq_some_iff.mp found
      obtain ⟨rfl, rfl⟩ := Prod.mk.inj parts
      rw [read, if_neg (fun begins => here (List.isPrefixOf_iff_prefix.mp begins)), ih cut]
      cases inside <;> rfl

/-- The filter shows what `read` does, apart from the text that it holds back. -/
theorem scan_read (inside : Bool) (text : List Char) :
    let (shown, state) := scan inside text
    let reading := read inside [] text
    shown ++ (if state.inside then [] else state.held) = reading.visible ∧
      state.inside = reading.inside ∧
        state.held = heldSuffix (sought reading.inside) reading.since := by
  induction inside, text using scan.induct with
  | case1 inside text before after found _ _ _ rest =>
    rw [scan_of_found found, read_of_found found]
    obtain ⟨shown, inside', held⟩ := rest
    refine ⟨?_, inside', held⟩
    rw [List.append_assoc, shown]
  | case2 inside text absent =>
    rw [scan_of_absent absent, read_of_absent absent]
    refine ⟨?_, rfl, rfl⟩
    cases inside
    · exact passed_held text
    · rfl

theorem finish_text (state : Markup) :
    state.finish.1 = String.ofList (if state.inside then [] else state.held) := by
  unfold finish
  cases state.inside <;> rfl

def pushAll (state : Markup) : List String → String × Markup
  | [] => ("", state)
  | chunk :: rest =>
    let (shown, next) := state.push chunk
    let (more, last) := pushAll next rest
    (shown ++ more, last)

theorem push_nothing (state : Markup) (chunk : String) :
    (state.push chunk).2.push "" = ("", (state.push chunk).2) := by
  have again := state.push_append chunk ""
  rw [String.append_empty] at again
  have shown := congrArg (fun pushed => pushed.1.toList) again
  have kept := congrArg Prod.snd again
  simp only [String.toList_append, List.self_eq_append_right, String.toList_eq_nil_iff] at shown
  exact Prod.ext shown kept.symm

theorem pushAll_eq {state : Markup} (settled : state.push "" = ("", state)) (chunks : List String) :
    state.pushAll chunks = state.push (String.join chunks) := by
  induction chunks generalizing state with
  | nil => exact settled.symm
  | cons chunk rest ih =>
    change ((state.push chunk).1 ++ ((state.push chunk).2.pushAll rest).1,
      ((state.push chunk).2.pushAll rest).2) = _
    rw [ih (state.push_nothing chunk), String.join_cons, push_append]

/-- However a text is cut into chunks, the filter shows the text outside its spans. After each chunk
    it holds back exactly the longest end that may be the beginning of the next marker. -/
theorem visible_of_chunks (chunks : List String) :
    let (shown, state) := ({} : Markup).pushAll chunks
    let reading := read false [] (String.join chunks).toList
    shown ++ state.finish.1 = visible (String.join chunks) ∧
    state.inside = reading.inside ∧
    LongestBeginning (sought reading.inside) reading.since state.held ∧
    ∀ (state : Markup) (a b : String),
      let (first, next) := state.push a
      let (second, last) := next.push b
      state.push (a ++ b) = (first ++ second, last) := by
  have settled : ({} : Markup).push "" = ("", {}) := by
    have nothing : scan false [] = ([], {}) := scan_of_absent rfl
    simp [push, nothing]
  rw [pushAll_eq settled]
  obtain ⟨shown, inside, held⟩ := scan_read false (String.join chunks).toList
  refine ⟨?_, inside, ?_, push_append⟩
  · rw [visible, ← shown, String.ofList_append, finish_text]
    rfl
  · have longest := heldSuffix_longest
      (sought_nonempty (read false [] (String.join chunks).toList).inside)
      (read false [] (String.join chunks).toList).since
    rw [← held] at longest
    exact longest

/-- The end of the text that a filter holds back because it may be the beginning of a marker. -/
def heldBack (text : String) : String :=
  let reading := read false [] text.toList
  if reading.inside then "" else String.ofList (heldSuffix opening reading.since)

theorem push_finish (text : String) : (({} : Markup).push text).2.finish.1 = heldBack text := by
  obtain ⟨_, inside, held⟩ := scan_read false text.toList
  rw [finish_text, heldBack]
  change String.ofList (if (scan false text.toList).2.inside then [] else
    (scan false text.toList).2.held) = _
  rw [inside, held]
  cases (read false [] text.toList).inside <;> rfl

/-- The shown text followed by the text held back is the visible text. -/
theorem push_visible (text : String) :
    (({} : Markup).push text).1 ++ heldBack text = visible text := by
  have shown := (scan_read false text.toList).1
  rw [← push_finish, finish_text, visible, ← shown, String.ofList_append]
  rfl

/-- The text is not inside a span, and ends with a proper beginning of the opening marker that comes
    after its last marker. -/
def OpenEnded (text : String) : Prop :=
  let reading := read false [] text.toList
  reading.inside = false ∧ ∃ ending, ending ≠ [] ∧ ending <:+ reading.since ∧ ending <+: opening ∧
    ending ≠ opening

theorem heldBack_eq_empty_iff (text : String) : heldBack text = "" ↔ ¬ OpenEnded text := by
  unfold heldBack OpenEnded
  obtain ⟨visible, inside, since⟩ := read false [] text.toList
  cases inside with
  | true => simp
  | false =>
    have longest : LongestBeginning opening since (heldSuffix opening since) :=
      heldSuffix_longest (sought_nonempty false) since
    dsimp only
    rw [if_neg Bool.false_ne_true, String.ofList_eq_empty_iff]
    constructor
    · rintro nothing ⟨-, ending, some, ends, begins, proper⟩
      have short := longest.longest ending ends begins proper
      rw [nothing, List.length_nil, Nat.le_zero] at short
      exact some (List.eq_nil_of_length_eq_zero short)
    · intro decided
      by_contra held
      exact decided ⟨rfl, _, held, longest.suffix, longest.begins, longest.proper⟩

theorem push_nothing_fresh : ({} : Markup).push "" = ("", {}) := by
  have nothing : scan false [] = ([], {}) := scan_of_absent rfl
  simp [push, nothing]

theorem read_sublist (inside : Bool) (since text : List Char) :
    (read inside since text).visible.Sublist text := by
  induction inside, since, text using read.induct with
  | case1 => simp [read]
  | case2 inside since c rest here ih =>
    rw [read, if_pos here]
    exact ih.trans (List.drop_sublist _ _)
  | case3 inside since c rest elsewhere ih =>
    rw [read, if_neg elsewhere]
    cases inside
    · exact ih.cons_cons c
    · exact ih.cons c

theorem mem_of_visible {text : String} {c : Char} (seen : c ∈ (visible text).toList) :
    c ∈ text.toList := by
  rw [visible, String.toList_ofList] at seen
  exact (read_sublist false [] text.toList).subset seen

end Markup

end AgentHost.Text
