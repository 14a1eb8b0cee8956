import AgentHost.Proofs.TurnResult

namespace AgentHost

open Text.Markup (heldBack visible OpenEnded)

inductive RecordPart.Tells : RecordPart → Event → Prop where
  | text (text shown : String) : Tells (.text text) (.textDelta shown)
  | toolUse (tool : ToolUse) : Tells (.toolUse tool) (.toolStart tool.name tool.input)
  | toolResult (id : String) : Tells (.toolResult id) .toolEnd
  | image (image : Image) : Tells (.image image) (.imageData image)

theorem Turn.emit_sent_cases (turn : Turn) (event : Event) :
    (turn.emit event).sent = turn.sent ∨ (turn.emit event).sent = turn.sent ++ [event] := by
  unfold emit
  split
  · exact .inl rfl
  · exact .inr rfl

namespace Supervisor

theorem addPart_sent (turn : Turn) (part : RecordPart) : (addPart turn part).sent = turn.sent ∨
    ∃ event, part.Tells event ∧ (addPart turn part).sent = turn.sent ++ [event] := by
  cases part with
  | text text =>
    dsimp only [addPart, Turn.pushText, Turn.emitText]
    split
    · exact .inl rfl
    · exact (Turn.emit_sent_cases _ _).imp_right fun grown => ⟨_, .text text _, grown⟩
  | toolUse tool =>
    dsimp only [addPart, Turn.startTool]
    split
    · exact .inl rfl
    · exact (Turn.emit_sent_cases _ _).imp_right fun grown => ⟨_, .toolUse tool, grown⟩
  | toolResult id =>
    dsimp only [addPart, Turn.endTool]
    split
    · exact (Turn.emit_sent_cases _ _).imp_right fun grown => ⟨_, .toolResult id, grown⟩
    · exact .inl rfl
  | image image =>
    dsimp only [addPart, Turn.pushImage]
    split
    · exact (Turn.emit_sent_cases _ _).imp_right fun grown => ⟨_, .image image, grown⟩
    · exact .inl rfl

/-- Every event of a turn comes from one of its parts, and the events before it come from the parts
    before that one. -/
theorem part_of_event {turn : Turn} {parts : List RecordPart} {before after : List Event}
    {event : Event} (fresh : turn.sent = [])
    (sent : (parts.foldl addPart turn).sent = before ++ event :: after) :
    ∃ earlier part later, parts = earlier ++ part :: later ∧ part.Tells event ∧
      before = (earlier.foldl addPart turn).sent ∧
      (addPart (earlier.foldl addPart turn) part).sent = before ++ [event] := by
  induction parts using List.reverseRecOn generalizing after with
  | nil => simp [fresh] at sent
  | append_singleton parts last ih =>
    have goesOn {more : List Event}
        (told : (parts.foldl addPart turn).sent = before ++ event :: more) :
        ∃ earlier part later, parts ++ [last] = earlier ++ part :: later ∧ part.Tells event ∧
          before = (earlier.foldl addPart turn).sent ∧
          (addPart (earlier.foldl addPart turn) part).sent = before ++ [event] := by
      obtain ⟨earlier, part, later, rfl, tells⟩ := ih told
      exact ⟨earlier, part, later ++ [last], by simp, tells⟩
    rw [List.foldl_concat] at sent
    rcases addPart_sent (parts.foldl addPart turn) last with same | ⟨newest, tells, grown⟩
    · exact goesOn (same.symm.trans sent)
    · rw [grown] at sent
      rcases List.eq_nil_or_concat' after with rfl | ⟨after, final, rfl⟩
      · obtain ⟨same, ends⟩ := List.append_inj' sent rfl
        obtain rfl := List.singleton_inj.mp ends
        exact ⟨parts, last, [], rfl, tells, same.symm, grown.trans sent⟩
      · rw [← List.cons_append, ← List.append_assoc] at sent
        exact goesOn (List.append_inj' sent rfl).1

/-- The deltas ahead of the start of a tool are the visible text before the tool without the text
    that is held back at that point. They are all of the visible text exactly if nothing is held
    back. -/
theorem text_ahead_of_tools {maxImages : Nat} {parts : List RecordPart} {before after : List Event}
    {name : String} {input : Json} (sent : (parts.foldl addPart (.start maxImages)).sent =
      before ++ .toolStart name input :: after) :
    ∃ earlier tool later, parts = earlier ++ .toolUse tool :: later ∧
      name = tool.name ∧ input = tool.input ∧
      before = (earlier.foldl addPart (.start maxImages)).sent ∧
      (addPart (earlier.foldl addPart (.start maxImages)) (.toolUse tool)).sent =
        before ++ [.toolStart name input] ∧
      let text := String.join (earlier.filterMap RecordPart.text?)
      let whole := String.join (parts.filterMap RecordPart.text?)
      let ahead := String.join (before.filterMap Event.delta?)
      let behind := String.join (after.filterMap Event.delta?)
      ahead ++ heldBack text = visible text ∧
      (ahead = visible text ↔ ¬ OpenEnded text) ∧
      ahead ++ behind ++ heldBack whole = visible whole := by
  obtain ⟨earlier, part, later, split, tells, told, starts⟩ := part_of_event rfl sent
  cases tells with | toolUse tool
  refine ⟨earlier, tool, later, split, rfl, rfl, told, starts, ?_⟩
  intro text whole ahead behind
  have shown (parts : List RecordPart) :
      String.join ((parts.foldl addPart (.start maxImages)).sent.filterMap Event.delta?) =
        (({} : Text.Markup).push (String.join (parts.filterMap RecordPart.text?))).1 :=
    congrArg Turn.LiveText.shown (liveText_of_parts parts maxImages)
  have first : ahead ++ heldBack text = visible text := by
    unfold ahead
    rw [told, shown]
    exact Text.Markup.push_visible text
  refine ⟨first, ?_, ?_⟩
  · rw [← Text.Markup.heldBack_eq_empty_iff, ← first, ← String.toList_inj, String.toList_append,
      List.self_eq_append_right, String.toList_eq_nil_iff]
  · have both : ahead ++ behind = (({} : Text.Markup).push whole).1 := by
      rw [← shown parts, sent, List.filterMap_append, List.filterMap_cons_none (by rfl),
        String.join_append]
    rw [both]
    exact Text.Markup.push_visible whole

def toolAmongTexts (first : String) : List RecordPart :=
  [.text first, .toolUse ⟨"t", "Read", .null⟩, .text "b"]

theorem toolAmongTexts_sent {first shown more : String}
    (opens : (({} : Text.Markup).push first).1 = shown) (shows : shown.isEmpty = false)
    (goesOn : ((({} : Text.Markup).push first).2.push "b").1 = more) (ends : more.isEmpty = false) :
    ((toolAmongTexts first).foldl addPart (.start 8)).sent =
      [.textDelta shown] ++ .toolStart "Read" .null :: [.textDelta more] := by
  simp [toolAmongTexts, addPart, Turn.start, Turn.pushText, Turn.startTool, Turn.emitText, Turn.emit,
    opens, shows, goesOn, ends]

theorem closed_text_ahead_of_tool :
    let parts := toolAmongTexts "see <b>"
    ∃ before after, (parts.foldl addPart (.start 8)).sent = before ++ .toolStart "Read" .null :: after ∧
      String.join (before.filterMap Event.delta?) = "see <b>" ∧
      ∃ earlier tool later, parts = earlier ++ .toolUse tool :: later ∧
        let text := String.join (earlier.filterMap RecordPart.text?)
        "see <b>" ++ heldBack text = visible text ∧ ("see <b>" = visible text ↔ ¬ OpenEnded text) := by
  intro parts
  have sent : (parts.foldl addPart (.start 8)).sent =
      [.textDelta "see <b>"] ++ .toolStart "Read" .null :: [.textDelta "b"] :=
    toolAmongTexts_sent (by decide +kernel) (by decide) (by decide +kernel) (by decide)
  obtain ⟨earlier, tool, later, split, -, -, -, -, first, whole, -⟩ := text_ahead_of_tools sent
  exact ⟨_, _, sent, rfl, earlier, tool, later, split, first, whole⟩

/-- A possible beginning of a marker is shown only after the start of the tool. -/
theorem text_held_past_tool :
    ∃ before after, ((toolAmongTexts "a <").foldl addPart (.start 8)).sent =
        before ++ .toolStart "Read" .null :: after ∧
      visible "a <" = "a <" ∧ String.join (before.filterMap Event.delta?) = "a " ∧
      String.join (after.filterMap Event.delta?) = "<b" :=
  have sent : ((toolAmongTexts "a <").foldl addPart (.start 8)).sent =
      [.textDelta "a "] ++ .toolStart "Read" .null :: [.textDelta "<b"] :=
    toolAmongTexts_sent (by decide +kernel) (by decide) (by decide +kernel) (by decide)
  ⟨_, _, sent, by decide +kernel, rfl, rfl⟩

end Supervisor

end AgentHost
