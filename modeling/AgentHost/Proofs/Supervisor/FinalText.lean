import AgentHost.Proofs.Display.TurnDisplay
import AgentHost.Proofs.Supervisor.Answers
import AgentHost.Proofs.Text.MarkerRemoval

namespace AgentHost.Supervisor

open Decoder.StreamJson (answerText outcome payloadText)

section Run

variable (settings : AgentSettings) (decoder : Decoder) (hook : Bool)

theorem refused_or_ended {steps : List (Nat × Step)} {call : Nat} {event : Event}
    (outcome : event.isOutcome = true)
    (told : event ∈ ((start settings decoder hook).after steps).events call) :
    (∃ message ∈ refusals, ((start settings decoder hook).after steps).events call =
        TurnStream.rejection message) ∨
      ∃ before now action rest turn, steps = before ++ (now, action) :: rest ∧
        ((start settings decoder hook).after before).turn = some (call, turn) ∧
        (((start settings decoder hook).after before).step now action).Over call ∧
        ((start settings decoder hook).after steps).events call =
          (((start settings decoder hook).after before).step now action).events call := by
  have coherent := start_coherent settings decoder hook
  have streams := start_streams settings decoder hook
  have called : call < ((start settings decoder hook).after steps).calls := by
    refine Nat.lt_of_not_le fun ahead => ?_
    rw [(run_streams settings decoder hook steps).events_ahead ahead] at told
    simp at told
  rcases active_or_refused coherent streams rfl steps called with
    ⟨begun, rest, turn, rfl, active⟩ | refused
  · have ready := run_coherent settings decoder hook begun
    have known := run_streams settings decoder hook begun
    rcases ended_of_active ready known active rest with
      ⟨later, current⟩ | ⟨earlier, now, action, more, ended, rfl, current, gone⟩
    · -- a turn under way has been told of progress only
      rw [← after_append] at current
      rw [events_of_turn current] at told
      have live := (run_coherent settings decoder hook (begun ++ rest)).live call later current
      have progress := live.progress event told
      cases event <;> simp [Event.isProgress, Event.isOutcome] at progress outcome
    · rw [← after_append] at current gone
      have still := run_coherent settings decoder hook (begun ++ earlier)
      have kept := run_streams settings decoder hook (begun ++ earlier)
      have took := still.took now action
      have stays := (after_over (took.coherent still) (took.keeps still kept).streams gone more).2
      refine .inr ⟨begun ++ earlier, now, action, more, ended, by simp, current, gone, ?_⟩
      rw [← stays, ← List.append_assoc, after_append]
      rfl
  · exact .inl refused

/-- A final text always comes from a result. -/
theorem answer_of_final {steps : List (Nat × Step)} {call : Nat} {text : String}
    (told : .textFinal text ∈ ((start settings decoder hook).after steps).events call) :
    ∃ before now action rest result, steps = before ++ (now, action) :: rest ∧
      ((start settings decoder hook).after before).holds call = true ∧
      ((start settings decoder hook).after before).answer? action = some result := by
  rcases refused_or_ended settings decoder hook rfl told with
    ⟨message, -, refused⟩ | ⟨before, now, action, rest, turn, rfl, current, gone, same⟩
  · simp [refused, TurnStream.rejection] at told
  · have coherent := run_coherent settings decoder hook before
    have live := coherent.live call turn current
    rw [same] at told
    have unfinal (error : String) : .textFinal text ∉ turn.sent ++ [.error error, .done] := by
      simp only [List.mem_append, List.mem_cons, reduceCtorEq, List.not_mem_nil, or_false]
      intro early
      exact absurd (live.progress _ early) (by simp [Event.isProgress])
    -- every other end sends an error, so the final text would have to be among the earlier events
    cases coherent.fate (run_streams settings decoder hook before) current now action with
    | stopped _ _ _ ends => exact absurd (ends ▸ told) (unfinal _)
    | exited _ _ _ ends => exact absurd (ends ▸ told) (unfinal _)
    | @answered result _ answers =>
      exact ⟨before, now, action, rest, result, rfl, holds_iff.mpr ⟨turn, current⟩, answers⟩
    | goesOn _ _ _ _ _ later => exact absurd later (gone.other _)

end Run

section StreamJson

variable (settings : AgentSettings) (partialMessages hook : Bool)

theorem final_of_answer {steps : List (Nat × Step)} {call : Nat} {action : Step} {result : Json}
    (held : ((start settings (.streamJson partialMessages) hook).after steps).holds call = true)
    (answers : ((start settings (.streamJson partialMessages) hook).after steps).answer? action =
      some result) (now : Nat) (rest : List (Nat × Step)) (text : String) :
    let decoder := Decoder.streamJson partialMessages
    let streamed := streamedText decoder call
      ((start settings decoder hook).moments (steps ++ [(now, action)]))
    .textFinal text ∈
        ((start settings decoder hook).after (steps ++ (now, action) :: rest)).events call ↔
      .textFinal text ∈ outcome result streamed := by
  intro decoder streamed
  obtain ⟨before, live, -, -, whole⟩ :=
    told_of_answered_turn settings partialMessages hook held answers now
  have early : .textFinal text ∉ before.sent := fun member =>
    absurd (live.progress _ member) (by simp [Event.isProgress])
  have unlive (piece : String) : .textFinal text ∉ Event.live piece := by
    unfold Event.live
    split <;> simp
  rw [told_after_answer settings hook held answers now rest, whole]
  simp only [List.mem_append, List.mem_map, early, unlive, reduceCtorEq, and_false, exists_false,
    List.mem_singleton, false_or, or_false]
  rfl

/-- A marker is left after stripping exactly where stripping puts one together from a stretch of the
    text. Every final text is a stripped answer, so this applies to it. -/
theorem markers_of_final_text :
    (∀ text inside, Text.Markup.sought inside <:+: (Text.Markup.strip text).toList ↔
      ∃ stretch : String, stretch.toList <:+: text.toList ∧
        (Text.Markup.strip stretch).toList = Text.Markup.sought inside) ∧
    (∀ text, Text.Markup.strip (Text.Markup.strip text) = Text.Markup.strip text ↔
      ∀ inside, ¬ Text.Markup.sought inside <:+: (Text.Markup.strip text).toList) ∧
    let decoder := Decoder.streamJson partialMessages
    let run := (start settings decoder hook).after
    ∀ steps call text, .textFinal text ∈ (run steps).events call →
      ∃ before now action rest result, steps = before ++ (now, action) :: rest ∧
        (run before).holds call = true ∧ (run before).answer? action = some result ∧
        let answer := answerText result (streamedText decoder call
          ((start settings decoder hook).moments (before ++ [(now, action)])))
        text = Text.trim (Text.Markup.strip answer) ∧
        ∀ inside, Text.Markup.sought inside <:+: text.toList ↔
          ∃ stretch : String, stretch.toList <:+: answer.toList ∧
            (Text.Markup.strip stretch).toList = Text.Markup.sought inside := by
  have left (inside : Bool) := Text.Markup.infix_strip_iff (Text.Markup.sought_tag inside).toBracketed
  refine ⟨fun text inside => left inside text, Text.Markup.strip_strip_iff, ?_⟩
  intro decoder run steps call text told
  obtain ⟨before, now, action, rest, result, rfl, held, answers⟩ :=
    answer_of_final settings decoder hook told
  have final := (final_of_answer settings partialMessages hook held answers now rest text).mp told
  obtain ⟨-, rfl, -⟩ := Decoder.StreamJson.final_mem_outcome.mp final
  refine ⟨before, now, action, rest, result, rfl, held, answers, rfl, fun inside => ?_⟩
  rw [Text.Markup.sought_infix_trim_iff]
  exact left inside _

/-- A marker inside a marker leaves one behind, which reaches the consumer. -/
theorem marker_left_in_final_text :
    Text.Markup.strip "<tool_<tool_use>use>" = "<tool_use>" ∧
    Text.Markup.strip "<tool_use>" = "" ∧
    ((((start {} (.streamJson false) true).after
      [(0, .spawn (.ok 1)), (1, .sendTurn ⟨"go", []⟩), (2, .readOutput (Text.Utf8.encode
        "\x7b\"type\":\"result\",\"result\":\"<tool_<tool_use>use>\"\x7d\n"))]).events 0).filterMap
          Event.final?) = ["<tool_use>"] := by
  decide +kernel

/-- A turn whose result is not an error has a final text exactly if the answer is not blank after
    its markers are stripped. If the result has no text of its own, it is enough that the shown text
    has a character that is not blank and occurs in no marker. -/
theorem final_iff_answer_left {steps : List (Nat × Step)} {call : Nat} {action : Step} {result : Json}
    (held : ((start settings (.streamJson partialMessages) hook).after steps).holds call = true)
    (answers : ((start settings (.streamJson partialMessages) hook).after steps).answer? action =
      some result)
    (passed : (result.member? "is_error").bind Json.bool? ≠ some true) (now : Nat)
    (rest : List (Nat × Step)) :
    let decoder := Decoder.streamJson partialMessages
    let streamed := streamedText decoder call
      ((start settings decoder hook).moments (steps ++ [(now, action)]))
    let answer := answerText result streamed
    let told := ((start settings decoder hook).after (steps ++ (now, action) :: rest)).events call
    ((∃ text, .textFinal text ∈ told) ↔
      ∃ c ∈ (Text.Markup.strip answer).toList, Text.isBlank c = false) ∧
    (∀ text, .textFinal text ∈ told → text = Text.trim (Text.Markup.strip answer)) ∧
    (Text.allBlank (payloadText result) = true →
      (∃ c ∈ (String.join (told.filterMap Event.delta?)).toList,
        Text.isBlank c = false ∧ ∀ inside, c ∉ Text.Markup.sought inside) →
      ∃ text, .textFinal text ∈ told) := by
  intro decoder streamed answer told
  have unfailed : Decoder.StreamJson.resultError result = none := by
    have marked := Decoder.StreamJson.resultError_isSome (type_of_answer answers)
    exact Option.not_isSome_iff_eq_none.mp (mt marked.mp passed)
  have final (text : String) : .textFinal text ∈ told ↔
      text = Text.trim (Text.Markup.strip answer) ∧ text.isEmpty = false :=
    (final_of_answer settings partialMessages hook held answers now rest text).trans
      (Decoder.StreamJson.final_mem_outcome.trans (and_iff_right unfailed))
  have told_iff : (∃ text, .textFinal text ∈ told) ↔
      ∃ c ∈ (Text.Markup.strip answer).toList, Text.isBlank c = false := by
    simp only [final, exists_eq_left, Text.trim_isEmpty]
    simp [Text.allBlank]
  refine ⟨told_iff, fun text member => ((final text).mp member).1, ?_⟩
  rintro blank ⟨c, shown, solid, other⟩
  obtain ⟨before, -, -, visible, whole⟩ :=
    told_of_answered_turn settings partialMessages hook held answers now
  -- the result has no text of its own, so it is enough that `c` has been streamed
  have streams : c ∈ streamed.toList := by
    apply Text.Markup.mem_of_visible
    rw [← visible, ← told_deltas, ← whole, ← told_after_answer settings hook held answers now rest]
    exact shown
  refine told_iff.mpr ⟨c, Text.Markup.mem_strip other ?_, solid⟩
  unfold answer answerText
  rw [if_pos blank]
  exact (Text.mem_trim_iff solid).mpr streams

def markedAnswer : Step := .readOutput (Text.Utf8.encode
  "\x7b\"type\":\"assistant\",\"message\":\x7b\"content\":[\x7b\"type\":\"text\",\"text\":\"a<to\"\x7d]\x7d\x7d\n\x7b\"type\":\"result\"\x7d\n")

theorem marked_turn_has_final :
    let begun : List (Nat × Step) := [(0, .spawn (.ok 1)), (1, .sendTurn ⟨"go", []⟩)]
    let run := (start {} (.streamJson false) true).after
    (run begun).holds 0 = true ∧ ((run begun).answer? markedAnswer).isSome = true ∧
      ∃ text, .textFinal text ∈ (run (begun ++ [(2, markedAnswer)])).events 0 := by
  intro begun run
  have held : (run begun).holds 0 = true := by decide +kernel
  have known : ((run begun).answer? markedAnswer).any (fun result =>
      (result.member? "is_error").bind Json.bool? != some true && Text.allBlank (payloadText result)) =
        true := by decide +kernel
  have shown : String.join (((run (begun ++ [(2, markedAnswer)])).events 0).filterMap Event.delta?) =
      "a<to" := by decide +kernel
  obtain ⟨result, answers, passed, blank⟩ : ∃ result, (run begun).answer? markedAnswer = some result ∧
      (result.member? "is_error").bind Json.bool? ≠ some true ∧
      Text.allBlank (payloadText result) = true := by simpa [Option.any_eq_true] using known
  have final := final_iff_answer_left {} false true held answers passed 2 []
  refine ⟨held, by simp [answers], final.2.2 blank ⟨'a', ?_, by decide, by decide⟩⟩
  exact shown ▸ List.mem_cons_self

/-- The answer is only a marker, so the turn has shown text but no final text. -/
theorem shown_turn_without_final :
    let begun : List (Nat × Step) := [(0, .spawn (.ok 1)), (1, .sendTurn ⟨"go", []⟩)]
    let answer := Step.readOutput (Text.Utf8.encode
      "\x7b\"type\":\"assistant\",\"message\":\x7b\"content\":[\x7b\"type\":\"text\",\"text\":\"hi\"\x7d]\x7d\x7d\n\x7b\"type\":\"result\",\"result\":\"<tool_use>\"\x7d\n")
    let run := (start {} (.streamJson false) true).after
    let told := (run (begun ++ [(2, answer)])).events 0
    (run begun).holds 0 = true ∧
    ((run begun).answer? answer).any (fun result =>
      (result.member? "is_error").bind Json.bool? ≠ some true) = true ∧
    String.join (told.filterMap Event.delta?) = "hi" ∧ told.filterMap Event.final? = [] := by
  decide +kernel

end StreamJson

end AgentHost.Supervisor
