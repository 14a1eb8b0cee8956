import AgentHost.Proofs.Supervisor.TurnRecords
import AgentHost.Proofs.TurnResult

namespace AgentHost.Supervisor

open Decoder.StreamJson (payloadImages outcome)

def streamedText (decoder : Decoder) (call : Nat) (past : List Moment) : String :=
  String.join ((turnRecords decoder call past).filterMap decoder.text)

theorem type_of_answer {s : Supervisor} {action : Step} {result : Json}
    (answers : s.answer? action = some result) : recordType? result = some resultType := by
  obtain ⟨line, _, found⟩ := List.exists_of_findSome?_eq_some answers
  exact of_decide_eq_true (Option.filter_eq_some_iff.mp found).2

section Run

variable (settings : AgentSettings) (partialMessages hook : Bool)

/-- A turn is told nothing more after its result. -/
theorem told_after_answer {decoder : Decoder} {steps : List (Nat × Step)} {call : Nat}
    {action : Step} {result : Json}
    (held : ((start settings decoder hook).after steps).holds call = true)
    (answers : ((start settings decoder hook).after steps).answer? action = some result)
    (now : Nat) (rest : List (Nat × Step)) :
    ((start settings decoder hook).after (steps ++ (now, action) :: rest)).events call =
      ((start settings decoder hook).after (steps ++ [(now, action)])).events call := by
  have coherent := run_coherent settings decoder hook (steps ++ [(now, action)])
  have streams := run_streams settings decoder hook (steps ++ [(now, action)])
  have idle := (told_of_answer settings decoder hook held answers now).1
  obtain ⟨turn, current⟩ := holds_iff.mp held
  have called := ((run_coherent settings decoder hook steps).took now action).called
    ((run_streams settings decoder hook steps).current call turn current).1
  rw [← after_snoc] at called
  have free := coherent.no_turn (by simp [idle])
  have parts : steps ++ (now, action) :: rest = (steps ++ [(now, action)]) ++ rest := by simp
  rw [parts, after_append]
  exact (after_over coherent streams ⟨called, by simp [free]⟩ rest).2

/-- The events of an answered turn: what its records give and the log, then what its result adds. -/
theorem told_of_answered_turn {steps : List (Nat × Step)} {call : Nat} {action : Step}
    {result : Json}
    (held : ((start settings (.streamJson partialMessages) hook).after steps).holds call = true)
    (answers : ((start settings (.streamJson partialMessages) hook).after steps).answer? action =
      some result) (now : Nat) :
    let decoder := Decoder.streamJson partialMessages
    let past := (start settings decoder hook).moments (steps ++ [(now, action)])
    let records := turnRecords decoder call past
    let streamed := streamedText decoder call past
    let passed :=
      ImageFilter.after { cap := settings.maxImagesPerTurn } (records.flatMap Json.messageImages)
    ∃ before : Turn, before.Live ∧
      before.unlogged = decoder.hear records (.start settings.maxImagesPerTurn) ∧
      before.shown ++ Text.Markup.heldBack streamed = Text.Markup.visible streamed ∧
      ((start settings decoder hook).after (steps ++ [(now, action)])).events call =
        before.sent ++ Event.live (Text.Markup.heldBack streamed) ++
          (passed.passing (payloadImages result)).map .imageData ++
            outcome result streamed ++ [.done] := by
  intro decoder past records streamed passed
  have agree := Decoder.streamJson_kindsAgree partialMessages
  -- log lines change neither the live text nor the images of the turn
  obtain ⟨-, before, live, heard, ends⟩ := told_of_answer settings decoder hook held answers now
  have text : before.liveText =
      ⟨streamed, (({} : Text.Markup).push streamed).2, (({} : Text.Markup).push streamed).1,
        false⟩ := by
    rw [← before.unlogged_liveText, heard]
    exact Decoder.hear_liveText agree records settings.maxImagesPerTurn
  obtain ⟨merged, markup, shown, -⟩ := Turn.LiveText.mk.inj text
  have offered := Decoder.hear_images agree records (.start settings.maxImagesPerTurn)
  rw [Decoder.streamJson_images] at offered
  have images : before.images = passed := (congrArg Turn.images heard).trans offered
  have sent := concludeWith_sent live.unfinished partialMessages (type_of_answer answers)
  rw [merged, markup, Text.Markup.push_finish, images] at sent
  refine ⟨before, live, heard, ?_, ends.trans sent⟩
  rw [shown]
  exact Text.Markup.push_visible streamed

/-- The events of a turn with a result. Its live text is the visible text of its records. After the
    events of the records come, in this order and nothing else, the text that was held back, the
    result's images that pass the filter, its error or its final text, and `done`. -/
theorem events_of_answered_turn {steps : List (Nat × Step)} {call : Nat} {action : Step}
    {result : Json}
    (held : ((start settings (.streamJson partialMessages) hook).after steps).holds call = true)
    (answers : ((start settings (.streamJson partialMessages) hook).after steps).answer? action =
      some result) (now : Nat) :
    let decoder := Decoder.streamJson partialMessages
    let run := (start settings decoder hook).after
    let past := (start settings decoder hook).moments (steps ++ [(now, action)])
    let records := turnRecords decoder call past
    let streamed := streamedText decoder call past
    let passed :=
      ImageFilter.after { cap := settings.maxImagesPerTurn } (records.flatMap Json.messageImages)
    let told := (run (steps ++ [(now, action)])).events call
    (∃ before, before.filter (!·.isLog) =
        (decoder.hear records (.start settings.maxImagesPerTurn)).sent ∧
      told = before ++ Event.live (Text.Markup.heldBack streamed) ++
        (passed.passing (payloadImages result)).map .imageData ++ outcome result streamed ++ [.done]) ∧
    String.join (told.filterMap Event.delta?) = Text.Markup.visible streamed ∧
    ((decoder.resultError result).isSome = true ↔
      (result.member? "is_error").bind Json.bool? = some true) ∧
    (run steps).state = .busy ∧ (run (steps ++ [(now, action)])).state = .idle ∧
    ∀ rest, (run (steps ++ (now, action) :: rest)).events call = told := by
  intro decoder run past records streamed passed told
  obtain ⟨before, -, heard, shown, whole⟩ :=
    told_of_answered_turn settings partialMessages hook held answers now
  obtain ⟨turn, current⟩ := holds_iff.mp held
  have busy := (run_coherent settings decoder hook steps).busy_of_turn current
  have idle := (told_of_answer settings decoder hook held answers now).1
  refine ⟨⟨before.sent, congrArg Turn.sent heard, whole⟩, ?_,
    Decoder.StreamJson.resultError_isSome (type_of_answer answers), busy, idle,
    told_after_answer settings hook held answers now⟩
  rw [← shown]
  unfold told run
  rw [whole, told_deltas]

end Run

def pngBlock (data : String) : Json :=
  .object [("type", .string "image"), ("source", .object [("type", .string "base64"),
    ("media_type", .string "image/png"), ("data", .string data)])]

/-- A result with a text and two images, the first of which the turn has shown before. -/
theorem pictured_turn_told :
    let message : Json := .object [("type", .string "assistant"), ("message", .object [("content",
      .array [.object [("type", .string "text"), ("text", .string "a<to")], pngBlock "AA=="])])]
    let result : Json := .object [("type", .string "result"), ("result", .array
      [.object [("type", .string "text"), ("text", .string "see")], pngBlock "AA==", pngBlock "AQ=="])]
    let run := (start {} (.streamJson false) true).after
    let begun : List (Nat × Step) := [(0, .spawn (.ok 1)), (1, .sendTurn ⟨"go", []⟩)]
    let answered := run (begun ++ [(2, .readOutput (Json.lineBytes [message, result]))])
    (run begun).holds 0 = true ∧
    (run begun).answer? (.readOutput (Json.lineBytes [message, result])) = some result ∧
    (∃ before, (before.filter (!·.isLog)).map Event.tag = ["text_delta", "image_data"] ∧
      answered.events 0 = before ++ [.textDelta "<to", .imageData ⟨"image/png", "AQ=="⟩,
        .textFinal "see", .done]) ∧
    String.join ((answered.events 0).filterMap Event.delta?) = "a<to" ∧ answered.state = .idle := by
  intro message result run begun answered
  have held : (run begun).holds 0 = true := by decide +kernel
  have heeded : ∀ record ∈ [message] ++ [result], record.Heeded := by decide +kernel
  have mid : ∀ record ∈ [message], recordType? record ≠ some resultType := by decide +kernel
  obtain ⟨answers, records⟩ := turn_of_written heeded mid (by decide +kernel) held
    (by decide +kernel) (by decide +kernel) (by decide +kernel) 2
  obtain ⟨⟨before, heard, told⟩, deltas, -, -, idle, -⟩ :=
    events_of_answered_turn {} false true held answers 2
  rw [streamedText] at told deltas
  rw [records] at heard told deltas
  have streamed : String.join ([message].filterMap (Decoder.streamJson false).text) = "a<to" := by
    decide +kernel
  have visible : Text.Markup.visible "a<to" = "a<to" := by decide +kernel
  have heldBack : Text.Markup.heldBack "a<to" = "<to" := by decide +kernel
  have passed : (ImageFilter.after { cap := 8 } ([message].flatMap Json.messageImages)).passing
      (payloadImages result) = [⟨"image/png", "AQ=="⟩] := by decide +kernel
  have unfailed : Decoder.StreamJson.resultError result = none := by decide +kernel
  have text : Text.trim (Text.Markup.strip (Decoder.StreamJson.answerText result "a<to")) = "see" := by
    decide +kernel
  have final : outcome result "a<to" = [.textFinal "see"] := by
    rw [outcome, unfailed, text]
    rfl
  rw [streamed] at told deltas
  refine ⟨held, answers, ⟨before, ?_, told.trans ?_⟩, deltas.trans visible, idle⟩
  · rw [heard]
    decide +kernel
  · have live : Event.live "<to" = [.textDelta "<to"] := rfl
    rw [heldBack, passed, final, live]
    simp only [List.map_cons, List.map_nil, List.append_assoc, List.cons_append, List.nil_append]

end AgentHost.Supervisor
