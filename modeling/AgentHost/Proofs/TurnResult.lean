import AgentHost.Proofs.Decoder.WireBlocks
import AgentHost.Proofs.Text.VisibleText
import AgentHost.Proofs.TurnByKind

namespace AgentHost

namespace ImageFilter

def passing (filter : ImageFilter) (images : List Image) : List Image :=
  ((images.zip (filter.offerAll images)).filter (·.2)).map (·.1)

def after (filter : ImageFilter) (images : List Image) : ImageFilter :=
  images.foldl (fun filter image => (filter.offer image).2) filter

theorem passing_cons (filter : ImageFilter) (image : Image) (rest : List Image) :
    filter.passing (image :: rest) =
      (if (filter.offer image).1 then [image] else []) ++ (filter.offer image).2.passing rest := by
  unfold passing
  rw [offerAll, List.zip_cons_cons]
  cases (filter.offer image).1 <;> simp

end ImageFilter

def Event.live (text : String) : List Event := if text.isEmpty then [] else [.textDelta text]

theorem Event.delta?_live (text : String) :
    String.join ((Event.live text).filterMap delta?) = text := by
  unfold live
  split
  · next empty => exact (String.isEmpty_iff.mp empty).symm
  · exact String.join_cons.trans String.append_empty

namespace Turn

variable {turn : Turn}

theorem emit_sent (unfinished : turn.finished = false) (event : Event) :
    (turn.emit event).sent = turn.sent ++ [event] := by simp [emit, unfinished]

theorem emit_unfinished (unfinished : turn.finished = false) (event : Event) :
    (turn.emit event).finished = false := by simp [emit, unfinished]

theorem finish_sent (unfinished : turn.finished = false) :
    turn.finish.sent = turn.sent ++ [.done] := emit_sent unfinished _

theorem flushText_sent (unfinished : turn.finished = false) :
    turn.flushText.sent = turn.sent ++ Event.live turn.markup.finish.1 := by
  unfold flushText emitText Event.live
  dsimp only
  split
  · exact (List.append_nil _).symm
  · apply emit_sent
    exact unfinished

theorem flushText_images (turn : Turn) : turn.flushText.images = turn.images := by
  unfold flushText emitText emit
  dsimp only
  split
  · rfl
  · split <;> rfl

theorem pushImage_images (turn : Turn) (image : Image) :
    (turn.pushImage image).images = (turn.images.offer image).2 := by
  unfold pushImage emit
  dsimp only
  split
  · split <;> rfl
  · rfl

theorem pushImage_sent (unfinished : turn.finished = false) (image : Image) :
    (turn.pushImage image).sent =
      turn.sent ++ (if (turn.images.offer image).1 then [image] else []).map .imageData := by
  unfold pushImage
  dsimp only
  split
  · apply emit_sent
    exact unfinished
  · exact (List.append_nil _).symm

theorem foldl_pushImage_images (images : List Image) (turn : Turn) :
    (images.foldl pushImage turn).images = turn.images.after images :=
  (List.foldl_hom Turn.images fun turn image => (pushImage_images turn image).symm).symm

theorem foldl_pushImage_liveText (images : List Image) (turn : Turn) :
    (images.foldl pushImage turn).liveText = turn.liveText := by
  induction images generalizing turn with
  | nil => rfl
  | cons image rest ih => rw [List.foldl_cons, ih, liveText_pushImage]

theorem foldl_pushImage_sent (images : List Image) (unfinished : turn.finished = false) :
    (images.foldl pushImage turn).sent =
      turn.sent ++ (turn.images.passing images).map .imageData := by
  induction images generalizing turn with
  | nil => simp [ImageFilter.passing]
  | cons image rest ih =>
    have goesOn : (turn.pushImage image).finished = false :=
      (congrArg LiveText.finished (turn.liveText_pushImage image)).trans unfinished
    rw [List.foldl_cons, ih goesOn, pushImage_sent unfinished, pushImage_images,
      ImageFilter.passing_cons, List.map_append, List.append_assoc]

theorem foldl_pushText_join (settled : turn.markup.push "" = ("", turn.markup))
    (texts : List String) :
    (texts.foldl pushText turn).liveText = (turn.pushText (String.join texts)).liveText := by
  cases texts with
  | nil =>
    -- pushing the empty text has the same effect as pushing nothing
    rw [String.join_nil, liveText_pushText, settled, String.append_empty, String.append_empty,
      ite_self]
    rfl
  | cons first rest => exact turn.foldl_pushText first rest

end Turn

/-- The live text of a turn depends only on the joined text of its parts. -/
theorem Supervisor.liveText_of_parts (parts : List RecordPart) (maxImages : Nat) :
    let streamed := String.join (parts.filterMap RecordPart.text?)
    (parts.foldl addPart (.start maxImages)).liveText =
      ⟨streamed, (({} : Text.Markup).push streamed).2, (({} : Text.Markup).push streamed).1,
        false⟩ := by
  have fresh : (Turn.start maxImages).liveText = ⟨"", {}, "", false⟩ := rfl
  rw [liveText_foldl parts rfl, Turn.foldl_pushText_join Text.Markup.push_nothing_fresh,
    Turn.liveText_pushText]
  obtain ⟨merged, markup, shown, finished⟩ := Turn.LiveText.mk.inj fresh
  rw [merged, markup, shown, finished]
  simp

namespace Decoder

variable {decoder : Decoder}

theorem hear_eq (decoder : Decoder) (records : List Json) (turn : Turn) :
    decoder.hear records turn = (records.flatMap decoder.parts).foldl Supervisor.addPart turn :=
  List.foldl_flatMap.symm

theorem join_texts (agree : ∀ record, decoder.KindsAgree record) (records : List Json) :
    String.join ((records.flatMap decoder.parts).filterMap RecordPart.text?) =
      String.join (records.filterMap decoder.text) := by
  induction records with
  | nil => rfl
  | cons record rest ih =>
    rw [List.flatMap_cons, List.filterMap_append, String.join_append, (agree record).text, ih]
    cases text : decoder.text record with
    | none => rw [List.filterMap_cons_none text, Option.getD_none, String.empty_append]
    | some body => rw [List.filterMap_cons_some text, Option.getD_some, String.join_cons]

theorem flatMap_partImages (agree : ∀ record, decoder.KindsAgree record) (records : List Json) :
    (records.flatMap decoder.parts).filterMap RecordPart.image? = records.flatMap decoder.images := by
  rw [List.filterMap_flatMap]
  exact List.flatMap_congr fun record _ => (agree record).images

theorem hear_liveText (agree : ∀ record, decoder.KindsAgree record) (records : List Json)
    (maxImages : Nat) :
    let streamed := String.join (records.filterMap decoder.text)
    (decoder.hear records (.start maxImages)).liveText =
      ⟨streamed, (({} : Text.Markup).push streamed).2, (({} : Text.Markup).push streamed).1,
        false⟩ := by
  rw [hear_eq, Supervisor.liveText_of_parts, join_texts agree]

/-- Only the images of the records affect the image filter. -/
theorem hear_imageSide (agree : ∀ record, decoder.KindsAgree record) (records : List Json)
    (turn : Turn) : (decoder.hear records turn).side .image =
      (records.flatMap decoder.images).foldl Turn.pushImage (turn.side .image) := by
  have other : Kind.image ≠ .text := nofun
  have side := Supervisor.side_foldl other (records.flatMap decoder.parts) turn
  rw [RecordPart.filter_images, List.foldl_map, ← hear_eq, flatMap_partImages agree] at side
  exact side

theorem hear_images (agree : ∀ record, decoder.KindsAgree record) (records : List Json)
    (turn : Turn) :
    (decoder.hear records turn).images = turn.images.after (records.flatMap decoder.images) := by
  have images := congrArg Turn.images (hear_imageSide agree records turn)
  rw [Turn.foldl_pushImage_images] at images
  exact images

namespace StreamJson

def payloadText (result : Json) : String :=
  match result.member? "result" with
  | some (.string text) => text
  | some payload => String.join (payload.items.filterMap Json.textBlock?)
  | none => ""

def payloadImages (result : Json) : List Image :=
  match result.member? "result" with
  | some payload => payload.items.filterMap Json.imageBlock?
  | none => []

def answerText (result : Json) (streamed : String) : String :=
  if Text.allBlank (payloadText result) then Text.trim streamed else payloadText result

/-- The event that tells of the outcome of a turn: its error, or its final text unless that is
    empty. -/
def outcome (result : Json) (streamed : String) : List Event :=
  match resultError result with
  | some message => [.error message]
  | none =>
    let text := Text.trim (Text.Markup.strip (answerText result streamed))
    if text.isEmpty then [] else [.textFinal text]

variable {result : Json}

theorem final_mem_outcome {streamed text : String} : .textFinal text ∈ outcome result streamed ↔
    resultError result = none ∧
      text = Text.trim (Text.Markup.strip (answerText result streamed)) ∧ text.isEmpty = false := by
  unfold outcome
  cases resultError result with
  | some message => simp
  | none =>
    dsimp only
    split
    · next empty =>
      simp only [List.not_mem_nil, true_and, false_iff, not_and, Bool.not_eq_false]
      rintro rfl
      exact empty
    · next left =>
      simp only [List.mem_singleton, Event.textFinal.injEq, true_and]
      refine ⟨fun same => ⟨same, ?_⟩, And.left⟩
      rw [same]
      exact Bool.eq_false_iff.mpr left

theorem isResult_of_type (ends : recordType? result = some resultType) : isResult result = true := by
  simp [isResult, ends]

theorem ownText (ends : recordType? result = some resultType) :
    (resultText result).or ((resultContent result).bind (·.text)) =
      if Text.allBlank (payloadText result) then none else some (payloadText result) := by
  have isResult := isResult_of_type ends
  unfold resultText resultContent payloadText
  rw [if_pos isResult]
  cases payload : result.member? "result" with
  | none => simp [isResult, guard, Text.allBlank]
  | some value =>
    cases value with
    | string text =>
      cases blank : Text.allBlank text <;>
        simp [isResult, guard, Json.string?, Json.array?, Option.filter, blank]
    | array items => simp [isResult, guard, Json.string?, Json.array?, joinedText_list]
    -- a payload of any other kind has no blocks
    | _ => simp [isResult, guard, Json.string?, Json.array?, Json.items, Text.allBlank]

theorem finalText_streamJson (partialMessages : Bool) (ends : recordType? result = some resultType)
    (streamed : String) : Supervisor.finalText (streamJson partialMessages) result streamed =
      Text.trim (Text.Markup.strip (answerText result streamed)) := by
  have own : ((streamJson partialMessages).resultText result).or
      (((streamJson partialMessages).resultContent result).bind (·.text)) = _ := ownText ends
  unfold Supervisor.finalText answerText
  rw [own]
  cases blank : Text.allBlank (payloadText result) <;> simp [Option.filter, blank, streamJson]

theorem images_streamJson (partialMessages : Bool) (ends : recordType? result = some resultType) :
    (((streamJson partialMessages).resultContent result).map (·.images)).getD [] =
      payloadImages result := by
  have isResult := isResult_of_type ends
  change ((resultContent result).map (·.images)).getD [] = payloadImages result
  unfold resultContent payloadImages
  cases payload : result.member? "result" with
  | none => simp [isResult, guard]
  | some value =>
    cases value <;> simp [isResult, guard, Json.array?, Json.items, inlineImages_list]

theorem resultError_isSome (ends : recordType? result = some resultType) :
    (resultError result).isSome = true ↔ (result.member? "is_error").bind Json.bool? = some true := by
  unfold resultError guard
  rw [if_pos (isResult_of_type ends)]
  by_cases failed : (result.member? "is_error").bind Json.bool? = some true
  · simp [failed]
  · rw [if_neg failed]
    exact iff_of_false Bool.false_ne_true failed

end StreamJson

end Decoder

namespace Supervisor

open Decoder.StreamJson (payloadImages outcome)

/-- The events that a result adds to a turn. -/
theorem concludeWith_sent {turn : Turn} (unfinished : turn.finished = false) (partialMessages : Bool)
    {result : Json} (ends : recordType? result = some resultType) :
    (concludeWith (.streamJson partialMessages) result turn).finish.sent =
      turn.sent ++ Event.live turn.markup.finish.1 ++
        (turn.images.passing (payloadImages result)).map .imageData ++
        outcome result turn.merged ++ [.done] := by
  obtain ⟨merged, -, -, flushed⟩ := Turn.LiveText.mk.inj turn.liveText_flushText
  have text := Turn.foldl_pushImage_liveText (payloadImages result) turn.flushText
  have sent := Turn.foldl_pushImage_sent (payloadImages result) (flushed.trans unfinished)
  obtain ⟨sameMerged, -, -, sameFinished⟩ := Turn.LiveText.mk.inj text
  have goesOn := sameFinished.trans (flushed.trans unfinished)
  rw [Turn.flushText_sent unfinished, Turn.flushText_images] at sent
  have images := Decoder.StreamJson.images_streamJson partialMessages ends
  have final := Decoder.StreamJson.finalText_streamJson partialMessages ends turn.merged
  have error : (Decoder.streamJson partialMessages).resultError result =
      Decoder.StreamJson.resultError result := rfl
  rw [← sent]
  unfold concludeWith outcome
  dsimp only
  rw [images, error, sameMerged, merged, final]
  cases Decoder.StreamJson.resultError result with
  | some message => rw [Turn.finish_sent (Turn.emit_unfinished goesOn _), Turn.emit_sent goesOn]
  | none =>
    dsimp only
    split
    · rw [List.append_nil, Turn.finish_sent goesOn]
    · rw [Turn.finish_sent (Turn.emit_unfinished goesOn _), Turn.emit_sent goesOn]

theorem told_deltas (before : Turn) (held : String) (images : List Image) (result : Json)
    (streamed : String) :
    String.join ((before.sent ++ Event.live held ++ images.map Event.imageData ++
      outcome result streamed ++ [Event.done]).filterMap Event.delta?) = before.shown ++ held := by
  have imageless : (images.map Event.imageData).filterMap Event.delta? = [] := by
    rw [List.filterMap_map]
    exact List.filterMap_eq_nil_iff.mpr fun _ _ => rfl
  have textless : (outcome result streamed).filterMap Event.delta? = [] := by
    unfold outcome
    split
    · rfl
    · dsimp only
      split <;> rfl
  have ended : [Event.done].filterMap Event.delta? = [] := rfl
  simp only [List.filterMap_append, imageless, textless, ended, List.append_nil]
  rw [String.join_append, Event.delta?_live]
  rfl

end Supervisor

end AgentHost
