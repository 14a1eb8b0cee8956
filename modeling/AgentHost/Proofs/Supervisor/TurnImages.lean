import AgentHost.Proofs.ImageSelection
import AgentHost.Proofs.Supervisor.Answers

namespace AgentHost

open Decoder.StreamJson (payloadImages outcome)
open Image (selection Selected)

def Event.image? : Event → Option Image
  | .imageData image => some image
  | _ => none

namespace Turn

def toldImages (turn : Turn) : List Image := turn.sent.filterMap Event.image?

theorem unlogged_toldImages (turn : Turn) : turn.unlogged.toldImages = turn.toldImages := by
  unfold toldImages unlogged
  rw [List.filterMap_filter]
  apply List.filterMap_congr
  intro event _
  cases event <;> rfl

theorem side_toldImages (turn : Turn) : (turn.side .image).toldImages = turn.toldImages := by
  change (turn.told .image).filterMap Event.image? = turn.sent.filterMap Event.image?
  unfold told
  rw [List.filterMap_filter]
  apply List.filterMap_congr
  intro event _
  cases event <;> rfl

end Turn

theorem image?_map_imageData (images : List Image) :
    (images.map Event.imageData).filterMap Event.image? = images := by
  rw [List.filterMap_map]
  exact List.filterMap_some

namespace Decoder

theorem hear_toldImages (partialMessages : Bool) (records : List Json) (maxImages : Nat) :
    ((streamJson partialMessages).hear records (.start maxImages)).toldImages =
      selection maxImages (records.flatMap Json.messageImages) := by
  have unfinished : ((Turn.start maxImages).side .image).finished = false := rfl
  have fresh : ((Turn.start maxImages).side .image).images = { cap := maxImages } := rfl
  rw [← Turn.side_toldImages, hear_imageSide (streamJson_kindsAgree partialMessages), Turn.toldImages,
    Turn.foldl_pushImage_sent _ unfinished, fresh, ImageFilter.passing_fresh, streamJson_images]
  exact image?_map_imageData _

end Decoder

namespace Supervisor

/-- The images in the messages of a turn and then in its result. -/
def turnImages (decoder : Decoder) (call : Nat) (past : List Moment) : List Image :=
  (turnRecords decoder call past).flatMap Json.messageImages ++
    ((turnLines call past).findSome? (result? decoder)).toList.flatMap payloadImages

theorem told_images (before : Turn) (held : String) (images : List Image) (result : Json)
    (streamed : String) :
    (before.sent ++ Event.live held ++ images.map Event.imageData ++ outcome result streamed ++
      [Event.done]).filterMap Event.image? = before.toldImages ++ images := by
  have unlive : (Event.live held).filterMap Event.image? = [] := by
    unfold Event.live
    split <;> rfl
  have imageless : (outcome result streamed).filterMap Event.image? = [] := by
    unfold outcome
    split
    · rfl
    · dsimp only
      split <;> rfl
  have ended : [Event.done].filterMap Event.image? = [] := rfl
  simp only [List.filterMap_append, unlive, imageless, ended, List.append_nil,
    image?_map_imageData]
  rfl

section Step

variable {s : Supervisor} {call : Nat} {now : Nat} {action : Step}

/-- A step during which a call has no turn tells the call nothing, unless it rejects the call. -/
theorem Coherent.unheld (coherent : s.Coherent) (streams : s.Streams)
    (before : s.holds call = false) (later : (s.step now action).holds call = false) :
    (s.step now action).events call = s.events call ∨ s.events call = [] ∧
      ∃ message, (s.step now action).events call = TurnStream.rejection message := by
  have took := coherent.took now action
  have free {s : Supervisor} (unheld : s.holds call = false) (turn : Turn) :
      s.turn ≠ some (call, turn) := fun current =>
    Bool.false_ne_true (unheld.symm.trans (holds_iff.mpr ⟨turn, current⟩))
  by_cases called : call < s.calls
  · exact .inl (took.over coherent streams ⟨called, free before⟩).2
  · have ahead := Nat.le_of_not_lt called
    have silent := streams.events_ahead ahead
    have counted := took.calls
    have still := (took.keeps coherent streams).streams
    by_cases further : (s.step now action).calls ≤ call
    · exact .inl ((still.events_ahead further).trans silent.symm)
    · -- the call is that of this step
      cases action with
      | sendTurn prompt =>
        have latest : call = s.calls := by
          simp only [isCall, if_true] at counted
          omega
        rcases s.sendTurn_cases now prompt with ⟨turn, begun⟩ | ⟨message, _, refused⟩
        · exact absurd begun (latest ▸ free later turn)
        · refine .inr ⟨silent, message, ?_⟩
          have same : s.step now (.sendTurn prompt) = s.reject message := refused
          rw [same, latest]
          exact events_of_reject streams message
      | _ => exact absurd ahead (by rw [counted] at further; simpa [isCall] using further)

end Step

theorem turnImages_same {decoder : Decoder} {call : Nat} {past more : List Moment}
    (same : turnLines call past = turnLines call more) :
    turnImages decoder call past = turnImages decoder call more := by
  rw [turnImages, turnImages, turnRecords, turnRecords, same]

section Run

variable (settings : AgentSettings) (partialMessages hook : Bool)

theorem toldImages_of_current {steps : List (Nat × Step)} {call : Nat} {turn : Turn}
    (current : ((start settings (.streamJson partialMessages) hook).after steps).turn =
      some (call, turn)) : turn.toldImages =
        selection settings.maxImagesPerTurn (turnImages (.streamJson partialMessages) call
          ((start settings (.streamJson partialMessages) hook).moments steps)) := by
  let decoder := Decoder.streamJson partialMessages
  let past := (start settings decoder hook).moments steps
  obtain ⟨unanswered, heard⟩ := (run_recorded settings decoder hook steps).current call turn current
  have sameSettings : ((start settings decoder hook).after steps).settings = settings :=
    after_settings (start_coherent settings decoder hook) steps
  rw [run_decoder settings decoder hook steps] at unanswered heard
  rw [sameSettings] at heard
  have offered : turnImages decoder call past = (((turnLines call past).filterMap
      (record? decoder)).flatMap Json.messageImages) := by
    rw [turnImages, turnRecords, linesAhead_unanswered unanswered, unanswered]
    exact List.append_nil _
  rw [← turn.unlogged_toldImages, heard, hearLines_hear,
    Decoder.hear_toldImages partialMessages]
  exact congrArg _ offered.symm

theorem toldImages_of_answer {steps : List (Nat × Step)} {call : Nat} {action : Step} {result : Json}
    (held : ((start settings (.streamJson partialMessages) hook).after steps).holds call = true)
    (answers : ((start settings (.streamJson partialMessages) hook).after steps).answer? action =
      some result) (now : Nat) :
    (((start settings (.streamJson partialMessages) hook).after
        (steps ++ [(now, action)])).events call).filterMap Event.image? =
      selection settings.maxImagesPerTurn (turnImages (.streamJson partialMessages) call
        ((start settings (.streamJson partialMessages) hook).moments (steps ++ [(now, action)]))) := by
  let decoder := Decoder.streamJson partialMessages
  let past := (start settings decoder hook).moments (steps ++ [(now, action)])
  let records := turnRecords decoder call past
  obtain ⟨before, -, heard, -, whole⟩ :=
    told_of_answered_turn settings partialMessages hook held answers now
  have told : before.toldImages =
      selection settings.maxImagesPerTurn (records.flatMap Json.messageImages) := by
    rw [← before.unlogged_toldImages, heard]
    exact Decoder.hear_toldImages partialMessages records _
  rw [whole, told_images, told, turnImages,
    result_of_answer settings decoder hook held answers now, Option.toList_some, List.flatMap_singleton,
    ← ImageFilter.passing_fresh, ← ImageFilter.passing_fresh, ImageFilter.passing_append]

theorem toldImages_of_end {steps : List (Nat × Step)} {call now : Nat} {turn : Turn} {action : Step}
    {message : String}
    (current : ((start settings (.streamJson partialMessages) hook).after steps).turn =
      some (call, turn))
    (unread : action.isOutput = false)
    (ends : (((start settings (.streamJson partialMessages) hook).after steps).step now
      action).events call = turn.sent ++ [.error message, .done]) :
    (((start settings (.streamJson partialMessages) hook).after
        (steps ++ [(now, action)])).events call).filterMap Event.image? =
      selection settings.maxImagesPerTurn (turnImages (.streamJson partialMessages) call
        ((start settings (.streamJson partialMessages) hook).moments (steps ++ [(now, action)]))) := by
  let s := (start settings (.streamJson partialMessages) hook).after steps
  have lines : turnLines call ((start settings (.streamJson partialMessages) hook).moments
      (steps ++ [(now, action)])) = turnLines call
        ((start settings (.streamJson partialMessages) hook).moments steps) := by
    have none : Moment.lines ⟨now, action, s, s.step now action⟩ = [] := linesRead_of_other unread
    rw [moments_snoc, turnLines_held (holds_iff.mpr ⟨turn, current⟩), none, List.append_nil]
  rw [turnImages_same lines, after_snoc, ends, List.filterMap_append,
    ← toldImages_of_current settings partialMessages hook current]
  exact List.append_nil _

theorem run_toldImages (steps : List (Nat × Step)) (call : Nat) :
    (((start settings (.streamJson partialMessages) hook).after steps).events call).filterMap
        Event.image? =
      selection settings.maxImagesPerTurn (turnImages (.streamJson partialMessages) call
        ((start settings (.streamJson partialMessages) hook).moments steps)) := by
  let decoder := Decoder.streamJson partialMessages
  induction steps using List.reverseRecOn with
  | nil =>
    simp [start, after, moments, events, turnImages, turnRecords, turnLines, outputLines, linesAhead,
      selection, Image.firsts]
  | append_singleton steps last ih =>
    obtain ⟨now, action⟩ := last
    have coherent := run_coherent settings decoder hook steps
    have streams := run_streams settings decoder hook steps
    cases later : ((start settings decoder hook).after (steps ++ [(now, action)])).holds call with
    | true =>
      obtain ⟨turn, current⟩ := holds_iff.mp later
      rw [events_of_turn current]
      exact toldImages_of_current settings partialMessages hook current
    | false =>
      cases held : ((start settings decoder hook).after steps).holds call with
      | true =>
        obtain ⟨turn, current⟩ := holds_iff.mp held
        cases coherent.fate streams current now action with
        | stopped orders _ _ ends =>
          exact toldImages_of_end settings partialMessages hook current (unread_of_orders orders) ends
        | exited exits _ _ ends =>
          exact toldImages_of_end settings partialMessages hook current (unread_of_exit exits) ends
        | answered answers =>
          exact toldImages_of_answer settings partialMessages hook held answers now
        | goesOn _ _ _ _ _ goesOn =>
          rw [after_snoc, holds_iff.mpr ⟨_, goesOn⟩] at later
          contradiction
      | false =>
        rw [after_snoc] at later ⊢
        have lines : turnLines call ((start settings decoder hook).moments (steps ++ [(now, action)])) =
            turnLines call ((start settings decoder hook).moments steps) := by
          rw [moments_snoc]
          exact turnLines_other held
        rw [turnImages_same lines, ← ih]
        rcases coherent.unheld streams held later with same | ⟨silent, message, refused⟩
        · rw [same]
        · rw [silent, refused]
          rfl

/-- A turn shows the first image with each key, up to the cap, of those in its messages and in its
    result. Images that are dropped do not affect later ones. -/
theorem images_of_turn (steps : List (Nat × Step)) (call : Nat) :
    let decoder := Decoder.streamJson partialMessages
    let cap := settings.maxImagesPerTurn
    let past := (start settings decoder hook).moments steps
    let offered := turnImages decoder call past
    let told := (((start settings decoder hook).after steps).events call).filterMap Event.image?
    let filter : ImageFilter := { cap }
    told = selection cap offered ∧ Selected cap offered told ∧ told = filter.passing offered ∧
      ∀ before others rest, filter.passing before = filter.passing others →
        (filter.after before).offerAll rest = (filter.after others).offerAll rest := by
  intro decoder cap past offered told filter
  have same : told = selection cap offered := run_toldImages settings partialMessages hook steps call
  exact ⟨same, same ▸ Image.selection_selected cap offered,
    same.trans (ImageFilter.passing_fresh cap offered).symm,
    fun _ _ rest passed => ImageFilter.decisions_of_passing passed rest⟩

end Run

/-- Images in a message, in a tool result and in the result of the turn, with two repetitions and
    one image above the cap. -/
theorem images_of_pictured_turn :
    let messages (blocks : List Json) : Json :=
      .object [("type", .string "user"), ("message", .object [("content", .array blocks)])]
    let records := [messages [pngBlock "AA=="], messages [.object [("type", .string "tool_result"),
      ("tool_use_id", .string "t"), ("content", .array [pngBlock "AQ==", pngBlock "AA=="])]]]
    let result : Json := .object [("type", .string "result"),
      ("result", .array [pngBlock "AQ==", pngBlock "Ag==", pngBlock "Aw=="])]
    let begun : List (Nat × Step) := [(0, .spawn (.ok 1)), (1, .sendTurn ⟨"go", []⟩)]
    let answer := Step.readOutput (Json.lineBytes (records ++ [result]))
    let settings : AgentSettings := { maxImagesPerTurn := 3 }
    (((start settings (.streamJson false) true).after (begun ++ [(2, answer)])).events 0).filterMap
        Event.image? =
      [⟨"image/png", "AA=="⟩, ⟨"image/png", "AQ=="⟩, ⟨"image/png", "Ag=="⟩] := by
  intro messages records result begun answer settings
  have heeded : ∀ record ∈ records ++ [result], record.Heeded := by decide +kernel
  have mid : ∀ record ∈ records, recordType? record ≠ some resultType := by decide +kernel
  have held : ((start settings (.streamJson false) true).after begun).holds 0 = true := by
    decide +kernel
  obtain ⟨answers, written⟩ := turn_of_written heeded mid (by decide +kernel) held (by decide +kernel)
    (by decide +kernel) (by decide +kernel) 2
  have offered : turnImages (.streamJson false) 0
      ((start settings (.streamJson false) true).moments (begun ++ [(2, answer)])) =
        records.flatMap Json.messageImages ++ payloadImages result := by
    rw [turnImages, written, result_of_answer settings (.streamJson false) true held answers 2,
      Option.toList_some, List.flatMap_singleton]
  have selected : selection 3 (records.flatMap Json.messageImages ++ payloadImages result) =
      [⟨"image/png", "AA=="⟩, ⟨"image/png", "AQ=="⟩, ⟨"image/png", "Ag=="⟩] := by decide +kernel
  obtain ⟨told, -⟩ := images_of_turn settings false true (begun ++ [(2, answer)]) 0
  rw [offered] at told
  exact told.trans selected

end Supervisor

end AgentHost
