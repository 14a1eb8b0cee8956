import AgentHost.Decoder.StreamJson
import Mathlib.Data.List.Chain

namespace AgentHost

namespace RecordPart

def text? : RecordPart → Option String
  | .text body => some body
  | _ => none

def toolUse? : RecordPart → Option ToolUse
  | .toolUse tool => some tool
  | _ => none

def toolResult? : RecordPart → Option String
  | .toolResult id => some id
  | _ => none

def image? : RecordPart → Option Image
  | .image source => some source
  | _ => none

def isText (part : RecordPart) : Bool := part.text?.isSome

theorem join_text (head : String) (rest : List RecordPart) :
    String.join ((text head :: rest).filterMap text?) = head ++ String.join (rest.filterMap text?) :=
  String.join_cons

def byKind (texts : List String) (uses : List ToolUse) (results : List String)
    (images : List Image) : List RecordPart :=
  texts.map .text ++ uses.map .toolUse ++ results.map .toolResult ++ images.map .image

section ByKind

variable (texts : List String) (uses : List ToolUse) (results : List String) (images : List Image)

theorem byKind_texts : (byKind texts uses results images).filterMap text? = texts := by
  simp [byKind, List.filterMap_map, Function.comp_def, text?]

theorem byKind_toolUses : (byKind texts uses results images).filterMap toolUse? = uses := by
  simp [byKind, List.filterMap_map, Function.comp_def, toolUse?]

theorem byKind_toolResults : (byKind texts uses results images).filterMap toolResult? = results := by
  simp [byKind, List.filterMap_map, Function.comp_def, toolResult?]

theorem byKind_images : (byKind texts uses results images).filterMap image? = images := by
  simp [byKind, List.filterMap_map, Function.comp_def, image?]

theorem text_mem_byKind {body : String} : .text body ∈ byKind texts uses results images ↔ body ∈ texts := by
  simp [byKind]

end ByKind

end RecordPart

/-- The parts of a record are, kind by kind and in order, what the decoder extracts by kind. Text
    parts are not empty, and no two of them are adjacent. -/
structure Decoder.KindsAgree (decoder : Decoder) (record : Json) : Prop where
  text : String.join ((decoder.parts record).filterMap RecordPart.text?) = (decoder.text record).getD ""
  toolUses : (decoder.parts record).filterMap RecordPart.toolUse? = decoder.toolUses record
  toolResults : (decoder.parts record).filterMap RecordPart.toolResult? = decoder.toolResults record
  images : (decoder.parts record).filterMap RecordPart.image? = decoder.images record
  solid : .text "" ∉ decoder.parts record
  apart : (decoder.parts record).IsChain fun part next => ¬ (part.isText ∧ next.isText)

namespace Decoder.StreamJson

section JoinTexts

/-- A text is merged with the first part of the rest if that is a text too. -/
theorem joinTexts_text (head : String) (rest : List RecordPart) :
    (∃ next more, joinTexts rest = .text next :: more ∧
      joinTexts (.text head :: rest) = .text (head ++ next) :: more) ∨
    ((joinTexts rest).head?.all (!·.isText)) ∧
      joinTexts (.text head :: rest) = .text head :: joinTexts rest := by
  rw [joinTexts]
  split
  · next next more joined => exact .inl ⟨next, more, joined, rfl⟩
  · next unjoined =>
    refine .inr ⟨?_, rfl⟩
    cases parts : joinTexts rest with
    | nil => rfl
    | cons first more =>
      cases first with
      | text next => exact (unjoined next more parts).elim
      | _ => rfl

theorem joinTexts_other {part : RecordPart} (other : part.isText = false) (rest : List RecordPart) :
    joinTexts (part :: rest) = part :: joinTexts rest := by
  cases part with
  | text => simp [RecordPart.isText, RecordPart.text?] at other
  | _ => rfl

/-- Merging texts does not affect parts of other kinds. -/
theorem filterMap_joinTexts {α : Type} {kind? : RecordPart → Option α}
    (other : ∀ text, kind? (.text text) = none) (parts : List RecordPart) :
    (joinTexts parts).filterMap kind? = parts.filterMap kind? := by
  induction parts with
  | nil => rfl
  | cons part rest ih =>
    cases part with
    | text head =>
      rw [List.filterMap_cons_none (other head), ← ih]
      rcases joinTexts_text head rest with ⟨next, more, joined, joins⟩ | ⟨-, apart⟩
      · rw [joins, joined, List.filterMap_cons_none (other _), List.filterMap_cons_none (other _)]
      · rw [apart, List.filterMap_cons_none (other head)]
    | _ => rw [joinTexts_other rfl, List.filterMap_cons, List.filterMap_cons, ih]

theorem texts_joinTexts (parts : List RecordPart) :
    String.join ((joinTexts parts).filterMap RecordPart.text?) =
      String.join (parts.filterMap RecordPart.text?) := by
  induction parts with
  | nil => rfl
  | cons part rest ih =>
    cases part with
    | text head =>
      rw [RecordPart.join_text, ← ih]
      rcases joinTexts_text head rest with ⟨next, more, joined, joins⟩ | ⟨-, apart⟩
      · rw [joins, joined, RecordPart.join_text, RecordPart.join_text, String.append_assoc]
      · rw [apart, RecordPart.join_text]
    | _ => exact ih

theorem joinTexts_solid {parts : List RecordPart} (solid : .text "" ∉ parts) :
    .text "" ∉ joinTexts parts := by
  induction parts with
  | nil => exact solid
  | cons part rest ih =>
    obtain ⟨first, others⟩ := not_or.mp (mt List.mem_cons.mpr solid)
    have still := ih others
    cases part with
    | text head =>
      rcases joinTexts_text head rest with ⟨next, more, joined, joins⟩ | ⟨-, apart⟩
      · rw [joined, List.mem_cons, not_or] at still
        rw [joins, List.mem_cons, not_or]
        refine ⟨fun empty => first ?_, still.2⟩
        have nothing := RecordPart.text.inj empty
        rw [eq_comm, String.append_eq_empty_iff] at nothing
        rw [nothing.1]
      · rw [apart, List.mem_cons, not_or]
        exact ⟨first, still⟩
    | _ =>
      rw [joinTexts_other rfl, List.mem_cons, not_or]
      exact ⟨first, still⟩

theorem joinTexts_apart (parts : List RecordPart) :
    (joinTexts parts).IsChain fun part next => ¬ (part.isText ∧ next.isText) := by
  induction parts with
  | nil => exact .nil
  | cons part rest ih =>
    cases part with
    | text head =>
      rcases joinTexts_text head rest with ⟨next, more, joined, joins⟩ | ⟨other, apart⟩
      · rw [joins]
        rw [joined] at ih
        refine ih.imp_head ?_
        exact fun apart => apart
      · rw [apart, List.isChain_cons]
        refine ⟨fun next first both => ?_, ih⟩
        rw [first] at other
        simp [both.2] at other
    | _ =>
      rw [joinTexts_other rfl, List.isChain_cons]
      exact ⟨fun next _ both => Bool.noConfusion both.1, ih⟩

end JoinTexts

section Blocks

variable (partialMessages assistant : Bool)

def shownText (block : Block) : Option String :=
  (textOf block).filter fun body => assistant && !partialMessages && !body.isEmpty

theorem blockParts_byKind (block : Block) : blockParts partialMessages assistant block =
    RecordPart.byKind (shownText partialMessages assistant block).toList
      (if assistant then (toolUseOf block).toList else [])
      (if assistant then [] else (toolResultOf block).toList) (blockImages block) := by
  cases block with
  | text body =>
    rw [shownText, textOf, Option.filter_some, blockParts]
    split <;> cases assistant <;> rfl
  | toolUse id name input => cases assistant <;> rfl
  | toolResult id content isError => cases assistant <;> rfl
  | image source => cases assistant <;> rfl
  | unknown => cases assistant <;> rfl

variable (blocks : List Block)

theorem flatMap_images : (blocks.flatMap (blockParts partialMessages assistant)).filterMap
    RecordPart.image? = blocks.flatMap blockImages := by
  simp only [List.filterMap_flatMap, blockParts_byKind, RecordPart.byKind_images]

theorem flatMap_toolUses : (blocks.flatMap (blockParts partialMessages assistant)).filterMap
    RecordPart.toolUse? = if assistant then blocks.filterMap toolUseOf else [] := by
  simp only [List.filterMap_flatMap, blockParts_byKind, RecordPart.byKind_toolUses]
  cases assistant with
  | false => exact List.flatMap_eq_nil_iff.mpr fun block _ => rfl
  | true => exact (List.filterMap_eq_flatMap_toList _ _).symm

theorem flatMap_toolResults : (blocks.flatMap (blockParts partialMessages assistant)).filterMap
    RecordPart.toolResult? = if assistant then [] else blocks.filterMap toolResultOf := by
  simp only [List.filterMap_flatMap, blockParts_byKind, RecordPart.byKind_toolResults]
  cases assistant with
  | false => exact (List.filterMap_eq_flatMap_toList _ _).symm
  | true => exact List.flatMap_eq_nil_iff.mpr fun block _ => rfl

theorem flatMap_texts : (blocks.flatMap (blockParts partialMessages assistant)).filterMap
    RecordPart.text? = blocks.filterMap (shownText partialMessages assistant) := by
  simp only [List.filterMap_flatMap, blockParts_byKind, RecordPart.byKind_texts]
  exact (List.filterMap_eq_flatMap_toList _ _).symm

theorem join_shownText : String.join (blocks.filterMap (shownText false true)) = joinedText blocks := by
  unfold joinedText
  induction blocks with
  | nil => rfl
  | cons block rest ih =>
    cases text : textOf block with
    | none =>
      have hidden : shownText false true block = none := by rw [shownText, text, Option.filter_none]
      rw [List.filterMap_cons_none hidden, List.filterMap_cons_none text, ih]
    | some body =>
      rw [List.filterMap_cons_some text, String.join_cons, ← ih]
      by_cases empty : body = ""
      · -- an empty text is left out, and adds nothing where it is not
        have hidden : shownText false true block = none := by simp [shownText, text, empty]
        rw [List.filterMap_cons_none hidden, empty, String.empty_append]
      · have shown : shownText false true block = some body := by simp [shownText, text, empty]
        rw [List.filterMap_cons_some shown, String.join_cons]

theorem flatMap_solid : .text "" ∉ blocks.flatMap (blockParts partialMessages assistant) := by
  intro empty
  obtain ⟨block, _, member⟩ := List.mem_flatMap.mp empty
  rw [blockParts_byKind, RecordPart.text_mem_byKind, Option.mem_toList] at member
  have shown := (Option.filter_eq_some_iff.mp member).2
  simp at shown

end Blocks

section Records

variable {partialMessages : Bool} {record : Json}

theorem text_solid : text partialMessages record ≠ some "" := by
  have unshown (body : String) : (if body.isEmpty then none else some body) ≠ some "" := by
    split
    · exact nofun
    · next solid => exact fun empty => solid (by rw [Option.some.inj empty]; rfl)
  intro empty
  obtain ⟨type, _, rest⟩ := Option.bind_eq_some_iff.mp empty
  dsimp only at rest
  split at rest
  · obtain ⟨body, _, shown⟩ := Option.bind_eq_some_iff.mp rest
    exact unshown body shown
  · exact unshown _ rest
  · exact nomatch rest

theorem text_message {assistant : Bool}
    (type : recordType? record = some (if assistant then "assistant" else "user")) :
    (text partialMessages record).getD "" =
      String.join ((messageBlocks record).filterMap (shownText partialMessages assistant)) := by
  by_cases shown : (assistant && !partialMessages) = true
  · obtain ⟨rfl, whole⟩ := Bool.and_eq_true_iff.mp shown
    obtain rfl : partialMessages = false := by simpa using whole
    have live : text false record = if (joinedText (messageBlocks record)).isEmpty then none
        else some (joinedText (messageBlocks record)) := by
      rw [text, type]
      rfl
    rw [live, join_shownText]
    split
    · next empty => exact (String.isEmpty_iff.mp empty).symm
    · rfl
  · have silent : text partialMessages record = none := by
      rw [text, type]
      cases assistant <;> cases partialMessages <;> first | rfl | exact absurd rfl shown
    have hidden : (messageBlocks record).filterMap (shownText partialMessages assistant) = [] := by
      apply List.filterMap_eq_nil_iff.mpr
      intro block _
      rw [shownText, Option.filter_eq_none_iff]
      intro body _ said
      exact shown (Bool.and_eq_true_iff.mp said).1
    rw [silent, hidden]
    rfl

theorem kindsAgree_message (assistant : Bool)
    (type : recordType? record = some (if assistant then "assistant" else "user")) :
    (streamJson partialMessages).KindsAgree record := by
  have parts : (streamJson partialMessages).parts record =
      joinTexts ((messageBlocks record).flatMap (blockParts partialMessages assistant)) := by
    show StreamJson.parts partialMessages record = _
    rw [StreamJson.parts, type]
    cases assistant <;> rfl
  constructor
  · rw [parts, texts_joinTexts, flatMap_texts]
    exact (text_message type).symm
  · rw [parts, filterMap_joinTexts fun _ => rfl, flatMap_toolUses]
    show _ = StreamJson.toolUses record
    rw [toolUses, type]
    cases assistant <;> rfl
  · rw [parts, filterMap_joinTexts fun _ => rfl, flatMap_toolResults]
    show _ = StreamJson.toolResults record
    rw [toolResults, type]
    cases assistant <;> rfl
  · rw [parts, filterMap_joinTexts fun _ => rfl, flatMap_images]
    show _ = StreamJson.images record
    rw [images, type]
    cases assistant <;> rfl
  · rw [parts]
    exact joinTexts_solid (flatMap_solid _ _ _)
  · rw [parts]
    exact joinTexts_apart _

theorem kindsAgree_other (assistant : recordType? record ≠ some "assistant")
    (user : recordType? record ≠ some "user") : (streamJson partialMessages).KindsAgree record := by
  have parts : (streamJson partialMessages).parts record =
      RecordPart.byKind (text partialMessages record).toList [] [] [] := by
    show StreamJson.parts partialMessages record = _
    unfold StreamJson.parts
    split
    · next type => exact absurd type assistant
    · next type => exact absurd type user
    · simp [RecordPart.byKind]
  constructor
  · rw [parts, RecordPart.byKind_texts]
    show _ = (text partialMessages record).getD ""
    cases text partialMessages record with
    | none => rfl
    | some body => exact String.join_cons.trans String.append_empty
  · rw [parts, RecordPart.byKind_toolUses]
    exact (if_neg assistant).symm
  · rw [parts, RecordPart.byKind_toolResults]
    exact (if_neg user).symm
  · rw [parts, RecordPart.byKind_images]
    exact (if_neg (not_or.mpr ⟨assistant, user⟩)).symm
  · rw [parts, RecordPart.text_mem_byKind, Option.mem_toList]
    exact text_solid
  · rw [parts]
    cases text partialMessages record with
    | none => exact .nil
    | some body => exact .singleton _

end Records

end Decoder.StreamJson

theorem Decoder.streamJson_kindsAgree (partialMessages : Bool) (record : Json) :
    (streamJson partialMessages).KindsAgree record := by
  by_cases assistant : recordType? record = some "assistant"
  · exact StreamJson.kindsAgree_message true assistant
  · by_cases user : recordType? record = some "user"
    · exact StreamJson.kindsAgree_message false user
    · exact StreamJson.kindsAgree_other assistant user

end AgentHost
