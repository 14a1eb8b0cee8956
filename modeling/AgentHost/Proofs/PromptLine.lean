import AgentHost.Prompt
import AgentHost.Proofs.RecordForms
import AgentHost.Proofs.RecordLines

namespace AgentHost

namespace Prompt

open Decoder
open Json (Textual)

theorem text_textual (depth : Nat) (text : String) : Textual (depth + 2) (Block.text text).toJson := by
  refine .object (by simp [Block.fields]) fun member among => ?_
  simp only [Block.fields, List.mem_cons, List.not_mem_nil, or_false] at among
  rcases among with rfl | rfl <;> exact .string _ _

theorem image_textual (depth : Nat) (image : Image) :
    Textual (depth + 2) (Block.image (ImageSource.ofImage image)).toJson := by
  have source : Textual (depth + 1) (ImageSource.ofImage image).toJson := by
    refine .object (by simp) fun member among => ?_
    simp only [List.mem_cons, List.not_mem_nil, or_false] at among
    rcases among with rfl | rfl | rfl <;> exact .string _ _
  refine .object (by simp [Block.fields]) fun member among => ?_
  simp only [Block.fields, List.mem_cons, List.not_mem_nil, or_false] at among
  rcases among with rfl | rfl
  · exact .string _ _
  · exact source

theorem content_textual (prompt : Prompt) (depth : Nat) : Textual (depth + 3) prompt.content := by
  unfold content
  split
  · exact .string _ _
  · refine .array fun item among => ?_
    rcases List.mem_cons.mp among with rfl | among
    · exact text_textual depth prompt.text
    · obtain ⟨image, _, rfl⟩ := List.mem_map.mp among
      exact image_textual depth image

theorem record_textual (prompt : Prompt) : Textual Json.depthLimit prompt.record := by
  have message : Textual 126 (.object [("role", .string "user"), ("content", prompt.content)]) := by
    refine .object (by simp) fun member among => ?_
    simp only [List.mem_cons, List.not_mem_nil, or_false] at among
    rcases among with rfl | rfl
    · exact .string _ _
    · exact prompt.content_textual 122
  refine .object (by simp) fun member among => ?_
  simp only [List.mem_cons, List.not_mem_nil, or_false] at among
  rcases among with rfl | rfl
  · exact .string _ _
  · exact message

theorem record_heeded (prompt : Prompt) : prompt.record.Heeded :=
  ⟨prompt.record_textual, "user", rfl, by decide⟩

theorem encode_line (prompt : Prompt) :
    Text.Utf8.encode prompt.line = Text.Utf8.encode prompt.record.render ++ [10] := by
  rw [line, Text.Utf8.encode_append]
  rfl

/-- However the bytes of a prompt line are cut, they give one line. -/
theorem pushAll_line (prompt : Prompt) {chunks : List (List UInt8)}
    (bytes : chunks.flatten = Text.Utf8.encode prompt.line) :
    ({} : Text.LineBuffer).pushAll chunks = ([prompt.record.render], {}) := by
  have textual : ∀ record ∈ [prompt.record], Json.Textual Json.depthLimit record := by
    simpa using prompt.record_textual
  have pushed := Json.push_lineBytes textual
  rw [Json.lineBytes, List.flatMap_singleton, ← encode_line] at pushed
  rw [Text.LineBuffer.pushAll_eq rfl, bytes]
  exact pushed

theorem parseLine_render (prompt : Prompt) :
    StreamJson.parseLine prompt.record.render = some prompt.record :=
  prompt.record_heeded.parseLine_render

theorem messageBlocks_record (prompt : Prompt) : StreamJson.messageBlocks prompt.record =
    if prompt.images.isEmpty then []
    else .text prompt.text :: prompt.images.map fun image => .image (ImageSource.ofImage image) := by
  have blocks : StreamJson.messageBlocks prompt.record = Block.list prompt.content := rfl
  rw [blocks, content]
  split
  · rfl
  · rw [← Block.list_toJson (.text prompt.text :: _), List.map_cons, List.map_map]
    rfl

theorem joinTexts_images (images : List Image) :
    StreamJson.joinTexts (images.map .image) = images.map .image := by
  induction images with
  | nil => rfl
  | cons image images ih => rw [List.map_cons, StreamJson.joinTexts, ih]; simp

/-- Read back as a record, a prompt gives its images, but not its text. -/
theorem parts_record (prompt : Prompt) (partialMessages : Bool) :
    StreamJson.parts partialMessages prompt.record = prompt.images.map .image := by
  change StreamJson.joinTexts ((StreamJson.messageBlocks prompt.record).flatMap
    (StreamJson.blockParts partialMessages false)) = _
  rw [messageBlocks_record]
  split
  · next none => rw [List.isEmpty_iff.mp none]; rfl
  · have parts : (prompt.images.map fun image => Block.image (ImageSource.ofImage image)).flatMap
        (StreamJson.blockParts partialMessages false) = prompt.images.map .image := by
      rw [List.flatMap_map, List.map_eq_flatMap]
      rfl
    rw [List.flatMap_cons, parts]
    exact joinTexts_images prompt.images

theorem record_injective {prompt other : Prompt} (same : prompt.record = other.record) :
    prompt = other := by
  have content : prompt.content = other.content := by simpa [record] using same
  have parts := prompt.parts_record false
  rw [same, other.parts_record] at parts
  have images : prompt.images = other.images :=
    List.map_injective_iff.mpr (fun _ _ => RecordPart.image.inj) parts.symm
  obtain ⟨text, shown⟩ := prompt
  obtain ⟨otherText, otherShown⟩ := other
  obtain rfl : shown = otherShown := images
  cases shown <;> simp_all [Prompt.content, Block.toJson, Block.fields]

/-- A prompt is written as a single line whatever it contains, and all of it can be read back from
    that line. -/
theorem line_read_back (prompt : Prompt) :
    (∃ body, Text.Utf8.encode prompt.line = body ++ [10] ∧ ∀ b ∈ body, b ≠ 10 ∧ b ≠ 13) ∧
    (∀ other : Prompt, other.line = prompt.line → other = prompt) ∧
    ∃ line record,
      (∀ chunks : List (List UInt8), chunks.flatten = Text.Utf8.encode prompt.line →
        ({} : Text.LineBuffer).pushAll chunks = ([line], {})) ∧
      recordType? record = some "user" ∧
      (record.member? "message").bind (·.member? "content") = some (
        if prompt.images = [] then .string prompt.text
        else .array (.object [("type", .string "text"), ("text", .string prompt.text)] ::
          prompt.images.map fun image => .object [("type", .string "image"),
            ("source", .object [("type", .string "base64"),
              ("media_type", .string image.mediaType), ("data", .string image.data)])])) ∧
      ∀ partialMessages, (Decoder.streamJson partialMessages).parseLine line = some record ∧
        (Decoder.streamJson partialMessages).parts record = prompt.images.map .image := by
  refine ⟨⟨_, prompt.encode_line, fun b member => ?_⟩, fun other same => ?_, prompt.record.render,
    prompt.record, fun chunks bytes => prompt.pushAll_line bytes, rfl, ?_,
    fun partialMessages => ⟨prompt.parseLine_render, prompt.parts_record partialMessages⟩⟩
  · simpa [Text.isLineEnd] using prompt.record_textual.unended b member
  · have render : other.record.render = prompt.record.render := (String.append_left_inj _).mp same
    have read := other.parseLine_render
    rw [render, prompt.parseLine_render] at read
    exact (record_injective (Option.some.inj read)).symm
  · have content : (prompt.record.member? "message").bind (·.member? "content") = some prompt.content :=
      rfl
    rw [content, Prompt.content]
    cases prompt.images <;> rfl

example : (⟨"a\nb", []⟩ : Prompt).line =
    "\x7b\"type\":\"user\",\"message\":\x7b\"role\":\"user\",\"content\":\"a\\nb\"\x7d\x7d\n" := by
  decide +kernel

end Prompt

end AgentHost
