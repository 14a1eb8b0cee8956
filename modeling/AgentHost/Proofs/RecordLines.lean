import AgentHost.Decoder.StreamJson
import AgentHost.Proofs.Json.ReadBack
import AgentHost.Proofs.Text.LineCuts
import AgentHost.Proofs.Text.Utf8Laws

namespace AgentHost

/-- The bytes of a text without control characters contain no line end. -/
theorem Text.Utf8.encode_unended {s : String} (plain : ∀ c ∈ s.toList, Json.isControl c = false)
    {b : UInt8} (member : b ∈ encode s) : isLineEnd b = false := by
  obtain ⟨c, among, byte⟩ := List.mem_flatMap.mp member
  refine Bool.eq_false_iff.mpr fun ends => ?_
  have high : ¬ c.toNat < 0x20 := by simpa [Json.isControl] using plain c among
  rcases isLineEnd_byte byte ends with control | control <;> omega

theorem Text.trim_solid {first last : Char} (middle : List Char) (opens : isBlank first = false)
    (closes : isBlank last = false) : trim (String.ofList (first :: middle ++ [last])) =
      String.ofList (first :: middle ++ [last]) := by
  rw [trim, String.toList_ofList, List.cons_append, List.dropWhile_cons_of_neg (by simp [opens]),
    ← List.cons_append, List.reverse_append, List.reverse_singleton, List.singleton_append,
    List.dropWhile_cons_of_neg (by simp [closes]), List.reverse_cons, List.reverse_reverse]

namespace Json

def textual? : Nat → Json → Bool
  | _, .null | _, .bool _ | _, .string _ => true
  | depth + 1, .array items => items.all (textual? depth)
  | depth + 1, .object members =>
    decide (members.map Prod.fst).Nodup && members.all fun member => textual? depth member.2
  | _, _ => false

theorem textual?_iff {depth : Nat} {value : Json} :
    textual? depth value = true ↔ Textual depth value := by
  constructor
  · intro found
    induction depth generalizing value with
    | zero =>
      cases value with
      | null => exact .null _
      | bool value => exact .bool _ value
      | string value => exact .string _ value
      | _ => simp [textual?] at found
    | succ depth ih =>
      cases value with
      | null => exact .null _
      | bool value => exact .bool _ value
      | string value => exact .string _ value
      | number => simp [textual?] at found
      | array items =>
        rw [textual?, List.all_eq_true] at found
        exact .array fun item member => ih (found item member)
      | object members =>
        rw [textual?, Bool.and_eq_true, List.all_eq_true, decide_eq_true_iff] at found
        exact .object found.1 fun member among => ih (found.2 member among)
  · intro textual
    induction textual with
    | null depth => cases depth <;> rfl
    | bool depth => cases depth <;> rfl
    | string depth => cases depth <;> rfl
    | array _ ih => simpa [textual?] using ih
    | object names _ ih =>
      rw [textual?, Bool.and_eq_true, List.all_eq_true, decide_eq_true_iff]
      exact ⟨names, ih⟩

instance (depth : Nat) (value : Json) : Decidable (Textual depth value) :=
  decidable_of_iff _ textual?_iff

/-- A record that the printer can write on one line, and whose type the decoder does not ignore. -/
structure Heeded (record : Json) : Prop where
  textual : Textual depthLimit record
  type : ∃ type ∈ recordType? record, type ∉ Decoder.StreamJson.ignoredTypes

instance (record : Json) : Decidable record.Heeded :=
  decidable_of_iff (Textual depthLimit record ∧
    ∃ type ∈ recordType? record, type ∉ Decoder.StreamJson.ignoredTypes)
    ⟨fun both => ⟨both.1, both.2⟩, fun heeded => ⟨heeded.textual, heeded.type⟩⟩

def lineBytes (records : List Json) : List UInt8 :=
  records.flatMap fun record => Text.Utf8.encode record.render ++ [10]

theorem Textual.unended {depth : Nat} {value : Json} (textual : Textual depth value) :
    ∀ b ∈ Text.Utf8.encode value.render, Text.isLineEnd b = false := by
  intro b member
  refine Text.Utf8.encode_unended (fun c written => textual.plain (c := c) ?_) member
  rwa [render, String.toList_ofList] at written

theorem push_lineBytes {depth : Nat} {records : List Json}
    (textual : ∀ record ∈ records, Textual depth record) :
    ({} : Text.LineBuffer).push (lineBytes records) = (records.map render, {}) := by
  induction records with
  | nil => rfl
  | cons record rest ih =>
    have first : ({} : Text.LineBuffer).push (Text.Utf8.encode record.render ++ [10]) =
        ([record.render], {}) := by
      rw [Text.LineBuffer.push, List.nil_append,
        Text.cutLines_line (textual record (by simp)).unended rfl]
      simp [Text.Utf8.decodeLossy_encode]
    rw [lineBytes, List.flatMap_cons, Text.LineBuffer.push_append, first]
    have others := ih fun other member => textual other (List.mem_cons_of_mem _ member)
    rw [lineBytes] at others
    simp [others]

variable {record : Json}

theorem Heeded.text (heeded : record.Heeded) : ∃ body, record.text = '\x7b' :: body ++ ['\x7d'] := by
  obtain ⟨type, typed, _⟩ := heeded.type
  cases record with
  | object members => exact ⟨membersText members, by rw [Json.text]⟩
  | _ => simp [recordType?, member?] at typed

theorem Heeded.parseLine_render (heeded : record.Heeded) :
    Decoder.StreamJson.parseLine record.render = some record := by
  obtain ⟨body, text⟩ := heeded.text
  obtain ⟨type, typed, kept⟩ := heeded.type
  have solid : Text.trim record.render = record.render := by
    rw [render, text]
    exact Text.trim_solid body (by decide) (by decide)
  have written : record.render.isEmpty = false := by
    refine Bool.eq_false_iff.mpr fun empty => ?_
    have none := congrArg String.toList (String.isEmpty_iff.mp empty)
    rw [render, String.toList_ofList, text] at none
    exact absurd none (List.cons_ne_nil _ _)
  have read := parse?_render heeded.textual
  have found : recordType? record = some type := typed
  rw [Decoder.StreamJson.parseLine, solid]
  unfold guard
  simp [written, read, found, kept]

end Json

end AgentHost
