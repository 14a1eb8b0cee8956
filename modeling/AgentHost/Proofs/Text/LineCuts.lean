import AgentHost.Text.LineBuffer

namespace AgentHost.Text

/-- Bytes may be cut into lines in two steps: the rest of the first goes ahead of the second. -/
theorem cutLines_append (first second : List UInt8) :
    cutLines (first ++ second) =
      ((cutLines first).1 ++ (cutLines ((cutLines first).2 ++ second)).1,
        (cutLines ((cutLines first).2 ++ second)).2) := by
  induction first with
  | nil => rfl
  | cons b rest ih =>
    rw [List.cons_append, cutLines, ih, cutLines]
    by_cases ends : isLineEnd b
    · simp only [ends, if_true, List.cons_append]
    · simp only [ends, if_false, Bool.false_eq_true]
      cases (cutLines rest).1 with
      | nil =>
        simp only [List.nil_append, List.cons_append, cutLines, ends, if_false,
          Bool.false_eq_true]
      | cons line more => rfl

theorem cutLines_rest (bytes : List UInt8) :
    cutLines (cutLines bytes).2 = ([], (cutLines bytes).2) := by
  have again := cutLines_append bytes []
  rw [List.append_nil, List.append_nil] at again
  have lines := congrArg Prod.fst again
  have rest := congrArg Prod.snd again
  exact Prod.ext (List.append_right_eq_self.mp lines.symm) rest.symm

theorem cutLines_line {body : List UInt8} (unended : ∀ b ∈ body, isLineEnd b = false) {last : UInt8}
    (ends : isLineEnd last = true) : cutLines (body ++ [last]) = ([body], []) := by
  induction body with
  | nil => simp [cutLines, ends]
  | cons b body ih =>
    rw [List.cons_append, cutLines, ih fun b member => unended b (List.mem_cons_of_mem _ member)]
    simp [unended b (by simp)]

namespace LineBuffer

theorem push_append (buffer : LineBuffer) (first second : List UInt8) :
    buffer.push (first ++ second) =
      ((buffer.push first).1 ++ ((buffer.push first).2.push second).1,
        ((buffer.push first).2.push second).2) := by
  simp only [push]
  rw [← List.append_assoc, cutLines_append, List.map_append]

def pushAll (buffer : LineBuffer) : List (List UInt8) → List String × LineBuffer
  | [] => ([], buffer)
  | chunk :: rest =>
    let (lines, next) := buffer.push chunk
    let (more, last) := pushAll next rest
    (lines ++ more, last)

theorem push_rest (buffer : LineBuffer) (chunk : List UInt8) :
    (buffer.push chunk).2.push [] = ([], (buffer.push chunk).2) := by
  simp [push, cutLines_rest]

theorem pushAll_eq {buffer : LineBuffer} (settled : buffer.push [] = ([], buffer))
    (chunks : List (List UInt8)) : buffer.pushAll chunks = buffer.push chunks.flatten := by
  induction chunks generalizing buffer with
  | nil => exact settled.symm
  | cons chunk rest ih =>
    change ((buffer.push chunk).1 ++ ((buffer.push chunk).2.pushAll rest).1,
      ((buffer.push chunk).2.pushAll rest).2) = _
    rw [ih (buffer.push_rest chunk), List.flatten_cons, push_append]

end LineBuffer

end AgentHost.Text
