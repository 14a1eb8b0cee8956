import AgentHost.Proofs.Text.LineCuts
import Mathlib.Algebra.Group.Nat.Defs
import Mathlib.Tactic.SplitIfs

namespace AgentHost.Text

def endsLine (c : Char) : Bool := c == '\n' || c == '\r'

def linePieces (text : String) : List String :=
  let pieces := text.toList.splitOnP endsLine
  (if pieces.getLast? = some [] then pieces.dropLast else pieces).map String.ofList

theorem toNat_ofNat_char (n : Nat) : (Char.ofNat n).toNat = if n.isValidChar then n else 0 := by
  by_cases valid : n.isValidChar
  · rw [Char.ofNat, dif_pos valid, if_pos valid]
    rfl
  · rw [Char.ofNat, dif_neg valid, if_neg valid]
    rfl

theorem endsLine_ofNat_of_ne {n : Nat} (notFeed : n ≠ 10) (notReturn : n ≠ 13) :
    endsLine (Char.ofNat n) = false := by
  have other {c : Char} (different : n ≠ c.toNat) (positive : c.toNat ≠ 0) : Char.ofNat n ≠ c := by
    intro same
    have value := toNat_ofNat_char n
    rw [same] at value
    split at value <;> omega
  have feed : Char.ofNat n ≠ '\n' := other notFeed (by decide)
  have carriage : Char.ofNat n ≠ '\r' := other notReturn (by decide)
  simp [endsLine, feed, carriage]

namespace Utf8

structure Open.Sound (o : Open) : Prop where
  due : 0 < o.due
  low : 128 ≤ o.low
  long : 128 ≤ (o.bits * 64 + (o.low - 128)) * 64 ^ (o.due - 1)

theorem lead_sound {b : Nat} {o : Open} (leads : lead b = some o) : o.Sound := by
  unfold lead at leads
  split_ifs at leads
  all_goals
    obtain rfl := Option.some.inj leads
    constructor <;> simp only <;> omega

def SoundState (state : Option Open) : Prop := ∀ o, state = some o → o.Sound

theorem sound_none : SoundState none := fun _ opens => nomatch opens

theorem start_sound (b : Nat) : SoundState (start b).2 := by
  unfold start
  split
  · exact sound_none
  · split
    · next leads =>
      intro o opens
      rw [← Option.some.inj opens]
      exact lead_sound leads
    · exact sound_none

theorem Open.Sound.next {o : Open} (sound : o.Sound) {b : Nat} (inside : o.low ≤ b)
    (more : o.due ≠ 1) : Open.Sound ⟨o.due - 1, 128, 191, o.bits * 64 + (b - 128)⟩ := by
  have positive := sound.due
  refine ⟨by dsimp only; omega, Nat.le_refl _, ?_⟩
  have exponent : o.due - 1 = o.due - 1 - 1 + 1 := by omega
  calc 128 ≤ (o.bits * 64 + (o.low - 128)) * 64 ^ (o.due - 1) := sound.long
    _ ≤ (o.bits * 64 + (b - 128)) * 64 ^ (o.due - 1) := Nat.mul_le_mul_right _ (by omega)
    _ = ((o.bits * 64 + (b - 128)) * 64 + (128 - 128)) * 64 ^ (o.due - 1 - 1) := by
      rw [exponent, Nat.pow_succ', Nat.sub_self, Nat.add_zero, Nat.mul_assoc]
      rfl

def shown (piece : Piece) : Char := piece.getD '\uFFFD'

theorem shown_some (c : Char) : shown (some c) = c := rfl

theorem shown_none_unended : endsLine (shown none) = false := by decide

section Feed

variable {state : Option Open} {o : Open} {b : Nat}

theorem feed_inside (inside : o.low ≤ b ∧ b ≤ o.high) : feed (some o) b =
    if o.due = 1 then ([some (Char.ofNat (o.bits * 64 + (b - 128)))], none)
    else ([], some ⟨o.due - 1, 128, 191, o.bits * 64 + (b - 128)⟩) := if_pos inside

theorem feed_outside (outside : ¬ (o.low ≤ b ∧ b ≤ o.high)) :
    feed (some o) b = (none :: (start b).1, (start b).2) := if_neg outside

theorem feed_sound (sound : SoundState state) (b : Nat) : SoundState (feed state b).2 := by
  cases state with
  | none => exact start_sound b
  | some o =>
    by_cases inside : o.low ≤ b ∧ b ≤ o.high
    · rw [feed_inside inside]
      split
      · exact sound_none
      · next more =>
        intro next goesOn
        rw [← Option.some.inj goesOn]
        exact (sound o rfl).next inside.1 more
    · rw [feed_outside inside]
      exact start_sound b

/-- An ASCII byte ends any sequence in progress. -/
theorem feed_ascii (sound : SoundState state) (ascii : b < 128) :
    feed state b = (finish state ++ [some (Char.ofNat b)], none) := by
  have starts : start b = ([some (Char.ofNat b)], none) := if_pos ascii
  cases state with
  | none => exact starts
  | some o =>
    have outside : ¬ (o.low ≤ b ∧ b ≤ o.high) := by
      have low := (sound o rfl).low
      omega
    rw [feed_outside outside, starts]
    rfl

theorem start_unended (notFeed : b ≠ 10) (notReturn : b ≠ 13) :
    ∀ piece ∈ (start b).1, endsLine (shown piece) = false := by
  intro piece member
  unfold start at member
  split at member
  · rw [List.mem_singleton.mp member, shown_some]
    exact endsLine_ofNat_of_ne notFeed notReturn
  · split at member
    · contradiction
    · rw [List.mem_singleton.mp member]
      exact shown_none_unended

theorem feed_unended (sound : SoundState state) (notFeed : b ≠ 10) (notReturn : b ≠ 13) :
    ∀ piece ∈ (feed state b).1, endsLine (shown piece) = false := by
  cases state with
  | none => exact start_unended notFeed notReturn
  | some o =>
    intro piece member
    by_cases inside : o.low ≤ b ∧ b ≤ o.high
    · rw [feed_inside inside] at member
      split at member
      · next last =>
        -- a complete multi-byte sequence encodes at least 0x80, which is no line end
        have long := (sound o rfl).long
        rw [last, Nat.sub_self, Nat.pow_zero, Nat.mul_one] at long
        rw [List.mem_singleton.mp member, shown_some]
        exact endsLine_ofNat_of_ne (by omega) (by omega)
      · contradiction
    · rw [feed_outside inside] at member
      rcases List.mem_cons.mp member with rfl | later
      · exact shown_none_unended
      · exact start_unended notFeed notReturn piece later

end Feed

section Pieces

variable {state : Option Open}

theorem piecesFrom_cons (state : Option Open) (b : UInt8) (rest : List UInt8) :
    piecesFrom state (b :: rest) =
      (feed state b.toNat).1 ++ piecesFrom (feed state b.toNat).2 rest := rfl

theorem ne_of_unended {b : UInt8} (unended : isLineEnd b = false) : b.toNat ≠ 10 ∧ b.toNat ≠ 13 := by
  simp only [isLineEnd, Bool.or_eq_false_iff, beq_eq_false_iff_ne, ne_eq, ← UInt8.toNat_inj] at unended
  exact unended

theorem piecesFrom_unended (sound : SoundState state) {line : List UInt8}
    (unended : ∀ b ∈ line, isLineEnd b = false) :
    ∀ piece ∈ piecesFrom state line, endsLine (shown piece) = false := by
  induction line generalizing state with
  | nil =>
    intro piece member
    cases state with
    | none => exact absurd member List.not_mem_nil
    | some o =>
      rw [List.mem_singleton.mp member]
      exact shown_none_unended
  | cons b line ih =>
    intro piece member
    rw [piecesFrom_cons] at member
    rcases List.mem_append.mp member with first | later
    · obtain ⟨notFeed, notReturn⟩ := ne_of_unended (unended b (by simp))
      exact feed_unended sound notFeed notReturn piece first
    · exact ih (feed_sound sound _) (fun b among => unended b (by simp [among])) piece later

theorem piecesFrom_ascii_cut (sound : SoundState state) (line rest : List UInt8) {b : UInt8}
    (ascii : b.toNat < 128) : piecesFrom state (line ++ b :: rest) =
      piecesFrom state line ++ some (Char.ofNat b.toNat) :: piecesFrom none rest := by
  induction line generalizing state with
  | nil =>
    rw [List.nil_append, piecesFrom_cons, feed_ascii sound ascii, List.append_assoc]
    rfl
  | cons c line ih =>
    rw [List.cons_append, piecesFrom_cons, ih (feed_sound sound _), piecesFrom_cons,
      List.append_assoc]

theorem piecesFrom_ne_nil (o : Open) (bytes : List UInt8) : piecesFrom (some o) bytes ≠ [] := by
  induction bytes generalizing o with
  | nil => exact List.cons_ne_nil _ _
  | cons b bytes ih =>
    rw [piecesFrom_cons]
    by_cases inside : o.low ≤ b.toNat ∧ b.toNat ≤ o.high
    · rw [feed_inside inside]
      split
      · exact List.cons_ne_nil _ _
      · exact ih _
    · rw [feed_outside inside]
      exact List.cons_ne_nil _ _

theorem pieces_eq_nil_iff {bytes : List UInt8} : pieces bytes = [] ↔ bytes = [] := by
  refine ⟨fun nothing => ?_, fun empty => by rw [empty]; rfl⟩
  cases bytes with
  | nil => rfl
  | cons b bytes =>
    rw [pieces, piecesFrom_cons, List.append_eq_nil_iff] at nothing
    obtain ⟨silent, rest⟩ := nothing
    change (start b.toNat).1 = [] at silent
    change piecesFrom (start b.toNat).2 bytes = [] at rest
    unfold start at silent rest
    split at silent
    · contradiction
    · next large =>
      rw [if_neg large] at rest
      cases leads : lead b.toNat with
      | none => simp [leads] at silent
      | some o =>
        rw [leads] at rest
        exact absurd rest (piecesFrom_ne_nil o bytes)

end Pieces

section Text

theorem toList_decodeLossy (bytes : List UInt8) :
    (decodeLossy bytes).toList = (pieces bytes).map shown := String.toList_ofList

theorem decodeLossy_unended {line : List UInt8} (unended : ∀ b ∈ line, isLineEnd b = false) :
    ∀ c ∈ (decodeLossy line).toList, endsLine c = false := by
  rw [toList_decodeLossy]
  intro c member
  obtain ⟨piece, among, rfl⟩ := List.mem_map.mp member
  exact piecesFrom_unended sound_none unended piece among

theorem decodeLossy_cut (line rest : List UInt8) {b : UInt8} (ascii : b.toNat < 128) :
    (decodeLossy (line ++ b :: rest)).toList =
      (decodeLossy line).toList ++ Char.ofNat b.toNat :: (decodeLossy rest).toList := by
  simp only [toList_decodeLossy, pieces]
  rw [piecesFrom_ascii_cut sound_none line rest ascii, List.map_append]
  rfl

end Text

end Utf8

section Lines

theorem splitOnP_isLineEnd (bytes : List UInt8) :
    bytes.splitOnP isLineEnd = (cutLines bytes).1 ++ [(cutLines bytes).2] := by
  induction bytes with
  | nil => rfl
  | cons b rest ih =>
    rw [List.splitOnP_cons_eq_if_modifyHead, ih, cutLines]
    by_cases ends : isLineEnd b = true
    · simp [ends]
    · cases lines : (cutLines rest).1 <;> simp [ends, lines]

/-- Every list of bytes is an unfinished line, or a line with its end followed by more bytes. -/
theorem line_induction {law : List UInt8 → Prop}
    (last : ∀ line, (∀ b ∈ line, isLineEnd b = false) → law line)
    (more : ∀ line b rest, (∀ b ∈ line, isLineEnd b = false) → isLineEnd b = true → law rest →
      law (line ++ b :: rest)) (bytes : List UInt8) : law bytes := by
  suffices all : ∀ line, (∀ b ∈ line, isLineEnd b = false) → law (line ++ bytes) from
    all [] (by simp)
  induction bytes with
  | nil =>
    intro line unended
    rw [List.append_nil]
    exact last line unended
  | cons b rest ih =>
    intro line unended
    cases ends : isLineEnd b with
    | true => exact more line b rest unended ends (ih [] (by simp))
    | false =>
      rw [List.append_cons]
      refine ih _ fun c member => ?_
      rcases List.mem_append.mp member with earlier | latest
      · exact unended c earlier
      · rw [List.mem_singleton.mp latest]
        exact ends

theorem endsLine_of_isLineEnd {b : UInt8} (ends : isLineEnd b = true) :
    b.toNat < 128 ∧ endsLine (Char.ofNat b.toNat) = true := by
  unfold isLineEnd at ends
  rcases Bool.or_eq_true_iff.mp ends with feed | carriage
  · rw [beq_iff_eq.mp feed]
    decide
  · rw [beq_iff_eq.mp carriage]
    decide

theorem cutLines_rest_unended (bytes : List UInt8) :
    ∀ b ∈ (cutLines bytes).2, isLineEnd b = false := by
  induction bytes with
  | nil => simp [cutLines]
  | cons b rest ih =>
    rw [cutLines]
    by_cases ends : isLineEnd b = true
    · simpa [ends] using ih
    · cases lines : (cutLines rest).1 with
      | nil => simpa [ends, lines] using ih
      | cons line more => simpa [ends, lines] using ih

/-- Cutting bytes at line ends and decoding each line gives the same as decoding first and cutting
    the text. -/
theorem splitOnP_decodeLossy (bytes : List UInt8) :
    (Utf8.decodeLossy bytes).toList.splitOnP endsLine =
      (bytes.splitOnP isLineEnd).map fun line => (Utf8.decodeLossy line).toList := by
  induction bytes using line_induction with
  | last line unended =>
    rw [List.splitOnP_eq_singleton unended,
      List.splitOnP_eq_singleton (Utf8.decodeLossy_unended unended)]
    rfl
  | more line b rest unended ends ih =>
    obtain ⟨ascii, character⟩ := endsLine_of_isLineEnd ends
    rw [Utf8.decodeLossy_cut line rest ascii,
      List.splitOnP_append_cons_of_forall_mem (Utf8.decodeLossy_unended unended) _ character, ih,
      List.splitOnP_append_cons_of_forall_mem unended _ ends]
    rfl

theorem linePieces_decodeLossy (bytes : List UInt8) :
    linePieces (Utf8.decodeLossy bytes) = ((cutLines bytes).1 ++
      if (cutLines bytes).2 = [] then [] else [(cutLines bytes).2]).map Utf8.decodeLossy := by
  have empty (line : List UInt8) : (Utf8.decodeLossy line).toList = [] ↔ line = [] := by
    rw [Utf8.toList_decodeLossy, List.map_eq_nil_iff, Utf8.pieces_eq_nil_iff]
  unfold linePieces
  rw [splitOnP_decodeLossy, splitOnP_isLineEnd, List.map_append]
  by_cases nothing : (cutLines bytes).2 = []
  · simp [nothing, (empty []).mpr rfl]
  · simp [nothing, empty]

end Lines

namespace LineBuffer

theorem push_nothing : ({} : LineBuffer).push [] = ([], {}) := rfl

theorem pushAll_fresh (chunks : List (List UInt8)) : ({} : LineBuffer).pushAll chunks =
    ((cutLines chunks.flatten).1.map Utf8.decodeLossy, ⟨(cutLines chunks.flatten).2⟩) :=
  pushAll_eq push_nothing chunks

/-- However the bytes are cut into chunks, the lines and the remainder are the pieces of the decoded
    text between its line ends, and the pending bytes contain no line end. -/
theorem pieces_of_chunks (chunks : List (List UInt8)) :
    let (lines, buffer) := ({} : LineBuffer).pushAll chunks
    lines ++ buffer.takeRemainder.1.toList = linePieces (Utf8.decodeLossy chunks.flatten) ∧
    (∀ others, others.flatten = chunks.flatten →
      ({} : LineBuffer).pushAll others = (lines, buffer)) ∧
    (∀ b ∈ buffer.pending, isLineEnd b = false) ∧
    buffer.takeRemainder.2 = {} := by
  rw [pushAll_fresh]
  refine ⟨?_, fun others same => ?_, cutLines_rest_unended chunks.flatten, ?_⟩
  · rw [linePieces_decodeLossy, List.map_append]
    unfold takeRemainder
    cases (cutLines chunks.flatten).2 <;> simp
  · rw [pushAll_fresh, same]
  · unfold takeRemainder
    cases (cutLines chunks.flatten).2 <;> rfl

/-- A character that is cut in two, and a sequence that a line end cuts short. -/
example : ({} : LineBuffer).pushAll [[0xC3], [0xA9, 10, 0xE2, 0x82], [13, 0x61]] =
    (["é", "\uFFFD"], ⟨[0x61]⟩) := by decide

end LineBuffer

end AgentHost.Text
