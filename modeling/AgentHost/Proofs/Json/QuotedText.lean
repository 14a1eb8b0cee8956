import AgentHost.Json.Quoted

namespace AgentHost

namespace Json

inductive HexUnit : Nat → List Char → Prop where
  | of {p q r s : Char} {a b c d : Nat} (first : Text.Hex.value? p = some a)
      (second : Text.Hex.value? q = some b) (third : Text.Hex.value? r = some c)
      (fourth : Text.Hex.value? s = some d) :
      HexUnit (((a * 16 + b) * 16 + c) * 16 + d) [p, q, r, s]

/-- The ways to write a character inside quotes. -/
inductive Spelled : Char → List Char → Prop where
  | plain {c : Char} (quote : c ≠ '"') (slash : c ≠ '\\') (solid : isControl c = false) : Spelled c [c]
  | short {c letter : Char} (means : unescaped? letter = some c) : Spelled c ['\\', letter]
  | unit {n : Nat} {digits : List Char} (unit : HexUnit n digits) (leading : isLeading n = false)
      (trailing : isTrailing n = false) : Spelled (Char.ofNat n) ('\\' :: 'u' :: digits)
  | pair {high low : Nat} {first second : List Char} (unit : HexUnit high first)
      (leading : isLeading high = true) (other : HexUnit low second)
      (trailing : isTrailing low = true) :
      Spelled (Char.ofNat (0x10000 + (high - 0xD800) * 0x400 + (low - 0xDC00)))
        ('\\' :: 'u' :: (first ++ '\\' :: 'u' :: second))

inductive Spelling : List Char → List Char → Prop where
  | nil : Spelling [] []
  | cons {c : Char} {cs piece text : List Char} (spelled : Spelled c piece) (more : Spelling cs text) :
      Spelling (c :: cs) (piece ++ text)

theorem HexUnit.digits {n : Nat} (small : n < 65536) : HexUnit n (Text.Hex.digits 4 n) := by
  have digit (k : Nat) := Text.Hex.value?_digit (Nat.mod_lt k (by decide : 0 < 16))
  have whole : ((n / 16 / 16 / 16 % 16 * 16 + n / 16 / 16 % 16) * 16 + n / 16 % 16) * 16 + n % 16 = n := by
    omega
  have unit := HexUnit.of (digit (n / 16 / 16 / 16)) (digit (n / 16 / 16)) (digit (n / 16)) (digit n)
  rwa [whole] at unit

theorem readUnit_hex {n : Nat} {digits : List Char} (unit : HexUnit n digits) (rest : List Char) :
    readUnit (digits ++ rest) = .ok (n, rest) := by
  obtain ⟨first, second, third, fourth⟩ := unit
  simp only [List.cons_append, List.nil_append, readUnit, first, second, third, fourth]

theorem unescaped_of_short {c letter : Char} (short : shortEscape? c = some letter) :
    unescaped? letter = some c ∧ isControl letter = false := by
  unfold shortEscape? at short
  split at short <;> first | contradiction | (obtain rfl := Option.some.inj short; decide)

theorem ne_u_of_unescaped {c letter : Char} (means : unescaped? letter = some c) : letter ≠ 'u' := by
  rintro rfl
  simp [unescaped?] at means

theorem shortEscape_marks {c : Char} (plain : shortEscape? c = none) : c ≠ '"' ∧ c ≠ '\\' := by
  constructor <;> (rintro rfl; simp [shortEscape?] at plain)

theorem readEscape_short {letter c : Char} (means : unescaped? letter = some c) (rest : List Char) :
    readEscape (letter :: rest) = .ok (c, rest) := by
  rw [readEscape.eq_3 letter rest (ne_u_of_unescaped means), means]

theorem readPiece_plain {c : Char} (quote : c ≠ '"') (slash : c ≠ '\\') (plain : isControl c = false)
    (rest : List Char) : readPiece (c :: rest) = .ok (some c, rest) := by
  unfold readPiece
  split
  · contradiction
  · next same => exact absurd (List.cons.inj same).1 quote
  · next same => exact absurd (List.cons.inj same).1 slash
  · next same =>
    obtain ⟨rfl, rfl⟩ := List.cons.inj same
    simp [plain]

theorem readCodePoint_unit {n : Nat} {digits : List Char} (unit : HexUnit n digits)
    (leading : isLeading n = false) (trailing : isTrailing n = false) (rest : List Char) :
    readCodePoint (digits ++ rest) = .ok (Char.ofNat n, rest) := by
  rw [readCodePoint, readUnit_hex unit]
  simp [trailing, leading, bind, Except.bind, pure, Except.pure]

theorem readCodePoint_pair {high low : Nat} {first second : List Char} (unit : HexUnit high first)
    (leading : isLeading high = true) (other : HexUnit low second) (trailing : isTrailing low = true)
    (rest : List Char) : readCodePoint (first ++ '\\' :: 'u' :: (second ++ rest)) =
      .ok (Char.ofNat (0x10000 + (high - 0xD800) * 0x400 + (low - 0xDC00)), rest) := by
  have untrailing : isTrailing high = false := by
    simp [isLeading] at leading
    simp [isTrailing]
    omega
  rw [readCodePoint, readUnit_hex unit]
  simp [untrailing, leading, readTrailing, readUnit_hex other, trailing, bind, Except.bind, pure,
    Except.pure]

/-- Every spelling of a character is read back as that character. -/
theorem readPiece_spelled {c : Char} {piece : List Char} (spelled : Spelled c piece)
    (rest : List Char) : readPiece (piece ++ rest) = .ok (some c, rest) := by
  cases spelled with
  | plain quote slash solid => exact readPiece_plain quote slash solid rest
  | short means =>
    simp only [List.cons_append, List.nil_append]
    rw [readPiece, readEscape_short means]
    rfl
  | unit unit leading trailing =>
    simp only [List.cons_append]
    rw [readPiece, readEscape, readCodePoint_unit unit leading trailing]
    rfl
  | pair unit leading other trailing =>
    simp only [List.cons_append, List.append_assoc]
    rw [readPiece, readEscape, readCodePoint_pair unit leading other trailing]
    rfl

theorem Spelled.length_pos {c : Char} {piece : List Char} (spelled : Spelled c piece) :
    0 < piece.length := by
  cases spelled <;> exact Nat.succ_pos _

theorem Spelling.length_le {cs text : List Char} (spelling : Spelling cs text) :
    cs.length ≤ text.length := by
  induction spelling with
  | nil => exact Nat.le_refl _
  | cons spelled _ ih =>
    have first := spelled.length_pos
    rw [List.length_cons, List.length_append]
    omega

theorem readPieces_spelling {cs text : List Char} (spelling : Spelling cs text) {fuel : Nat}
    (enough : cs.length < fuel) (rest : List Char) :
    readPieces fuel (text ++ '"' :: rest) = .ok (cs, rest) := by
  induction spelling generalizing fuel with
  | nil =>
    obtain ⟨fuel, rfl⟩ := Nat.exists_eq_succ_of_ne_zero (Nat.ne_of_gt enough)
    rfl
  | cons spelled _ ih =>
    obtain ⟨fuel, rfl⟩ := Nat.exists_eq_succ_of_ne_zero (Nat.ne_of_gt (Nat.zero_lt_of_lt enough))
    rw [List.append_assoc, readPieces, readPiece_spelled spelled]
    simp only [bind, Except.bind]
    rw [ih (Nat.lt_of_succ_lt_succ enough)]
    rfl

theorem readQuoted_spelling {s : String} {text : List Char} (spelling : Spelling s.toList text)
    (rest : List Char) : readQuoted (text ++ '"' :: rest) = .ok (s, rest) := by
  have enough : s.toList.length < (text ++ '"' :: rest).length + 1 := by
    have within := spelling.length_le
    rw [List.length_append]
    omega
  rw [readQuoted, readPieces_spelling spelling enough]
  simp [bind, Except.bind, pure, Except.pure]

theorem escape_spelled (c : Char) : Spelled c (escape c) := by
  unfold escape
  cases short : shortEscape? c with
  | some letter => exact .short (unescaped_of_short short).1
  | none =>
    obtain ⟨quote, slash⟩ := shortEscape_marks short
    cases control : isControl c with
    | true =>
      have small : c.toNat < 0x20 := by simpa [isControl] using control
      have leading : isLeading c.toNat = false := by simp [isLeading]; omega
      have trailing : isTrailing c.toNat = false := by simp [isTrailing]; omega
      have spelled := Spelled.unit (HexUnit.digits (by omega)) leading trailing
      rwa [Char.ofNat_toNat] at spelled
    | false => exact .plain quote slash control

theorem escape_spelling (cs : List Char) : Spelling cs (cs.flatMap escape) := by
  induction cs with
  | nil => exact .nil
  | cons c cs ih => exact .cons (escape_spelled c) ih

theorem digits_plain {width n : Nat} {d : Char} (member : d ∈ Text.Hex.digits width n) :
    isControl d = false := by
  have digit : ∀ n : Fin 16, isControl (Text.Hex.digit n) = false := by decide
  induction width generalizing n with
  | zero => simp [Text.Hex.digits] at member
  | succ width ih =>
    rw [Text.Hex.digits, List.mem_append, List.mem_singleton] at member
    rcases member with earlier | rfl
    · exact ih earlier
    · exact digit ⟨n % 16, Nat.mod_lt n (by decide)⟩

/-- Control characters are always escaped. -/
theorem escape_plain {c d : Char} (member : d ∈ escape c) : isControl d = false := by
  unfold escape at member
  cases short : shortEscape? c with
  | some letter =>
    rw [short] at member
    simp only [List.mem_cons, List.not_mem_nil, or_false] at member
    rcases member with rfl | rfl
    · decide
    · exact (unescaped_of_short short).2
  | none =>
    rw [short] at member
    dsimp only at member
    split at member
    · simp only [List.mem_cons] at member
      rcases member with rfl | rfl | digit
      · decide
      · decide
      · exact digits_plain digit
    · next plain =>
      rw [List.mem_singleton.mp member]
      exact Bool.eq_false_iff.mpr plain

theorem quote_plain {s : String} {d : Char} (member : d ∈ quote s) : isControl d = false := by
  simp only [quote, List.mem_cons, List.mem_append, List.mem_flatMap, List.not_mem_nil,
    or_false] at member
  rcases member with (rfl | ⟨c, _, written⟩) | rfl
  · decide
  · exact escape_plain written
  · decide

end Json

end AgentHost
