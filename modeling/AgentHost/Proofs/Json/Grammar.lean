import AgentHost.Json.Reader
import AgentHost.Proofs.Json.Numerals
import AgentHost.Proofs.Json.QuotedText

namespace AgentHost.Json

inductive Body : List Char → Prop where
  | nil : Body []
  | plain {c : Char} {text : List Char} (quote : c ≠ '"') (slash : c ≠ '\\')
      (solid : isControl c = false) (more : Body text) : Body (c :: text)
  | short {letter c : Char} {text : List Char} (means : unescaped? letter = some c)
      (more : Body text) : Body ('\\' :: letter :: text)
  | unit {n : Nat} {digits text : List Char} (unit : HexUnit n digits) (more : Body text) :
      Body ('\\' :: 'u' :: (digits ++ text))

structure Member.Spaced (member : Member) : Prop where
  gap : Space member.gap
  lead : Space member.lead

/-- The JSON grammar, without the space around a text. -/
inductive JsonText : List Char → Prop where
  | null : JsonText ['n', 'u', 'l', 'l']
  | yes : JsonText ['t', 'r', 'u', 'e']
  | no : JsonText ['f', 'a', 'l', 's', 'e']
  | number {numeral : Numeral} {text : List Char} (written : NumeralText numeral text) : JsonText text
  | string {text : List Char} (body : Body text) : JsonText ('"' :: (text ++ ['"']))
  | array {items : List (List Char)} {inside : List Char} (listed : Listed items inside)
      (each : ∀ item ∈ items, JsonText item) : JsonText ('[' :: (inside ++ [']']))
  | object {members : List Member} {inside : List Char} (listed : Listed (members.map Member.text) inside)
      (names : ∀ member ∈ members, Body member.name) (spaced : ∀ member ∈ members, member.Spaced)
      (each : ∀ member ∈ members, JsonText member.value) : JsonText ('\x7b' :: (inside ++ ['\x7d']))

variable {depth fuel : Nat} {text lead rest : List Char}

theorem Member.Spaced.readColon {member : Member} (spaced : member.Spaced) (rest : List Char) :
    Json.readColon (member.rest ++ rest) = .ok (member.lead ++ (member.value ++ rest)) := by
  rw [Member.rest, List.append_assoc, List.cons_append, List.append_assoc]
  exact readColon_colon spaced.gap _

theorem skipQuoted_plain {c : Char} (quote : c ≠ '"') (slash : c ≠ '\\') (solid : isControl c = false) :
    skipQuoted (fuel + 1) (c :: rest) = skipQuoted fuel rest := by
  rw [skipQuoted.eq_6 _ _ _ quote (fun _ same _ => slash same) slash]
  simp [solid]

theorem skipQuoted_short {letter c : Char} (means : unescaped? letter = some c) :
    skipQuoted (fuel + 1) ('\\' :: letter :: rest) = skipQuoted fuel rest := by
  rw [skipQuoted.eq_5 _ _ fun _ same => ne_u_of_unescaped means (List.cons.inj same).1,
    readEscape_short means]
  rfl

theorem skipQuoted_unit {n : Nat} {digits : List Char} (unit : HexUnit n digits) :
    skipQuoted (fuel + 1) ('\\' :: 'u' :: (digits ++ rest)) = skipQuoted fuel rest := by
  rw [skipQuoted, readUnit_hex unit]
  rfl

theorem skipQuoted_body (body : Body text) (enough : text.length < fuel) (rest : List Char) :
    skipQuoted fuel (text ++ '"' :: rest) = .ok rest := by
  induction body generalizing fuel with
  | nil =>
    obtain ⟨fuel, rfl⟩ := Nat.exists_eq_succ_of_ne_zero (Nat.ne_of_gt enough)
    rfl
  | plain quote slash solid _ ih =>
    obtain ⟨fuel, rfl⟩ := Nat.exists_eq_succ_of_ne_zero (Nat.ne_of_gt (Nat.zero_lt_of_lt enough))
    rw [List.cons_append, skipQuoted_plain quote slash solid]
    exact ih (Nat.lt_of_succ_lt_succ enough)
  | short means _ ih =>
    obtain ⟨fuel, rfl⟩ := Nat.exists_eq_succ_of_ne_zero (Nat.ne_of_gt (Nat.zero_lt_of_lt enough))
    simp only [List.length_cons] at enough
    rw [List.cons_append, List.cons_append, skipQuoted_short means]
    exact ih (by omega)
  | unit unit _ ih =>
    obtain ⟨fuel, rfl⟩ := Nat.exists_eq_succ_of_ne_zero (Nat.ne_of_gt (Nat.zero_lt_of_lt enough))
    simp only [List.length_cons, List.length_append] at enough
    rw [List.cons_append, List.cons_append, List.append_assoc, skipQuoted_unit unit]
    exact ih (by omega)

theorem skipQuoted_text (body : Body text) (rest : List Char) :
    skipQuoted ((text ++ '"' :: rest).length + 1) (text ++ '"' :: rest) = .ok rest := by
  have enough : text.length < (text ++ '"' :: rest).length + 1 := by
    rw [List.length_append]
    omega
  exact skipQuoted_body body enough rest

theorem JsonText.starts (value : JsonText text) : Starts text := by
  cases value with
  | null | yes | no => exact ⟨_, _, rfl, by decide, by decide, by decide⟩
  | number written =>
    obtain ⟨c, rest, rfl, digit⟩ := written.starts
    exact ⟨c, rest, rfl, digit_solid digit, ne_of_digit digit (by decide) (by decide),
      ne_of_digit digit (by decide) (by decide)⟩
  | string | array | object => exact ⟨_, _, rfl, by decide, by decide, by decide⟩

theorem skipValue_space (blank : Space lead) (text : List Char) :
    skipValue depth (lead ++ text) = skipValue depth text := by
  rw [skipValue, skipSpace_append blank, skipValue.eq_def depth text]

theorem skipValue_quoted (depth : Nat) (rest : List Char) : skipValue depth ('"' :: rest) =
    (skipQuoted (rest.length + 1) rest).map ((), ·) := by
  rw [skipValue, skipSpace_cons (by decide)]
  rfl

theorem skipValue_list (depth : Nat) (rest : List Char) : skipValue (depth + 1) ('[' :: rest) =
    foldItems (fun _ text => skipValue depth text) (rest.length + 1) true () rest := by
  rw [skipValue, skipSpace_cons (by decide)]
  rfl

theorem skipValue_record (depth : Nat) (rest : List Char) : skipValue (depth + 1) ('\x7b' :: rest) =
    foldMembers (fun text => do return ((), ← skipQuoted (text.length + 1) text))
      (fun _ _ text => do skipValue depth (← readColon text)) (rest.length + 1) true () rest := by
  rw [skipValue, skipSpace_cons (by decide)]
  rfl

theorem skipValue_digit {c : Char} (digit : c = '-' ∨ (digitValue? c).isSome = true) :
    skipValue depth (c :: rest) = skipNumber (c :: rest) := by
  rw [skipValue, skipSpace_cons (digit_solid digit)]
  split
  case h_8 =>
    next same =>
    obtain ⟨rfl, rfl⟩ := List.cons.inj same
    rw [if_pos digit]
  all_goals
    next same =>
    first
    | contradiction
    | exact absurd (List.cons.inj same).1 (ne_of_digit digit (by decide) (by decide))

/-- Every text of the grammar is skipped to its end, and no further. -/
theorem skipValue_text (value : JsonText text) (deep : text.length ≤ depth) (apart : Apart rest) :
    skipValue depth (text ++ rest) = .ok ((), rest) := by
  induction value generalizing depth rest with
  | null | yes | no =>
    rw [skipValue]
    rfl
  | number written =>
    have read := readNumeral_text written apart
    obtain ⟨c, more, rfl, digit⟩ := written.starts
    rw [List.cons_append] at read ⊢
    rw [skipValue_digit digit, skipNumber, read]
  | @string inside body =>
    rw [List.cons_append, List.append_assoc, List.singleton_append, skipValue_quoted,
      skipQuoted_text body]
    rfl
  | @array items inside listed each ih =>
    -- the text of an item is shorter than that of the list, so one level less is enough for it
    obtain ⟨depth, rfl⟩ := Nat.exists_eq_succ_of_ne_zero (Nat.ne_of_gt (Nat.zero_lt_of_lt deep))
    simp only [List.length_cons, List.length_append] at deep
    rw [List.cons_append, List.append_assoc, List.singleton_append, skipValue_list]
    have listed' : Listed (items.map id) inside := by rwa [List.map_id]
    rw [foldItems_listed (fun _ _ => ()) listed' (fun item member => (each item member).starts) ?_]
    intro item member _ rest apart
    have short := listed.item_length_le member
    exact ih item member (by omega) apart
  | @object members inside listed names spaced each ih =>
    obtain ⟨depth, rfl⟩ := Nat.exists_eq_succ_of_ne_zero (Nat.ne_of_gt (Nat.zero_lt_of_lt deep))
    simp only [List.length_cons, List.length_append] at deep
    rw [List.cons_append, List.append_assoc, List.singleton_append, skipValue_record,
      foldMembers_listed (fun _ => ()) (fun _ _ => ()) listed ?_]
    intro earlier member later split
    have inside : member ∈ members := by rw [split]; simp
    refine ⟨fun rest => ?_, fun rest apart => ?_⟩
    · dsimp only
      rw [skipQuoted_text (names member inside)]
      rfl
    · have short := listed.item_length_le (List.mem_map_of_mem inside)
      simp only [Member.text, Member.rest, List.length_append, List.length_cons] at short
      dsimp only
      rw [(spaced member inside).readColon]
      dsimp only [bind, Except.bind]
      rw [skipValue_space (spaced member inside).lead]
      exact ih member inside (by omega) apart

end AgentHost.Json
