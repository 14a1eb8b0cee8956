import AgentHost.Json.Number
import AgentHost.Proofs.Json.Listing

namespace AgentHost.Json

def AllDigits (text : List Char) : Prop := ∀ c ∈ text, (digitValue? c).isSome = true

def digitsOf (text : List Char) : List Nat := text.filterMap digitValue?

inductive WholeText : List Nat → List Char → Prop where
  | zero : WholeText [0] ['0']
  | more {c : Char} {d : Nat} {text : List Char} (first : digitValue? c = some (d + 1))
      (digits : AllDigits text) : WholeText ((d + 1) :: digitsOf text) (c :: text)

inductive FractionText : Option (List Nat) → List Char → Prop where
  | absent : FractionText none []
  | present {c : Char} {text : List Char} (digits : AllDigits (c :: text)) :
      FractionText (some (digitsOf (c :: text))) ('.' :: c :: text)

inductive ExponentText : Option Int → List Char → Prop where
  | absent : ExponentText none []
  | plain {mark c : Char} {text : List Char} (marks : mark = 'e' ∨ mark = 'E')
      (digits : AllDigits (c :: text)) :
      ExponentText (some (ofDigits (digitsOf (c :: text)))) (mark :: c :: text)
  | plus {mark c : Char} {text : List Char} (marks : mark = 'e' ∨ mark = 'E')
      (digits : AllDigits (c :: text)) :
      ExponentText (some (ofDigits (digitsOf (c :: text)))) (mark :: '+' :: c :: text)
  | minus {mark c : Char} {text : List Char} (marks : mark = 'e' ∨ mark = 'E')
      (digits : AllDigits (c :: text)) :
      ExponentText (some (-(ofDigits (digitsOf (c :: text)) : Int))) (mark :: '-' :: c :: text)

inductive NumeralText : Numeral → List Char → Prop where
  | positive {ds : List Nat} {fraction : Option (List Nat)} {exponent : Option Int}
      {whole part power : List Char} (digits : WholeText ds whole) (places : FractionText fraction part)
      (scale : ExponentText exponent power) :
      NumeralText ⟨false, ds, fraction, exponent⟩ (whole ++ (part ++ power))
  | negative {ds : List Nat} {fraction : Option (List Nat)} {exponent : Option Int}
      {whole part power : List Char} (digits : WholeText ds whole) (places : FractionText fraction part)
      (scale : ExponentText exponent power) :
      NumeralText ⟨true, ds, fraction, exponent⟩ ('-' :: (whole ++ (part ++ power)))

section Digits

variable {c : Char} {text rest : List Char} {ds : List Nat}

theorem digitValue?_mark (mark : isSpace c = true ∨ c = ',' ∨ c = ']' ∨ c = '\x7d') :
    digitValue? c = none ∧ c ≠ '.' ∧ c ≠ 'e' ∧ c ≠ 'E' := by
  have space : isSpace c = true → c = ' ' ∨ c = '\t' ∨ c = '\n' ∨ c = '\r' := by
    simp [isSpace, or_assoc]
  rcases mark with blank | rfl | rfl | rfl
  · rcases space blank with rfl | rfl | rfl | rfl <;> decide
  all_goals decide

theorem takeDigits_append (digits : AllDigits text)
    (ends : ∀ c ∈ rest.head?, digitValue? c = none) :
    takeDigits (text ++ rest) = (digitsOf text, rest) := by
  induction text with
  | nil =>
    cases rest with
    | nil => rfl
    | cons c rest =>
      have none := ends c rfl
      simp [takeDigits, none, digitsOf]
  | cons c text ih =>
    obtain ⟨d, value⟩ := Option.isSome_iff_exists.mp (digits c (by simp))
    have more := ih fun c member => digits c (List.mem_cons_of_mem _ member)
    simp only [List.cons_append, takeDigits, value, more, digitsOf, List.filterMap_cons]

theorem digitsOf_cons (digits : AllDigits (c :: text)) : ∃ d, digitValue? c = some d ∧
    digitsOf (c :: text) = d :: digitsOf text := by
  obtain ⟨d, value⟩ := Option.isSome_iff_exists.mp (digits c (by simp))
  exact ⟨d, value, by simp [digitsOf, value]⟩

theorem WholeText.takeDigits (whole : WholeText ds text)
    (ends : ∀ c ∈ rest.head?, digitValue? c = none) : takeDigits (text ++ rest) = (ds, rest) := by
  cases whole with
  | zero =>
    have single : AllDigits ['0'] := by simp [AllDigits]; decide
    exact takeDigits_append single ends
  | @more c d text first digits =>
    have all : AllDigits (c :: text) := by
      intro other member
      rcases List.mem_cons.mp member with rfl | later
      · rw [first]
        rfl
      · exact digits other later
    have taken := takeDigits_append all ends
    rwa [digitsOf, List.filterMap_cons_some first] at taken

theorem WholeText.starts (whole : WholeText ds text) :
    ∃ c rest, text = c :: rest ∧ (digitValue? c).isSome = true := by
  cases whole with
  | zero => exact ⟨_, _, rfl, by decide⟩
  | more first => exact ⟨_, _, rfl, by rw [first]; rfl⟩

theorem readFraction_text {fraction : Option (List Nat)} (places : FractionText fraction text)
    (ends : ∀ c ∈ rest.head?, digitValue? c = none ∧ c ≠ '.') :
    readFraction (text ++ rest) = .ok (fraction, rest) := by
  cases places with
  | absent =>
    rw [List.nil_append]
    unfold readFraction
    split
    · exact absurd rfl (ends '.' rfl).2
    · rfl
  | @present c text digits =>
    obtain ⟨d, value, cons⟩ := digitsOf_cons digits
    have taken := takeDigits_append digits fun c member => (ends c member).1
    rw [cons] at taken ⊢
    rw [List.cons_append, readFraction, taken]

theorem readExponentDigits_text (digits : AllDigits (c :: text))
    (ends : ∀ c ∈ rest.head?, digitValue? c = none) (negative : Bool) :
    readExponentDigits negative (c :: text ++ rest) = .ok (some (if negative then
      -(ofDigits (digitsOf (c :: text)) : Int) else ofDigits (digitsOf (c :: text))), rest) := by
  obtain ⟨d, value, cons⟩ := digitsOf_cons digits
  have taken := takeDigits_append digits ends
  rw [cons] at taken ⊢
  rw [readExponentDigits, taken]

theorem readExponent_none (ends : ∀ c ∈ rest.head?, c ≠ 'e' ∧ c ≠ 'E') :
    readExponent rest = .ok (none, rest) := by
  unfold readExponent
  split
  case h_7 => rfl
  all_goals first | exact absurd rfl (ends 'e' rfl).1 | exact absurd rfl (ends 'E' rfl).2

theorem readExponent_mark {mark : Char} (marks : mark = 'e' ∨ mark = 'E') (minus : c ≠ '-')
    (plus : c ≠ '+') : readExponent (mark :: c :: rest) = readExponentDigits false (c :: rest) := by
  have noMinus (rest' : List Char) (same : c :: rest = '-' :: rest') := minus (List.cons.inj same).1
  have noPlus (rest' : List Char) (same : c :: rest = '+' :: rest') := plus (List.cons.inj same).1
  rcases marks with rfl | rfl
  · exact readExponent.eq_5 _ noMinus noPlus
  · exact readExponent.eq_6 _ noMinus noPlus

theorem readExponent_text {exponent : Option Int} (scale : ExponentText exponent text)
    (ends : ∀ c ∈ rest.head?, digitValue? c = none ∧ c ≠ 'e' ∧ c ≠ 'E') :
    readExponent (text ++ rest) = .ok (exponent, rest) := by
  have stops : ∀ c ∈ rest.head?, digitValue? c = none := fun c member => (ends c member).1
  cases scale with
  | absent => exact readExponent_none fun c member => (ends c member).2
  | @plain mark c text marks digits =>
    have digit := digits c List.mem_cons_self
    have minus : c ≠ '-' := by rintro rfl; exact absurd digit (by decide)
    have plus : c ≠ '+' := by rintro rfl; exact absurd digit (by decide)
    rw [List.cons_append, List.cons_append, readExponent_mark marks minus plus]
    exact readExponentDigits_text digits stops false
  | plus marks digits =>
    have read := readExponentDigits_text digits stops false
    rcases marks with rfl | rfl <;> exact read
  | minus marks digits =>
    have read := readExponentDigits_text digits stops true
    rcases marks with rfl | rfl <;> exact read

theorem ExponentText.ends {exponent : Option Int} (scale : ExponentText exponent text)
    (apart : Apart rest) : ∀ c ∈ (text ++ rest).head?, digitValue? c = none ∧ c ≠ '.' := by
  cases scale with
  | absent =>
    intro c member
    have mark := digitValue?_mark (apart c member)
    exact ⟨mark.1, mark.2.1⟩
  | plain marks | plus marks | minus marks =>
    rintro _ ⟨⟩
    rcases marks with rfl | rfl <;> decide

theorem FractionText.ends {fraction : Option (List Nat)} (places : FractionText fraction text)
    (stops : ∀ c ∈ rest.head?, digitValue? c = none) :
    ∀ c ∈ (text ++ rest).head?, digitValue? c = none := by
  cases places with
  | absent => exact stops
  | present =>
    rintro _ ⟨⟩
    decide

theorem readUnsigned_text {fraction : Option (List Nat)} {exponent : Option Int}
    {whole part power : List Char} (digits : WholeText ds whole) (places : FractionText fraction part)
    (scale : ExponentText exponent power) (negative : Bool) (apart : Apart rest) :
    readUnsigned negative (whole ++ (part ++ power) ++ rest) =
      .ok (⟨negative, ds, fraction, exponent⟩, rest) := by
  have partEnds := scale.ends apart
  have wholeEnds := places.ends fun c member => (partEnds c member).1
  have first := digits.takeDigits wholeEnds
  have second := readFraction_text places partEnds
  have third := readExponent_text scale fun c member =>
    have mark := digitValue?_mark (apart c member)
    ⟨mark.1, mark.2.2⟩
  rw [List.append_assoc, List.append_assoc, readUnsigned, first]
  cases digits <;> simp [second, third, bind, Except.bind, pure, Except.pure]

/-- A numeral is read to its end if what follows cannot continue it. -/
theorem readNumeral_text {numeral : Numeral} (written : NumeralText numeral text)
    (apart : Apart rest) : readNumeral (text ++ rest) = .ok (numeral, rest) := by
  cases written with
  | positive digits places scale =>
    have read := readUnsigned_text digits places scale false apart
    obtain ⟨c, more, rfl, digit⟩ := digits.starts
    have unsigned : c ≠ '-' := by rintro rfl; exact absurd digit (by decide)
    rw [← read]
    exact readNumeral.eq_2 _ fun _ same => unsigned (List.cons.inj same).1
  | negative digits places scale => exact readUnsigned_text digits places scale true apart

theorem ne_of_digit {other : Char} (digit : c = '-' ∨ (digitValue? c).isSome = true)
    (mark : other ≠ '-') (none : digitValue? other = none) : c ≠ other := by
  rintro rfl
  rcases digit with minus | value
  · exact mark minus
  · rw [none] at value
    contradiction

theorem digit_solid (digit : c = '-' ∨ (digitValue? c).isSome = true) : isSpace c = false := by
  cases blank : isSpace c with
  | false => rfl
  | true =>
    have mark := digitValue?_mark (.inl blank)
    have minus : c ≠ '-' := by
      rintro rfl
      exact absurd blank (by decide)
    exact absurd rfl (ne_of_digit digit minus mark.1)

theorem NumeralText.starts {numeral : Numeral} (written : NumeralText numeral text) :
    ∃ c rest, text = c :: rest ∧ (c = '-' ∨ (digitValue? c).isSome = true) := by
  cases written with
  | positive digits =>
    obtain ⟨c, more, rfl, digit⟩ := digits.starts
    exact ⟨c, _, rfl, .inr digit⟩
  | negative => exact ⟨'-', _, rfl, .inl rfl⟩

end Digits

section Words

variable {ds : List Nat} {text rest : List Char} {n : Nat}

theorem le_ofDigits (n : Nat) (ds : List Nat) : n ≤ ds.foldl (fun n d => 10 * n + d) n := by
  induction ds generalizing n with
  | nil => exact Nat.le_refl n
  | cons d ds ih =>
    have more := ih (10 * n + d)
    rw [List.foldl_cons]
    omega

theorem absorb_all (small : ds.foldl (fun n d => 10 * n + d) n < wordLimit) :
    absorb n ds = (ds.foldl (fun n d => 10 * n + d) n, []) := by
  induction ds generalizing n with
  | nil => rfl
  | cons d ds ih =>
    have fits : 10 * n + d < wordLimit := Nat.lt_of_le_of_lt (le_ofDigits _ ds) small
    rw [absorb, if_pos fits, ih small]
    rfl

theorem readNumber_word (whole : WholeText ds text) (small : ofDigits ds < wordLimit)
    (apart : Apart rest) : readNumber (text ++ rest) = .ok (.int (ofDigits ds), rest) := by
  have read := readNumeral_text (.positive whole .absent .absent) apart
  simp only [List.append_nil] at read
  have taken : absorb 0 ds = (ofDigits ds, []) := absorb_all small
  rw [readNumber, read]
  simp [Numeral.number?, Numeral.int?, taken, bind, Except.bind, pure, Except.pure]

theorem digitValue?_digitChar {d : Nat} (small : d < 10) : digitValue? (Nat.digitChar d) = some d := by
  have each : ∀ d : Fin 10, digitValue? (Nat.digitChar d) = some d.val := by decide
  exact each ⟨d, small⟩

theorem WholeText.snoc {d : Nat} (whole : WholeText ds text) (large : 0 < ofDigits ds) (small : d < 10) :
    WholeText (ds ++ [d]) (text ++ [Nat.digitChar d]) := by
  cases whole with
  | zero => exact absurd large (by decide)
  | @more c e text first digits =>
    have value := digitValue?_digitChar small
    have all : AllDigits (text ++ [Nat.digitChar d]) := by
      intro c member
      rcases List.mem_append.mp member with earlier | last
      · exact digits c earlier
      · rw [List.mem_singleton.mp last, value]
        rfl
    have longer := WholeText.more first all
    rwa [digitsOf, List.filterMap_append, List.filterMap_cons_some value, List.filterMap_nil] at longer

/-- A natural number is printed as its decimal digits. -/
theorem toDigits_whole (n : Nat) : ∃ ds, WholeText ds (Nat.toDigits 10 n) ∧ ofDigits ds = n := by
  induction n using Nat.strongRecOn with
  | _ n ih =>
    rw [Nat.toDigits_eq_if (by decide)]
    split
    · next single =>
      cases n with
      | zero => exact ⟨_, .zero, rfl⟩
      | succ d =>
        have none : AllDigits [] := fun _ member => absurd member List.not_mem_nil
        exact ⟨[d + 1], .more (digitValue?_digitChar single) none, by simp [ofDigits]⟩
    · next larger =>
      obtain ⟨ds, whole, value⟩ := ih (n / 10) (by omega)
      have low : n % 10 < 10 := Nat.mod_lt n (by decide)
      refine ⟨ds ++ [n % 10], whole.snoc (by omega) low, ?_⟩
      rw [ofDigits, List.foldl_append, ← ofDigits, value]
      simp only [List.foldl_cons, List.foldl_nil]
      omega

end Words

end AgentHost.Json
