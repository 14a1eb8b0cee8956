import AgentHost.Json.Codec
import AgentHost.Proofs.Json.Numerals
import AgentHost.Proofs.Json.ReadBack

namespace AgentHost.Json

inductive Written : Json → List Char → Prop where
  | null : Written .null ['n', 'u', 'l', 'l']
  | yes : Written (.bool true) ['t', 'r', 'u', 'e']
  | no : Written (.bool false) ['f', 'a', 'l', 's', 'e']
  | word {ds : List Nat} {text : List Char} (whole : WholeText ds text)
      (small : ofDigits ds < wordLimit) : Written (nat (ofDigits ds)) text
  | string {s : String} {text : List Char} (spelling : Spelling s.toList text) :
      Written (.string s) ('"' :: (text ++ ['"']))
  | array (items : List (Json × List Char)) {inside : List Char}
      (listed : Listed (items.map Prod.snd) inside) (each : ∀ item ∈ items, Written item.1 item.2) :
      Written (.array (items.map Prod.fst)) ('[' :: (inside ++ [']']))

section Values

variable {value : Json} {text lead rest : List Char}

theorem Written.starts (written : Written value text) : Starts text := by
  cases written with
  | null | yes | no | string | array => exact ⟨_, _, rfl, by decide, by decide, by decide⟩
  | word whole =>
    obtain ⟨c, rest, rfl, digit⟩ := whole.starts
    exact ⟨c, rest, rfl, digit_solid (.inr digit), ne_of_digit (.inr digit) (by decide) (by decide),
      ne_of_digit (.inr digit) (by decide) (by decide)⟩

theorem Written.present (written : Written value text) (some : value ≠ .null) :
    ∃ c rest, text = c :: rest ∧ isSpace c = false ∧ c ≠ 'n' := by
  cases written with
  | null => contradiction
  | yes | no | string | array => exact ⟨_, _, rfl, by decide, by decide⟩
  | word whole =>
    obtain ⟨c, rest, rfl, digit⟩ := whole.starts
    exact ⟨c, rest, rfl, digit_solid (.inr digit), ne_of_digit (.inr digit) (by decide) (by decide)⟩

theorem readValue_digit {depth : Nat} {c : Char} (digit : c = '-' ∨ (digitValue? c).isSome = true) :
    readValue depth (c :: rest) = (readNumber (c :: rest)).map fun (n, rest) => (.number n, rest) := by
  rw [readValue, skipSpace_cons (digit_solid digit)]
  split
  case h_8 =>
    next same =>
    obtain ⟨rfl, rfl⟩ := List.cons.inj same
    rw [if_pos digit]
  all_goals
    next same =>
    first
    | contradiction
    | exact absurd (List.cons.inj same).1 (ne_of_digit digit (by decide) (by decide))

theorem readScalar_start {c : Char} (blank : Space lead) (solid : isSpace c = false)
    (list : c ≠ '[') (record : c ≠ '\x7b') :
    readScalar (lead ++ c :: rest) = readValue 0 (c :: rest) := by
  rw [readScalar, skipSpace_append blank, skipSpace_cons solid]
  split
  · next same => exact absurd (List.cons.inj same).1 list
  · next same => exact absurd (List.cons.inj same).1 record
  · rfl

theorem readScalar_written (written : Written value text) (flat : value.array? = none)
    (blank : Space lead) (apart : Apart rest) :
    readScalar (lead ++ (text ++ rest)) = .ok (value, rest) := by
  cases written with
  | null | yes | no =>
    rw [List.cons_append, readScalar_start blank (by decide) (by decide) (by decide), readValue]
    rfl
  | word whole small =>
    have read := readNumber_word whole small apart
    obtain ⟨c, more, rfl, digit⟩ := whole.starts
    rw [List.cons_append] at read ⊢
    rw [readScalar_start blank (digit_solid (.inr digit)) (ne_of_digit (.inr digit) (by decide) (by decide))
      (ne_of_digit (.inr digit) (by decide) (by decide)), readValue_digit (.inr digit), read]
    rfl
  | string spelling =>
    rw [List.cons_append, List.append_assoc, List.singleton_append,
      readScalar_start blank (by decide) (by decide) (by decide), readValue_quoted,
      readQuoted_spelling spelling]
    rfl
  | array => contradiction

end Values

namespace Codec

variable {α : Type}

def Gives (codec : Codec α) (text : List Char) (a : α) : Prop :=
  ∀ lead rest, Space lead → Apart rest → codec.read (lead ++ (text ++ rest)) = .ok (a, rest)

theorem Gives.whole {codec : Codec α} {text before after : List Char} {a : α}
    (gives : codec.Gives text a) (lead : Space before) (tail : Space after) :
    Json.whole codec.read (before ++ (text ++ after)) = .ok a := by
  have apart : Apart (after ++ []) := .space_append tail nofun
  have ended : skipSpace (after ++ []) = [] := skipSpace_append tail []
  rw [List.append_nil] at apart ended
  rw [Json.whole, gives _ _ lead apart]
  simp [ended, bind, Except.bind, pure, Except.pure]

/-- A codec reads back every text that may stand for a value in `range`, among them the one it
    prints. -/
structure Lawful (codec : Codec α) (range : α → Prop) : Prop where
  reads : ∀ a text, range a → Written (codec.toJson a) text → codec.Gives text a
  prints : ∀ a, range a → Written (codec.toJson a) (codec.toJson a).text

theorem scalar_gives {ofJson? : Json → Option α} {toJson : α → Json} {a : α} {text : List Char}
    (back : ofJson? (toJson a) = some a) (flat : (toJson a).array? = none)
    (written : Written (toJson a) text) : (scalar ofJson? toJson).Gives text a := by
  intro lead rest blank apart
  have read := readScalar_written written flat blank apart
  simp only [scalar, read, bind, Except.bind, back, pure, Except.pure]

theorem string_lawful : string.Lawful fun _ => True where
  reads _ _ _ written := scalar_gives rfl rfl written
  prints s _ := .string (escape_spelling s.toList)

theorem bool_lawful : bool.Lawful fun _ => True where
  reads _ _ _ written := scalar_gives rfl rfl written
  prints value _ := by
    cases value with
    | true => exact .yes
    | false => exact .no

theorem word_lawful : word.Lawful (· < wordLimit) where
  reads n _ _ written := scalar_gives (by simp [word?, nat]) rfl written
  prints n small := by
    obtain ⟨ds, whole, value⟩ := toDigits_whole n
    have written := Written.word whole (by rwa [value])
    have printed : (nat n).text = Nat.toDigits 10 n := by
      have shown : (nat n).text = (toString n).toList := rfl
      rw [shown, Nat.toString_eq_ofList_toDigits, String.toList_ofList]
    rw [value, ← printed] at written
    exact written

theorem exists_pairs {β γ : Type} {f : α → β} {items : List α} {pairs : List (β × γ)}
    (same : pairs.map Prod.fst = items.map f) :
    ∃ found : List (α × γ), found.map Prod.fst = items ∧ found.map (fun p => (f p.1, p.2)) = pairs := by
  induction items generalizing pairs with
  | nil => exact ⟨[], rfl, (List.map_eq_nil_iff.mp same).symm⟩
  | cons a items ih =>
    obtain ⟨⟨_, c⟩, pairs, rfl, rfl, rest⟩ := List.map_eq_cons_iff.mp same
    obtain ⟨found, firsts, all⟩ := ih rest
    exact ⟨(a, c) :: found, by rw [List.map_cons, firsts], by rw [List.map_cons, all]⟩

theorem list_read (item : Codec α) {lead : List Char} (blank : Space lead) (rest : List Char) :
    (list item).read (lead ++ '[' :: rest) =
      (foldItems (fun items text => (item.read text).map fun (a, rest) => (a :: items, rest))
        (rest.length + 1) true [] rest).map fun (items, rest) => (items.reverse, rest) := by
  rw [list]
  dsimp only
  rw [skipSpace_append blank, skipSpace_cons (by decide)]
  rfl

theorem list_lawful {item : Codec α} {range : α → Prop} (lawful : item.Lawful range) :
    (list item).Lawful fun items => ∀ a ∈ items, range a where
  reads items text inRange written := by
    generalize shape : (list item).toJson items = value at written
    cases written with
    | @array pairs inside listed each =>
      -- pair each text with the item it was written for
      obtain ⟨found, rfl, rfl⟩ := exists_pairs (Json.array.inj shape).symm
      have texts : Listed (found.map Prod.snd) inside := by rwa [List.map_map] at listed
      intro lead rest blank _
      rw [List.cons_append, List.append_assoc, List.singleton_append, list_read item blank,
        foldItems_listed (fun items p => p.1 :: items) texts
          (fun p member => (each _ (List.mem_map_of_mem member)).starts) ?_]
      · simp [Except.map]
      · intro p member state rest apart
        have gives := lawful.reads p.1 p.2 (inRange _ (List.mem_map_of_mem member))
          (each _ (List.mem_map_of_mem member)) [] rest .nil apart
        rw [List.nil_append] at gives
        rw [gives]
        rfl
    | _ => cases shape
  prints items inRange := by
    have listed := itemsText_listed (items.map item.toJson)
    rw [List.map_map] at listed
    have written := Written.array (items.map fun a => (item.toJson a, (item.toJson a).text))
      (by rwa [List.map_map]) (by
        intro p member
        obtain ⟨a, among, rfl⟩ := List.mem_map.mp member
        exact lawful.prints a (inRange a among))
    rwa [List.map_map] at written

theorem option_null (item : Codec α) : (option item).Gives ['n', 'u', 'l', 'l'] none := by
  intro lead rest blank _
  rw [option]
  dsimp only
  rw [skipSpace_append blank, List.cons_append, skipSpace_cons (by decide)]
  rfl

theorem option_lawful {item : Codec α} {range : α → Prop} (lawful : item.Lawful range)
    (some : ∀ a, item.toJson a ≠ .null) : (option item).Lawful fun o => ∀ a ∈ o, range a where
  reads o text inRange written := by
    cases o with
    | none =>
      cases written with
      | null => exact option_null item
    | some a =>
      intro lead rest blank apart
      have gives := lawful.reads a text (inRange a rfl) written [] rest .nil apart
      obtain ⟨c, more, rfl, solid, letter⟩ := written.present (some a)
      rw [List.nil_append, List.cons_append] at gives
      rw [option]
      dsimp only
      rw [skipSpace_append blank, List.cons_append, skipSpace_cons solid]
      split
      · next same => exact absurd (List.cons.inj same).1 letter
      · rw [gives]
        rfl
  prints o inRange := by
    cases o with
    | none => exact .null
    | some a => exact lawful.prints a (inRange a rfl)

/-- The codec of an optional value is lawful on `none`, whatever the codec of the value is. -/
theorem absent_lawful {item : Codec α} : (option item).Lawful (· = none) where
  reads o text absent written := by
    subst absent
    cases written with
    | null => exact option_null item
  prints o absent := by
    subst absent
    exact .null

end Codec

end AgentHost.Json
