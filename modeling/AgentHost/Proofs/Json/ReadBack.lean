import AgentHost.Json.Printer
import AgentHost.Json.Reader
import AgentHost.Proofs.Json.Listing
import AgentHost.Proofs.Json.QuotedText

namespace AgentHost.Json

/-- A value without numbers and at most this deep, whose objects have no duplicate names. -/
inductive Textual : Nat → Json → Prop where
  | null (depth : Nat) : Textual depth .null
  | bool (depth : Nat) (value : Bool) : Textual depth (.bool value)
  | string (depth : Nat) (value : String) : Textual depth (.string value)
  | array {depth : Nat} {items : List Json} (each : ∀ item ∈ items, Textual depth item) :
      Textual (depth + 1) (.array items)
  | object {depth : Nat} {members : Members} (names : (members.map Prod.fst).Nodup)
      (each : ∀ member ∈ members, Textual depth member.2) : Textual (depth + 1) (.object members)

theorem itemsText_cons (item : Json) (rest : List Json) :
    itemsText (item :: rest) = item.text ++ (rest.map text).flatMap (',' :: ·) := by
  induction rest generalizing item with
  | nil => simp [itemsText]
  | cons next rest ih =>
    have goesOn : next :: rest = [] → False := by simp
    rw [itemsText.eq_3 _ _ goesOn, ih next]
    rfl

theorem itemsText_listed (items : List Json) : Listed (items.map text) (itemsText items) := by
  cases items with
  | nil => exact .nil .nil
  | cons item rest => exact itemsText_cons item rest ▸ .separated _ _

def printed (member : String × Json) : Member :=
  { name := member.1.toList.flatMap escape, value := member.2.text }

theorem membersText_cons (member : String × Json) (rest : Members) : membersText (member :: rest) =
    (printed member).text ++ (rest.map fun member => (printed member).text).flatMap (',' :: ·) := by
  induction rest generalizing member with
  | nil => simp [membersText, printed, Member.text, Member.rest, quote]
  | cons next rest ih =>
    have goesOn : next :: rest = [] → False := by simp
    rw [membersText.eq_3 _ _ _ goesOn, ih next]
    simp [printed, Member.text, Member.rest, quote]

theorem membersText_listed (members : Members) :
    Listed (members.map fun member => (printed member).text) (membersText members) := by
  cases members with
  | nil => exact .nil .nil
  | cons member rest => exact membersText_cons member rest ▸ .separated _ _

theorem Textual.starts {depth : Nat} {value : Json} (textual : Textual depth value) :
    Starts value.text := by
  cases textual with
  | null => exact ⟨'n', _, rfl, by decide, by decide, by decide⟩
  | bool _ value =>
    cases value with
    | true => exact ⟨'t', _, rfl, by decide, by decide, by decide⟩
    | false => exact ⟨'f', _, rfl, by decide, by decide, by decide⟩
  | string _ value => exact ⟨'"', _, rfl, by decide, by decide, by decide⟩
  | array => exact ⟨'[', _, rfl, by decide, by decide, by decide⟩
  | object => exact ⟨'\x7b', _, rfl, by decide, by decide, by decide⟩

theorem insert_new {members : Members} {name : String} (new : name ∉ members.map Prod.fst)
    (value : Json) : Members.insert members name value = members ++ [(name, value)] := by
  induction members with
  | nil => rfl
  | cons pair members ih =>
    rw [List.map_cons, List.mem_cons, not_or] at new
    rw [Members.insert, if_neg fun same => new.1 same.symm, ih new.2]
    rfl

/-- Members with different names stay in their order. -/
theorem foldl_insert {members : Members} (kept : Members)
    (names : ((kept ++ members).map Prod.fst).Nodup) :
    members.foldl (fun kept pair => Members.insert kept pair.1 pair.2) kept = kept ++ members := by
  induction members generalizing kept with
  | nil => exact (List.append_nil kept).symm
  | cons pair members ih =>
    have new : pair.1 ∉ kept.map Prod.fst := by
      intro among
      rw [List.map_append, List.map_cons] at names
      exact (List.nodup_append.mp names).2.2 _ among _ (List.mem_cons_self) rfl
    rw [List.append_cons] at names ⊢
    rw [List.foldl_cons, insert_new new]
    exact ih _ names

theorem readValue_quoted (depth : Nat) (rest : List Char) : readValue depth ('"' :: rest) =
    (readQuoted rest).map fun (s, rest) => (.string s, rest) := by
  rw [readValue, skipSpace_cons (by decide)]
  rfl

theorem readValue_list (depth : Nat) (rest : List Char) : readValue (depth + 1) ('[' :: rest) =
    (foldItems (fun items text => (readValue depth text).map fun (value, rest) => (value :: items, rest))
      (rest.length + 1) true [] rest).map fun (items, rest) => (.array items.reverse, rest) := by
  rw [readValue, skipSpace_cons (by decide)]
  rfl

theorem readValue_record (depth : Nat) (rest : List Char) : readValue (depth + 1) ('\x7b' :: rest) =
    (foldMembers readQuoted (fun members name text => do
      let (value, rest) ← readValue depth (← readColon text)
      return (Members.insert members name value, rest))
      (rest.length + 1) true [] rest).map fun (members, rest) => (.object members, rest) := by
  rw [readValue, skipSpace_cons (by decide)]
  rfl

/-- A printed value is read back, whatever follows it. -/
theorem readValue_text {depth : Nat} {value : Json} (textual : Textual depth value)
    (rest : List Char) : readValue depth (value.text ++ rest) = .ok (value, rest) := by
  induction textual generalizing rest with
  | null =>
    rw [readValue, text]
    rfl
  | bool _ value =>
    cases value <;> (rw [readValue, text]; rfl)
  | string _ value =>
    rw [text, quote, List.cons_append, List.cons_append, List.append_assoc, List.singleton_append,
      readValue_quoted, readQuoted_spelling (escape_spelling _)]
    rfl
  | @array depth items each ih =>
    rw [text, List.cons_append, List.cons_append, List.append_assoc, List.singleton_append,
      readValue_list, foldItems_listed (fun items value => value :: items) (itemsText_listed items)
        (fun item member => (each item member).starts) ?_]
    · simp [Except.map]
    · intro value member state rest _
      rw [ih value member]
      rfl
  | @object depth members names each ih =>
    rw [text, List.cons_append, List.cons_append, List.append_assoc, List.singleton_append,
      readValue_record, foldMembers_listed Prod.fst
        (fun kept pair => Members.insert kept pair.1 pair.2) (membersText_listed members) ?_]
    · rw [foldl_insert [] names]
      rfl
    · intro earlier pair later split
      refine ⟨readQuoted_spelling (escape_spelling _), fun rest _ => ?_⟩
      have value := ih pair (by rw [split]; simp) rest
      have colon := readColon_colon .nil (pair.2.text ++ rest)
      simp only [printed, Member.rest, List.nil_append] at colon ⊢
      rw [List.foldl_append, List.cons_append, colon]
      simp [value, bind, Except.bind, pure, Except.pure]

theorem parse?_render {value : Json} (textual : Textual depthLimit value) :
    parse? value.render = some value := by
  have read := readValue_text textual []
  rw [List.append_nil] at read
  rw [parse?, parse, render, String.toList_ofList, whole, read]
  rfl

theorem mem_separated {α : Type} (print : α → List Char) {first : α} {rest : List α} {c : Char}
    (member : c ∈ print first ++ (rest.map print).flatMap (',' :: ·)) :
    c = ',' ∨ ∃ item ∈ first :: rest, c ∈ print item := by
  rw [List.mem_append, List.flatMap_map, List.mem_flatMap] at member
  rcases member with written | ⟨item, among, written⟩
  · exact .inr ⟨first, by simp, written⟩
  · rcases List.mem_cons.mp written with rfl | written
    · exact .inl rfl
    · exact .inr ⟨item, List.mem_cons_of_mem _ among, written⟩

theorem mem_itemsText {items : List Json} {c : Char} (member : c ∈ itemsText items) :
    c = ',' ∨ ∃ item ∈ items, c ∈ item.text := by
  cases items with
  | nil => simp [itemsText] at member
  | cons item items => exact mem_separated text (itemsText_cons item items ▸ member)

theorem mem_membersText {members : Members} {c : Char} (member : c ∈ membersText members) :
    c = ',' ∨ ∃ pair ∈ members, c ∈ (printed pair).text := by
  cases members with
  | nil => simp [membersText] at member
  | cons pair members =>
    have separated := membersText_cons pair members ▸ member
    exact mem_separated (fun pair => (printed pair).text) separated

theorem printed_text (pair : String × Json) :
    (printed pair).text = quote pair.1 ++ ':' :: pair.2.text := by
  simp [printed, Member.text, Member.rest, quote]

/-- A printed value has no control character, so it stays on one line. -/
theorem Textual.plain {depth : Nat} {value : Json} (textual : Textual depth value) {c : Char}
    (member : c ∈ value.text) : isControl c = false := by
  induction textual with
  | null =>
    simp only [text, List.mem_cons, List.not_mem_nil, or_false] at member
    rcases member with rfl | rfl | rfl | rfl <;> decide
  | bool _ value =>
    cases value with
    | true =>
      simp only [text, List.mem_cons, List.not_mem_nil, or_false] at member
      rcases member with rfl | rfl | rfl | rfl <;> decide
    | false =>
      simp only [text, List.mem_cons, List.not_mem_nil, or_false] at member
      rcases member with rfl | rfl | rfl | rfl | rfl <;> decide
  | string _ value => exact quote_plain member
  | array _ ih =>
    simp only [text, List.mem_cons, List.mem_append, List.not_mem_nil, or_false] at member
    rcases member with (rfl | among) | rfl
    · decide
    · rcases mem_itemsText among with rfl | ⟨item, inside, written⟩
      · decide
      · exact ih item inside written
    · decide
  | object _ _ ih =>
    simp only [text, List.mem_cons, List.mem_append, List.not_mem_nil, or_false] at member
    rcases member with (rfl | among) | rfl
    · decide
    · rcases mem_membersText among with rfl | ⟨pair, inside, written⟩
      · decide
      · rw [printed_text, List.mem_append, List.mem_cons] at written
        rcases written with name | rfl | written
        · exact quote_plain name
        · decide
        · exact ih pair inside written
    · decide

end AgentHost.Json
