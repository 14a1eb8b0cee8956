import AgentHost.Json.Sequence
import Mathlib.Data.List.Basic

namespace AgentHost.Json

def Space (text : List Char) : Prop := ∀ c ∈ text, isSpace c = true

/-- What may follow a value: the end of the text, or a character that cannot continue the value. -/
def Apart (rest : List Char) : Prop :=
  ∀ c ∈ rest.head?, isSpace c = true ∨ c = ',' ∨ c = ']' ∨ c = '\x7d'

def Starts (item : List Char) : Prop :=
  ∃ c rest, item = c :: rest ∧ isSpace c = false ∧ c ≠ ']' ∧ c ≠ '\x7d'

inductive Following : List (List Char) → List Char → Prop where
  | nil {space : List Char} (blank : Space space) : Following [] space
  | cons {before after item text : List Char} {items : List (List Char)} (before_blank : Space before)
      (after_blank : Space after) (more : Following items text) :
      Following (item :: items) (before ++ ',' :: (after ++ (item ++ text)))

inductive Listed : List (List Char) → List Char → Prop where
  | nil {space : List Char} (blank : Space space) : Listed [] space
  | cons {before item text : List Char} {items : List (List Char)} (blank : Space before)
      (more : Following items text) : Listed (item :: items) (before ++ (item ++ text))

structure Member where
  name : List Char
  gap : List Char := []
  lead : List Char := []
  value : List Char

def Member.rest (member : Member) : List Char := member.gap ++ ':' :: (member.lead ++ member.value)

def Member.text (member : Member) : List Char := '"' :: (member.name ++ '"' :: member.rest)

theorem Space.nil : Space [] := fun _ member => absurd member List.not_mem_nil

section Tokens

variable {close c : Char} {space item text rest : List Char} {items : List (List Char)}

theorem skipSpace_append (blank : Space space) (text : List Char) :
    skipSpace (space ++ text) = skipSpace text :=
  List.dropWhile_append_of_pos blank

theorem skipSpace_cons (solid : isSpace c = false) : skipSpace (c :: rest) = c :: rest := by
  simp [skipSpace, solid]

theorem Apart.of_cons (mark : isSpace c = true ∨ c = ',' ∨ c = ']' ∨ c = '\x7d') :
    Apart (c :: rest) := by
  rintro _ ⟨⟩
  exact mark

theorem Apart.space_append (blank : Space space) (apart : Apart rest) : Apart (space ++ rest) := by
  cases space with
  | nil => exact apart
  | cons c space => exact .of_cons (.inl (blank c (by simp)))

theorem nextItem_first (blank : Space space) (solid : isSpace c = false) (opens : c ≠ close) :
    nextItem true close (space ++ c :: rest) = .ok (some (c :: rest)) := by
  rw [nextItem, skipSpace_append blank, skipSpace_cons solid]
  simp [opens]

theorem nextItem_comma {after : List Char} (blank : Space space) (after_blank : Space after)
    (solid : isSpace c = false) (opens : c ≠ close) (mark : close ≠ ',') :
    nextItem false close (space ++ ',' :: (after ++ c :: rest)) = .ok (some (c :: rest)) := by
  rw [nextItem, skipSpace_append blank, skipSpace_cons (by decide)]
  simp [opens, mark.symm, skipSpace_append after_blank, skipSpace_cons solid]

theorem nextItem_close (blank : Space space) (solid : isSpace close = false) (first : Bool) :
    nextItem first close (space ++ close :: rest) = .ok none := by
  rw [nextItem, skipSpace_append blank, skipSpace_cons solid]
  simp

theorem readClose_close (blank : Space space) (solid : isSpace close = false) :
    readClose close (space ++ close :: rest) = .ok rest := by
  rw [readClose, skipSpace_append blank, skipSpace_cons solid]
  simp

theorem readColon_colon (blank : Space space) (rest : List Char) :
    readColon (space ++ ':' :: rest) = .ok rest := by
  rw [readColon, skipSpace_append blank, skipSpace_cons (by decide)]
  rfl

theorem Following.separated (items : List (List Char)) :
    Following items (items.flatMap (',' :: ·)) := by
  induction items with
  | nil => exact .nil .nil
  | cons item items ih => exact .cons .nil .nil ih

theorem Listed.separated (item : List Char) (items : List (List Char)) :
    Listed (item :: items) (item ++ items.flatMap (',' :: ·)) :=
  .cons .nil (.separated items)

theorem Following.apart (following : Following items text) (mark : c = ']' ∨ c = '\x7d') :
    Apart (text ++ c :: rest) := by
  cases following with
  | nil blank => exact .space_append blank (.of_cons (.inr (.inr mark)))
  | cons before_blank after_blank more =>
    rw [List.append_assoc]
    exact .space_append before_blank (.of_cons (.inr (.inl rfl)))

theorem Following.length_le (following : Following items text) : items.length ≤ text.length := by
  induction following with
  | nil => exact Nat.zero_le _
  | cons _ _ _ ih =>
    simp only [List.length_append, List.length_cons]
    omega

theorem Listed.length_le (listed : Listed items text) : items.length ≤ text.length + 1 := by
  cases listed with
  | nil => exact Nat.zero_le _
  | cons _ more =>
    have rest := more.length_le
    simp only [List.length_append, List.length_cons]
    omega

theorem Following.item_length_le (following : Following items text) (member : item ∈ items) :
    item.length ≤ text.length := by
  induction following with
  | nil => contradiction
  | cons _ _ _ ih =>
    simp only [List.length_append, List.length_cons]
    rcases List.mem_cons.mp member with rfl | later
    · omega
    · have within := ih later
      omega

theorem Listed.item_length_le (listed : Listed items text) (member : item ∈ items) :
    item.length ≤ text.length := by
  cases listed with
  | nil => contradiction
  | cons _ more =>
    simp only [List.length_append]
    rcases List.mem_cons.mp member with rfl | later
    · omega
    · have within := more.item_length_le later
      omega

end Tokens

variable {σ α β : Type} {fuel : Nat}

section Items

variable {read : σ → List Char → Except Fault (σ × List Char)} {add : σ → β → σ}
  {print : β → List Char} {items : List β}

theorem foldItems_next {first : Bool} {state next : σ} {text start rest : List Char}
    (found : nextItem first ']' text = .ok (some start)) (reads : read state start = .ok (next, rest)) :
    foldItems read (fuel + 1) first state text = foldItems read fuel false next rest := by
  rw [foldItems, found]
  simp only [bind, Except.bind]
  rw [reads]

theorem foldItems_end {first : Bool} {space : List Char} (blank : Space space) (state : σ)
    (rest : List Char) :
    foldItems read (fuel + 1) first state (space ++ ']' :: rest) = .ok (state, rest) := by
  rw [foldItems, nextItem_close blank (by decide), readClose_close blank (by decide)]
  rfl

theorem foldItems_following {text : List Char} (following : Following (items.map print) text)
    (starts : ∀ item ∈ items, Starts (print item))
    (reads : ∀ item ∈ items, ∀ state rest, Apart rest →
      read state (print item ++ rest) = .ok (add state item, rest))
    (enough : items.length < fuel) (state : σ) (rest : List Char) :
    foldItems read fuel false state (text ++ ']' :: rest) = .ok (items.foldl add state, rest) := by
  induction items generalizing fuel state text with
  | nil =>
    obtain ⟨fuel, rfl⟩ := Nat.exists_eq_succ_of_ne_zero (Nat.ne_of_gt enough)
    cases following with
    | nil blank => exact foldItems_end blank state rest
  | cons item items ih =>
    obtain ⟨fuel, rfl⟩ := Nat.exists_eq_succ_of_ne_zero (Nat.ne_of_gt (Nat.zero_lt_of_lt enough))
    cases following with
    | @cons before after _ text _ before_blank after_blank more =>
      obtain ⟨c, tail, begins, solid, inside, -⟩ := starts item (by simp)
      have apart : Apart (text ++ ']' :: rest) := more.apart (.inl rfl)
      have read := reads item (by simp) state _ apart
      simp only [List.append_assoc, List.cons_append]
      rw [begins, List.cons_append] at read ⊢
      rw [foldItems_next (nextItem_comma before_blank after_blank solid inside (by decide)) read]
      exact ih more (fun item member => starts item (List.mem_cons_of_mem _ member))
        (fun item member => reads item (List.mem_cons_of_mem _ member))
        (Nat.lt_of_succ_lt_succ enough) (add state item)

theorem foldItems_listed (add : σ → β → σ) {text : List Char} (listed : Listed (items.map print) text)
    (starts : ∀ item ∈ items, Starts (print item))
    (reads : ∀ item ∈ items, ∀ state rest, Apart rest →
      read state (print item ++ rest) = .ok (add state item, rest))
    (state : σ) (rest : List Char) :
    foldItems read ((text ++ ']' :: rest).length + 1) true state (text ++ ']' :: rest) =
      .ok (items.foldl add state, rest) := by
  have enough : items.length < (text ++ ']' :: rest).length + 1 := by
    have within := listed.length_le
    rw [List.length_map] at within
    simp only [List.length_append, List.length_cons]
    omega
  cases items with
  | nil =>
    cases listed with
    | nil blank => exact foldItems_end blank state rest
  | cons item items =>
    cases listed with
    | @cons before _ text _ blank more =>
      obtain ⟨c, tail, begins, solid, inside, -⟩ := starts item (by simp)
      have apart : Apart (text ++ ']' :: rest) := more.apart (.inl rfl)
      have read := reads item (by simp) state _ apart
      simp only [List.append_assoc]
      simp only [List.append_assoc] at enough
      rw [begins, List.cons_append] at read enough ⊢
      rw [foldItems_next (nextItem_first blank solid inside) read]
      exact foldItems_following more (fun item member => starts item (List.mem_cons_of_mem _ member))
        (fun item member => reads item (List.mem_cons_of_mem _ member))
        (Nat.lt_of_succ_lt_succ enough) (add state item) rest

end Items

section Members

variable {name : List Char → Except Fault (α × List Char)}
  {member : σ → α → List Char → Except Fault (σ × List Char)}
  {written : β → Member} {key : β → α} {add : σ → β → σ} {members : List β}

theorem foldMembers_next {first : Bool} {state next : σ} {found : α}
    {text start after rest : List Char}
    (opens : nextItem first '\x7d' text = .ok (some ('"' :: start)))
    (names : name start = .ok (found, after)) (reads : member state found after = .ok (next, rest)) :
    foldMembers name member (fuel + 1) first state text =
      foldMembers name member fuel false next rest := by
  rw [foldMembers, opens]
  simp only [bind, Except.bind]
  rw [names]
  dsimp only
  rw [reads]

theorem foldMembers_end {first : Bool} {space : List Char} (blank : Space space) (state : σ)
    (rest : List Char) :
    foldMembers name member (fuel + 1) first state (space ++ '\x7d' :: rest) = .ok (state, rest) := by
  rw [foldMembers, nextItem_close blank (by decide), readClose_close blank (by decide)]
  rfl

def ReadsMembers (name : List Char → Except Fault (α × List Char))
    (member : σ → α → List Char → Except Fault (σ × List Char)) (written : β → Member) (key : β → α)
    (add : σ → β → σ) (state : σ) (members : List β) : Prop :=
  ∀ earlier item later, members = earlier ++ item :: later →
    (∀ rest, name ((written item).name ++ '"' :: rest) = .ok (key item, rest)) ∧
    ∀ rest, Apart rest → member (earlier.foldl add state) (key item) ((written item).rest ++ rest) =
      .ok ((earlier ++ [item]).foldl add state, rest)

theorem ReadsMembers.first {state : σ} {item : β} {members : List β}
    (reads : ReadsMembers name member written key add state (item :: members)) :
    (∀ rest, name ((written item).name ++ '"' :: rest) = .ok (key item, rest)) ∧
    ∀ rest, Apart rest →
      member state (key item) ((written item).rest ++ rest) = .ok (add state item, rest) :=
  reads [] item members rfl

theorem ReadsMembers.later {state : σ} {item : β} {members : List β}
    (reads : ReadsMembers name member written key add state (item :: members)) :
    ReadsMembers name member written key add (add state item) members :=
  fun earlier next later split => reads (item :: earlier) next later (by rw [split]; rfl)

theorem foldMembers_following {state : σ} {text : List Char}
    (following : Following (members.map fun item => (written item).text) text)
    (reads : ReadsMembers name member written key add state members)
    (enough : members.length < fuel) (rest : List Char) :
    foldMembers name member fuel false state (text ++ '\x7d' :: rest) =
      .ok (members.foldl add state, rest) := by
  induction members generalizing fuel state text with
  | nil =>
    obtain ⟨fuel, rfl⟩ := Nat.exists_eq_succ_of_ne_zero (Nat.ne_of_gt enough)
    cases following with
    | nil blank => exact foldMembers_end blank state rest
  | cons item members ih =>
    obtain ⟨fuel, rfl⟩ := Nat.exists_eq_succ_of_ne_zero (Nat.ne_of_gt (Nat.zero_lt_of_lt enough))
    cases following with
    | @cons before after _ text _ before_blank after_blank more =>
      obtain ⟨names, read⟩ := reads.first
      have apart : Apart (text ++ '\x7d' :: rest) := more.apart (.inr rfl)
      simp only [Member.text, List.append_assoc, List.cons_append]
      rw [foldMembers_next (nextItem_comma before_blank after_blank (by decide) (by decide) (by decide))
        (names _) (read _ apart)]
      exact ih more reads.later (Nat.lt_of_succ_lt_succ enough)

theorem foldMembers_listed (key : β → α) (add : σ → β → σ) {state : σ} {text : List Char}
    (listed : Listed (members.map fun item => (written item).text) text)
    (reads : ReadsMembers name member written key add state members) (rest : List Char) :
    foldMembers name member ((text ++ '\x7d' :: rest).length + 1) true state (text ++ '\x7d' :: rest) =
      .ok (members.foldl add state, rest) := by
  have enough : members.length < (text ++ '\x7d' :: rest).length + 1 := by
    have within := listed.length_le
    rw [List.length_map] at within
    simp only [List.length_append, List.length_cons]
    omega
  cases members with
  | nil =>
    cases listed with
    | nil blank => exact foldMembers_end blank state rest
  | cons item members =>
    cases listed with
    | @cons before _ text _ blank more =>
      obtain ⟨names, read⟩ := reads.first
      have apart : Apart (text ++ '\x7d' :: rest) := more.apart (.inr rfl)
      simp only [Member.text, List.append_assoc, List.cons_append]
      simp only [Member.text, List.append_assoc, List.cons_append] at enough
      rw [foldMembers_next (nextItem_first blank (by decide) (by decide)) (names _) (read _ apart)]
      exact foldMembers_following more reads.later (Nat.lt_of_succ_lt_succ enough) rest

end Members

end AgentHost.Json
