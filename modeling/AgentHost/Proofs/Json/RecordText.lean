import AgentHost.Proofs.Json.Grammar
import AgentHost.Proofs.Json.WrittenValues
import Mathlib.Data.List.Nodup

namespace AgentHost.Json

variable {σ : Type}

def Field.known (fields : List (Field σ)) (names : List String) : List String :=
  names.filter fun name => fields.any (·.name == name)

/-- The texts of an object in which known names occur once each, with values that satisfy `writes`,
    among any unknown names. The list is that of the known names in order. -/
inductive RecordText (fields : List (Field σ)) (writes : Field σ → List Char → Prop) :
    List String → List Char → Prop where
  | of (members : List (String × Member)) {inside : List Char}
      (listed : Listed (members.map fun member => member.2.text) inside)
      (spelled : ∀ member ∈ members, Spelling member.1.toList member.2.name)
      (spaced : ∀ member ∈ members, member.2.Spaced)
      (known : ∀ member ∈ members, ∀ field ∈ fields, field.name = member.1 →
        writes field member.2.value)
      (unknown : ∀ member ∈ members, (∀ field ∈ fields, field.name ≠ member.1) →
        JsonText member.2.value)
      (once : (Field.known fields (members.map Prod.fst)).Nodup) :
      RecordText fields writes (Field.known fields (members.map Prod.fst))
        ('\x7b' :: (inside ++ ['\x7d']))

def FieldsText (fields : List (Field σ)) (state : σ) : List String → List Char → Prop :=
  RecordText fields fun field => Written (field.toJson state)

namespace Field

variable {fields : List (Field σ)} {only : List String → σ} {name : String} {names : List String}
  {member : Member} {rest : List Char}

def Restores (field : Field σ) (only : List String → σ) (text : List Char) : Prop :=
  ∀ lead rest, Space lead → Apart rest → ∃ change,
    field.read (lead ++ (text ++ rest)) = .ok (change, rest) ∧
    ∀ names, change (only names) = only (field.name :: names)

theorem of_restores {α : Type} {codec : Codec α} {get : σ → α} {set : α → σ → σ} {a : α}
    {text : List Char} (gives : codec.Gives text a)
    (sets : ∀ names, set a (only names) = only (name :: names)) :
    (of name codec get set).Restores only text := by
  intro lead rest blank apart
  refine ⟨set a, ?_, sets⟩
  rw [of]
  dsimp only
  rw [gives lead rest blank apart]
  rfl

structure Lawful (field : Field σ) (state : σ) (only : List String → σ) : Prop where
  restores : ∀ text, Written (field.toJson state) text → field.Restores only text
  prints : Written (field.toJson state) (field.toJson state).text

theorem Lawful.of {α : Type} {codec : Codec α} {range : α → Prop} {get : σ → α} {set : α → σ → σ}
    {state : σ} (lawful : codec.Lawful range) (inRange : range (get state))
    (sets : ∀ names, set (get state) (only names) = only (name :: names)) :
    (of name codec get set).Lawful state only where
  restores text written := of_restores (lawful.reads _ text inRange written) sets
  prints := lawful.prints _ inRange

theorem readNamed_unknown (none : fields.find? (·.name == name) = none) (spaced : member.Spaced)
    (value : JsonText member.value) (apart : Apart rest) (record : σ × List String) :
    readNamed fields record name (member.rest ++ rest) = .ok (record, rest) := by
  have deep : member.value.length ≤ (member.lead ++ (member.value ++ rest)).length := by
    simp only [List.length_append]
    omega
  rw [readNamed, none]
  dsimp only [bind, Except.bind]
  rw [spaced.readColon]
  dsimp only
  rw [skipValue_space spaced.lead, skipValue_text value deep apart]
  rfl

theorem readNamed_known {field : Field σ} (found : fields.find? (·.name == name) = some field)
    (restores : field.Restores only member.value) (spaced : member.Spaced) (new : name ∉ names)
    (apart : Apart rest) : readNamed fields (only names, names) name (member.rest ++ rest) =
      .ok ((only (name :: names), name :: names), rest) := by
  obtain ⟨change, read, changes⟩ := restores member.lead rest spaced.lead apart
  have same : field.name = name := by simpa using List.find?_some found
  have fresh : ¬ names.contains name = true := by simpa using new
  rw [readNamed, found]
  dsimp only
  rw [if_neg fresh]
  dsimp only [bind, Except.bind]
  rw [spaced.readColon]
  dsimp only
  rw [read, ← same, ← changes]
  rfl

theorem not_known_of_once {earlier later : List String} (present : fields.any (·.name == name) = true)
    (once : (known fields (earlier ++ name :: later)).Nodup) : name ∉ known fields earlier := by
  have split : known fields (earlier ++ name :: later) =
      known fields earlier ++ name :: known fields later := by
    rw [known, List.filter_append, List.filter_cons, if_pos present]
    rfl
  rw [split] at once
  exact fun before => (List.nodup_append.mp once).2.2 _ before _ List.mem_cons_self rfl

def meet (fields : List (Field σ)) (only : List String → σ) (record : σ × List String)
    (name : String) : σ × List String :=
  if fields.any (·.name == name) then (only (name :: record.2), name :: record.2) else record

theorem foldl_meet (fields : List (Field σ)) (only : List String → σ) (names seen : List String) :
    names.foldl (meet fields only) (only seen, seen) =
      (only ((known fields names).reverse ++ seen), (known fields names).reverse ++ seen) := by
  induction names generalizing seen with
  | nil => rfl
  | cons name names ih =>
    rw [List.foldl_cons, meet, known, List.filter_cons, ← known]
    split
    · rw [ih, List.reverse_cons, List.append_assoc]
      rfl
    · exact ih seen

end Field

theorem RecordText.printed {fields : List (Field σ)} {writes : Field σ → List Char → Prop}
    (members : Members)
    (known : ∀ member ∈ members, ∀ field ∈ fields, field.name = member.1 → writes field member.2.text)
    (unknown : ∀ member ∈ members, (∀ field ∈ fields, field.name ≠ member.1) → JsonText member.2.text)
    (once : (Field.known fields (members.map Prod.fst)).Nodup) :
    RecordText fields writes (Field.known fields (members.map Prod.fst)) (object members).text := by
  have names : (members.map fun member => (member.1, Json.printed member)).map Prod.fst =
      members.map Prod.fst := by
    rw [List.map_map]
    rfl
  have listed := membersText_listed members
  rw [← names] at once ⊢
  refine .of _ (by rwa [List.map_map]) ?_ ?_ ?_ ?_ once
  all_goals
    intro pair among
    obtain ⟨member, inside, rfl⟩ := List.mem_map.mp among
  · exact escape_spelling _
  · exact ⟨.nil, .nil⟩
  · exact known member inside
  · exact unknown member inside

namespace Codec

variable {fields : List (Field σ)} {writes : Field σ → List Char → Prop} {names : List String}
  {text : List Char}

theorem record_read (fields : List (Field σ)) (start : σ) {lead : List Char} (blank : Space lead)
    (rest : List Char) : (record fields start).read (lead ++ '\x7b' :: rest) =
      (foldMembers readQuoted (Field.readNamed fields) (rest.length + 1) true (start, []) rest).map
        fun (record, rest) => (record.1, rest) := by
  rw [record]
  dsimp only
  rw [skipSpace_append blank, skipSpace_cons (by decide)]
  rfl

/-- If the text of each field restores the field, then the text of the record gives the record with
    these fields. -/
theorem record_gives (only : List String → σ) (written : RecordText fields writes names text)
    (restores : ∀ field ∈ fields, ∀ value, writes field value → field.Restores only value) :
    (record fields (only [])).Gives text (only names.reverse) := by
  obtain ⟨members, listed, spelled, spaced, known, unknown, once⟩ := written
  intro lead rest blank _
  rw [List.cons_append, List.append_assoc, List.singleton_append, record_read fields _ blank,
    foldMembers_listed Prod.fst (fun record member => Field.meet fields only record member.1) listed ?_]
  · have folded := Field.foldl_meet fields only (members.map Prod.fst) []
    rw [List.foldl_map, List.append_nil] at folded
    rw [folded]
    rfl
  · -- the record so far has the fields that have been met, and no other
    intro earlier member later split
    have inside : member ∈ members := by rw [split]; simp
    refine ⟨readQuoted_spelling (spelled member inside), fun rest apart => ?_⟩
    have folded := Field.foldl_meet fields only (earlier.map Prod.fst) []
    rw [List.foldl_map, List.append_nil] at folded
    rw [List.foldl_append, folded, List.foldl_cons, List.foldl_nil, Field.meet]
    cases found : fields.find? (·.name == member.1) with
    | none =>
      have other : ∀ field ∈ fields, field.name ≠ member.1 := by
        simpa using List.find?_eq_none.mp found
      have absent : ¬ fields.any (·.name == member.1) = true := by simpa using other
      rw [if_neg absent]
      exact Field.readNamed_unknown found (spaced member inside) (unknown member inside other) apart _
    | some field =>
      have among := List.mem_of_find?_eq_some found
      have same : field.name = member.1 := by simpa using List.find?_some found
      have present : fields.any (·.name == member.1) = true := by
        simpa using ⟨field, among, same⟩
      have new : member.1 ∉ (Field.known fields (earlier.map Prod.fst)).reverse := by
        rw [split, List.map_append, List.map_cons] at once
        exact fun earlier => Field.not_known_of_once present once (List.mem_reverse.mp earlier)
      rw [if_pos present]
      exact Field.readNamed_known found
        (restores field among _ (known member inside field among same)) (spaced member inside) new apart

/-- A printed record contains all its fields, in order. -/
theorem record_prints {state : σ} (start : σ) (different : (fields.map Field.name).Nodup)
    (prints : ∀ field ∈ fields, writes field (field.toJson state).text) :
    RecordText fields writes (fields.map Field.name) ((record fields start).toJson state).text := by
  have names : (fields.map fun field => (field.name, field.toJson state)).map Prod.fst =
      fields.map Field.name := by
    rw [List.map_map]
    rfl
  have all : Field.known fields (fields.map Field.name) = fields.map Field.name := by
    rw [Field.known, List.filter_eq_self]
    intro name member
    obtain ⟨field, among, rfl⟩ := List.mem_map.mp member
    simpa using ⟨field, among, rfl⟩
  rw [← all, ← names] at different ⊢
  refine .printed _ ?_ ?_ different
  all_goals
    intro pair among
    obtain ⟨other, listed, rfl⟩ := List.mem_map.mp among
  · intro field inside same
    rw [names, all] at different
    obtain rfl := List.inj_on_of_nodup_map different inside listed same
    exact prints field inside
  · intro unknown
    exact absurd rfl (unknown other listed)

section Lawful

variable {only : List String → σ} {state : σ}

theorem record_reads (lawful : ∀ field ∈ fields, field.Lawful state only)
    (unordered : ∀ names, only names.reverse = only names) (written : FieldsText fields state names text) :
    (record fields (only [])).Gives text (only names) := by
  rw [← unordered names]
  exact record_gives only written fun field member => (lawful field member).restores

theorem record_spells (lawful : ∀ field ∈ fields, field.Lawful state only) (start : σ)
    (different : (fields.map Field.name).Nodup) :
    FieldsText fields state (fields.map Field.name) ((record fields start).toJson state).text :=
  record_prints start different fun field member => (lawful field member).prints

end Lawful

end Codec

end AgentHost.Json
