import AgentHost.Proofs.Decoder.PartsByKind

namespace AgentHost

namespace Json

/-- The fields of a record of this type, in the order of `names`, with `none` for a missing one. An
    object has its fields under their names, an array by position after the type. -/
def fieldsOf? (type : String) (names : List String) : Json → Option (List (Option Json))
  | .object members =>
    match Members.find? members "type" with
    | some (.string found) => if found = type then some (names.map (Members.find? members)) else none
    | _ => none
  | .array (.string found :: values) =>
    if found = type ∧ values.length ≤ names.length then
      some (names.mapIdx fun place _ => values[place]?)
    else none
  | _ => none

def textOrEmpty? : Option Json → Option String
  | none => some ""
  | some (.string text) => some text
  | some _ => none

def textBlock? (block : Json) : Option String :=
  (block.fieldsOf? "text" ["text"]).bind fun
    | [some (.string body)] => some body
    | _ => none

def inlineImage? (source : Json) : Option Image :=
  (source.fieldsOf? "base64" ["media_type", "data"]).bind fun
    | [mediaType, data] => do return ⟨← textOrEmpty? mediaType, ← textOrEmpty? data⟩
    | _ => none

/-- The image of an image block with a base64 source. -/
def imageBlock? (block : Json) : Option Image :=
  (block.fieldsOf? "image" ["source"]).bind fun
    | [some source] => source.inlineImage?
    | _ => none

def toolContent? (block : Json) : Option Json :=
  (block.fieldsOf? "tool_result" ["tool_use_id", "content", "is_error"]).bind fun
    | [some (.string _), content, none] | [some (.string _), content, some (.bool _)] =>
      some (content.getD .null)
    | _ => none

def items : Json → List Json
  | .array items => items
  | _ => []

def blockImages (block : Json) : List Image :=
  block.imageBlock?.toList ++ (block.toolContent?.map items |>.getD []).filterMap imageBlock?

/-- The images in a message of the assistant or the user, in the order of its blocks. -/
def messageImages (record : Json) : List Image :=
  match record.member? "type", (record.member? "message").bind (·.member? "content") with
  | some (.string type), some content =>
    if type = "assistant" ∨ type = "user" then content.items.flatMap blockImages else []
  | _, _ => []

theorem fieldsOf?_eq (type : String) (names : List String) (value : Json) :
    value.fieldsOf? type names = value.tagged?.bind fun (found, record) =>
      if found = type ∧ record.isRecord names.length then
        some (names.mapIdx fun place name => record.field? place name) else none := by
  cases value with
  | object members =>
    have byName : names.mapIdx (fun _ name => Members.find? members name) =
        names.map (Members.find? members) := List.ext_getElem (by simp) (by simp)
    simp only [fieldsOf?, tagged?]
    cases Members.find? members "type" with
    | none => rfl
    | some found => cases found <;> simp [string?, isRecord, field?, byName]
  | array items =>
    cases items with
    | nil => rfl
    | cons found values => cases found <;> simp [fieldsOf?, tagged?, string?, isRecord, field?]
  | _ => rfl

theorem textOrEmpty?_field? (record : Json) (place : Nat) (name : String) :
    textOrEmpty? (record.field? place name) = record.optional? place name "" string? := by
  unfold optional?
  cases record.field? place name with
  | none => rfl
  | some value => cases value <;> rfl

end Json

theorem ImageSource.ofJson?_eq (value : Json) :
    ofJson? value = value.tagged?.bind fun (kind, record) =>
      if record.isRecord 2 then do
        return ⟨kind, ← record.optional? 0 "media_type" "" Json.string?,
          ← record.optional? 1 "data" "" Json.string?⟩
      else none := by
  cases value with
  | object members =>
    dsimp only [ofJson?, Json.tagged?, Json.text?, Json.field?]
    cases Members.find? members "type" with
    | none => rfl
    | some kind => cases kind <;> rfl
  | array items =>
    cases items with
    | nil => rfl
    | cons kind values =>
      -- the type takes the first place of an array, and the fields follow it
      have width : (Json.array (kind :: values)).isRecord 3 = (Json.array values).isRecord 2 :=
        decide_eq_decide.mpr Nat.succ_le_succ_iff
      rw [ofJson?, width]
      cases kind with
      | string kind =>
        change _ = if (Json.array values).isRecord 2 = true then _ else none
        cases (Json.array values).isRecord 2 <;> rfl
      | _ => cases (Json.array values).isRecord 2 <;> rfl
  | _ => rfl

theorem ImageSource.image?_ofJson? (value : Json) :
    (ofJson? value).bind image? = value.inlineImage? := by
  rw [ofJson?_eq, Json.inlineImage?, Json.fieldsOf?_eq]
  cases value.tagged? with
  | none => rfl
  | some found =>
    obtain ⟨kind, record⟩ := found
    change Option.bind (if record.isRecord 2 = true then _ else none) image? =
      Option.bind (if kind = "base64" ∧ record.isRecord 2 = true then some _ else none) _
    by_cases fits : record.isRecord 2 = true
    · rw [if_pos fits]
      by_cases inline : kind = inlineKind
      · rw [if_pos ⟨inline, fits⟩, Option.bind_some]
        change _ = (Json.textOrEmpty? (record.field? 0 "media_type")).bind fun mediaType =>
          (Json.textOrEmpty? (record.field? 1 "data")).bind fun data => some (⟨mediaType, data⟩ : Image)
        rw [Json.textOrEmpty?_field?, Json.textOrEmpty?_field?]
        cases record.optional? 0 "media_type" "" Json.string? with
        | none => rfl
        | some mediaType =>
          cases record.optional? 1 "data" "" Json.string? with
          | none => rfl
          | some data => exact if_pos inline
      · rw [if_neg fun both => inline both.1, Option.bind_none]
        cases record.optional? 0 "media_type" "" Json.string? with
        | none => rfl
        | some mediaType =>
          cases record.optional? 1 "data" "" Json.string? with
          | none => rfl
          | some data => exact if_neg inline
    · rw [if_neg fits, if_neg fun both => fits both.2]
      rfl

namespace Block

theorem ofFields?_tag {tag : String} {record : Json} {block : Block}
    (read : ofFields? tag record = some block) : block = .unknown ∨ block.tag = tag := by
  unfold ofFields? guard at read
  split at read <;>
    simp only [Option.bind_eq_bind, Option.bind_eq_some_iff, Option.pure_def, Option.some.injEq] at read
  · obtain ⟨_, _, _, _, rfl⟩ := read
    exact .inr rfl
  · obtain ⟨_, _, _, _, _, _, _, _, rfl⟩ := read
    exact .inr rfl
  · obtain ⟨_, _, _, _, _, _, _, _, rfl⟩ := read
    exact .inr rfl
  · obtain ⟨_, _, _, _, _, _, rfl⟩ := read
    exact .inr rfl
  · obtain ⟨_, _, rfl⟩ := read
    exact .inl rfl

section OfType

variable {α : Type} {type : String} {names : List String} {read : Block → Option α}
  {fromFields : List (Option Json) → Option α}

/-- A function on blocks of one type can be computed from the fields of the JSON record. -/
theorem ofJson?_bind (only : ∀ block, block.tag ≠ type → read block = none)
    (unknown : read .unknown = none)
    (reads : ∀ record : Json, (ofFields? type record).bind read =
      if record.isRecord names.length then
        fromFields (names.mapIdx fun place name => record.field? place name) else none)
    (value : Json) : (ofJson? value).bind read = (value.fieldsOf? type names).bind fromFields := by
  rw [ofJson?, Json.fieldsOf?_eq]
  cases value.tagged? with
  | none => rfl
  | some found =>
    obtain ⟨tag, record⟩ := found
    change (ofFields? tag record).bind read = Option.bind (if tag = type ∧ _ then some _ else none) _
    by_cases same : tag = type
    · subst same
      rw [reads record]
      by_cases fits : record.isRecord names.length = true
      · rw [if_pos fits, if_pos ⟨rfl, fits⟩, Option.bind_some]
      · rw [if_neg fits, if_neg fun both => fits both.2, Option.bind_none]
    -- a record of another type gives a block of that type or an unknown one
    · rw [if_neg fun both => same both.1, Option.bind_none, Option.bind_eq_none_iff]
      intro block found
      rcases ofFields?_tag found with rfl | tagged
      · exact unknown
      · exact only block (tagged ▸ same)

end OfType

end Block

namespace Decoder.StreamJson

theorem textOf_ofJson? (value : Json) : (Block.ofJson? value).bind textOf = value.textBlock? := by
  refine Block.ofJson?_bind (fun block other => ?only) rfl (fun record => ?reads) value
  case only =>
    cases block with
    | text => exact absurd rfl other
    | _ => rfl
  case reads =>
    change _ = if record.isRecord 1 = true then _ else none
    dsimp only [Block.ofFields?, guard]
    by_cases fits : record.isRecord 1 = true
    · rw [if_pos fits, if_pos fits]
      simp only [Json.text?, Option.bind_eq_bind, List.mapIdx_cons, List.mapIdx_nil]
      cases record.field? 0 "text" with
      | none => rfl
      | some value => cases value <;> rfl
    · rw [if_neg fits, if_neg fits]
      rfl

theorem imageOf_ofJson? (value : Json) : (Block.ofJson? value).bind imageOf = value.imageBlock? := by
  refine Block.ofJson?_bind (fun block other => ?only) rfl (fun record => ?reads) value
  case only =>
    cases block with
    | image => exact absurd rfl other
    | _ => rfl
  case reads =>
    change _ = if record.isRecord 1 = true then _ else none
    dsimp only [Block.ofFields?, guard]
    by_cases fits : record.isRecord 1 = true
    · rw [if_pos fits, if_pos fits]
      simp only [Option.bind_eq_bind, List.mapIdx_cons, List.mapIdx_nil]
      cases record.field? 0 "source" with
      | none => rfl
      | some source =>
        change ((ImageSource.ofJson? source).bind fun source => some (.image source)).bind imageOf = _
        rw [Option.bind_assoc]
        exact ImageSource.image?_ofJson? source
    · rw [if_neg fits, if_neg fits]
      rfl

def contentOf : Block → Option Json
  | .toolResult _ content _ => some content
  | _ => none

theorem contentOf_ofJson? (value : Json) :
    (Block.ofJson? value).bind contentOf = value.toolContent? := by
  refine Block.ofJson?_bind (fun block other => ?only) rfl (fun record => ?reads) value
  case only =>
    cases block with
    | toolResult => exact absurd rfl other
    | _ => rfl
  case reads =>
    change _ = if record.isRecord 3 = true then _ else none
    dsimp only [Block.ofFields?, guard]
    by_cases fits : record.isRecord 3 = true
    · rw [if_pos fits, if_pos fits]
      simp only [Json.text?, Json.optional?, Option.bind_eq_bind, List.mapIdx_cons, List.mapIdx_nil,
        Nat.zero_add, Nat.reduceAdd]
      cases record.field? 0 "tool_use_id" with
      | none => rfl
      | some id =>
        cases record.field? 2 "is_error" with
        | none => cases id <;> cases record.field? 1 "content" <;> rfl
        | some failed => cases id <;> cases failed <;> cases record.field? 1 "content" <;> rfl
    · rw [if_neg fits, if_neg fits]
      rfl

theorem items_eq (value : Json) : value.array?.getD [] = value.items := by cases value <;> rfl

theorem filterMap_list {α : Type} (read : Block → Option α) (value : Json) :
    (Block.list value).filterMap read =
      value.items.filterMap fun block => (Block.ofJson? block).bind read := by
  rw [Block.list, List.filterMap_filterMap, items_eq]

theorem inlineImages_list (value : Json) :
    inlineImages (Block.list value) = value.items.filterMap Json.imageBlock? := by
  rw [inlineImages, filterMap_list, funext imageOf_ofJson?]

theorem joinedText_list (value : Json) :
    joinedText (Block.list value) = String.join (value.items.filterMap Json.textBlock?) := by
  rw [joinedText, filterMap_list, funext textOf_ofJson?]

theorem blockImages_eq (block : Block) : blockImages block = (imageOf block).toList ++
    ((contentOf block).map Json.items |>.getD []).filterMap Json.imageBlock? := by
  cases block with
  | image source => exact (List.append_nil _).symm
  | toolResult id content isError => exact inlineImages_list content
  | _ => rfl

theorem blockImages_ofJson? (value : Json) :
    (Block.ofJson? value).toList.flatMap blockImages = value.blockImages := by
  rw [Json.blockImages, ← imageOf_ofJson?, ← contentOf_ofJson?]
  cases Block.ofJson? value with
  | none => rfl
  | some block => exact (List.flatMap_singleton _ _).trans (blockImages_eq block)

theorem blockImages_list (value : Json) :
    (Block.list value).flatMap blockImages = value.items.flatMap Json.blockImages := by
  rw [Block.list, items_eq, List.filterMap_eq_flatMap_toList, List.flatMap_assoc,
    funext blockImages_ofJson?]

theorem images_eq (record : Json) : images record = record.messageImages := by
  unfold images messageBlocks Json.messageImages recordType?
  cases (record.member? "message").bind (·.member? "content") with
  | none => cases record.member? "type" <;> simp
  | some content =>
    dsimp only
    rw [blockImages_list]
    cases record.member? "type" with
    | none => simp
    | some type => cases type <;> simp [Json.string?]

end Decoder.StreamJson

theorem Decoder.streamJson_images (partialMessages : Bool) :
    (streamJson partialMessages).images = Json.messageImages := funext StreamJson.images_eq

end AgentHost
