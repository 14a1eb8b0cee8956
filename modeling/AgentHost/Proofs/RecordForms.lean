import AgentHost.Block
import AgentHost.Display.Action
import AgentHost.Event

namespace AgentHost

def Members.Carry (members fields : Members) : Prop :=
  ∀ field ∈ fields, find? members field.1 = some field.2

theorem Members.carry_self {fields : Members} (different : (fields.map Prod.fst).Nodup) :
    Carry fields fields := by
  induction fields with
  | nil => exact fun field member => absurd member List.not_mem_nil
  | cons pair fields ih =>
    rw [List.map_cons, List.nodup_cons] at different
    intro field member
    rw [find?, List.lookup_cons]
    rcases List.mem_cons.mp member with rfl | later
    · rw [beq_self_eq_true]
    · have other : (field.1 == pair.1) = false := by
        rw [beq_eq_false_iff_ne]
        intro same
        exact different.1 (same ▸ List.mem_map_of_mem later)
      rw [other]
      exact ih different.2 field later

namespace Json

variable {members : Members} {name : String}

theorem field?_object {value : Json} (found : Members.find? members name = some value) (place : Nat) :
    (object members).field? place name = some value := found

theorem text?_object {s : String} (found : Members.find? members name = some (.string s)) (place : Nat) :
    (object members).text? place name = some s := by
  rw [text?, field?_object found]
  rfl

theorem optional?_object {α : Type} {value : Json} (found : Members.find? members name = some value)
    (place : Nat) (absent : α) (read : Json → Option α) :
    (object members).optional? place name absent read = read value := by
  rw [optional?, field?_object found]

theorem tagged?_object {tag : String} (found : Members.find? members "type" = some (.string tag)) :
    tagged? (object members) = some (tag, object members) := by
  rw [tagged?, found]
  rfl

end Json

theorem LogStream.ofName?_name (stream : LogStream) : ofName? stream.name = some stream := by
  cases stream <;> rfl

variable {members : Members}

namespace Image

theorem ofJson?_object {image : Image}
    (carry : members.Carry [("media_type", .string image.mediaType), ("data", .string image.data)]) :
    ofJson? (.object members) = some image := by
  simp only [Members.Carry, List.forall_mem_cons] at carry
  obtain ⟨mediaType, data, -⟩ := carry
  rw [ofJson?, Json.text?_object mediaType, Json.text?_object data]
  rfl

theorem ofJson?_toJson (image : Image) : ofJson? image.toJson = some image :=
  ofJson?_object (Members.carry_self (by simp))

end Image

namespace ImageSource

theorem ofJson?_object {source : ImageSource}
    (carry : members.Carry [("type", .string source.kind), ("media_type", .string source.mediaType),
      ("data", .string source.data)]) : ofJson? (.object members) = some source := by
  simp only [Members.Carry, List.forall_mem_cons] at carry
  obtain ⟨kind, mediaType, data, -⟩ := carry
  rw [ofJson?, Json.text?_object kind, Json.optional?_object mediaType, Json.optional?_object data]
  rfl

theorem ofJson?_toJson (source : ImageSource) : ofJson? source.toJson = some source :=
  ofJson?_object (Members.carry_self (by simp))

end ImageSource

namespace ToolUse

theorem ofJson?_object {tool : ToolUse}
    (carry : members.Carry [("id", .string tool.id), ("name", .string tool.name), ("input", tool.input)]) :
    ofJson? (.object members) = some tool := by
  simp only [Members.Carry, List.forall_mem_cons] at carry
  obtain ⟨id, name, input, -⟩ := carry
  rw [ofJson?, Json.text?_object id, Json.text?_object name, Json.field?_object input]
  rfl

theorem ofJson?_toJson (tool : ToolUse) : ofJson? tool.toJson = some tool :=
  ofJson?_object (Members.carry_self (by simp))

end ToolUse

namespace Event

theorem ofJson?_of_type {tag : String} (type : members.find? "type" = some (.string tag)) :
    ofJson? (.object members) = ofFields? tag (.object members) := by
  rw [ofJson?, Json.tagged?_object type]
  rfl

/-- Reading an event does not depend on the order of the members, nor on other members. -/
theorem ofJson?_object {event : Event}
    (carry : members.Carry (("type", .string event.tag) :: event.fields)) :
    ofJson? (.object members) = some event := by
  rw [Members.Carry, List.forall_mem_cons] at carry
  obtain ⟨type, carry⟩ := carry
  rw [ofJson?_of_type type]
  cases event with
  | textDelta text | textFinal text | error text =>
    simp only [fields, List.forall_mem_cons] at carry
    dsimp only [tag, ofFields?]
    rw [Json.text?_object carry.1]
    rfl
  | toolStart name input =>
    simp only [fields, List.forall_mem_cons] at carry
    dsimp only [tag, ofFields?]
    rw [Json.text?_object carry.1, Json.field?_object carry.2.1]
    rfl
  | imageData image =>
    simp only [fields, List.forall_mem_cons] at carry
    dsimp only [tag, ofFields?]
    rw [Json.field?_object carry.1]
    exact congrArg (·.bind fun image => some (imageData image)) image.ofJson?_toJson
  | logLine stream line =>
    simp only [fields, List.forall_mem_cons] at carry
    dsimp only [tag, ofFields?]
    rw [Json.field?_object carry.1, Json.text?_object carry.2.1]
    exact congrArg (·.bind fun stream => some (logLine stream line)) stream.ofName?_name
  | toolEnd | done => rfl

theorem ofJson?_toJson (event : Event) : ofJson? event.toJson = some event :=
  ofJson?_object (Members.carry_self (by cases event <;> simp [fields]))

end Event

namespace Display.Action

theorem ofJson?_object {action : Action} {fields : Members} (record : action.toJson = .object fields)
    (carry : members.Carry fields) : ofJson? (.object members) = some action := by
  cases action with
  | showActivity text | streamText text | setFinal text =>
    obtain rfl := Json.object.inj record
    simp only [Members.Carry, List.forall_mem_cons] at carry
    obtain ⟨type, text, -⟩ := carry
    rw [ofJson?, Json.tagged?_object type]
    dsimp only [Option.bind_eq_bind, Option.bind_some]
    rw [Json.text?_object text]
    rfl

theorem ofJson?_toJson (action : Action) : ofJson? action.toJson = some action := by
  cases action <;> exact ofJson?_object rfl (Members.carry_self (by simp))

end Display.Action

namespace Block

theorem ofJson?_of_type {tag : String} (type : members.find? "type" = some (.string tag)) :
    ofJson? (.object members) = ofFields? tag (.object members) := by
  rw [ofJson?, Json.tagged?_object type]
  rfl

theorem ofJson?_object {block : Block}
    (carry : members.Carry (("type", .string block.tag) :: block.fields)) :
    ofJson? (.object members) = some block := by
  rw [Members.Carry, List.forall_mem_cons] at carry
  obtain ⟨type, carry⟩ := carry
  rw [ofJson?_of_type type]
  cases block with
  | text body =>
    simp only [fields, List.forall_mem_cons] at carry
    dsimp only [tag, ofFields?]
    rw [Json.text?_object carry.1]
    rfl
  | toolUse id name input =>
    simp only [fields, List.forall_mem_cons] at carry
    dsimp only [tag, ofFields?]
    rw [Json.text?_object carry.1, Json.text?_object carry.2.1, Json.optional?_object carry.2.2.1]
    rfl
  | toolResult id content isError =>
    simp only [fields, List.forall_mem_cons] at carry
    dsimp only [tag, ofFields?]
    rw [Json.text?_object carry.1, Json.optional?_object carry.2.1,
      Json.optional?_object carry.2.2.1]
    rfl
  | image source =>
    simp only [fields, List.forall_mem_cons] at carry
    dsimp only [tag, ofFields?]
    rw [Json.field?_object carry.1]
    exact congrArg (·.bind fun source => some (image source)) source.ofJson?_toJson
  | unknown => rfl

theorem ofJson?_toJson (block : Block) : ofJson? block.toJson = some block :=
  ofJson?_object (Members.carry_self (by cases block <;> simp [fields]))

theorem list_toJson (blocks : List Block) : list (.array (blocks.map toJson)) = blocks := by
  have read : ofJson? ∘ toJson = some := funext ofJson?_toJson
  change (blocks.map toJson).filterMap ofJson? = blocks
  rw [List.filterMap_map, read, List.filterMap_some]

end Block

/-- Every value is read back from its record, and a list of blocks is read back in full. -/
theorem records_read_back :
    (∀ event : Event, Event.ofJson? event.toJson = some event) ∧
    (∀ action : Display.Action, Display.Action.ofJson? action.toJson = some action) ∧
    (∀ tool : ToolUse, ToolUse.ofJson? tool.toJson = some tool) ∧
    (∀ image : Image, Image.ofJson? image.toJson = some image) ∧
    (∀ source : ImageSource, ImageSource.ofJson? source.toJson = some source) ∧
    (∀ block : Block, Block.ofJson? block.toJson = some block) ∧
    ∀ blocks : List Block, Block.list (.array (blocks.map Block.toJson)) = blocks :=
  ⟨Event.ofJson?_toJson, Display.Action.ofJson?_toJson, ToolUse.ofJson?_toJson, Image.ofJson?_toJson,
    ImageSource.ofJson?_toJson, Block.ofJson?_toJson, Block.list_toJson⟩

end AgentHost
