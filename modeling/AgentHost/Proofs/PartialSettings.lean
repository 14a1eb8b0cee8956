import AgentHost.Proofs.Json.RecordText
import AgentHost.Proofs.Text.Utf8Laws
import AgentHost.Settings.File

namespace AgentHost

open Json (Codec FieldsText RecordText Written wordLimit)

def kept {σ α : Type} (s plain : σ) (names : List String) (name : String) (get : σ → α) : α :=
  if name ∈ names then get s else get plain

namespace AgentSettings

def only (s : AgentSettings) (names : List String) : AgentSettings where
  executable := kept s {} names "executable" (·.executable)
  executableArgs := kept s {} names "executableArgs" (·.executableArgs)
  model := kept s {} names "model" (·.model)
  fallbackModel := kept s {} names "fallbackModel" (·.fallbackModel)
  maxBudgetUsd := kept s {} names "maxBudgetUsd" (·.maxBudgetUsd)
  appendSystemPrompt := kept s {} names "appendSystemPrompt" (·.appendSystemPrompt)
  permissionMode := kept s {} names "permissionMode" (·.permissionMode)
  allowedTools := kept s {} names "allowedTools" (·.allowedTools)
  addDirs := kept s {} names "addDirs" (·.addDirs)
  workingDir := kept s {} names "workingDir" (·.workingDir)
  includePartialMessages := kept s {} names "includePartialMessages" (·.includePartialMessages)
  extraArgs := kept s {} names "extraArgs" (·.extraArgs)
  hangTimeoutMs := kept s {} names "hangTimeoutMs" (·.hangTimeoutMs)
  idleTimeoutMs := kept s {} names "idleTimeoutMs" (·.idleTimeoutMs)
  killGraceMs := kept s {} names "killGraceMs" (·.killGraceMs)
  maxImagesPerTurn := kept s {} names "maxImagesPerTurn" (·.maxImagesPerTurn)

structure Storable (s : AgentSettings) : Prop where
  budget : s.maxBudgetUsd = none
  hangTimeout : s.hangTimeoutMs < wordLimit
  idleTimeout : s.idleTimeoutMs < wordLimit
  killGrace : s.killGraceMs < wordLimit
  maxImages : s.maxImagesPerTurn < wordLimit

theorem fields_lawful {s : AgentSettings} (storable : s.Storable) :
    ∀ field ∈ fields, field.Lawful s s.only := by
  have text := Codec.string_lawful
  have texts := Codec.list_lawful text
  have someText := Codec.option_lawful text nofun
  have someTexts := Codec.option_lawful texts nofun
  intro field member
  simp only [fields, List.mem_cons, List.not_mem_nil, or_false] at member
  rcases member with rfl | rfl | rfl | rfl | rfl | rfl | rfl | rfl | rfl | rfl | rfl | rfl | rfl |
    rfl | rfl | rfl
  · exact .of text trivial fun names => by simp [only, kept]
  · exact .of texts (fun _ _ => trivial) fun names => by simp [only, kept]
  · exact .of text trivial fun names => by simp [only, kept]
  · exact .of someText (fun _ _ => trivial) fun names => by simp [only, kept]
  · exact .of Codec.absent_lawful storable.budget fun names => by simp [only, kept]
  · exact .of someText (fun _ _ => trivial) fun names => by simp [only, kept]
  · exact .of someText (fun _ _ => trivial) fun names => by simp [only, kept]
  · exact .of someTexts (fun _ _ _ _ => trivial) fun names => by simp [only, kept]
  · exact .of texts (fun _ _ => trivial) fun names => by simp [only, kept]
  · exact .of text trivial fun names => by simp [only, kept]
  · exact .of Codec.bool_lawful trivial fun names => by simp [only, kept]
  · exact .of texts (fun _ _ => trivial) fun names => by simp [only, kept]
  · exact .of Codec.word_lawful storable.hangTimeout fun names => by simp [only, kept]
  · exact .of Codec.word_lawful storable.idleTimeout fun names => by simp [only, kept]
  · exact .of Codec.word_lawful storable.killGrace fun names => by simp [only, kept]
  · exact .of Codec.word_lawful storable.maxImages fun names => by simp [only, kept]

theorem codec_gives {s : AgentSettings} (storable : s.Storable) {names : List String}
    {text : List Char} (written : FieldsText fields s names text) : codec.Gives text (s.only names) :=
  Codec.record_reads (fields_lawful storable)
    (fun names => by simp only [only, kept, List.mem_reverse]) written

theorem only_all (s : AgentSettings) : s.only (fields.map Json.Field.name) = s := by
  simp [only, kept, fields, Json.Field.of]

end AgentSettings

namespace DisplaySettings

def only (s : DisplaySettings) (names : List String) : DisplaySettings where
  flushDelayMs := kept s {} names "flushDelayMs" (·.flushDelayMs)
  postToolDelayMs := kept s {} names "postToolDelayMs" (·.postToolDelayMs)

structure Storable (s : DisplaySettings) : Prop where
  flushDelay : s.flushDelayMs < wordLimit
  postToolDelay : s.postToolDelayMs < wordLimit

theorem fields_lawful {s : DisplaySettings} (storable : s.Storable) :
    ∀ field ∈ fields, field.Lawful s s.only := by
  intro field member
  simp only [fields, List.mem_cons, List.not_mem_nil, or_false] at member
  rcases member with rfl | rfl
  · exact .of Codec.word_lawful storable.flushDelay fun names => by simp [only, kept]
  · exact .of Codec.word_lawful storable.postToolDelay fun names => by simp [only, kept]

theorem codec_gives {s : DisplaySettings} (storable : s.Storable) {names : List String}
    {text : List Char} (written : FieldsText fields s names text) : codec.Gives text (s.only names) :=
  Codec.record_reads (fields_lawful storable)
    (fun names => by simp only [only, kept, List.mem_reverse]) written

theorem only_all (s : DisplaySettings) : s.only (fields.map Json.Field.name) = s := by
  simp [only, kept, fields, Json.Field.of]

end DisplaySettings

namespace Settings

structure Choice where
  sections : List String
  agent : List String
  display : List String

def only (s : Settings) (choice : Choice) : Settings where
  agent := if "supervisor" ∈ choice.sections then s.agent.only choice.agent else {}
  display := if "scheduler" ∈ choice.sections then s.display.only choice.display else {}

structure Storable (s : Settings) : Prop where
  agent : s.agent.Storable
  display : s.display.Storable

def Section (s : Settings) (choice : Choice) (field : Json.Field Settings) (value : List Char) : Prop :=
  (field.name = "supervisor" → FieldsText AgentSettings.fields s.agent choice.agent value) ∧
  (field.name = "scheduler" → FieldsText DisplaySettings.fields s.display choice.display value)

/-- The texts of a settings file that contains the chosen fields of `s`. -/
inductive WrittenAs (s : Settings) (choice : Choice) : List Char → Prop where
  | of {before object after : List Char} (lead : Json.Space before) (tail : Json.Space after)
      (sections : RecordText fields (s.Section choice) choice.sections object) :
      WrittenAs s choice (before ++ (object ++ after))

variable {s : Settings} {choice : Choice}

theorem only_reverse (s : Settings) (choice : Choice) :
    s.only { choice with sections := choice.sections.reverse } = s.only choice := by
  simp only [only, List.mem_reverse]

theorem codec_gives (storable : s.Storable) {text : List Char}
    (written : RecordText fields (s.Section choice) choice.sections text) :
    codec.Gives text (s.only choice) := by
  rw [← only_reverse]
  refine Codec.record_gives (fun sections => s.only { choice with sections }) written ?_
  intro field member value written
  simp only [fields, List.mem_cons, List.not_mem_nil, or_false] at member
  rcases member with rfl | rfl
  · have gives := AgentSettings.codec_gives storable.agent (written.1 rfl)
    exact Json.Field.of_restores gives fun names => by simp [only]
  · have gives := DisplaySettings.codec_gives storable.display (written.2 rfl)
    exact Json.Field.of_restores gives fun names => by simp [only]

def Choice.all : Choice where
  sections := fields.map Json.Field.name
  agent := AgentSettings.fields.map Json.Field.name
  display := DisplaySettings.fields.map Json.Field.name

theorem only_all (s : Settings) : s.only .all = s := by
  have agent : "supervisor" ∈ fields.map Json.Field.name := by simp [fields, Json.Field.of]
  have display : "scheduler" ∈ fields.map Json.Field.name := by simp [fields, Json.Field.of]
  rw [only, Choice.all, if_pos agent, if_pos display, AgentSettings.only_all, DisplaySettings.only_all]

theorem codec_prints (storable : s.Storable) : s.WrittenAs .all (codec.toJson s).text := by
  have sections : RecordText fields (s.Section .all) (fields.map Json.Field.name) (codec.toJson s).text := by
    refine Codec.record_prints {} (by decide) fun field member => ?_
    simp only [fields, List.mem_cons, List.not_mem_nil, or_false] at member
    rcases member with rfl | rfl
    · have agent := Codec.record_spells (AgentSettings.fields_lawful storable.agent) {} (by decide)
      exact ⟨fun _ => agent, nofun⟩
    · have display := Codec.record_spells (DisplaySettings.fields_lawful storable.display) {} (by decide)
      exact ⟨nofun, fun _ => display⟩
  have written : s.WrittenAs .all ([] ++ ((codec.toJson s).text ++ [])) := .of .nil .nil sections
  rwa [List.nil_append, List.append_nil] at written

theorem parse_written (storable : s.Storable) {text : String}
    (written : s.WrittenAs choice text.toList) : parse text = .ok (s.only choice) := by
  rw [parse]
  generalize text.toList = t at written
  obtain ⟨lead, tail, sections⟩ := written
  exact (codec_gives storable sections).whole lead tail

/-- A file with a choice of the fields of `s` is loaded as `s` in these fields and as the default
    elsewhere. A file with all fields is loaded as `s`. -/
theorem load_written (storable : s.Storable) :
    (∀ choice text, s.WrittenAs choice text.toList →
      load (.content (Text.Utf8.encode text)) = .ok (s.only choice)) ∧
    load (.content (Text.Utf8.encode (codec.toJson s).render)) = .ok s := by
  have loads (choice : Choice) (text : String) (written : s.WrittenAs choice text.toList) :
      load (.content (Text.Utf8.encode text)) = .ok (s.only choice) := by
    rw [load, Text.Utf8.decode?_encode]
    dsimp only
    rw [parse_written storable written]
    rfl
  refine ⟨loads, ?_⟩
  have printed : s.WrittenAs .all (codec.toJson s).render.toList := by
    rw [Json.render, String.toList_ofList]
    exact codec_prints storable
  rw [loads .all _ printed, only_all]

/-- A file with one display field and one unknown field. -/
theorem load_written_delay :
    let s : Settings := { agent := { model := "opus" }, display := { postToolDelayMs := 250 } }
    s.Storable ∧
      load (.content (Text.Utf8.encode
        "\x7b\"scheduler\":\x7b\"theme\":null,\"postToolDelayMs\":250\x7d\x7d\n")) =
        .ok { display := { postToolDelayMs := 250 } } := by
  intro s
  have storable : s.Storable :=
    ⟨⟨rfl, by decide, by decide, by decide, by decide⟩, ⟨by decide, by decide⟩⟩
  have delay : Written (Json.nat 250) (Json.nat 250).text := Codec.word_lawful.prints 250 (by decide)
  have display : FieldsText DisplaySettings.fields s.display ["postToolDelayMs"]
      (Json.object [("theme", .null), ("postToolDelayMs", Json.nat 250)]).text := by
    refine .printed [("theme", .null), ("postToolDelayMs", Json.nat 250)] ?_ ?_ (by decide)
    · simp only [List.forall_mem_cons, DisplaySettings.fields, Json.Field.of, String.reduceEq,
        IsEmpty.forall_iff, List.not_mem_nil, implies_true, and_self, forall_const, and_true, true_and]
      exact delay
    · simp [DisplaySettings.fields, Json.Field.of, Json.text, Json.JsonText.null]
  have sections : RecordText fields (s.Section ⟨["scheduler"], [], ["postToolDelayMs"]⟩) ["scheduler"]
      (Json.object [("scheduler",
        Json.object [("theme", .null), ("postToolDelayMs", Json.nat 250)])]).text := by
    refine .printed [("scheduler", _)] ?_ ?_ (by decide)
    · simpa [fields, Json.Field.of, Section] using display
    · simp [fields, Json.Field.of]
  have newline : Json.Space ['\n'] := by simp [Json.Space, Json.isSpace]
  have file : s.WrittenAs ⟨["scheduler"], [], ["postToolDelayMs"]⟩
      "\x7b\"scheduler\":\x7b\"theme\":null,\"postToolDelayMs\":250\x7d\x7d\n".toList :=
    .of .nil newline sections
  exact ⟨storable, (load_written storable).1 _ _ file⟩

end Settings

end AgentHost
