import AgentHost.Proofs.Decoder.PartsByKind
import AgentHost.Proofs.Supervisor.TurnEnds
import AgentHost.Proofs.Text.MarkupCuts

namespace AgentHost

inductive Kind where
  | text
  | tool
  | image
  | outcome
  | other
deriving DecidableEq

namespace Event

def kind : Event → Kind
  | .textDelta _ => .text
  | .toolStart _ _ | .toolEnd => .tool
  | .imageData _ => .image
  | .textFinal _ | .error _ => .outcome
  | .logLine _ _ | .done => .other

def delta? : Event → Option String
  | .textDelta text => some text
  | _ => none

theorem delta?_of_other {event : Event} (other : event.kind ≠ .text) : event.delta? = none := by
  cases event with
  | textDelta text => exact absurd rfl other
  | _ => rfl

end Event

def RecordPart.kind : RecordPart → Kind
  | .text _ => .text
  | .toolUse _ | .toolResult _ => .tool
  | .image _ => .image

namespace Turn

def told (kind : Kind) (turn : Turn) : List Event := turn.sent.filter (·.kind = kind)

def shown (turn : Turn) : String := String.join (turn.sent.filterMap Event.delta?)

/-- Turns that differ at most in how live text is cut into events, and in the order of events of
    different kinds. -/
structure Alike (a b : Turn) : Prop where
  merged : a.merged = b.merged
  shown : a.shown = b.shown
  told : ∀ kind, kind ≠ .text → a.told kind = b.told kind

section Sides

variable {kind : Kind}

def side (kind : Kind) (turn : Turn) : Turn where
  sent := turn.told kind
  openTools := if kind = .tool then turn.openTools else []
  images := if kind = .image then turn.images else { cap := 0 }
  finished := turn.finished

theorem side_emit_own {event : Event} (own : event.kind = kind) (turn : Turn) :
    (turn.emit event).side kind = (turn.side kind).emit event := by
  have finished : (turn.side kind).finished = turn.finished := rfl
  unfold emit
  rw [finished]
  split
  · rfl
  · simp [side, told, own]

theorem side_emit_other {event : Event} (other : event.kind ≠ kind) (turn : Turn) :
    (turn.emit event).side kind = turn.side kind := by
  unfold emit
  split
  · rfl
  · simp [side, told, other]

theorem side_emitText_other (other : .text ≠ kind) (turn : Turn) (text : String) :
    (turn.emitText text).side kind = turn.side kind := by
  unfold emitText
  split
  · rfl
  · apply side_emit_other
    exact other

theorem side_pushText_other (other : .text ≠ kind) (turn : Turn) (text : String) :
    (turn.pushText text).side kind = turn.side kind := side_emitText_other other _ _

theorem side_flushText_other (other : .text ≠ kind) (turn : Turn) :
    turn.flushText.side kind = turn.side kind := side_emitText_other other _ _

theorem side_startTool (turn : Turn) (tool : ToolUse) :
    (turn.startTool tool).side .tool = (turn.side .tool).startTool tool := by
  have tools : (turn.side .tool).openTools = turn.openTools := rfl
  unfold startTool
  rw [tools]
  split
  · rfl
  · apply side_emit_own
    rfl

theorem side_startTool_other (other : .tool ≠ kind) (turn : Turn) (tool : ToolUse) :
    (turn.startTool tool).side kind = turn.side kind := by
  unfold startTool
  split
  · rfl
  · rw [side_emit_other]
    · simp [side, told, other.symm]
    · exact other

theorem side_endTool (turn : Turn) (id : String) :
    (turn.endTool id).side .tool = (turn.side .tool).endTool id := by
  have tools : (turn.side .tool).openTools = turn.openTools := rfl
  unfold endTool
  rw [tools]
  split
  · apply side_emit_own
    rfl
  · rfl

theorem side_endTool_other (other : .tool ≠ kind) (turn : Turn) (id : String) :
    (turn.endTool id).side kind = turn.side kind := by
  unfold endTool
  split
  · rw [side_emit_other]
    · simp [side, told, other.symm]
    · exact other
  · rfl

theorem side_pushImage (turn : Turn) (image : Image) :
    (turn.pushImage image).side .image = (turn.side .image).pushImage image := by
  have images : (turn.side .image).images = turn.images := rfl
  unfold pushImage
  rw [images]
  dsimp only
  split
  · apply side_emit_own
    rfl
  · rfl

theorem side_pushImage_other (other : .image ≠ kind) (turn : Turn) (image : Image) :
    (turn.pushImage image).side kind = turn.side kind := by
  unfold pushImage
  dsimp only
  split
  · rw [side_emit_other]
    · simp [side, told, other.symm]
    · exact other
  · simp [side, told, other.symm]

end Sides

section LiveText

structure LiveText where
  merged : String
  markup : Text.Markup
  shown : String
  finished : Bool

def liveText (turn : Turn) : LiveText := ⟨turn.merged, turn.markup, turn.shown, turn.finished⟩

theorem liveText_emit_other {event : Event} (other : event.kind ≠ .text) (turn : Turn) :
    (turn.emit event).liveText = turn.liveText := by
  unfold emit
  split
  · rfl
  · simp [liveText, shown, List.filterMap_cons_none (event.delta?_of_other other)]

theorem liveText_emitText (turn : Turn) (text : String) : (turn.emitText text).liveText =
    ⟨turn.merged, turn.markup, if turn.finished then turn.shown else turn.shown ++ text,
      turn.finished⟩ := by
  unfold emitText
  split
  · next empty => simp [liveText, String.isEmpty_iff.mp empty]
  · unfold emit
    split
    · rfl
    · simp [liveText, shown, Event.delta?]

theorem liveText_pushText (turn : Turn) (text : String) : (turn.pushText text).liveText =
    ⟨turn.merged ++ text, (turn.markup.push text).2,
      if turn.finished then turn.shown else turn.shown ++ (turn.markup.push text).1,
      turn.finished⟩ := liveText_emitText _ _

theorem liveText_flushText (turn : Turn) : turn.flushText.liveText =
    ⟨turn.merged, turn.markup.finish.2,
      if turn.finished then turn.shown else turn.shown ++ turn.markup.finish.1, turn.finished⟩ :=
  liveText_emitText _ _

theorem liveText_startTool (turn : Turn) (tool : ToolUse) :
    (turn.startTool tool).liveText = turn.liveText := by
  unfold startTool
  split
  · rfl
  · apply liveText_emit_other
    exact nofun

theorem liveText_endTool (turn : Turn) (id : String) :
    (turn.endTool id).liveText = turn.liveText := by
  unfold endTool
  split
  · apply liveText_emit_other
    exact nofun
  · rfl

theorem liveText_pushImage (turn : Turn) (image : Image) :
    (turn.pushImage image).liveText = turn.liveText := by
  unfold pushImage
  dsimp only
  split
  · apply liveText_emit_other
    exact nofun
  · rfl

variable {a b : Turn}

theorem pushText_same (same : a.liveText = b.liveText) (text : String) :
    (a.pushText text).liveText = (b.pushText text).liveText := by
  obtain ⟨merged, markup, shown, finished⟩ := LiveText.mk.inj same
  rw [liveText_pushText, liveText_pushText, merged, markup, shown, finished]

theorem flushText_same (same : a.liveText = b.liveText) :
    a.flushText.liveText = b.flushText.liveText := by
  obtain ⟨merged, markup, shown, finished⟩ := LiveText.mk.inj same
  rw [liveText_flushText, liveText_flushText, merged, markup, shown, finished]

/-- Live text may come in one piece or in two. -/
theorem pushText_append (turn : Turn) (first second : String) :
    (turn.pushText (first ++ second)).liveText = ((turn.pushText first).pushText second).liveText := by
  obtain ⟨merged, markup, shown, finished⟩ := LiveText.mk.inj (liveText_pushText turn first)
  rw [liveText_pushText, liveText_pushText, merged, markup, shown, finished,
    Text.Markup.push_append, String.append_assoc]
  cases turn.finished with
  | true => rfl
  | false => simp only [String.append_assoc, Bool.false_eq_true, if_false]

theorem foldl_pushText (turn : Turn) (first : String) (texts : List String) :
    ((first :: texts).foldl pushText turn).liveText =
      (turn.pushText (String.join (first :: texts))).liveText := by
  induction texts generalizing turn first with
  | nil => rw [String.join_cons, String.join_nil, String.append_empty]; rfl
  | cons next texts ih =>
    rw [List.foldl_cons, ih, @String.join_cons first, pushText_append]

end LiveText

end Turn

namespace Supervisor

theorem side_addPart {part : RecordPart} (nontext : part.kind ≠ .text) (turn : Turn) :
    (addPart turn part).side part.kind = addPart (turn.side part.kind) part := by
  cases part with
  | text text => exact absurd rfl nontext
  | toolUse tool => exact turn.side_startTool tool
  | toolResult id => exact turn.side_endTool id
  | image image => exact turn.side_pushImage image

theorem side_addPart_other {kind : Kind} {part : RecordPart} (other : part.kind ≠ kind) (turn : Turn) :
    (addPart turn part).side kind = turn.side kind := by
  cases part with
  | text text => exact turn.side_pushText_other other text
  | toolUse tool => exact turn.side_startTool_other other tool
  | toolResult id => exact turn.side_endTool_other other id
  | image image => exact turn.side_pushImage_other other image

/-- Each side of a turn depends only on the parts of its kind. -/
theorem side_foldl {kind : Kind} (nontext : kind ≠ .text) (parts : List RecordPart) (turn : Turn) :
    (parts.foldl addPart turn).side kind =
      (parts.filter (·.kind = kind)).foldl addPart (turn.side kind) := by
  induction parts generalizing turn with
  | nil => rfl
  | cons part rest ih =>
    rw [List.foldl_cons, ih]
    by_cases own : part.kind = kind
    · subst own
      rw [side_addPart nontext, List.filter_cons_of_pos (by simp), List.foldl_cons]
    · rw [side_addPart_other own, List.filter_cons_of_neg (by simpa using own)]

theorem liveText_foldl (parts : List RecordPart) {a b : Turn} (same : a.liveText = b.liveText) :
    (parts.foldl addPart a).liveText =
      ((parts.filterMap RecordPart.text?).foldl Turn.pushText b).liveText := by
  induction parts generalizing a b with
  | nil => exact same
  | cons part rest ih =>
    cases part with
    | text text => exact ih (Turn.pushText_same same text)
    | toolUse tool => exact ih ((a.liveText_startTool tool).trans same)
    | toolResult id => exact ih ((a.liveText_endTool id).trans same)
    | image image => exact ih ((a.liveText_pushImage image).trans same)

end Supervisor

section Regrouping

structure Regrouped (parts others : List RecordPart) : Prop where
  textless : parts.filterMap RecordPart.text? = [] ↔ others.filterMap RecordPart.text? = []
  joined : String.join (parts.filterMap RecordPart.text?) =
    String.join (others.filterMap RecordPart.text?)
  kinds : ∀ kind, kind ≠ .text → parts.filter (·.kind = kind) = others.filter (·.kind = kind)

theorem Regrouped.refl (parts : List RecordPart) : Regrouped parts parts :=
  ⟨Iff.rfl, rfl, fun _ _ => rfl⟩

namespace Turn

structure InStep (a b : Turn) : Prop where
  text : a.liveText = b.liveText
  sides : ∀ kind, kind ≠ .text → a.side kind = b.side kind

variable {a b : Turn}

theorem InStep.refl (turn : Turn) : turn.InStep turn := ⟨rfl, fun _ _ => rfl⟩

theorem InStep.alike (inStep : a.InStep b) : a.Alike b where
  merged := congrArg LiveText.merged inStep.text
  shown := congrArg LiveText.shown inStep.text
  told kind nontext := congrArg Turn.sent (inStep.sides kind nontext)

theorem InStep.emit (inStep : a.InStep b) {event : Event} (nontext : event.kind ≠ .text) :
    (a.emit event).InStep (b.emit event) := by
  refine ⟨?_, fun kind other => ?_⟩
  · rw [liveText_emit_other nontext, liveText_emit_other nontext, inStep.text]
  · by_cases own : event.kind = kind
    · rw [side_emit_own own, side_emit_own own, inStep.sides kind other]
    · rw [side_emit_other own, side_emit_other own, inStep.sides kind other]

theorem InStep.flushText (inStep : a.InStep b) : a.flushText.InStep b.flushText := by
  refine ⟨flushText_same inStep.text, fun kind other => ?_⟩
  rw [side_flushText_other other.symm, side_flushText_other other.symm, inStep.sides kind other]

theorem InStep.foldl_addPart (inStep : a.InStep b) {parts others : List RecordPart}
    (regrouped : Regrouped parts others) :
    (parts.foldl Supervisor.addPart a).InStep (others.foldl Supervisor.addPart b) := by
  refine ⟨?_, fun kind nontext => ?_⟩
  · rw [Supervisor.liveText_foldl parts inStep.text, Supervisor.liveText_foldl others rfl]
    have joined := regrouped.joined
    cases texts : parts.filterMap RecordPart.text? with
    | nil => rw [regrouped.textless.mp texts]
    | cons first rest =>
      cases again : others.filterMap RecordPart.text? with
      | nil => rw [regrouped.textless.mpr again] at texts; contradiction
      | cons next more =>
        rw [texts, again] at joined
        rw [foldl_pushText, foldl_pushText, joined]
  · rw [Supervisor.side_foldl nontext, Supervisor.side_foldl nontext, inStep.sides kind nontext,
      regrouped.kinds kind nontext]

theorem InStep.concludeWith (inStep : a.InStep b) (decoder : Decoder) (record : Json) :
    (Supervisor.concludeWith decoder record a).InStep (Supervisor.concludeWith decoder record b) := by
  let images := ((decoder.resultContent record).map (·.images)).getD []
  have shown : (images.foldl pushImage a.flushText).InStep (images.foldl pushImage b.flushText) := by
    have parts := inStep.flushText.foldl_addPart (.refl (images.map .image))
    rw [List.foldl_map, List.foldl_map] at parts
    exact parts
  unfold Supervisor.concludeWith
  cases decoder.resultError record with
  | some message => exact shown.emit nofun
  | none =>
    have merged : (images.foldl pushImage a.flushText).merged =
        (images.foldl pushImage b.flushText).merged := shown.alike.merged
    dsimp only
    rw [merged]
    split
    · exact shown
    · exact shown.emit nofun

theorem InStep.finish (inStep : a.InStep b) : a.finish.Alike b.finish := by
  have ended : (a.emit .done).InStep (b.emit .done) := inStep.emit nofun
  exact ⟨ended.alike.merged, ended.alike.shown, ended.alike.told⟩

end Turn

end Regrouping

namespace RecordPart

variable {parts : List RecordPart}

theorem filter_images : parts.filter (·.kind = .image) = (parts.filterMap image?).map image := by
  rw [List.map_filterMap, ← List.filterMap_eq_filter]
  apply List.filterMap_congr
  intro part _
  cases part <;> rfl

theorem filter_tools (apart : parts.filterMap toolUse? = [] ∨ parts.filterMap toolResult? = []) :
    parts.filter (·.kind = .tool) =
      (parts.filterMap toolUse?).map toolUse ++ (parts.filterMap toolResult?).map toolResult := by
  rcases apart with unused | unreturned
  · rw [unused, List.map_nil, List.nil_append, List.map_filterMap, ← List.filterMap_eq_filter]
    apply List.filterMap_congr
    intro part member
    cases part with
    | toolUse tool => exact nomatch List.filterMap_eq_nil_iff.mp unused _ member
    | _ => rfl
  · rw [unreturned, List.map_nil, List.append_nil, List.map_filterMap, ← List.filterMap_eq_filter]
    apply List.filterMap_congr
    intro part member
    cases part with
    | toolResult id => exact nomatch List.filterMap_eq_nil_iff.mp unreturned _ member
    | _ => rfl

theorem filter_nothing {kind : Kind} (nontext : kind ≠ .text) (nontool : kind ≠ .tool)
    (nonimage : kind ≠ .image) : parts.filter (·.kind = kind) = [] := by
  apply List.filter_eq_nil_iff.mpr
  intro part _ own
  have same := of_decide_eq_true own
  cases part with
  | text => exact nontext same.symm
  | toolUse | toolResult => exact nontool same.symm
  | image => exact nonimage same.symm

theorem join_eq_empty_iff (solid : .text "" ∉ parts) :
    String.join (parts.filterMap text?) = "" ↔ parts.filterMap text? = [] := by
  refine ⟨fun silent => ?_, fun none => by rw [none]; rfl⟩
  cases texts : parts.filterMap text? with
  | nil => rfl
  | cons first rest =>
    rw [texts, String.join_cons, String.append_eq_empty_iff] at silent
    have member : "" ∈ parts.filterMap text? := by rw [texts, silent.1]; exact List.mem_cons_self
    obtain ⟨part, held, empty⟩ := List.mem_filterMap.mp member
    cases part with
    | text body => exact absurd (Option.some.inj empty ▸ held) solid
    | _ => exact nomatch empty

end RecordPart

theorem Regrouped.of_kinds {parts others : List RecordPart}
    (solid : .text "" ∉ parts) (otherSolid : .text "" ∉ others)
    (apart : parts.filterMap RecordPart.toolUse? = [] ∨ parts.filterMap RecordPart.toolResult? = [])
    (joined : String.join (parts.filterMap RecordPart.text?) =
      String.join (others.filterMap RecordPart.text?))
    (uses : parts.filterMap RecordPart.toolUse? = others.filterMap RecordPart.toolUse?)
    (results : parts.filterMap RecordPart.toolResult? = others.filterMap RecordPart.toolResult?)
    (images : parts.filterMap RecordPart.image? = others.filterMap RecordPart.image?) :
    Regrouped parts others where
  textless := by
    rw [← RecordPart.join_eq_empty_iff solid, ← RecordPart.join_eq_empty_iff otherSolid, joined]
  joined := joined
  kinds kind nontext := by
    by_cases tool : kind = .tool
    · rw [tool, RecordPart.filter_tools apart]
      rw [uses, results] at apart ⊢
      exact (RecordPart.filter_tools apart).symm
    · by_cases image : kind = .image
      · rw [image, RecordPart.filter_images, RecordPart.filter_images, images]
      · rw [RecordPart.filter_nothing nontext tool image, RecordPart.filter_nothing nontext tool image]

namespace Decoder

/-- No record has both tool uses and tool results. -/
theorem StreamJson.tools_apart (record : Json) : toolUses record = [] ∨ toolResults record = [] := by
  by_cases assistant : recordType? record = some "assistant"
  · exact .inr (if_neg (by rw [assistant]; decide))
  · exact .inl (if_neg assistant)

theorem streamJson_regrouped (partialMessages : Bool) (record : Json) :
    Regrouped ((streamJson partialMessages).parts record)
      ((streamJson partialMessages).grouped.parts record) := by
  have agree := streamJson_kindsAgree partialMessages record
  have grouped : (streamJson partialMessages).grouped.parts record =
      RecordPart.byKind (StreamJson.text partialMessages record).toList (StreamJson.toolUses record)
        (StreamJson.toolResults record) (StreamJson.images record) := rfl
  have whole (text : Option String) : text.getD "" = String.join text.toList := by
    cases text with
    | none => rfl
    | some body => exact (String.join_cons.trans String.append_empty).symm
  rw [grouped]
  apply Regrouped.of_kinds agree.solid
  · rw [RecordPart.text_mem_byKind, Option.mem_toList]
    exact StreamJson.text_solid
  · rw [agree.toolUses, agree.toolResults]
    exact StreamJson.tools_apart record
  · rw [agree.text, RecordPart.byKind_texts]
    exact whole _
  · rw [agree.toolUses, RecordPart.byKind_toolUses]
    rfl
  · rw [agree.toolResults, RecordPart.byKind_toolResults]
    rfl
  · rw [agree.images, RecordPart.byKind_images]
    rfl

def hear (decoder : Decoder) (records : List Json) (turn : Turn) : Turn :=
  records.foldl (fun turn record => (decoder.parts record).foldl Supervisor.addPart turn) turn

def wholeTurn (decoder : Decoder) (maxImages : Nat) (records : List Json) (result : Json) : Turn :=
  (Supervisor.concludeWith decoder result (decoder.hear records (.start maxImages))).finish

theorem hear_inStep (partialMessages : Bool) (records : List Json) {a b : Turn}
    (inStep : a.InStep b) : ((streamJson partialMessages).hear records a).InStep
      ((streamJson partialMessages).grouped.hear records b) := by
  induction records generalizing a b with
  | nil => exact inStep
  | cons record rest ih => exact ih (inStep.foldl_addPart (streamJson_regrouped partialMessages record))

/-- Block order and grouping by kind give the same text, tools and images, for single records and
    for whole turns. -/
theorem block_order_agrees (partialMessages : Bool) :
    (∀ record : Json, (streamJson partialMessages).KindsAgree record) ∧
    ∀ (maxImages : Nat) (records : List Json) (result : Json),
      ((streamJson partialMessages).wholeTurn maxImages records result).Alike
        ((streamJson partialMessages).grouped.wholeTurn maxImages records result) := by
  refine ⟨streamJson_kindsAgree partialMessages, fun maxImages records result => ?_⟩
  have heard := hear_inStep partialMessages records (.refl (.start maxImages))
  exact (heard.concludeWith (streamJson partialMessages) result).finish

end Decoder

namespace Supervisor

theorem hearLines_hear (decoder : Decoder) (lines : List String) (turn : Turn) :
    hearLines decoder lines turn = decoder.hear (lines.filterMap (record? decoder)) turn := by
  unfold hearLines hearLine Decoder.hear
  rw [List.foldl_filterMap]
  congr 1
  funext turn line
  cases record? decoder line <;> rfl

theorem events_of_lines {s : Supervisor} {call : Nat} {turn : Turn}
    (current : s.turn = some (call, turn)) (fresh : s.ended.lookup call = none) (now : Nat)
    {lines : List String} {result : Json}
    (answered : lines.findSome? (result? s.decoder) = some result) :
    (s.handleLines now lines).events call = (concludeWith s.decoder result (s.decoder.hear
      ((linesAhead s.decoder lines).filterMap (record? s.decoder)) turn)).finish.sent := by
  rw [events_of_completed fresh (handleLines_answered current now answered), hearLines_hear]

/-- Up to the result, the supervisor tells a turn the same in either order of the parts. -/
theorem answered_alike {s : Supervisor} {call : Nat} {turn : Turn} {partialMessages : Bool}
    (decoder : s.decoder = .streamJson partialMessages) (current : s.turn = some (call, turn))
    (fresh : s.ended.lookup call = none) (now : Nat) {lines : List String} {result : Json}
    (answered : lines.findSome? (result? s.decoder) = some result) :
    ∃ ordered grouped : Turn, ordered.Alike grouped ∧
      (s.handleLines now lines).events call = ordered.sent ∧
      ({ s with decoder := s.decoder.grouped }.handleLines now lines).events call = grouped.sent := by
  refine ⟨_, _, ?_, events_of_lines current fresh now answered,
    @events_of_lines { s with decoder := s.decoder.grouped } call turn current fresh now lines result
      answered⟩
  have heard := Decoder.hear_inStep partialMessages
    ((linesAhead s.decoder lines).filterMap (record? s.decoder)) (.refl turn)
  rw [← decoder] at heard
  exact (heard.concludeWith s.decoder result).finish

end Supervisor

end AgentHost
