import AgentHost.Proofs.RecordLines
import AgentHost.Proofs.Supervisor.Errors
import AgentHost.Proofs.Supervisor.OutputLines
import AgentHost.Proofs.TurnByKind

namespace AgentHost

namespace Event

def isLog : Event → Bool
  | .logLine _ _ => true
  | _ => false

end Event

namespace Turn

def unlogged (turn : Turn) : Turn := { turn with sent := turn.sent.filter (!·.isLog) }

section

variable (turn : Turn)

theorem unlogged_liveText : turn.unlogged.liveText = turn.liveText := by
  have deltas : turn.unlogged.sent.filterMap Event.delta? = turn.sent.filterMap Event.delta? := by
    unfold unlogged
    rw [List.filterMap_filter]
    apply List.filterMap_congr
    intro event _
    cases event <;> rfl
  unfold liveText shown
  rw [deltas]
  rfl

theorem unlogged_emit_log {event : Event} (log : event.isLog = true) :
    (turn.emit event).unlogged = turn.unlogged := by
  unfold emit
  split
  · rfl
  · simp [unlogged, log]

theorem unlogged_emit {event : Event} (other : event.isLog = false) :
    (turn.emit event).unlogged = turn.unlogged.emit event := by
  have finished : turn.unlogged.finished = turn.finished := rfl
  unfold emit
  rw [finished]
  split
  · rfl
  · simp [unlogged, other]

theorem unlogged_emitText (text : String) :
    (turn.emitText text).unlogged = turn.unlogged.emitText text := by
  unfold emitText
  split
  · rfl
  · exact turn.unlogged_emit rfl

theorem unlogged_pushText (text : String) :
    (turn.pushText text).unlogged = turn.unlogged.pushText text := unlogged_emitText _ _

theorem unlogged_startTool (tool : ToolUse) :
    (turn.startTool tool).unlogged = turn.unlogged.startTool tool := by
  have tools : turn.unlogged.openTools = turn.openTools := rfl
  unfold startTool
  rw [tools]
  split
  · rfl
  · exact unlogged_emit _ rfl

theorem unlogged_endTool (id : String) : (turn.endTool id).unlogged = turn.unlogged.endTool id := by
  have tools : turn.unlogged.openTools = turn.openTools := rfl
  unfold endTool
  rw [tools]
  split
  · exact unlogged_emit _ rfl
  · rfl

theorem unlogged_pushImage (image : Image) :
    (turn.pushImage image).unlogged = turn.unlogged.pushImage image := by
  have images : turn.unlogged.images = turn.images := rfl
  unfold pushImage
  rw [images]
  dsimp only
  split
  · exact unlogged_emit _ rfl
  · rfl

end

end Turn

namespace Supervisor

theorem unlogged_addPart (turn : Turn) (part : RecordPart) :
    (addPart turn part).unlogged = addPart turn.unlogged part := by
  cases part with
  | text text => exact turn.unlogged_pushText text
  | toolUse tool => exact turn.unlogged_startTool tool
  | toolResult id => exact turn.unlogged_endTool id
  | image image => exact turn.unlogged_pushImage image

theorem unlogged_hearLine (decoder : Decoder) (turn : Turn) (line : String) :
    (hearLine decoder line turn).unlogged = hearLine decoder line turn.unlogged := by
  unfold hearLine
  split
  · exact (List.foldl_hom Turn.unlogged fun turn part => (unlogged_addPart turn part).symm).symm
  · rfl

theorem unlogged_hearLines (decoder : Decoder) (lines : List String) (turn : Turn) :
    (hearLines decoder lines turn).unlogged = hearLines decoder lines turn.unlogged := by
  unfold hearLines
  exact (List.foldl_hom Turn.unlogged fun turn line => (unlogged_hearLine decoder turn line).symm).symm

theorem hearLines_append (decoder : Decoder) (lines more : List String) (turn : Turn) :
    hearLines decoder (lines ++ more) turn = hearLines decoder more (hearLines decoder lines turn) :=
  List.foldl_append

theorem linesAhead_append {decoder : Decoder} {lines : List String}
    (unanswered : lines.findSome? (result? decoder) = none) (more : List String) :
    linesAhead decoder (lines ++ more) = lines ++ linesAhead decoder more := by
  apply List.takeWhile_append_of_pos
  intro line member
  rw [List.findSome?_eq_none_iff.mp unanswered line member]
  rfl

theorem linesAhead_unanswered {decoder : Decoder} {lines : List String}
    (unanswered : lines.findSome? (result? decoder) = none) : linesAhead decoder lines = lines := by
  have ahead := linesAhead_append unanswered []
  rwa [List.append_nil, linesAhead.eq_def decoder [], List.takeWhile_nil, List.append_nil] at ahead

section Step

variable {s s' : Supervisor} {call : Nat} {turn after : Turn} {now : Nat} {action : Step}

theorem foldl_logLine_unlogged (current : s.turn = some (call, turn)) {lines : List String}
    (later : (lines.foldl logLine s).turn = some (call, after)) : after.unlogged = turn.unlogged := by
  induction lines generalizing s turn with
  | nil =>
    have same := current.symm.trans later
    simp only [Option.some.injEq, Prod.mk.injEq] at same
    rw [same.2]
  | cons line rest ih =>
    rw [List.foldl_cons] at later
    unfold logLine at later
    split at later
    · exact ih current later
    · have heard : (s.changeTurn (·.emit (.logLine .stderr (Text.trimEnd line)))).turn =
          some (call, turn.emit (.logLine .stderr (Text.trimEnd line))) := by
        simp [changeTurn, current]
      rw [ih heard later]
      exact turn.unlogged_emit_log rfl

/-- A turn that a step does not end has taken in the lines read in that step, apart from the log. -/
theorem Coherent.goes_on (coherent : s.Coherent) (streams : s.Streams)
    (current : s.turn = some (call, turn)) (later : (s.step now action).turn = some (call, after)) :
    s.answer? action = none ∧
      after.unlogged = hearLines s.decoder (s.linesRead action) turn.unlogged := by
  obtain ⟨unordered, runs, unanswered⟩ := coherent.ends_nothing streams current later
  refine ⟨unanswered, ?_⟩
  cases output : action.isOutput with
  | true =>
    obtain ⟨reading, same, step⟩ := s.step_reading now output
    have unread : (s.linesRead action).findSome? (result? reading.decoder) = none := by
      rw [same.decoder]
      exact unanswered
    have heard := handleLines_unanswered (same.turn.trans current) now unread
    rw [step, heard.turn, same.decoder] at later
    simp only [Option.some.injEq, Prod.mk.injEq, true_and] at later
    rw [← later, unlogged_hearLines]
  | false =>
    rw [linesRead_of_other output]
    cases log : action.isLog with
    | true =>
      obtain ⟨reading, lines, same, step⟩ := s.step_logging now log
      rw [step] at later
      exact foldl_logLine_unlogged (same.turn.trans current) later
    | false =>
      rw [(step_keeps coherent current unordered runs output log).1, current] at later
      simp only [Option.some.injEq, Prod.mk.injEq, true_and] at later
      rw [← later]
      rfl

end Step

def holds (s : Supervisor) (call : Nat) : Bool := s.turn.any fun (holder, _) => holder == call

def turnLines (call : Nat) (past : List Moment) : List String :=
  outputLines (past.filter fun moment => moment.before.holds call)

def turnRecords (decoder : Decoder) (call : Nat) (past : List Moment) : List Json :=
  (linesAhead decoder (turnLines call past)).filterMap (record? decoder)

theorem holds_iff {s : Supervisor} {call : Nat} :
    s.holds call = true ↔ ∃ turn, s.turn = some (call, turn) := by
  unfold holds
  cases s.turn with
  | none => simp
  | some current =>
    obtain ⟨holder, turn⟩ := current
    simp

section History

variable {s : Supervisor} {call : Nat} {past : List Moment}

theorem turnLines_held {moment : Moment} (held : moment.before.holds call = true) :
    turnLines call (past ++ [moment]) = turnLines call past ++ moment.lines := by
  simp [turnLines, held, outputLines]

theorem turnLines_other {moment : Moment} (other : moment.before.holds call = false) :
    turnLines call (past ++ [moment]) = turnLines call past := by
  simp [turnLines, other]

structure Recorded (s : Supervisor) (past : List Moment) : Prop where
  ahead : ∀ call, s.calls ≤ call → turnLines call past = []
  current : ∀ call turn, s.turn = some (call, turn) →
    (turnLines call past).findSome? (result? s.decoder) = none ∧
    turn.unlogged = hearLines s.decoder (turnLines call past) (.start s.settings.maxImagesPerTurn)

theorem Recorded.step (recorded : Recorded s past) (coherent : s.Coherent) (streams : s.Streams)
    (now : Nat) (action : Step) :
    Recorded (s.step now action) (past ++ [⟨now, action, s, s.step now action⟩]) := by
  have took := coherent.took now action
  have unheld {call : Nat} (ahead : s.calls ≤ call) : s.holds call = false := by
    refine Bool.eq_false_iff.mpr fun held => ?_
    obtain ⟨turn, current⟩ := holds_iff.mp held
    exact Nat.not_lt.mpr ahead (streams.current call turn current).1
  constructor
  · intro call ahead
    have before : s.calls ≤ call := by
      have counted := took.calls
      omega
    rw [turnLines_other (unheld before)]
    exact recorded.ahead call before
  · intro call turn current
    rw [took.decoder, took.settings]
    rcases took.turn_before current with ⟨before, was⟩ | ⟨latest, begins⟩
    · -- the same turn, with the lines of this step behind its own
      obtain ⟨unanswered, heard⟩ := recorded.current call before was
      obtain ⟨silent, same⟩ := coherent.goes_on streams was current
      rw [turnLines_held (holds_iff.mpr ⟨before, was⟩), List.findSome?_append, unanswered,
        hearLines_append, ← heard]
      exact ⟨silent, same⟩
    · -- the turn has just begun, and has not heard anything
      rw [turnLines_other (unheld (Nat.le_of_eq latest.symm)), recorded.ahead call latest.ge]
      refine ⟨rfl, ?_⟩
      cases took with
      | begun _ _ rest =>
        have made := rest.turn.symm.trans current
        simp only [Option.some.injEq, Prod.mk.injEq] at made
        rw [← made.2]
        rfl
      | launched | launchFailed => simp [Moment.begins, isCall] at begins
      | refused _ _ rest =>
        rw [rest.turn] at current
        exact absurd (streams.current call turn current).1 (Nat.not_lt.mpr latest.ge)
      | moved uncalled => simp [Moment.begins, isCall_eq_false uncalled] at begins

end History

section Run

variable (settings : AgentSettings) (decoder : Decoder) (hook : Bool)

theorem run_recorded (steps : List (Nat × Step)) :
    Recorded ((start settings decoder hook).after steps)
      ((start settings decoder hook).moments steps) := by
  induction steps using List.reverseRecOn with
  | nil => constructor <;> simp [start, after, moments, turnLines, outputLines]
  | append_singleton steps last ih =>
    obtain ⟨now, action⟩ := last
    rw [after_snoc, moments_snoc]
    exact ih.step (run_coherent settings decoder hook steps) (run_streams settings decoder hook steps)
      now action

/-- The first result among the lines of a turn is the one that ended it. -/
theorem result_of_answer {steps : List (Nat × Step)} {call : Nat} {action : Step} {result : Json}
    (held : ((start settings decoder hook).after steps).holds call = true)
    (answers : ((start settings decoder hook).after steps).answer? action = some result) (now : Nat) :
    (turnLines call ((start settings decoder hook).moments (steps ++ [(now, action)]))).findSome?
      (result? decoder) = some result := by
  obtain ⟨turn, current⟩ := holds_iff.mp held
  have unanswered := ((run_recorded settings decoder hook steps).current call turn current).1
  unfold answer? at answers
  rw [run_decoder settings decoder hook steps] at unanswered answers
  rw [moments_snoc, turnLines_held held, List.findSome?_append, unanswered, Option.none_or]
  exact answers

/-- Apart from the log, the events of an answered turn are those of its records and its result. -/
theorem told_of_answer {steps : List (Nat × Step)} {call : Nat} {action : Step} {result : Json}
    (held : ((start settings decoder hook).after steps).holds call = true)
    (answers : ((start settings decoder hook).after steps).answer? action = some result) (now : Nat) :
    let s' := (start settings decoder hook).after (steps ++ [(now, action)])
    let past := (start settings decoder hook).moments (steps ++ [(now, action)])
    s'.state = .idle ∧ ∃ before : Turn, before.Live ∧
      before.unlogged =
        decoder.hear (turnRecords decoder call past) (.start settings.maxImagesPerTurn) ∧
      s'.events call = (concludeWith decoder result before).finish.sent := by
  intro s' past
  have coherent := run_coherent settings decoder hook steps
  have streams := run_streams settings decoder hook steps
  have recorded := run_recorded settings decoder hook steps
  obtain ⟨turn, current⟩ := holds_iff.mp held
  obtain ⟨unanswered, heard⟩ := recorded.current call turn current
  have told := events_of_answer streams current (output_of_answer answers) answers now
  have sameDecoder := run_decoder settings decoder hook steps
  have sameSettings : ((start settings decoder hook).after steps).settings = settings :=
    after_settings (start_coherent settings decoder hook) steps
  rw [sameDecoder] at unanswered heard told
  rw [sameSettings] at heard
  refine ⟨?_, hearLines decoder (linesAhead decoder
    (((start settings decoder hook).after steps).linesRead action)) turn, ?_, ?_, ?_⟩
  · unfold s'
    rw [after_snoc]
    exact idle_of_answer coherent streams current answers now
  · exact (hearLines_advances _ _ turn).live (coherent.live call turn current)
  · have lines : turnLines call past = turnLines call ((start settings decoder hook).moments steps) ++
        ((start settings decoder hook).after steps).linesRead action := by
      unfold past
      rw [moments_snoc]
      exact turnLines_held held
    rw [turnRecords, lines, linesAhead_append unanswered, ← hearLines_hear, hearLines_append, ← heard,
      unlogged_hearLines]
  · unfold s'
    rw [after_snoc]
    exact told

end Run

section Written

variable {partialMessages : Bool} {record result : Json} {records : List Json}

theorem record?_render (heeded : record.Heeded) :
    record? (.streamJson partialMessages) record.render = some record := by
  have visible : Text.allBlank record.render = false := by
    obtain ⟨body, text⟩ := heeded.text
    rw [Text.allBlank, Json.render, String.toList_ofList, text, List.cons_append, List.all_cons]
    rfl
  rw [record?, visible]
  exact heeded.parseLine_render

theorem result?_render (heeded : record.Heeded) : result? (.streamJson partialMessages) record.render =
    if recordType? record = some resultType then some record else none := by
  rw [result?, record?_render heeded, Option.filter_some]
  simp

theorem unanswered_render (heeded : ∀ record ∈ records, record.Heeded)
    (mid : ∀ record ∈ records, recordType? record ≠ some resultType) :
    (records.map Json.render).findSome? (result? (.streamJson partialMessages)) = none := by
  rw [List.findSome?_eq_none_iff]
  intro line member
  obtain ⟨record, among, rfl⟩ := List.mem_map.mp member
  rw [result?_render (heeded record among), if_neg (mid record among)]

variable {settings : AgentSettings} {hook : Bool} {steps : List (Nat × Step)} {call : Nat}

/-- Any records can be the records of a turn: it is enough to print each on a line, followed by a
    result. -/
theorem turn_of_written (heeded : ∀ record ∈ records ++ [result], record.Heeded)
    (mid : ∀ record ∈ records, recordType? record ≠ some resultType)
    (ends : recordType? result = some resultType)
    (held : ((start settings (.streamJson partialMessages) hook).after steps).holds call = true)
    (opened : ((start settings (.streamJson partialMessages) hook).after steps).outputOpen = true)
    (settled : ((start settings (.streamJson partialMessages) hook).after steps).lines = {})
    (unread : turnLines call ((start settings (.streamJson partialMessages) hook).moments steps) = [])
    (now : Nat) :
    let decoder := Decoder.streamJson partialMessages
    let action := Step.readOutput (Json.lineBytes (records ++ [result]))
    let past := (start settings decoder hook).moments (steps ++ [(now, action)])
    ((start settings decoder hook).after steps).answer? action = some result ∧
      turnRecords decoder call past = records := by
  intro decoder action past
  have textual : ∀ record ∈ records ++ [result], Json.Textual Json.depthLimit record :=
    fun record member => (heeded record member).textual
  have ahead : ∀ record ∈ records, record.Heeded :=
    fun record member => heeded record (List.mem_append_left _ member)
  have last : result? decoder result.render = some result := by
    rw [result?_render (heeded result (by simp)), if_pos ends]
  have unanswered : (records.map Json.render).findSome? (result? decoder) = none :=
    unanswered_render ahead mid
  have lines : ((start settings decoder hook).after steps).linesRead action =
      records.map Json.render ++ [result.render] := by
    have solid : (Json.lineBytes (records ++ [result])).isEmpty = false := by
      simp [Json.lineBytes]
    simp only [action, linesRead, decoder, opened, settled, solid, Bool.not_false, Bool.and_self, if_true]
    rw [Json.push_lineBytes textual, List.map_append]
    rfl
  constructor
  · rw [answer?, run_decoder settings decoder hook steps, lines, List.findSome?_append, unanswered]
    simp [last]
  · have all : turnLines call past = records.map Json.render ++ [result.render] := by
      unfold past
      rw [moments_snoc, turnLines_held held, unread]
      exact lines
    rw [turnRecords, all, linesAhead_append unanswered]
    have ended : linesAhead decoder [result.render] = [] := by simp [linesAhead, last]
    rw [ended, List.append_nil, List.filterMap_map]
    exact (List.filterMap_congr fun record member => record?_render (ahead record member)).trans
      List.filterMap_some

end Written

end Supervisor

end AgentHost
