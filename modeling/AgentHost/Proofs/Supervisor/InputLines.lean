import AgentHost.Proofs.Supervisor.ProcessSide
import AgentHost.Proofs.Supervisor.TurnBounds

namespace AgentHost.Supervisor

namespace Moment

def line? (moment : Moment) : Option (Nat × List UInt8) :=
  match moment.action with
  | .sendTurn prompt =>
    if moment.begins then some (moment.before.calls, Text.Utf8.encode prompt.line) else none
  | _ => none

def failedWrite? (moment : Moment) : Option Write :=
  match moment.action with
  | .failWrite _ => moment.before.writing
  | _ => none

def endsWrite (moment : Moment) : Bool :=
  match moment.action with
  | .finishWrite => moment.before.writing.any (·.rest.isEmpty)
  | .failWrite _ => moment.before.writing.isSome
  | _ => false

end Moment

def inputLines (past : List Moment) : List (Nat × List UInt8) := past.filterMap Moment.line?

def cutWrite? (s : Supervisor) (past : List Moment) : Option Write :=
  s.writing.or (past.findSome? Moment.failedWrite?)

/-- The lines have been written one after the other, except for the rest of the last one. -/
def Delivered (written : List UInt8) (lines : List (Nat × List UInt8)) : Option Write → Prop
  | none => written = lines.flatMap (·.2)
  | some write => ∃ earlier part, lines = earlier ++ [(write.call, part ++ write.rest)] ∧
      written = earlier.flatMap (·.2) ++ part

namespace Delivered

variable {written : List UInt8} {lines : List (Nat × List UInt8)} {write : Write}

theorem next (whole : Delivered written lines none) (call : Nat) (line : List UInt8) :
    Delivered written (lines ++ [(call, line)]) (some ⟨call, line⟩) :=
  ⟨lines, [], rfl, by rw [List.append_nil]; exact whole⟩

theorem take (cut : Delivered written lines (some write)) (count : Nat) :
    Delivered (written ++ write.rest.take count) lines
      (some { write with rest := write.rest.drop count }) := by
  obtain ⟨earlier, part, split, sent⟩ := cut
  refine ⟨earlier, part ++ write.rest.take count, ?_, by rw [sent, List.append_assoc]⟩
  rw [split, List.append_assoc, List.take_append_drop]

theorem whole (cut : Delivered written lines (some write)) (rest : write.rest = []) :
    Delivered written lines none := by
  obtain ⟨earlier, part, split, sent⟩ := cut
  change written = lines.flatMap (·.2)
  simp [split, sent, rest]

end Delivered

structure Fed (s : Supervisor) (past : List Moment) : Prop where
  delivered : Delivered s.written (inputLines past) (s.cutWrite? past)
  failed : ∀ write, past.findSome? Moment.failedWrite? = some write →
    s.state = .dead ∧ s.writing = none
  owner : ∀ write call turn, s.writing = some write → s.turn = some (call, turn) →
    call = write.call
  counted : past.countP Moment.begins = past.countP Moment.endsWrite + s.writing.toList.length

theorem start_fed (settings : AgentSettings) (decoder : Decoder) (hook : Bool) :
    (start settings decoder hook).Fed [] := by
  constructor <;> simp [start, cutWrite?, inputLines, Delivered]

section Step

variable {s s' : Supervisor} {past : List Moment} {now : Nat} {action : Step}

theorem inputLines_snoc (past : List Moment) (moment : Moment) :
    inputLines (past ++ [moment]) = inputLines past ++ moment.line?.toList := by
  unfold inputLines
  rw [List.filterMap_append]
  cases line : moment.line? <;> simp [line]

theorem Fed.none_failed (fed : s.Fed past) {write : Write} (writing : s.writing = some write) :
    past.findSome? Moment.failedWrite? = none := by
  cases failed : past.findSome? Moment.failedWrite? with
  | none => rfl
  | some cut =>
    have gone := (fed.failed cut failed).2
    simp [writing] at gone

theorem Fed.owned (fed : s.Fed past) (took : Took now s action s')
    (unbegun : Moment.begins ⟨now, action, s, s'⟩ = false)
    (kept : ∀ write', s'.writing = some write' →
      ∃ write, s.writing = some write ∧ write.call = write'.call)
    (write' : Write) (call : Nat) (turn : Turn) (underWay : s'.writing = some write')
    (active : s'.turn = some (call, turn)) : call = write'.call := by
  obtain ⟨write, was, same⟩ := kept write' underWay
  rcases took.turn_before active with ⟨before, earlier⟩ | ⟨_, begun⟩
  · exact (fed.owner write call before was earlier).trans same
  · simp [unbegun] at begun

theorem Fed.still (fed : s.Fed past) (took : Took now s action s')
    (line : Moment.line? ⟨now, action, s, s'⟩ = none)
    (failed : Moment.failedWrite? ⟨now, action, s, s'⟩ = none)
    (begins : Moment.begins ⟨now, action, s, s'⟩ = false)
    (ends : Moment.endsWrite ⟨now, action, s, s'⟩ = false)
    (writing : s'.writing = s.writing) (written : s'.written = s.written) :
    s'.Fed (past ++ [⟨now, action, s, s'⟩]) where
  delivered := by
    rw [cutWrite?, inputLines_snoc, line, writing, written]
    simpa [cutWrite?, failed] using fed.delivered
  failed write found := by
    have earlier : past.findSome? Moment.failedWrite? = some write := by simpa [failed] using found
    obtain ⟨stopped, gone⟩ := fed.failed write earlier
    exact ⟨took.dead stopped, writing.trans gone⟩
  owner := fed.owned took begins fun write underWay => ⟨write, writing ▸ underWay, rfl⟩
  counted := by
    rw [countP_snoc, countP_snoc, begins, ends, writing]
    exact fed.counted

theorem Fed.sendTurn (fed : s.Fed past) (coherent : s.Coherent) (streams : s.Streams) {prompt : Prompt}
    (took : Took now s (.sendTurn prompt) s')
    (writing : s'.writing = s.nextWrite (.sendTurn prompt)) (written : s'.written = s.written) :
    s'.Fed (past ++ [⟨now, .sendTurn prompt, s, s'⟩]) := by
  have begins := took.begins_iff streams
  by_cases ready : s.state = .idle ∧ s.inputHeld = true
  · have begun := begins.mpr ⟨prompt, rfl, ready⟩
    -- stdin is at hand, so no write is under way and none has failed
    have unwritten : s.writing = none := by
      have input := coherent.input_of_alive (.inl ready.1)
      simpa [ready.2] using input
    have unfailed : past.findSome? Moment.failedWrite? = none := by
      cases failed : past.findSome? Moment.failedWrite? with
      | none => rfl
      | some write => simp [(fed.failed write failed).1] at ready
    have whole : Delivered s.written (inputLines past) none := by
      simpa [cutWrite?, unwritten, unfailed] using fed.delivered
    rw [nextWrite, if_pos ready] at writing
    refine ⟨?_, ?_, ?_, ?_⟩
    · rw [cutWrite?, inputLines_snoc, writing, written]
      simpa [Moment.line?, begun] using whole.next s.calls (Text.Utf8.encode prompt.line)
    · simp [unfailed, Moment.failedWrite?]
    · intro write call turn underWay active
      obtain rfl := Option.some.inj (writing.symm.trans underWay)
      rcases took.turn_before active with ⟨before, was⟩ | ⟨called, _⟩
      · simp [coherent.no_turn (by simp [ready.1])] at was
      · exact called
    · have counted := fed.counted
      simp only [unwritten, Option.toList_none, List.length_nil] at counted
      rw [countP_snoc, countP_snoc, begun, writing]
      simpa [Moment.endsWrite] using counted
  · have unbegun : Moment.begins ⟨now, .sendTurn prompt, s, s'⟩ = false := by
      refine Bool.eq_false_iff.mpr fun begun => ready ?_
      obtain ⟨_, _, idle, held⟩ := begins.mp begun
      exact ⟨idle, held⟩
    rw [nextWrite, if_neg ready] at writing
    exact fed.still took (by simp [Moment.line?, unbegun]) rfl unbegun rfl writing written

theorem Fed.acceptInput (fed : s.Fed past) {count : Nat} (took : Took now s (.acceptInput count) s')
    (writing : s'.writing = s.nextWrite (.acceptInput count))
    (written : s'.written = s.written ++ s.intake (.acceptInput count)) :
    s'.Fed (past ++ [⟨now, .acceptInput count, s, s'⟩]) := by
  cases underWay : s.writing with
  | none =>
    simp only [nextWrite, intake, underWay, Option.map_none, Option.getD_none,
      List.append_nil] at writing written
    exact fed.still took rfl rfl rfl rfl (writing.trans underWay.symm) written
  | some write =>
    have unfailed := fed.none_failed underWay
    simp only [nextWrite, intake, underWay, Option.map_some, Option.getD_some] at writing written
    refine ⟨?_, ?_, ?_, ?_⟩
    · have cut : Delivered s.written (inputLines past) (some write) := by
        simpa [cutWrite?, underWay] using fed.delivered
      rw [cutWrite?, inputLines_snoc, writing, written]
      simpa [Moment.line?] using cut.take count
    · simp [unfailed, Moment.failedWrite?]
    · refine fed.owned took rfl fun later found => ⟨write, underWay, ?_⟩
      rw [← Option.some.inj (writing.symm.trans found)]
    · have counted := fed.counted
      rw [countP_snoc, countP_snoc, writing]
      simpa [Moment.begins, Moment.endsWrite, isCall, underWay] using counted

theorem Fed.endWrite (fed : s.Fed past) {write : Write} (underWay : s.writing = some write)
    (line : Moment.line? ⟨now, action, s, s'⟩ = none)
    (begins : Moment.begins ⟨now, action, s, s'⟩ = false)
    (ends : Moment.endsWrite ⟨now, action, s, s'⟩ = true)
    (outcome : write.rest = [] ∧ Moment.failedWrite? ⟨now, action, s, s'⟩ = none ∨
      Moment.failedWrite? ⟨now, action, s, s'⟩ = some write ∧ s'.state = .dead)
    (writing : s'.writing = none) (written : s'.written = s.written) :
    s'.Fed (past ++ [⟨now, action, s, s'⟩]) where
  delivered := by
    have unfailed := fed.none_failed underWay
    have cut : Delivered s.written (inputLines past) (some write) := by
      simpa [cutWrite?, underWay] using fed.delivered
    rw [cutWrite?, inputLines_snoc, line, writing, written]
    rcases outcome with ⟨empty, failed⟩ | ⟨failed, _⟩
    · simpa [unfailed, failed] using cut.whole empty
    · simpa [unfailed, failed] using cut
  failed cut found := by
    rcases outcome with ⟨_, failed⟩ | ⟨_, dead⟩
    · simp [fed.none_failed underWay, failed] at found
    · exact ⟨dead, writing⟩
  owner := by simp [writing]
  counted := by
    have counted := fed.counted
    rw [countP_snoc, countP_snoc, begins, ends, writing]
    simpa [underWay] using counted

theorem Fed.finishWrite (fed : s.Fed past) (took : Took now s .finishWrite s')
    (writing : s'.writing = s.nextWrite .finishWrite) (written : s'.written = s.written) :
    s'.Fed (past ++ [⟨now, .finishWrite, s, s'⟩]) := by
  cases underWay : s.writing with
  | none =>
    have same : s'.writing = s.writing := by rw [writing, nextWrite, underWay]; rfl
    exact fed.still took rfl rfl rfl (by simp [Moment.endsWrite, underWay]) same written
  | some write =>
    cases empties : write.rest.isEmpty with
    | false =>
      -- the pipe took a part of the line, and the write goes on
      have same : s'.writing = s.writing := by simp [writing, nextWrite, underWay, empties]
      exact fed.still took rfl rfl rfl (by simp [Moment.endsWrite, underWay, empties]) same written
    | true =>
      have empty := List.isEmpty_iff.mp empties
      exact fed.endWrite underWay rfl rfl (by simp [Moment.endsWrite, underWay, empties])
        (.inl ⟨empty, rfl⟩) (by simp [writing, nextWrite, underWay, empty]) written

end Step

theorem failWrite_orders {s : Supervisor} (alive : s.state ≠ .dead) {write : Write}
    (underWay : s.writing = some write) (error : String) :
    s.termination? (.failWrite error) = some (.writeFailed error, .forced) := by
  simp [termination?, alive, underWay]

theorem Fed.step {s s' : Supervisor} {past : List Moment} (fed : s.Fed past) (coherent : s.Coherent)
    (streams : s.Streams) {now : Nat} {action : Step} (step : s' = s.step now action)
    (took : Took now s action s') : s'.Fed (past ++ [⟨now, action, s, s'⟩]) := by
  have writing : s'.writing = s.nextWrite action := step ▸ s.step_writing now action
  have written : s'.written = s.written ++ s.intake action := step ▸ s.step_written now action
  have unread (none : s.intake action = []) : s'.written = s.written := by
    rw [written, none, List.append_nil]
  cases action with
  | sendTurn prompt => exact fed.sendTurn coherent streams took writing (unread rfl)
  | acceptInput count => exact fed.acceptInput took writing written
  | finishWrite => exact fed.finishWrite took writing (unread rfl)
  | failWrite error =>
    cases underWay : s.writing with
    | none =>
      exact fed.still took rfl underWay rfl (by simp [Moment.endsWrite, underWay])
        (writing.trans underWay.symm) (unread rfl)
    | some write =>
      -- a failed write orders the process to end, unless it is dead already
      have dead : s'.state = .dead := by
        by_cases dead : s.state = .dead
        · exact took.dead dead
        · rw [step]
          exact state_of_termination coherent (failWrite_orders dead underWay error) now
      exact fed.endWrite underWay rfl rfl (by simp [Moment.endsWrite, underWay])
        (.inr ⟨underWay, dead⟩) writing (unread rfl)
  | _ => exact fed.still took rfl rfl rfl rfl writing (unread rfl)

theorem run_fed (settings : AgentSettings) (decoder : Decoder) (hook : Bool)
    (steps : List (Nat × Step)) :
    ((start settings decoder hook).after steps).Fed ((start settings decoder hook).moments steps) := by
  have both := (start_coherent settings decoder hook).run
    (fun current past => current.Streams ∧ current.Fed past)
    ⟨start_streams settings decoder hook, start_fed settings decoder hook⟩ ?_ steps
  · exact both.2
  rintro current past now action next coherent step took ⟨streams, fed⟩
  exact ⟨(took.keeps coherent streams).streams, fed.step coherent streams step took⟩

/-- A failed write is reported to its own turn, if that is still current. -/
theorem failWrite_events {s : Supervisor} (coherent : s.Coherent) (streams : s.Streams)
    {write : Write} (underWay : s.writing = some write)
    (owner : ∀ call turn, s.turn = some (call, turn) → call = write.call) (now : Nat)
    (error : String) :
    (∀ turn, s.turn = some (write.call, turn) → (s.failWrite now error).events write.call =
      turn.sent ++ [.error ("failed to write turn input: " ++ error), .done]) ∧
    (s.turn = none → (s.failWrite now error).events write.call = s.events write.call) ∧
    ∀ call, call ≠ write.call → (s.failWrite now error).events call = s.events call := by
  have took := coherent.took now (.failWrite error)
  refine ⟨fun turn current => ?_, fun free => ?_, fun call different => ?_⟩
  · have alive : s.state ≠ .dead := by simp [coherent.busy_of_turn current]
    have orders := failWrite_orders alive underWay error
    exact events_of_termination coherent streams orders now current
  · exact took.unheard coherent streams rfl (by simp [free])
  · exact took.unheard coherent streams rfl fun turn current => different (owner call turn current)

/-- Lines are written one at a time in the order of their turns, and a failed write is reported to
    no other turn. -/
theorem input_of_run (settings : AgentSettings) (decoder : Decoder) (hook : Bool)
    (steps : List (Nat × Step)) :
    let s := (start settings decoder hook).after steps
    let past := (start settings decoder hook).moments steps
    (past.countP Moment.begins = past.countP Moment.endsWrite + s.writing.toList.length) ∧
    (s.state = .idle ∨ s.state = .busy → (s.inputHeld = true ↔ s.writing = none)) ∧
    (s.state = .dead → s.inputHeld = false) ∧
    Delivered s.written (inputLines past) (s.cutWrite? past) ∧
    (∀ write, past.findSome? Moment.failedWrite? = some write →
      s.state = .dead ∧ s.writing = none) ∧
    (∀ now prompt, Moment.begins ⟨now, .sendTurn prompt, s, s.sendTurn now prompt⟩ = false →
      (s.sendTurn now prompt).written = s.written ∧
      (s.sendTurn now prompt).writing = s.writing) ∧
    ∀ write, s.writing = some write →
      (∀ call turn, s.turn = some (call, turn) → call = write.call) ∧
      ∀ now error,
        let next := s.failWrite now error
        next.state = .dead ∧
        (∀ turn, s.turn = some (write.call, turn) → next.events write.call =
          turn.sent ++ [.error ("failed to write turn input: " ++ error), .done]) ∧
        (s.turn = none → next.events write.call = s.events write.call) ∧
        ∀ call, call ≠ write.call → next.events call = s.events call := by
  intro s past
  have coherent : s.Coherent := run_coherent settings decoder hook steps
  have streams : s.Streams := run_streams settings decoder hook steps
  have fed : s.Fed past := run_fed settings decoder hook steps
  refine ⟨fed.counted, fun alive => ?_, fun dead => ?_, fed.delivered, fed.failed, ?_, ?_⟩
  · rw [coherent.input_of_alive alive, Option.isNone_iff_eq_none]
  · have shaped := coherent.shaped
    simp only [Shaped, dead] at shaped
    exact shaped.2.2.2
  · intro now prompt unbegun
    have took : Took now s (.sendTurn prompt) (s.sendTurn now prompt) :=
      coherent.took now (.sendTurn prompt)
    have away : ¬ (s.state = .idle ∧ s.inputHeld = true) := by
      intro ready
      have begun := (took.begins_iff streams).mpr ⟨prompt, rfl, ready⟩
      simp [begun] at unbegun
    have side := s.sendTurn_inputSide now prompt
    rw [nextWrite, if_neg away] at side
    exact ⟨congrArg InputSide.written side, congrArg InputSide.writing side⟩
  · intro write underWay
    have owner := fun call turn => fed.owner write call turn underWay
    refine ⟨owner, fun now error => ⟨?_, failWrite_events coherent streams underWay owner now error⟩⟩
    have took : Took now s (.failWrite error) (s.failWrite now error) :=
      coherent.took now (.failWrite error)
    by_cases dead : s.state = .dead
    · exact took.dead dead
    · exact state_of_termination coherent (failWrite_orders dead underWay error) now

end AgentHost.Supervisor
