import AgentHost.Proofs.Supervisor.Streams
import AgentHost.Proofs.Supervisor.Twin

namespace AgentHost.Supervisor

/-- The parts of the state that no step depends on: the number of calls, the streams of finished
    turns, and the notices. -/
structure Register where
  calls : Nat
  /-- The call of the current turn. -/
  turn : Nat
  /-- The call whose line is being written. -/
  write : Nat
  ended : List (Nat × List Event)
  notices : List Notice

def register (s : Supervisor) : Register where
  calls := s.calls
  turn := (s.turn.map (·.1)).getD 0
  write := (s.writing.map (·.call)).getD 0
  ended := s.ended
  notices := s.notices

def anonymous (s : Supervisor) : Supervisor :=
  { s with
    calls := 0
    turn := s.turn.map fun (_, turn) => (0, turn)
    writing := s.writing.map fun write => { write with call := 0 }
    ended := []
    notices := [] }

def withRegister (s : Supervisor) (register : Register) : Supervisor :=
  { s with
    calls := register.calls
    turn := s.turn.map fun (_, turn) => (register.turn, turn)
    writing := s.writing.map fun write => { write with call := register.write }
    ended := register.ended ++ s.ended.map fun (_, events) => (register.turn, events)
    notices := register.notices ++ s.notices }

section Fields

variable (s : Supervisor) (r : Register)

@[simp] theorem withRegister_state : (s.withRegister r).state = s.state := rfl

@[simp] theorem withRegister_decoder : (s.withRegister r).decoder = s.decoder := rfl

@[simp] theorem withRegister_hang : (s.withRegister r).hang = s.hang := rfl

@[simp] theorem withRegister_idle : (s.withRegister r).idle = s.idle := rfl

@[simp] theorem withRegister_outputOpen : (s.withRegister r).outputOpen = s.outputOpen := rfl

@[simp] theorem withRegister_logOpen : (s.withRegister r).logOpen = s.logOpen := rfl

@[simp] theorem withRegister_observer : (s.withRegister r).observer = s.observer := rfl

@[simp] theorem withRegister_requests : (s.withRegister r).requests = s.requests := rfl

@[simp] theorem withRegister_obeyed : (s.withRegister r).obeyed = s.obeyed := rfl

@[simp] theorem withRegister_killDue : (s.withRegister r).killDue = s.killDue := rfl

@[simp] theorem withRegister_isLaunched : (s.withRegister r).isLaunched = s.isLaunched := rfl

@[simp] theorem withRegister_turn_isSome : (s.withRegister r).turn.isSome = s.turn.isSome :=
  Option.isSome_map

end Fields

theorem anonymous_withRegister (s : Supervisor) : s.anonymous.withRegister s.register = s := by
  have turn : (s.turn.map fun (_, turn) => (0, turn)).map
      (fun (_, turn) => ((s.turn.map (·.1)).getD 0, turn)) = s.turn := by
    cases s.turn <;> rfl
  have writing : (s.writing.map fun write => { write with call := 0 }).map
      (fun write => { write with call := (s.writing.map (·.call)).getD 0 }) = s.writing := by
    cases s.writing <;> rfl
  unfold withRegister anonymous register
  dsimp only
  rw [turn, writing, List.map_nil, List.append_nil, List.append_nil]

theorem withRegister_anonymous (s : Supervisor) (register : Register) :
    (s.withRegister register).anonymous = s.anonymous := by
  simp [withRegister, anonymous, Function.comp_def]

section Operations

variable (s : Supervisor) (r : Register) (now : Nat)

theorem note_withRegister (notice : Notice) :
    (s.withRegister r).note notice = (s.note notice).withRegister r := by
  simp [note, withRegister]

theorem changeTurn_withRegister (change : Turn → Turn) :
    (s.withRegister r).changeTurn change = (s.changeTurn change).withRegister r := by
  simp [changeTurn, withRegister, Function.comp_def]

theorem closeTurn_withRegister (last : Turn → Turn) :
    (s.withRegister r).closeTurn last = (s.closeTurn last).withRegister r := by
  rw [closeTurn_eq, closeTurn_eq]
  cases current : s.turn <;> simp [withRegister, current]

theorem shutDown_withRegister (message : String) :
    (s.withRegister r).shutDown message = (s.shutDown message).withRegister r :=
  closeTurn_withRegister { s with
    state := .dead, hang := s.hang.cancel, idle := s.idle.cancel, inputHeld := false } r _

theorem askToEnd_withRegister (urgency : Urgency) :
    (s.withRegister r).askToEnd now urgency = (s.askToEnd now urgency).withRegister r := by
  unfold askToEnd
  rw [withRegister_isLaunched]
  split
  · cases urgency <;> rfl
  · rfl

theorem terminate_withRegister (cause : Cause) (urgency : Urgency) :
    ((s.withRegister r).terminate now cause urgency).2 =
      (s.terminate now cause urgency).2.withRegister r := by
  unfold terminate
  rw [withRegister_state]
  split
  · rfl
  · dsimp only
    rw [note_withRegister, shutDown_withRegister, askToEnd_withRegister]
    rfl

theorem completeTurn_withRegister (record : Json) :
    (s.withRegister r).completeTurn now record = (s.completeTurn now record).withRegister r := by
  cases current : s.turn with
  | none =>
    have free : (s.withRegister r).turn = none := by simp [withRegister, current]
    rw [completeTurn_of_free current, completeTurn_of_free free]
  | some made =>
    by_cases busy : s.state = .busy <;> cases error : s.decoder.resultError record <;>
      simp [completeTurn, withRegister, current, error, note, closeTurn, busy, armIdle]

theorem handleLine_withRegister (line : String) :
    (s.withRegister r).handleLine now line = (s.handleLine now line).withRegister r := by
  unfold handleLine
  rw [withRegister_decoder]
  split
  · rfl
  · cases s.decoder.parseLine line with
    | none => rfl
    | some record =>
      dsimp only
      split
      · exact s.completeTurn_withRegister r now record
      · exact s.changeTurn_withRegister r _

theorem handleLines_withRegister (lines : List String) :
    (s.withRegister r).handleLines now lines = (s.handleLines now lines).withRegister r := by
  induction lines generalizing s with
  | nil => rfl
  | cons line rest ih =>
    change ((s.withRegister r).handleLine now line).handleLines now rest = _
    rw [handleLine_withRegister, ih]
    rfl

theorem heard_withRegister : (s.withRegister r).heard now = (s.heard now).withRegister r := by
  rw [heard, heard, withRegister_state]
  split <;> rfl

theorem logLine_withRegister (line : String) :
    (s.withRegister r).logLine line = (s.logLine line).withRegister r := by
  unfold logLine
  split
  · rfl
  · exact s.changeTurn_withRegister r _

theorem logLines_withRegister (lines : List String) :
    (s.withRegister r).logLines now lines = (s.logLines now lines).withRegister r := by
  unfold logLines
  rw [heard_withRegister]
  generalize s.heard now = reading
  induction lines generalizing reading with
  | nil => rfl
  | cons line rest ih => rw [List.foldl_cons, logLine_withRegister, ih, List.foldl_cons]

theorem readOutput_withRegister (chunk : List UInt8) :
    (s.withRegister r).readOutput now chunk = (s.readOutput now chunk).withRegister r := by
  unfold readOutput
  rw [withRegister_outputOpen]
  split
  · rw [heard_withRegister]
    exact handleLines_withRegister
      { s.heard now with lines := ((s.heard now).lines.push chunk).2 } r now _
  · rfl

theorem closeOutput_withRegister :
    (s.withRegister r).closeOutput now = (s.closeOutput now).withRegister r := by
  unfold closeOutput
  rw [withRegister_outputOpen]
  split
  · exact handleLines_withRegister
      { s with lines := s.lines.takeRemainder.2, outputOpen := false } r now _
  · rfl

theorem failOutput_withRegister (error : String) :
    (s.withRegister r).failOutput now error = (s.failOutput now error).withRegister r := by
  unfold failOutput
  rw [withRegister_outputOpen]
  split
  · rw [note_withRegister, closeOutput_withRegister]
  · rfl

theorem readLog_withRegister (chunk : List UInt8) :
    (s.withRegister r).readLog now chunk = (s.readLog now chunk).withRegister r := by
  unfold readLog
  rw [withRegister_logOpen]
  split
  · exact logLines_withRegister { s with logBuffer := (s.logBuffer.push chunk).2 } r now _
  · rfl

theorem closeLog_withRegister :
    (s.withRegister r).closeLog now = (s.closeLog now).withRegister r := by
  unfold closeLog
  rw [withRegister_logOpen]
  split
  · exact logLines_withRegister
      { s with logBuffer := s.logBuffer.takeRemainder.2, logOpen := false } r now _
  · rfl

theorem spawn_withRegister (outcome : Except ProcessFault Nat) :
    ((s.withRegister r).spawn now outcome).2 = (s.spawn now outcome).2.withRegister r := by
  unfold spawn
  rw [withRegister_state]
  split
  · exact s.note_withRegister r _
  · cases outcome with
    | error fault =>
      dsimp only
      rw [note_withRegister]
      rfl
    | ok pid =>
      exact note_withRegister ({ s with
        pid := some pid
        inputHeld := true
        state := .idle
        outputOpen := true
        logOpen := true
        observer := .watching }.armIdle now) r _

theorem acceptInput_withRegister (count : Nat) :
    (s.withRegister r).acceptInput count = (s.acceptInput count).withRegister r := by
  unfold acceptInput
  cases writing : s.writing <;> simp [withRegister, writing]

theorem finishWrite_withRegister :
    (s.withRegister r).finishWrite = s.finishWrite.withRegister r := by
  unfold finishWrite
  cases writing : s.writing with
  | none => simp [withRegister, writing]
  | some write =>
    obtain ⟨call, rest⟩ := write
    cases rest <;> simp [withRegister, writing]

theorem failWrite_withRegister (error : String) :
    (s.withRegister r).failWrite now error = (s.failWrite now error).withRegister r := by
  unfold failWrite
  cases writing : s.writing with
  | none => simp [withRegister, writing]
  | some write =>
    have same : { s.withRegister r with writing := none } =
        { s with writing := none }.withRegister r := by simp [withRegister]
    have some : (s.withRegister r).writing = some ⟨r.write, write.rest⟩ := by
      simp [withRegister, writing]
    rw [some]
    dsimp only
    rw [same, note_withRegister, terminate_withRegister]

theorem onHang_withRegister (generation : Nat) :
    (s.withRegister r).onHang now generation = (s.onHang now generation).withRegister r := by
  rw [onHang_eq, onHang_eq, withRegister_turn_isSome, withRegister_hang,
    withRegister_state]
  let taken := { s with hang := (s.hang.take generation).2 }
  change (if _ then (((taken.withRegister r).note _).terminate now _ _).2 else
    taken.withRegister r) = _
  split
  · rw [note_withRegister, terminate_withRegister]
    rfl
  · rfl

theorem onIdle_withRegister (generation : Nat) :
    (s.withRegister r).onIdle now generation = (s.onIdle now generation).withRegister r := by
  rw [onIdle_eq, onIdle_eq, withRegister_idle,
    withRegister_state]
  let taken := { s with idle := (s.idle.take generation).2 }
  change (if _ then (((taken.withRegister r).note _).terminate now _ _).2 else
    taken.withRegister r) = _
  split
  · rw [note_withRegister, terminate_withRegister]
    rfl
  · rfl

theorem onKillDue_withRegister :
    (s.withRegister r).onKillDue now = (s.onKillDue now).withRegister r := by
  rw [onKillDue, onKillDue, withRegister_killDue]
  split
  · split <;> rfl
  · rfl

theorem obey_withRegister : (s.withRegister r).obey = s.obey.withRegister r := by
  unfold obey
  rw [withRegister_observer,
    withRegister_requests,
    withRegister_obeyed]
  split <;> rfl

theorem processExits_withRegister (status : ExitStatus) :
    (s.withRegister r).processExits now status = (s.processExits now status).withRegister r := by
  unfold processExits
  rw [withRegister_observer]
  split <;> rfl

theorem onExit_withRegister (status : ExitStatus) :
    (s.withRegister r).onExit status = (s.onExit status).withRegister r := by
  unfold onExit
  dsimp only
  rw [withRegister_turn_isSome, note_withRegister]
  split
  · rw [note_withRegister, shutDown_withRegister]
    rfl
  · rw [shutDown_withRegister]
    rfl

theorem finishDraining_withRegister :
    (s.withRegister r).finishDraining now = (s.finishDraining now).withRegister r := by
  unfold finishDraining
  rw [withRegister_observer]
  split
  · rw [withRegister_outputOpen]
    split
    · exact s.onExit_withRegister r _
    · rfl
  · rfl

end Operations

theorem step_withRegister (s : Supervisor) (r : Register) (now : Nat) {action : Step}
    (uncalled : isCall action = false) :
    (s.withRegister r).step now action = (s.step now action).withRegister r := by
  cases action with
  | sendTurn prompt => simp [isCall] at uncalled
  | spawn outcome => exact s.spawn_withRegister r now outcome
  | kill | forceKill | drop => exact s.terminate_withRegister r now _ _
  | acceptInput count => exact s.acceptInput_withRegister r count
  | finishWrite => exact s.finishWrite_withRegister r
  | failWrite error => exact s.failWrite_withRegister r now error
  | readOutput chunk => exact s.readOutput_withRegister r now chunk
  | closeOutput => exact s.closeOutput_withRegister r now
  | failOutput error => exact s.failOutput_withRegister r now error
  | readLog chunk => exact s.readLog_withRegister r now chunk
  | closeLog => exact s.closeLog_withRegister r now
  | hangRings generation => exact s.onHang_withRegister r now generation
  | idleRings generation => exact s.onIdle_withRegister r now generation
  | killDue => exact s.onKillDue_withRegister r now
  | obey => exact s.obey_withRegister r
  | processExits status => exact s.processExits_withRegister r now status
  | finishDraining => exact s.finishDraining_withRegister r now

theorem step_registered (s : Supervisor) (now : Nat) {action : Step}
    (uncalled : isCall action = false) :
    s.step now action = (s.anonymous.step now action).withRegister s.register := by
  rw [← step_withRegister _ _ now uncalled, anonymous_withRegister]

theorem sendTurn_anonymous (s : Supervisor) (now : Nat) (prompt : Prompt) :
    (s.sendTurn now prompt).anonymous = (s.anonymous.sendTurn now prompt).anonymous := by
  unfold sendTurn
  rw [show s.anonymous.state = s.state from rfl]
  cases s.state with
  | starting | busy | dead => simp [reject, anonymous, Function.comp_def]
  | idle =>
    dsimp only
    rw [show s.anonymous.inputHeld = s.inputHeld from rfl]
    split
    · rfl
    · simp [reject, anonymous, Function.comp_def]

/-- Steps do not depend on the register. -/
theorem step_anonymous (s : Supervisor) (now : Nat) (action : Step) :
    (s.step now action).anonymous = (s.anonymous.step now action).anonymous := by
  cases call : isCall action with
  | true =>
    cases action with
    | sendTurn prompt => exact s.sendTurn_anonymous now prompt
    | _ => simp [isCall] at call
  | false => rw [step_registered s now call, withRegister_anonymous]

def lastTold (s : Supervisor) : List Event :=
  match s.turn with
  | some (_, turn) => turn.sent
  | none => (s.ended.head?.map (·.2)).getD []

theorem events_withRegister (s : Supervisor) {r : Register}
    (fresh : r.ended.lookup r.turn = none) : (s.withRegister r).events r.turn = s.lastTold := by
  unfold events lastTold withRegister
  cases s.turn with
  | some current => simp
  | none =>
    dsimp only [Option.map_none]
    rw [List.lookup_append, fresh, Option.none_or]
    cases s.ended <;> simp

theorem told_anonymous {s other : Supervisor} (same : other.anonymous = s.anonymous)
    (streams : s.Streams) (otherStreams : other.Streams) (now : Nat) {action : Step}
    (uncalled : isCall action = false) {call otherCall : Nat} {turn otherTurn : Turn}
    (current : s.turn = some (call, turn))
    (otherCurrent : other.turn = some (otherCall, otherTurn)) :
    (other.step now action).events otherCall = (s.step now action).events call := by
  have told {s : Supervisor} (streams : s.Streams) {call : Nat} {turn : Turn}
      (current : s.turn = some (call, turn)) :
      (s.step now action).events call = (s.anonymous.step now action).lastTold := by
    have registered : s.register.turn = call := by simp [register, current]
    have fresh : s.register.ended.lookup s.register.turn = none := by
      rw [registered]
      exact (streams.current call turn current).2
    rw [step_registered s now uncalled, ← registered, events_withRegister _ fresh]
  rw [told streams current, told otherStreams otherCurrent, same]

end AgentHost.Supervisor
