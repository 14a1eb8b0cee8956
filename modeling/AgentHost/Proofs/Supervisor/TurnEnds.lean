import AgentHost.Proofs.Supervisor.TurnBounds

namespace AgentHost.Supervisor

def record? (decoder : Decoder) (line : String) : Option Json :=
  if Text.allBlank line then none else decoder.parseLine line

def result? (decoder : Decoder) (line : String) : Option Json :=
  (record? decoder line).filter fun record => decide (recordType? record = some resultType)

def hearLine (decoder : Decoder) (line : String) (turn : Turn) : Turn :=
  match record? decoder line with
  | some record => (decoder.parts record).foldl addPart turn
  | none => turn

def hearLines (decoder : Decoder) (lines : List String) (turn : Turn) : Turn :=
  lines.foldl (fun turn line => hearLine decoder line turn) turn

def linesAhead (decoder : Decoder) (lines : List String) : List String :=
  lines.takeWhile fun line => (result? decoder line).isNone

def Step.isOutput : Step → Bool
  | .readOutput _ | .closeOutput | .failOutput _ => true
  | _ => false

def Step.isLog : Step → Bool
  | .readLog _ | .closeLog => true
  | _ => false

def linesRead (s : Supervisor) : Step → List String
  | .readOutput chunk => if s.outputOpen && !chunk.isEmpty then (s.lines.push chunk).1 else []
  | .closeOutput | .failOutput _ => if s.outputOpen then s.lines.takeRemainder.1.toList else []
  | _ => []

def answer? (s : Supervisor) (action : Step) : Option Json :=
  (s.linesRead action).findSome? (result? s.decoder)

def exit? (s : Supervisor) (now : Nat) : Step → Option ExitStatus
  | .finishDraining =>
    match s.observer with
    | .draining status deadline => if !s.outputOpen || deadline ≤ now then some status else none
    | _ => none
  | _ => none

inductive Fate (now : Nat) (s : Supervisor) (call : Nat) (turn : Turn) (action : Step)
    (s' : Supervisor) : Prop where
  | stopped {cause : Cause} {urgency : Urgency}
      (orders : s.termination? action = some (cause, urgency)) (state : s'.state = .dead)
      (idle : s'.idle.generation = s.idle.generation)
      (told : s'.events call = turn.sent ++ [.error cause.turnError, .done])
  | exited {status : ExitStatus} (exits : s.exit? now action = some status)
      (state : s'.state = .dead) (idle : s'.idle.generation = s.idle.generation)
      (told : s'.events call = turn.sent ++ [.error "process exited unexpectedly", .done])
  | answered {record : Json} {before : Turn} (answers : s.answer? action = some record)
      (state : s'.state = .idle) (idle : s'.idle.generation = s.idle.generation + 1)
      (advances : turn.Advances before)
      (told : s'.events call = (concludeWith s.decoder record before).finish.sent)
  | goesOn {after : Turn} (unordered : s.termination? action = none)
      (runs : s.exit? now action = none) (unanswered : s.answer? action = none)
      (idle : s'.idle.generation = s.idle.generation) (advances : turn.Advances after)
      (current : s'.turn = some (call, after))

section Lines

variable {s : Supervisor} {call : Nat} {turn : Turn}

theorem hearLine_advances (decoder : Decoder) (line : String) (turn : Turn) :
    turn.Advances (hearLine decoder line turn) := by
  unfold hearLine
  split
  · exact turn.foldl_advances addPart_advances _
  · exact .refl turn

theorem changeTurn_of_free (free : s.turn = none) (change : Turn → Turn) : s.changeTurn change = s := by
  cases s
  simp_all [changeTurn]

theorem changeTurn_same (s : Supervisor) : s.changeTurn (fun turn => turn) = s := by
  cases s
  simp [changeTurn]

theorem handleLine_of_result {line : String} {record : Json}
    (result : result? s.decoder line = some record) (now : Nat) :
    s.handleLine now line = s.completeTurn now record := by
  obtain ⟨found, isResult⟩ := Option.filter_eq_some_iff.mp result
  have ends := of_decide_eq_true isResult
  unfold record? at found
  unfold handleLine
  split at found
  · contradiction
  · next written => rw [if_neg written, found]; exact if_pos ends

theorem handleLine_of_other {line : String} (other : result? s.decoder line = none) (now : Nat) :
    s.handleLine now line = s.changeTurn (hearLine s.decoder line) := by
  unfold result? record? at other
  unfold handleLine hearLine record?
  split
  · exact s.changeTurn_same.symm
  · next written =>
    rw [if_neg written] at other
    cases parsed : s.decoder.parseLine line with
    | none => exact s.changeTurn_same.symm
    | some record =>
      rw [parsed] at other
      have goesOn : ¬ recordType? record = some resultType := by simpa using other
      exact if_neg goesOn

theorem handleLines_of_free (free : s.turn = none) (now : Nat) (lines : List String) :
    s.handleLines now lines = s := by
  induction lines with
  | nil => rfl
  | cons line rest ih =>
    have unheard : s.handleLine now line = s := by
      cases result : result? s.decoder line with
      | none => rw [handleLine_of_other result, changeTurn_of_free free]
      | some record => rw [handleLine_of_result result, completeTurn_of_free free]
    unfold handleLines
    rw [List.foldl_cons, unheard]
    exact ih

theorem hearLines_advances (decoder : Decoder) (lines : List String) (turn : Turn) :
    turn.Advances (hearLines decoder lines turn) :=
  turn.foldl_advances (fun turn line => hearLine_advances decoder line turn) lines

/-- Lines without a result do not end the turn. -/
theorem handleLines_unanswered (current : s.turn = some (call, turn)) (now : Nat)
    {lines : List String} (unanswered : lines.findSome? (result? s.decoder) = none) :
    Aside { s with turn := some (call, hearLines s.decoder lines turn) } (s.handleLines now lines) := by
  induction lines generalizing s turn with
  | nil =>
    rw [hearLines, List.foldl_nil, ← current]
    exact .refl s
  | cons line rest ih =>
    rw [List.findSome?_cons] at unanswered
    cases result : result? s.decoder line with
    | some record => simp [result] at unanswered
    | none =>
      rw [result] at unanswered
      have heard : (s.changeTurn (hearLine s.decoder line)).turn =
          some (call, hearLine s.decoder line turn) := by simp [changeTurn, current]
      unfold handleLines
      rw [List.foldl_cons, handleLine_of_other result]
      exact ih heard unanswered

/-- The first result ends the turn, and the lines after it have no effect. -/
theorem handleLines_answered (current : s.turn = some (call, turn)) (now : Nat)
    {lines : List String} {record : Json}
    (answered : lines.findSome? (result? s.decoder) = some record) :
    Aside (s.completed now call (concludeWith s.decoder record
        (hearLines s.decoder (linesAhead s.decoder lines) turn)).finish.sent)
      (s.handleLines now lines) := by
  induction lines generalizing s turn with
  | nil => simp at answered
  | cons line rest ih =>
    rw [List.findSome?_cons] at answered
    unfold handleLines linesAhead
    rw [List.foldl_cons, List.takeWhile_cons]
    cases result : result? s.decoder line with
    | some first =>
      rw [result] at answered
      obtain rfl := Option.some.inj answered
      have ended := completeTurn_completed current now first
      have free : (s.completeTurn now first).turn = none := ended.turn
      have unheard := handleLines_of_free free now rest
      unfold handleLines at unheard
      rw [handleLine_of_result result, unheard]
      exact ended
    | none =>
      rw [result] at answered
      have heard : (s.changeTurn (hearLine s.decoder line)).turn =
          some (call, hearLine s.decoder line turn) := by simp [changeTurn, current]
      rw [handleLine_of_other result]
      exact ih heard answered

theorem foldl_logLine (current : s.turn = some (call, turn)) (lines : List String) :
    ∃ after, turn.Advances after ∧
      Aside { s with turn := some (call, after) } (lines.foldl logLine s) := by
  induction lines generalizing s turn with
  | nil => exact ⟨turn, .refl turn, by rw [← current]; exact .refl s⟩
  | cons line rest ih =>
    rw [List.foldl_cons]
    unfold logLine
    split
    · exact ih current
    · have heard : (s.changeTurn (·.emit (.logLine .stderr (Text.trimEnd line)))).turn =
          some (call, turn.emit (.logLine .stderr (Text.trimEnd line))) := by
        simp [changeTurn, current]
      obtain ⟨after, advances, others⟩ := ih heard
      exact ⟨after, (turn.emit_advances rfl).trans advances, others⟩

theorem events_of_completed {s' : Supervisor} (fresh : s.ended.lookup call = none) {now : Nat}
    {events : List Event} (rest : Aside (s.completed now call events) s') :
    s'.events call = events := by
  have free : s'.turn = none := rest.turn
  have told : s'.ended = s.ended ++ [(call, events)] := rest.ended
  rw [events_of_other (by simp [free]), told, lookup_snoc, fresh, if_pos rfl]
  rfl

end Lines

section Fates

variable {s : Supervisor} {call : Nat} {turn : Turn} {now : Nat} {action : Step}

theorem only_ending_of_orders {order : Cause × Urgency}
    (orders : s.termination? action = some order) (now : Nat) :
    s.exit? now action = none ∧ s.answer? action = none := by
  unfold termination? at orders
  rw [if_neg (alive_of_termination orders)] at orders
  cases action <;> first | exact ⟨rfl, rfl⟩ | simp at orders

theorem draining_of_exit {status : ExitStatus} (exits : s.exit? now action = some status) :
    action = .finishDraining ∧ ∃ deadline, s.observer = .draining status deadline ∧
      (!s.outputOpen || decide (deadline ≤ now)) = true := by
  cases action with
  | finishDraining =>
    unfold exit? at exits
    cases observer : s.observer with
    | draining known deadline =>
      simp only [observer] at exits
      split at exits
      · next drained =>
        rw [← Option.some.inj exits]
        exact ⟨rfl, deadline, rfl, drained⟩
      · contradiction
    | absent | watching | finished => simp [observer] at exits
  | _ => simp [exit?] at exits

theorem only_ending_of_exit {status : ExitStatus} (exits : s.exit? now action = some status) :
    s.answer? action = none := by
  obtain ⟨rfl, _⟩ := draining_of_exit exits
  rfl

theorem Fate.keeps {s' : Supervisor} (current : s.turn = some (call, turn))
    (unordered : s.termination? action = none) (runs : s.exit? now action = none)
    (unanswered : s.answer? action = none) (same : s'.turn = s.turn ∧ s'.idle = s.idle) :
    Fate now s call turn action s' :=
  .goesOn unordered runs unanswered (congrArg _ same.2) (.refl turn) (same.1.trans current)

theorem heard_lines (s : Supervisor) (now : Nat) : (s.heard now).lines = s.lines := by
  unfold heard
  split <;> rfl

theorem step_reading (s : Supervisor) (now : Nat) {action : Step} (output : action.isOutput = true) :
    ∃ reading, Aside { s with hang := reading.hang } reading ∧
      s.step now action = reading.handleLines now (s.linesRead action) := by
  cases action with
  | readOutput chunk =>
    dsimp only [step, linesRead]
    unfold readOutput
    split
    · refine ⟨{ s.heard now with lines := (s.lines.push chunk).2 }, ?_, by rw [← heard_lines s now]⟩
      unfold heard
      split <;> constructor <;> rfl
    · exact ⟨s, .refl s, rfl⟩
  | closeOutput =>
    dsimp only [step, linesRead]
    unfold closeOutput
    split
    · exact ⟨{ s with lines := s.lines.takeRemainder.2, outputOpen := false },
        by constructor <;> rfl, rfl⟩
    · exact ⟨s, .refl s, rfl⟩
  | failOutput error =>
    dsimp only [step, linesRead]
    unfold failOutput
    split
    · next opened =>
      exact ⟨{ s.note (.readFailed error) with
        lines := s.lines.takeRemainder.2, outputOpen := false }, by constructor <;> rfl, if_pos opened⟩
    · exact ⟨s, .refl s, rfl⟩
  | _ => simp [Step.isOutput] at output

theorem events_of_answer (streams : s.Streams) (current : s.turn = some (call, turn))
    (output : action.isOutput = true) {record : Json} (answers : s.answer? action = some record)
    (now : Nat) : (s.step now action).events call = (concludeWith s.decoder record
      (hearLines s.decoder (linesAhead s.decoder (s.linesRead action)) turn)).finish.sent := by
  obtain ⟨reading, same, step⟩ := s.step_reading now output
  have answered : (s.linesRead action).findSome? (result? reading.decoder) = some record := by
    rw [same.decoder]
    exact answers
  have rest := handleLines_answered (same.turn.trans current) now answered
  have fresh : reading.ended.lookup call = none := by
    rw [same.ended]
    exact (streams.current call turn current).2
  rw [step, events_of_completed fresh rest, same.decoder]

theorem unordered_of_output (output : action.isOutput = true) : s.termination? action = none := by
  cases action <;> first | exact ite_self _ | simp [Step.isOutput] at output

theorem unread_of_orders {order : Cause × Urgency} (orders : s.termination? action = some order) :
    action.isOutput = false := by
  refine Bool.eq_false_iff.mpr fun output => ?_
  rw [unordered_of_output output] at orders
  contradiction

theorem unread_of_exit {status : ExitStatus} (exits : s.exit? now action = some status) :
    action.isOutput = false := by
  obtain ⟨rfl, _⟩ := draining_of_exit exits
  rfl

theorem Fate.ofOutput (coherent : s.Coherent) (streams : s.Streams)
    (current : s.turn = some (call, turn)) (output : action.isOutput = true) :
    Fate now s call turn action (s.step now action) := by
  have unordered : s.termination? action = none := unordered_of_output output
  have runs : s.exit? now action = none := by
    cases action <;> first | rfl | simp [Step.isOutput] at output
  obtain ⟨reading, same, step⟩ := s.step_reading now output
  have busy := same.state.trans (coherent.busy_of_turn current)
  have under := same.turn.trans current
  cases answers : s.answer? action with
  | none =>
    have unanswered : (s.linesRead action).findSome? (result? reading.decoder) = none := by
      rw [same.decoder]
      exact answers
    have rest := handleLines_unanswered under now unanswered
    rw [← step] at rest
    exact .goesOn unordered runs answers (congrArg _ (rest.idle.trans same.idle))
      (hearLines_advances _ _ turn) rest.turn
  | some record =>
    have answered : (s.linesRead action).findSome? (result? reading.decoder) = some record := by
      rw [same.decoder]
      exact answers
    have rest := handleLines_answered under now answered
    rw [← step] at rest
    refine .answered answers ?_ ?_ (hearLines_advances _ _ turn)
      (events_of_answer streams current output answers now)
    · exact rest.state.trans (if_pos busy)
    · rw [rest.idle]
      simp [completed, busy, Timer.arm, same.idle]

theorem Fate.ofTermination (coherent : s.Coherent) (streams : s.Streams)
    (current : s.turn = some (call, turn)) {cause : Cause} {urgency : Urgency}
    (orders : s.termination? action = some (cause, urgency)) :
    Fate now s call turn action (s.step now action) := by
  obtain ⟨hang, idle, _, sameIdle, rest⟩ := step_stopped coherent orders now
  exact .stopped orders (state_of_termination coherent orders now)
    ((congrArg _ rest.idle).trans sameIdle) (events_of_termination coherent streams orders now current)

theorem Fate.ofExit (coherent : s.Coherent) (streams : s.Streams)
    (current : s.turn = some (call, turn)) {status : ExitStatus}
    (exits : s.exit? now .finishDraining = some status) (step : s.finishDraining now = s.onExit status) :
    Fate now s call turn .finishDraining (s.finishDraining now) := by
  have launched : s.isLaunched = true := by
    have shaped := coherent.shaped
    simp only [Shaped, coherent.busy_of_turn current] at shaped
    exact shaped.2.2.2.2
  have rest := onExit_stopped launched status
  rw [step]
  refine .exited exits rest.state ((congrArg _ rest.idle).trans s.idle.cancel_generation) ?_
  exact events_of_stopped streams current (coherent.live call turn current) rest

theorem finishDraining_of_exit {status : ExitStatus}
    (exits : s.exit? now .finishDraining = some status) : s.finishDraining now = s.onExit status := by
  obtain ⟨_, deadline, draining, drained⟩ := draining_of_exit exits
  rw [finishDraining, draining]
  exact if_pos drained

theorem finishDraining_of_none (runs : s.exit? now .finishDraining = none) :
    s.finishDraining now = s := by
  unfold exit? at runs
  unfold finishDraining
  cases observer : s.observer with
  | draining known deadline =>
    simp only [observer] at runs
    split at runs
    · contradiction
    · next early => exact if_neg early
  | absent | watching | finished => rfl

theorem step_logging (s : Supervisor) (now : Nat) {action : Step} (log : action.isLog = true) :
    ∃ reading, ∃ lines : List String, Aside { s with hang := reading.hang } reading ∧
      s.step now action = lines.foldl logLine reading := by
  cases action with
  | readLog chunk =>
    dsimp only [step]
    unfold readLog
    split
    · refine ⟨_, _, ?_, rfl⟩
      unfold heard
      split <;> constructor <;> rfl
    · exact ⟨s, [], .refl s, rfl⟩
  | closeLog =>
    dsimp only [step]
    unfold closeLog
    split
    · refine ⟨_, _, ?_, rfl⟩
      unfold heard
      split <;> constructor <;> rfl
    · exact ⟨s, [], .refl s, rfl⟩
  | _ => simp [Step.isLog] at log

theorem linesRead_of_other (unread : action.isOutput = false) : s.linesRead action = [] := by
  cases action <;> first | rfl | simp [Step.isOutput] at unread

theorem output_of_answer {record : Json} (answers : s.answer? action = some record) :
    action.isOutput = true := by
  cases output : action.isOutput with
  | true => rfl
  | false => simp [answer?, linesRead_of_other output] at answers

theorem Fate.ofLog (current : s.turn = some (call, turn)) (unordered : s.termination? action = none)
    (runs : s.exit? now action = none) (unanswered : s.answer? action = none)
    (log : action.isLog = true) : Fate now s call turn action (s.step now action) := by
  obtain ⟨reading, lines, same, step⟩ := s.step_logging now log
  obtain ⟨after, advances, rest⟩ := foldl_logLine (same.turn.trans current) lines
  rw [step]
  exact .goesOn unordered runs unanswered (congrArg _ (rest.idle.trans same.idle)) advances rest.turn

/-- A step that reads nothing and ends nothing leaves the turn unchanged. -/
theorem step_keeps (coherent : s.Coherent) (current : s.turn = some (call, turn))
    (unordered : s.termination? action = none) (runs : s.exit? now action = none)
    (unread : action.isOutput = false) (unlogged : action.isLog = false) :
    (s.step now action).turn = s.turn ∧ (s.step now action).idle = s.idle := by
  have busy := coherent.busy_of_turn current
  have alive : s.state ≠ .dead := by simp [busy]
  cases action with
  | spawn outcome => simp [step, spawn, busy, note]
  | sendTurn prompt => simp [step, Supervisor.sendTurn, busy, reject]
  | kill | forceKill | drop => simp [termination?, busy] at unordered
  | acceptInput count =>
    dsimp only [step]
    unfold Supervisor.acceptInput
    split <;> exact ⟨rfl, rfl⟩
  | finishWrite =>
    dsimp only [step]
    unfold Supervisor.finishWrite
    split <;> exact ⟨rfl, rfl⟩
  | failWrite error =>
    have unwritten : s.writing = none := by simpa [termination?, alive] using unordered
    simp [step, failWrite, unwritten]
  | readOutput | closeOutput | failOutput => simp [Step.isOutput] at unread
  | readLog | closeLog => simp [Step.isLog] at unlogged
  | hangRings generation =>
    have stale : s.hang.isCurrent generation = false := by simpa [termination?, alive] using unordered
    simp [step, onHang_of_stale stale]
  | idleRings generation =>
    have stale : s.idle.isCurrent generation = false := by simpa [termination?, alive] using unordered
    simp [step, onIdle_of_stale stale]
  | killDue =>
    dsimp only [step]
    unfold onKillDue
    split
    · split <;> exact ⟨rfl, rfl⟩
    · exact ⟨rfl, rfl⟩
  | obey =>
    dsimp only [step]
    unfold obey
    split <;> exact ⟨rfl, rfl⟩
  | processExits status =>
    dsimp only [step]
    unfold processExits
    split <;> exact ⟨rfl, rfl⟩
  | finishDraining => simp [step, finishDraining_of_none runs]

theorem Coherent.fate (coherent : s.Coherent) (streams : s.Streams)
    (current : s.turn = some (call, turn)) (now : Nat) (action : Step) :
    Fate now s call turn action (s.step now action) := by
  cases orders : s.termination? action with
  | some order => exact .ofTermination coherent streams current orders
  | none =>
    cases exits : s.exit? now action with
    | some status =>
      obtain ⟨rfl, _⟩ := draining_of_exit exits
      exact .ofExit coherent streams current exits (finishDraining_of_exit exits)
    | none =>
      cases output : action.isOutput with
      | true => exact .ofOutput coherent streams current output
      | false =>
        have unanswered : s.answer? action = none := by simp [answer?, linesRead_of_other output]
        cases log : action.isLog with
        | true => exact .ofLog current orders exits unanswered log
        | false =>
          exact .keeps current orders exits unanswered
            (step_keeps coherent current orders exits output log)

theorem idle_of_answer (coherent : s.Coherent) (streams : s.Streams)
    (current : s.turn = some (call, turn)) {record : Json} (answers : s.answer? action = some record)
    (now : Nat) : (s.step now action).state = .idle := by
  cases coherent.fate streams current now action with
  | stopped orders => simp [(only_ending_of_orders orders now).2] at answers
  | exited exits => simp [only_ending_of_exit exits] at answers
  | answered _ idle => exact idle
  | goesOn _ _ unanswered => simp [unanswered] at answers

theorem Coherent.ends_nothing (coherent : s.Coherent) (streams : s.Streams)
    (current : s.turn = some (call, turn)) {after : Turn}
    (later : (s.step now action).turn = some (call, after)) :
    s.termination? action = none ∧ s.exit? now action = none ∧ s.answer? action = none := by
  have busy := (step_coherent coherent now action).busy_of_turn later
  cases coherent.fate streams current now action with
  | stopped _ dead | exited _ dead => simp [dead] at busy
  | answered _ idle => simp [idle] at busy
  | goesOn unordered runs unanswered => exact ⟨unordered, runs, unanswered⟩

end Fates

end AgentHost.Supervisor
