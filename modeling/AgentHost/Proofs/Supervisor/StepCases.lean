import AgentHost.Proofs.Supervisor.Move

namespace AgentHost.Supervisor

open Relation (ReflTransGen)

theorem foldl_moves {α : Type} {now : Nat} {change : Supervisor → α → Supervisor}
    (each : ∀ (s : Supervisor) (item : α), Moves now s (change s item)) (items : List α)
    (s : Supervisor) : Moves now s (items.foldl change s) := by
  induction items generalizing s with
  | nil => exact .refl
  | cons item items ih => exact (each s item).trans (ih _)

theorem changeTurn_moves (s : Supervisor) (now : Nat) {change : Turn → Turn}
    (advances : ∀ turn : Turn, turn.Advances (change turn)) : Moves now s (s.changeTurn change) := by
  cases turn : s.turn with
  | none =>
    have rest : Aside s (s.changeTurn change) := by
      constructor <;> simp [changeTurn, turn, isLaunched]
    exact .aside rest
  | some current =>
    obtain ⟨call, current⟩ := current
    refine .single (.advance turn (advances current) ?_)
    constructor <;> simp [changeTurn, turn, isLaunched]

theorem completeTurn_completed {s : Supervisor} {call : Nat} {turn : Turn}
    (current : s.turn = some (call, turn)) (now : Nat) (record : Json) :
    Aside (s.completed now call (concludeWith s.decoder record turn).finish.sent)
      (s.completeTurn now record) := by
  have abandoned := (concludeWith_ends s.decoder record turn).unabandoned
  unfold completeTurn
  rw [current]
  dsimp only [Option.isNone_some]
  generalize s.decoder.resultError record = error
  by_cases busy : s.state = .busy
  · cases error <;> constructor <;>
      simp [note, closeTurn, current, completed, armIdle, busy, abandoned, isLaunched]
  · cases error <;> constructor <;>
      simp [note, closeTurn, current, completed, busy, abandoned, isLaunched]

theorem completeTurn_of_free {s : Supervisor} (free : s.turn = none) (now : Nat) (record : Json) :
    s.completeTurn now record = s := by
  simp [completeTurn, free]

theorem completeTurn_moves (s : Supervisor) (now : Nat) (record : Json) :
    Moves now s (s.completeTurn now record) := by
  cases turn : s.turn with
  | none =>
    rw [completeTurn_of_free turn]
  | some current =>
    obtain ⟨call, current⟩ := current
    have ends := concludeWith_ends s.decoder record current
    exact .single (.complete turn ends (completeTurn_completed turn now record))

theorem handleLine_moves (now : Nat) (s : Supervisor) (line : String) :
    Moves now s (s.handleLine now line) := by
  unfold handleLine
  split
  · exact .refl
  · split
    · exact .refl
    · split
      · exact s.completeTurn_moves now _
      · exact s.changeTurn_moves now fun turn => turn.foldl_advances addPart_advances _

theorem handleLines_moves (s : Supervisor) (now : Nat) (lines : List String) :
    Moves now s (s.handleLines now lines) := foldl_moves (handleLine_moves now) lines s

theorem logLine_moves (now : Nat) (s : Supervisor) (line : String) :
    Moves now s (s.logLine line) := by
  unfold logLine
  split
  · exact .refl
  · exact s.changeTurn_moves now fun turn => turn.emit_advances rfl

@[simp] theorem heard_state (s : Supervisor) (now : Nat) : (s.heard now).state = s.state := by
  unfold heard
  split <;> rfl

@[simp] theorem heard_turn (s : Supervisor) (now : Nat) : (s.heard now).turn = s.turn := by
  unfold heard
  split <;> rfl

@[simp] theorem heard_settings (s : Supervisor) (now : Nat) :
    (s.heard now).settings = s.settings := by
  unfold heard
  split <;> rfl

@[simp] theorem heard_calls (s : Supervisor) (now : Nat) : (s.heard now).calls = s.calls := by
  unfold heard
  split <;> rfl

@[simp] theorem heard_idle (s : Supervisor) (now : Nat) : (s.heard now).idle = s.idle := by
  unfold heard
  split <;> rfl

theorem heard_same {s s' : Supervisor} (now : Nat) (rest : Aside s s') :
    Aside (s.heard now) (s'.heard now) := by
  unfold heard
  rw [rest.state]
  split
  · exact { rest with hang := by simp only [armHang, rest.hang, rest.settings] }
  · exact rest

theorem acceptInput_moves (s : Supervisor) (now count : Nat) :
    Moves now s (s.acceptInput count) := by
  unfold acceptInput
  cases writing : s.writing with
  | none => exact .refl
  | some write => exact .single (.inputTaken count writing (by constructor <;> rfl))

theorem finishWrite_moves (s : Supervisor) (now : Nat) : Moves now s s.finishWrite := by
  unfold finishWrite
  split
  · rename_i writing
    exact .single (.inputReturned writing (by constructor <;> rfl))
  · exact .refl

theorem onKillDue_moves (s : Supervisor) (now : Nat) : Moves now s (s.onKillDue now) := by
  unfold onKillDue
  split
  · split
    · exact .aside (by constructor <;> rfl)
    · exact .refl
  · exact .refl

theorem obey_moves (s : Supervisor) (now : Nat) : Moves now s s.obey := by
  unfold obey
  split
  · exact .aside (by constructor <;> rfl)
  · exact .refl

theorem processExits_moves (s : Supervisor) (now : Nat) (status : ExitStatus) :
    Moves now s (s.processExits now status) := by
  unfold processExits
  split
  · rename_i watching
    have launched : s.isLaunched = true := by
      rw [isLaunched, eq_of_beq watching]
      rfl
    have rest : Aside s { s with observer := .draining status (now + drainTime) } :=
      { Aside.refl s with isLaunched := launched.symm }
    exact .aside rest
  · exact .refl

theorem onExit_stopped {s : Supervisor} (launched : s.isLaunched = true) (status : ExitStatus) :
    Aside (s.stopped "process exited unexpectedly" s.hang.cancel s.idle.cancel s.writing)
      (s.onExit status) := by
  unfold onExit
  dsimp only
  generalize told : (if s.turn.isSome then _ else _ : Supervisor) = noted
  have same : Aside s noted := by
    rw [← told]
    split
    · exact (note_aside s _).trans (note_aside _ _)
    · exact note_aside s _
  rw [shutDown_eq, same.hang, same.idle, same.writing]
  have stopped := Aside.stopped { same with hang := rfl, idle := rfl, writing := rfl }
    "process exited unexpectedly" s.hang.cancel s.idle.cancel s.writing
  exact { stopped with isLaunched := launched.symm }

theorem onExit_move {s : Supervisor} (launched : s.isLaunched = true) (now : Nat)
    (status : ExitStatus) : Move now s (s.onExit status) := by
  have stopped := onExit_stopped launched status
  refine .stop "process exited unexpectedly" ?_ ?_ (.inl stopped.writing) ?_
  · exact stopped.hang ▸ s.hang.cancel_released
  · exact stopped.idle ▸ s.idle.cancel_released
  · rw [stopped.hang, stopped.idle, stopped.writing]
    exact stopped

theorem finishDraining_moves (s : Supervisor) (now : Nat) : Moves now s (s.finishDraining now) := by
  unfold finishDraining
  split
  · rename_i status deadline draining
    have launched : s.isLaunched = true := by
      rw [isLaunched, draining]
      rfl
    split
    · exact .single (onExit_move launched now status)
    · exact .refl
  · exact .refl

def reads (s : Supervisor) : Step → Bool
  | .readOutput chunk => s.outputOpen && !chunk.isEmpty
  | .readLog chunk => s.logOpen && !chunk.isEmpty
  | _ => false

def logEnds (s : Supervisor) : Step → Bool
  | .closeLog => s.logOpen
  | _ => false

def hears (s : Supervisor) (action : Step) : Bool := s.reads action || s.logEnds action

/-- What a step can do. All but the first three cases are moves, possibly after a sign of life. -/
inductive Took (now : Nat) (s : Supervisor) : Step → Supervisor → Prop where
  | launched {pid : Nat} {s' : Supervisor} (starting : s.state = .starting)
      (rest : Aside { s with
        state := .idle, inputHeld := true, observer := .watching
        idle := s.idle.arm now s.settings.idleTimeoutMs } s') : Took now s (.spawn (.ok pid)) s'
  | launchFailed {fault : ProcessFault} {s' : Supervisor} (starting : s.state = .starting)
      (rest : Aside { s with state := .dead } s') : Took now s (.spawn (.error fault)) s'
  | begun {prompt : Prompt} {s' : Supervisor} (idle : s.state = .idle) (held : s.inputHeld = true)
      (rest : Aside { s with
        state := .busy, calls := s.calls + 1, inputHeld := false
        writing := some ⟨s.calls, Text.Utf8.encode prompt.line⟩
        turn := some (s.calls, .start s.settings.maxImagesPerTurn)
        hang := s.hang.arm now s.settings.hangTimeoutMs
        idle := s.idle.cancel } s') : Took now s (.sendTurn prompt) s'
  | refused {prompt : Prompt} {s' : Supervisor} (message : String)
      (why : s.state = .idle → s.inputHeld = false)
      (rest : Aside (s.reject message) s') : Took now s (.sendTurn prompt) s'
  | moved {action : Step} {s' : Supervisor} (uncalled : ∀ prompt, action ≠ .sendTurn prompt)
      (moves : Moves now (if s.hears action then s.heard now else s) s') : Took now s action s'

theorem spawn_took (s : Supervisor) (now : Nat) (outcome : Except ProcessFault Nat) :
    Took now s (.spawn outcome) (s.spawn now outcome).2 := by
  unfold spawn
  by_cases starting : s.state = .starting
  · simp only [starting, bne_self_eq_false, Bool.false_eq_true, if_false]
    cases outcome with
    | ok pid => exact .launched starting (by constructor <;> rfl)
    | error fault => exact .launchFailed starting (by constructor <;> rfl)
  · have other : (s.state != .starting) = true := by simp [starting]
    rw [if_pos other]
    exact .moved (by simp) (.aside (note_aside s _))

theorem sendTurn_took (s : Supervisor) (now : Nat) (prompt : Prompt) :
    Took now s (.sendTurn prompt) (s.sendTurn now prompt) := by
  unfold sendTurn
  cases state : s.state with
  | idle =>
    dsimp only
    cases held : s.inputHeld with
    | true => exact .begun state held (by constructor <;> rfl)
    | false => exact .refused _ (fun _ => held) (.refl _)
  | starting => exact .refused _ (by simp [state]) (.refl _)
  | busy => exact .refused _ (by simp [state]) (.refl _)
  | dead => exact .refused _ (by simp [state]) (.refl _)

theorem readOutput_moves (s : Supervisor) (now : Nat) (chunk : List UInt8) :
    Moves now (if s.hears (.readOutput chunk) then s.heard now else s) (s.readOutput now chunk) := by
  have hears : s.hears (.readOutput chunk) = (s.outputOpen && !chunk.isEmpty) := by
    simp [Supervisor.hears, reads, logEnds]
  rw [hears]
  unfold readOutput
  split
  · refine ReflTransGen.trans ?_ (handleLines_moves _ now _)
    exact Moves.aside (by constructor <;> rfl)
  · exact .refl

theorem closeOutput_moves (s : Supervisor) (now : Nat) : Moves now s (s.closeOutput now) := by
  unfold closeOutput
  split
  · refine ReflTransGen.trans ?_ (handleLines_moves _ now _)
    exact Moves.aside (by constructor <;> rfl)
  · exact .refl

theorem failOutput_moves (s : Supervisor) (now : Nat) (error : String) :
    Moves now s (s.failOutput now error) := by
  unfold failOutput
  split
  · exact ReflTransGen.trans (Moves.aside (note_aside s _)) (closeOutput_moves _ now)
  · exact .refl

theorem logLines_moves {s s' : Supervisor} (now : Nat) (rest : Aside s s') (lines : List String) :
    Moves now (s.heard now) (s'.logLines now lines) :=
  ReflTransGen.trans (Moves.aside (heard_same now rest)) (foldl_moves (logLine_moves now) lines _)

theorem readLog_moves (s : Supervisor) (now : Nat) (chunk : List UInt8) :
    Moves now (if s.hears (.readLog chunk) then s.heard now else s) (s.readLog now chunk) := by
  have hears : s.hears (.readLog chunk) = (s.logOpen && !chunk.isEmpty) := by
    simp [Supervisor.hears, reads, logEnds]
  rw [hears]
  unfold readLog
  split
  · exact logLines_moves now (by constructor <;> rfl) _
  · exact .refl

theorem closeLog_moves (s : Supervisor) (now : Nat) :
    Moves now (if s.hears .closeLog then s.heard now else s) (s.closeLog now) := by
  have hears : s.hears .closeLog = s.logOpen := by simp [Supervisor.hears, reads, logEnds]
  rw [hears]
  unfold closeLog
  split
  · exact logLines_moves now (by constructor <;> rfl) _
  · exact .refl

/-- The timers must be armed only in their own states: otherwise an alarm without effect would
    disarm them, which is not a move. -/
theorem step_took {s : Supervisor} (hang : s.hang.held = true → s.state = .busy)
    (idle : s.idle.held = true → s.state = .idle) (now : Nat) (action : Step) :
    Took now s action (s.step now action) := by
  cases action with
  | spawn outcome => exact s.spawn_took now outcome
  | sendTurn prompt => exact s.sendTurn_took now prompt
  | kill => exact .moved (by simp) (s.terminate_moves now .killed .graceful)
  | forceKill => exact .moved (by simp) (s.terminate_moves now .killed .forced)
  | drop => exact .moved (by simp) (s.terminate_moves now .dropped .forced)
  | acceptInput count => exact .moved (by simp) (s.acceptInput_moves now count)
  | finishWrite => exact .moved (by simp) (s.finishWrite_moves now)
  | failWrite error => exact .moved (by simp) (s.failWrite_moves now error)
  | readOutput chunk => exact .moved (by simp) (s.readOutput_moves now chunk)
  | closeOutput => exact .moved (by simp) (s.closeOutput_moves now)
  | failOutput error => exact .moved (by simp) (s.failOutput_moves now error)
  | readLog chunk => exact .moved (by simp) (s.readLog_moves now chunk)
  | closeLog => exact .moved (by simp) (s.closeLog_moves now)
  | hangRings generation => exact .moved (by simp) (onHang_moves hang now generation)
  | idleRings generation => exact .moved (by simp) (onIdle_moves idle now generation)
  | killDue => exact .moved (by simp) (s.onKillDue_moves now)
  | obey => exact .moved (by simp) (s.obey_moves now)
  | processExits status => exact .moved (by simp) (s.processExits_moves now status)
  | finishDraining => exact .moved (by simp) (s.finishDraining_moves now)

end AgentHost.Supervisor
