import AgentHost.Proofs.Supervisor.Coherence

namespace AgentHost.Supervisor

structure InputSide where
  writing : Option Write
  written : List UInt8

structure EndSide where
  observer : Observer
  requests : List KillRequest
  obeyed : Nat
  killDue : Option Nat
  exited : Bool
  hook : Bool
  cleanups : Nat

structure ProcessSide where
  input : InputSide
  ending : EndSide

def inputSide (s : Supervisor) : InputSide := ⟨s.writing, s.written⟩

def endSide (s : Supervisor) : EndSide :=
  ⟨s.observer, s.requests, s.obeyed, s.killDue, s.exited, s.hook, s.cleanups⟩

def processSide (s : Supervisor) : ProcessSide := ⟨s.inputSide, s.endSide⟩

section Output

variable (s : Supervisor) (now : Nat)

@[simp] theorem heard_processSide : (s.heard now).processSide = s.processSide := by
  unfold heard
  split <;> rfl

theorem shutDown_processSide (message : String) :
    (s.shutDown message).processSide = s.processSide := by
  rw [shutDown_eq]
  rfl

theorem completeTurn_processSide (record : Json) :
    (s.completeTurn now record).processSide = s.processSide := by
  unfold completeTurn
  split
  · rfl
  · cases s.decoder.resultError record <;>
      (dsimp only; rw [closeTurn_eq]; split <;> rfl)

theorem handleLine_processSide (line : String) :
    (s.handleLine now line).processSide = s.processSide := by
  unfold handleLine
  split
  · rfl
  · split
    · rfl
    · split
      · exact s.completeTurn_processSide now _
      · rfl

theorem logLine_processSide (line : String) : (s.logLine line).processSide = s.processSide := by
  unfold logLine
  split <;> rfl

theorem foldl_processSide {change : Supervisor → String → Supervisor}
    (each : ∀ (s : Supervisor) (line : String), (change s line).processSide = s.processSide)
    (lines : List String) : (lines.foldl change s).processSide = s.processSide := by
  induction lines generalizing s with
  | nil => rfl
  | cons line rest ih => exact (ih _).trans (each s line)

theorem handleLines_processSide (lines : List String) :
    (s.handleLines now lines).processSide = s.processSide :=
  s.foldl_processSide (fun s => s.handleLine_processSide now) lines

theorem logLines_processSide (lines : List String) :
    (s.logLines now lines).processSide = s.processSide :=
  ((s.heard now).foldl_processSide logLine_processSide lines).trans (s.heard_processSide now)

theorem readOutput_processSide (chunk : List UInt8) :
    (s.readOutput now chunk).processSide = s.processSide := by
  unfold readOutput
  split
  · exact (handleLines_processSide _ now _).trans (s.heard_processSide now)
  · rfl

theorem closeOutput_processSide : (s.closeOutput now).processSide = s.processSide := by
  unfold closeOutput
  split
  · exact handleLines_processSide _ now _
  · rfl

theorem failOutput_processSide (error : String) :
    (s.failOutput now error).processSide = s.processSide := by
  unfold failOutput
  split
  · exact closeOutput_processSide _ now
  · rfl

theorem readLog_processSide (chunk : List UInt8) :
    (s.readLog now chunk).processSide = s.processSide := by
  unfold readLog
  split
  · exact logLines_processSide _ now _
  · rfl

theorem closeLog_processSide : (s.closeLog now).processSide = s.processSide := by
  unfold closeLog
  split
  · exact logLines_processSide _ now _
  · rfl

end Output

section Input

variable (s : Supervisor) (now : Nat)

theorem askToEnd_inputSide (urgency : Urgency) :
    (s.askToEnd now urgency).inputSide = s.inputSide := by
  unfold askToEnd
  split
  · cases urgency <;> rfl
  · rfl

theorem terminate_inputSide (cause : Cause) (urgency : Urgency) :
    (s.terminate now cause urgency).2.inputSide = s.inputSide := by
  unfold terminate
  split
  · rfl
  · exact (askToEnd_inputSide _ now urgency).trans
      (congrArg ProcessSide.input (shutDown_processSide _ _))

theorem spawn_inputSide (outcome : Except ProcessFault Nat) :
    (s.spawn now outcome).2.inputSide = s.inputSide := by
  unfold spawn
  split
  · rfl
  · cases outcome <;> rfl

theorem onHang_inputSide (generation : Nat) :
    (s.onHang now generation).inputSide = s.inputSide := by
  unfold onHang
  dsimp only
  split
  · exact terminate_inputSide _ now _ _
  · rfl

theorem onIdle_inputSide (generation : Nat) :
    (s.onIdle now generation).inputSide = s.inputSide := by
  unfold onIdle
  dsimp only
  split
  · exact terminate_inputSide _ now _ _
  · rfl

theorem onKillDue_inputSide : (s.onKillDue now).inputSide = s.inputSide := by
  unfold onKillDue
  split
  · split <;> rfl
  · rfl

theorem obey_inputSide : s.obey.inputSide = s.inputSide := by
  unfold obey
  split <;> rfl

theorem processExits_inputSide (status : ExitStatus) :
    (s.processExits now status).inputSide = s.inputSide := by
  unfold processExits
  split <;> rfl

theorem onExit_inputSide (status : ExitStatus) : (s.onExit status).inputSide = s.inputSide := by
  unfold onExit
  refine (congrArg ProcessSide.input (shutDown_processSide _ _)).trans ?_
  split <;> rfl

theorem finishDraining_inputSide : (s.finishDraining now).inputSide = s.inputSide := by
  unfold finishDraining
  split
  · split
    · exact s.onExit_inputSide _
    · rfl
  · rfl

def intake : Step → List UInt8
  | .acceptInput count => (s.writing.map (·.rest.take count)).getD []
  | _ => []

def nextWrite : Step → Option Write
  | .sendTurn prompt =>
    if s.state = .idle ∧ s.inputHeld = true then some ⟨s.calls, Text.Utf8.encode prompt.line⟩
    else s.writing
  | .acceptInput count => s.writing.map fun write => { write with rest := write.rest.drop count }
  | .finishWrite => s.writing.filter fun write => !write.rest.isEmpty
  | .failWrite _ => none
  | _ => s.writing

theorem sendTurn_inputSide (prompt : Prompt) :
    (s.sendTurn now prompt).inputSide = ⟨s.nextWrite (.sendTurn prompt), s.written⟩ := by
  unfold sendTurn
  cases state : s.state with
  | idle => cases held : s.inputHeld <;> simp [nextWrite, state, held, inputSide, reject, armHang]
  | starting | busy | dead => simp [nextWrite, state, inputSide, reject]

theorem acceptInput_inputSide (count : Nat) : (s.acceptInput count).inputSide =
    ⟨s.nextWrite (.acceptInput count), s.written ++ s.intake (.acceptInput count)⟩ := by
  unfold acceptInput
  cases writing : s.writing <;> simp [inputSide, nextWrite, intake, writing]

theorem finishWrite_inputSide :
    s.finishWrite.inputSide = ⟨s.nextWrite .finishWrite, s.written⟩ := by
  unfold finishWrite
  cases writing : s.writing with
  | none => simp [inputSide, nextWrite, writing]
  | some write =>
    obtain ⟨call, rest⟩ := write
    cases rest <;> simp [inputSide, nextWrite, writing, Option.filter]

theorem failWrite_inputSide (error : String) :
    (s.failWrite now error).inputSide = ⟨none, s.written⟩ := by
  unfold failWrite
  cases writing : s.writing with
  | none => simp [inputSide, writing]
  | some write => exact terminate_inputSide _ now _ _

theorem step_inputSide (action : Step) :
    (s.step now action).inputSide = ⟨s.nextWrite action, s.written ++ s.intake action⟩ := by
  have plain {next : Supervisor} {writing : Option Write}
      (same : next.inputSide = ⟨writing, s.written⟩) :
      next.inputSide = ⟨writing, s.written ++ []⟩ := by rw [same, List.append_nil]
  have unread {next : Supervisor} (same : next.processSide = s.processSide) :
      next.inputSide = ⟨s.writing, s.written ++ []⟩ := plain (congrArg (·.input) same)
  cases action with
  | spawn outcome => exact plain (s.spawn_inputSide now outcome)
  | sendTurn prompt => exact plain (s.sendTurn_inputSide now prompt)
  | kill | forceKill | drop => exact plain (s.terminate_inputSide now _ _)
  | acceptInput count => exact s.acceptInput_inputSide count
  | finishWrite => exact plain s.finishWrite_inputSide
  | failWrite error => exact plain (s.failWrite_inputSide now error)
  | readOutput chunk => exact unread (s.readOutput_processSide now chunk)
  | closeOutput => exact unread (s.closeOutput_processSide now)
  | failOutput error => exact unread (s.failOutput_processSide now error)
  | readLog chunk => exact unread (s.readLog_processSide now chunk)
  | closeLog => exact unread (s.closeLog_processSide now)
  | hangRings generation => exact plain (s.onHang_inputSide now generation)
  | idleRings generation => exact plain (s.onIdle_inputSide now generation)
  | killDue => exact plain (s.onKillDue_inputSide now)
  | obey => exact plain s.obey_inputSide
  | processExits status => exact plain (s.processExits_inputSide now status)
  | finishDraining => exact plain (s.finishDraining_inputSide now)

theorem step_writing (action : Step) : (s.step now action).writing = s.nextWrite action :=
  congrArg InputSide.writing (s.step_inputSide now action)

theorem step_written (action : Step) :
    (s.step now action).written = s.written ++ s.intake action :=
  congrArg InputSide.written (s.step_inputSide now action)

end Input

end AgentHost.Supervisor
