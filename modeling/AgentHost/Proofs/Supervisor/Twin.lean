import AgentHost.Proofs.Supervisor.Coherence

namespace AgentHost.Supervisor

variable {s other third : Supervisor}

def withTimers (s : Supervisor) (hang idle : Timer) : Supervisor := { s with hang, idle }

section Fields

variable (s : Supervisor) (hang idle : Timer)

@[simp] theorem withTimers_state : (s.withTimers hang idle).state = s.state := rfl

@[simp] theorem withTimers_decoder : (s.withTimers hang idle).decoder = s.decoder := rfl

@[simp] theorem withTimers_turn : (s.withTimers hang idle).turn = s.turn := rfl

@[simp] theorem withTimers_inputHeld : (s.withTimers hang idle).inputHeld = s.inputHeld := rfl

@[simp] theorem withTimers_writing : (s.withTimers hang idle).writing = s.writing := rfl

@[simp] theorem withTimers_killDue : (s.withTimers hang idle).killDue = s.killDue := rfl

@[simp] theorem withTimers_observer : (s.withTimers hang idle).observer = s.observer := rfl

@[simp] theorem withTimers_requests : (s.withTimers hang idle).requests = s.requests := rfl

@[simp] theorem withTimers_obeyed : (s.withTimers hang idle).obeyed = s.obeyed := rfl

@[simp] theorem withTimers_outputOpen : (s.withTimers hang idle).outputOpen = s.outputOpen := rfl

@[simp] theorem withTimers_logOpen : (s.withTimers hang idle).logOpen = s.logOpen := rfl

@[simp] theorem withTimers_isLaunched : (s.withTimers hang idle).isLaunched = s.isLaunched := rfl

end Fields

structure Alike (s other : Supervisor) : Prop where
  rest : other = s.withTimers other.hang other.idle
  hang : s.hang.Alike other.hang
  idle : s.idle.Alike other.idle

/-- The two states differ only in the numbers of their timer armings, and keep doing so. -/
structure Twin (s other : Supervisor) : Prop where
  rest : other = s.withTimers other.hang other.idle
  hang : s.hang.Twin other.hang
  idle : s.idle.Twin other.idle

theorem twin_withTimers (s : Supervisor) {hang idle : Timer} (hangs : s.hang.Twin hang)
    (idles : s.idle.Twin idle) : s.Twin (s.withTimers hang idle) := ⟨rfl, hangs, idles⟩

def Untimed (change : Supervisor → Supervisor) : Prop :=
  ∀ s hang idle, change (s.withTimers hang idle) = (change s).withTimers hang idle

namespace Untimed

variable {change : Supervisor → Supervisor}

theorem hang (untimed : Untimed change) (s : Supervisor) : (change s).hang = s.hang :=
  congrArg (·.hang) (untimed s s.hang s.idle)

theorem idle (untimed : Untimed change) (s : Supervisor) : (change s).idle = s.idle :=
  congrArg (·.idle) (untimed s s.hang s.idle)

end Untimed

namespace Twin

theorem alike (twin : s.Twin other) : s.Alike other := ⟨twin.rest, twin.hang.alike, twin.idle.alike⟩

theorem exists_timers (twin : s.Twin other) : ∃ hang idle, other = s.withTimers hang idle ∧
    s.hang.Twin hang ∧ s.idle.Twin idle := ⟨_, _, twin.rest, twin.hang, twin.idle⟩

theorem refl (coherent : s.Coherent) : s.Twin s := ⟨rfl, .refl coherent.hang, .refl coherent.idle⟩

theorem symm (twin : s.Twin other) : other.Twin s := by
  refine ⟨?_, twin.hang.symm, twin.idle.symm⟩
  rw [twin.rest]
  rfl

theorem trans (first : s.Twin other) (second : other.Twin third) : s.Twin third := by
  refine ⟨?_, first.hang.trans second.hang, first.idle.trans second.idle⟩
  rw [second.rest, first.rest]
  rfl

theorem state (twin : s.Twin other) : other.state = s.state := congrArg (·.state) twin.rest

theorem events (twin : s.Twin other) (call : Nat) : other.events call = s.events call :=
  congrArg (·.events call) twin.rest

theorem untimed {change : Supervisor → Supervisor} (untimed : Untimed change)
    (twin : s.Twin other) : (change s).Twin (change other) := by
  obtain ⟨hang, idle, rfl, hangs, idles⟩ := twin.exists_timers
  rw [untimed]
  exact twin_withTimers _ (untimed.hang s ▸ hangs) (untimed.idle s ▸ idles)

end Twin

theorem note_untimed (notice : Notice) : Untimed (·.note notice) := fun _ _ _ => rfl

theorem changeTurn_untimed (change : Turn → Turn) : Untimed (·.changeTurn change) :=
  fun _ _ _ => rfl

theorem closeTurn_untimed (last : Turn → Turn) : Untimed (·.closeTurn last) := by
  intro s hang idle
  dsimp only
  rw [closeTurn_eq, closeTurn_eq]
  rfl

theorem reject_untimed (message : String) : Untimed (·.reject message) := fun _ _ _ => rfl

theorem acceptInput_untimed (count : Nat) : Untimed (·.acceptInput count) := by
  intro s hang idle
  simp only [acceptInput, withTimers_writing]
  cases s.writing <;> rfl

theorem finishWrite_untimed : Untimed finishWrite := by
  intro s hang idle
  simp only [finishWrite, withTimers_writing]
  split <;> rfl

theorem onKillDue_untimed (now : Nat) : Untimed (·.onKillDue now) := by
  intro s hang idle
  simp only [onKillDue, withTimers_killDue]
  cases s.killDue with
  | none => rfl
  | some due =>
    dsimp only
    split <;> rfl

theorem obey_untimed : Untimed obey := by
  intro s hang idle
  simp only [obey, withTimers_observer, withTimers_requests, withTimers_obeyed]
  split <;> rfl

theorem processExits_untimed (now : Nat) (status : ExitStatus) :
    Untimed (·.processExits now status) := by
  intro s hang idle
  cases watching : s.observer == .watching <;>
    simp only [processExits, withTimers_observer, watching, if_true, if_false, Bool.false_eq_true]
  rfl

theorem askToEnd_untimed (now : Nat) (urgency : Urgency) : Untimed (·.askToEnd now urgency) := by
  intro s hang idle
  cases launched : s.isLaunched <;>
    simp only [askToEnd, withTimers_isLaunched, launched, if_true, if_false, Bool.false_eq_true]
  · rfl
  · cases urgency <;> rfl

theorem logLine_untimed (line : String) : Untimed (·.logLine line) := by
  intro s hang idle
  dsimp only [logLine]
  split <;> rfl

theorem onHang_eq (s : Supervisor) (now generation : Nat) :
    s.onHang now generation =
      let taken := { s with hang := (s.hang.take generation).2 }
      if (s.hang.take generation).1 && s.state == .busy then
        ((taken.note (.hung s.settings.hangTimeoutMs s.pid s.turn.isSome)).terminate now .hang
          .forced).2
      else taken := rfl

theorem onIdle_eq (s : Supervisor) (now generation : Nat) :
    s.onIdle now generation =
      let taken := { s with idle := (s.idle.take generation).2 }
      if (s.idle.take generation).1 && s.state == .idle then
        ((taken.note (.idled s.settings.idleTimeoutMs s.pid)).terminate now .idleTimeout
          .graceful).2
      else taken := rfl

namespace Twin

theorem armHang (twin : s.Twin other) (now : Nat) : (s.armHang now).Twin (other.armHang now) := by
  obtain ⟨hang, idle, rfl, hangs, idles⟩ := twin.exists_timers
  exact twin_withTimers (s.armHang now) (hangs.arm now _) idles

theorem armIdle (twin : s.Twin other) (now : Nat) : (s.armIdle now).Twin (other.armIdle now) := by
  obtain ⟨hang, idle, rfl, hangs, idles⟩ := twin.exists_timers
  exact twin_withTimers (s.armIdle now) hangs (idles.arm now _)

theorem heard (twin : s.Twin other) (now : Nat) : (s.heard now).Twin (other.heard now) := by
  unfold Supervisor.heard
  rw [twin.state]
  split
  · exact twin.armHang now
  · exact twin

theorem shutDown (twin : s.Twin other) (message : String) :
    (s.shutDown message).Twin (other.shutDown message) := by
  obtain ⟨hang, idle, rfl, hangs, idles⟩ := twin.exists_timers
  unfold Supervisor.shutDown
  refine (twin_withTimers _ ?_ ?_).untimed (closeTurn_untimed _)
  · exact hangs.cancel
  · exact idles.cancel

theorem terminate (twin : s.Twin other) (now : Nat) (cause : Cause) (urgency : Urgency) :
    (s.terminate now cause urgency).2.Twin (other.terminate now cause urgency).2 := by
  obtain ⟨hang, idle, rfl, hangs, idles⟩ := twin.exists_timers
  unfold Supervisor.terminate
  rw [twin.state]
  split
  · exact twin
  · have noted := twin.untimed (note_untimed (.terminating cause urgency s.pid s.state))
    exact (noted.shutDown _).untimed (askToEnd_untimed now urgency)

theorem cancelHang (twin : s.Twin other) :
    Twin { s with hang := s.hang.cancel } { other with hang := other.hang.cancel } := by
  obtain ⟨hang, idle, rfl, hangs, idles⟩ := twin.exists_timers
  exact ⟨rfl, hangs.cancel, idles⟩

theorem settle (twin : s.Twin other) (now : Nat) :
    Twin (if s.state = .busy then { s with state := .idle }.armIdle now else s)
      (if other.state = .busy then { other with state := .idle }.armIdle now else other) := by
  rw [twin.state]
  split
  · have idling : Untimed fun s => { s with state := .idle } := fun _ _ _ => rfl
    exact (twin.untimed idling).armIdle now
  · exact twin

theorem completeTurn (twin : s.Twin other) (now : Nat) (record : Json) :
    (s.completeTurn now record).Twin (other.completeTurn now record) := by
  obtain ⟨hang, idle, rfl, _, _⟩ := twin.exists_timers
  unfold Supervisor.completeTurn
  rw [withTimers_turn, withTimers_decoder]
  split
  · exact twin
  · refine (cancelHang (Twin.untimed (closeTurn_untimed _) ?_)).settle now
    cases s.decoder.resultError record with
    | none => exact twin
    | some message => exact twin.untimed (note_untimed _)

theorem handleLine (twin : s.Twin other) (now : Nat) (line : String) :
    (s.handleLine now line).Twin (other.handleLine now line) := by
  obtain ⟨hang, idle, rfl, _, _⟩ := twin.exists_timers
  unfold Supervisor.handleLine
  rw [withTimers_decoder]
  split
  · exact twin
  · cases s.decoder.parseLine line with
    | none => exact twin
    | some record =>
      dsimp only
      split
      · exact twin.completeTurn now record
      · exact twin.untimed (changeTurn_untimed _)

theorem handleLines (twin : s.Twin other) (now : Nat) (lines : List String) :
    (s.handleLines now lines).Twin (other.handleLines now lines) := by
  induction lines generalizing s other with
  | nil => exact twin
  | cons line rest ih => exact ih (twin.handleLine now line)

theorem logLines (twin : s.Twin other) (now : Nat) (lines : List String) :
    (s.logLines now lines).Twin (other.logLines now lines) := by
  unfold Supervisor.logLines
  have heard := twin.heard now
  generalize s.heard now = first at heard ⊢
  generalize other.heard now = second at heard ⊢
  induction lines generalizing first second with
  | nil => exact heard
  | cons line rest ih => exact ih _ _ (heard.untimed (logLine_untimed line))

theorem readOutput (twin : s.Twin other) (now : Nat) (chunk : List UInt8) :
    (s.readOutput now chunk).Twin (other.readOutput now chunk) := by
  obtain ⟨hang, idle, rfl, hangs, idles⟩ := twin.exists_timers
  unfold Supervisor.readOutput
  rw [withTimers_outputOpen]
  split
  · obtain ⟨heardHang, heardIdle, same, heardHangs, heardIdles⟩ := (twin.heard now).exists_timers
    rw [same]
    exact handleLines ⟨rfl, heardHangs, heardIdles⟩ now _
  · exact twin

theorem closeOutput (twin : s.Twin other) (now : Nat) :
    (s.closeOutput now).Twin (other.closeOutput now) := by
  obtain ⟨hang, idle, rfl, hangs, idles⟩ := twin.exists_timers
  unfold Supervisor.closeOutput
  rw [withTimers_outputOpen]
  split
  · exact handleLines ⟨rfl, hangs, idles⟩ now _
  · exact twin

theorem failOutput (twin : s.Twin other) (now : Nat) (error : String) :
    (s.failOutput now error).Twin (other.failOutput now error) := by
  obtain ⟨hang, idle, rfl, hangs, idles⟩ := twin.exists_timers
  unfold Supervisor.failOutput
  rw [withTimers_outputOpen]
  split
  · exact (twin.untimed (note_untimed _)).closeOutput now
  · exact twin

theorem readLog (twin : s.Twin other) (now : Nat) (chunk : List UInt8) :
    (s.readLog now chunk).Twin (other.readLog now chunk) := by
  obtain ⟨hang, idle, rfl, hangs, idles⟩ := twin.exists_timers
  unfold Supervisor.readLog
  rw [withTimers_logOpen]
  split
  · exact logLines ⟨rfl, hangs, idles⟩ now _
  · exact twin

theorem closeLog (twin : s.Twin other) (now : Nat) :
    (s.closeLog now).Twin (other.closeLog now) := by
  obtain ⟨hang, idle, rfl, hangs, idles⟩ := twin.exists_timers
  unfold Supervisor.closeLog
  rw [withTimers_logOpen]
  split
  · exact logLines ⟨rfl, hangs, idles⟩ now _
  · exact twin

theorem spawn (twin : s.Twin other) (now : Nat) (outcome : Except ProcessFault Nat) :
    (s.spawn now outcome).2.Twin (other.spawn now outcome).2 := by
  obtain ⟨hang, idle, rfl, hangs, idles⟩ := twin.exists_timers
  unfold Supervisor.spawn
  rw [withTimers_state]
  split
  · exact twin.untimed (note_untimed _)
  · cases outcome with
    | error fault => exact ⟨rfl, hangs, idles⟩
    | ok pid => exact (Twin.armIdle ⟨rfl, hangs, idles⟩ now).untimed (note_untimed _)

theorem sendTurn (twin : s.Twin other) (now : Nat) (prompt : Prompt) :
    (s.sendTurn now prompt).Twin (other.sendTurn now prompt) := by
  obtain ⟨hang, idle, rfl, hangs, idles⟩ := twin.exists_timers
  unfold Supervisor.sendTurn
  rw [withTimers_state]
  cases s.state with
  | busy | starting | dead => exact twin.untimed (reject_untimed _)
  | idle =>
    dsimp only
    rw [withTimers_inputHeld]
    split
    · exact Twin.armHang ⟨rfl, hangs, idles.cancel⟩ now
    · exact twin.untimed (reject_untimed _)

theorem failWrite (twin : s.Twin other) (now : Nat) (error : String) :
    (s.failWrite now error).Twin (other.failWrite now error) := by
  obtain ⟨hang, idle, rfl, hangs, idles⟩ := twin.exists_timers
  unfold Supervisor.failWrite
  rw [withTimers_writing]
  cases s.writing with
  | none => exact twin
  | some write =>
    have noted : Twin ({ s with writing := none }.note (.writeAborted error))
        ({ s.withTimers hang idle with writing := none }.note (.writeAborted error)) :=
      ⟨rfl, hangs, idles⟩
    exact noted.terminate now _ _

theorem onHang (twin : s.Twin other) (now : Nat) {generation otherGeneration : Nat}
    (same : other.hang.isCurrent otherGeneration = s.hang.isCurrent generation) :
    (s.onHang now generation).Twin (other.onHang now otherGeneration) := by
  obtain ⟨hang, idle, rfl, hangs, idles⟩ := twin.exists_timers
  obtain ⟨taken, kept⟩ := hangs.take same
  rw [onHang_eq, onHang_eq, show ((s.withTimers hang idle).hang.take otherGeneration).1 = _ from taken,
    withTimers_state]
  have next : Twin { s with hang := (s.hang.take generation).2 }
      { s.withTimers hang idle with hang := (hang.take otherGeneration).2 } := ⟨rfl, kept, idles⟩
  dsimp only
  split
  · exact (next.untimed (note_untimed _)).terminate now _ _
  · exact next

theorem onIdle (twin : s.Twin other) (now : Nat) {generation otherGeneration : Nat}
    (same : other.idle.isCurrent otherGeneration = s.idle.isCurrent generation) :
    (s.onIdle now generation).Twin (other.onIdle now otherGeneration) := by
  obtain ⟨hang, idle, rfl, hangs, idles⟩ := twin.exists_timers
  obtain ⟨taken, kept⟩ := idles.take same
  rw [onIdle_eq, onIdle_eq, show ((s.withTimers hang idle).idle.take otherGeneration).1 = _ from taken,
    withTimers_state]
  have next : Twin { s with idle := (s.idle.take generation).2 }
      { s.withTimers hang idle with idle := (idle.take otherGeneration).2 } := ⟨rfl, hangs, kept⟩
  dsimp only
  split
  · exact (next.untimed (note_untimed _)).terminate now _ _
  · exact next

theorem onExit (twin : s.Twin other) (status : ExitStatus) :
    (s.onExit status).Twin (other.onExit status) := by
  obtain ⟨hang, idle, rfl, hangs, idles⟩ := twin.exists_timers
  have ended : Untimed fun next => { next with
      observer := .finished
      exited := true
      hook := false
      cleanups := s.cleanups + if s.hook then 1 else 0 } := fun _ _ _ => rfl
  unfold Supervisor.onExit
  refine Twin.untimed ended (shutDown ?_ _)
  rw [withTimers_turn]
  have noted := twin.untimed (note_untimed (.exited status s.pid))
  split
  · exact noted.untimed (note_untimed _)
  · exact noted

theorem finishDraining (twin : s.Twin other) (now : Nat) :
    (s.finishDraining now).Twin (other.finishDraining now) := by
  obtain ⟨hang, idle, rfl, hangs, idles⟩ := twin.exists_timers
  unfold Supervisor.finishDraining
  rw [withTimers_observer]
  cases s.observer with
  | draining status deadline =>
    dsimp only
    rw [withTimers_outputOpen]
    split
    · exact twin.onExit status
    · exact twin
  | absent | watching | finished => exact twin

end Twin

inductive Matches (s other : Supervisor) : Step → Step → Prop where
  | same {action : Step} (hang : ∀ generation, action ≠ .hangRings generation)
      (idle : ∀ generation, action ≠ .idleRings generation) : Matches s other action action
  | hangRings {generation otherGeneration : Nat}
      (same : other.hang.isCurrent otherGeneration = s.hang.isCurrent generation) :
      Matches s other (.hangRings generation) (.hangRings otherGeneration)
  | idleRings {generation otherGeneration : Nat}
      (same : other.idle.isCurrent otherGeneration = s.idle.isCurrent generation) :
      Matches s other (.idleRings generation) (.idleRings otherGeneration)

theorem Alike.exists_matching (alike : s.Alike other) (action : Step) :
    ∃ otherAction, s.Matches other action otherAction := by
  cases action with
  | hangRings generation =>
    obtain ⟨like, same⟩ := alike.hang.exists_like generation
    exact ⟨_, .hangRings same⟩
  | idleRings generation =>
    obtain ⟨like, same⟩ := alike.idle.exists_like generation
    exact ⟨_, .idleRings same⟩
  | _ => exact ⟨_, .same (by simp) (by simp)⟩

theorem Twin.step (twin : s.Twin other) {action otherAction : Step}
    (matching : s.Matches other action otherAction) (now : Nat) :
    (s.step now action).Twin (other.step now otherAction) := by
  cases matching with
  | hangRings same => exact twin.onHang now same
  | idleRings same => exact twin.onIdle now same
  | same hang idle =>
    cases action with
    | spawn outcome => exact twin.spawn now outcome
    | sendTurn prompt => exact twin.sendTurn now prompt
    | kill | forceKill | drop => exact twin.terminate now _ _
    | acceptInput count => exact twin.untimed (acceptInput_untimed count)
    | finishWrite => exact twin.untimed finishWrite_untimed
    | failWrite error => exact twin.failWrite now error
    | readOutput chunk => exact twin.readOutput now chunk
    | closeOutput => exact twin.closeOutput now
    | failOutput error => exact twin.failOutput now error
    | readLog chunk => exact twin.readLog now chunk
    | closeLog => exact twin.closeLog now
    | hangRings generation => exact absurd rfl (hang generation)
    | idleRings generation => exact absurd rfl (idle generation)
    | killDue => exact twin.untimed (onKillDue_untimed now)
    | obey => exact twin.untimed obey_untimed
    | processExits status => exact twin.untimed (processExits_untimed now status)
    | finishDraining => exact twin.finishDraining now

end AgentHost.Supervisor
