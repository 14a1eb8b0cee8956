import AgentHost.Proofs.Display.Run
import AgentHost.Proofs.Supervisor.Armings
import AgentHost.Proofs.TimerHistory

namespace AgentHost

namespace Display.Scheduler

def Step.hushes : Step → Bool
  | .handle (.toolStart _ _) | .handle (.textFinal _) | .handle (.error _) | .handle .done => true
  | .dispose => true
  | _ => false

def eventUses (s : Scheduler) (now : Nat) : Event → List Timer.Use
  | .textDelta _ => if s.phase = .idle then [.arm now s.settings.flushDelayMs] else []
  | .toolEnd => if s.phase = .toolActive then [.arm now s.settings.postToolDelayMs] else []
  | .textFinal _ | .toolStart _ _ | .error _ | .done => [.cancel]
  | .imageData _ | .logLine _ _ => []

def flushUses (s : Scheduler) : Nat × Step → List Timer.Use
  | (now, .handle event) => if s.disposed then [] else s.eventUses now event
  | (_, .flushRings generation) => if s.disposed then [] else [.take generation]
  | (_, .dispose) => [.cancel]

def Change.flushUses (change : Change) : List Timer.Use := change.before.flushUses change.action

theorem react_flush (s : Scheduler) (now : Nat) (event : Event) :
    (s.react now event).flush = s.flush.after (s.eventUses now event) := by
  cases event with
  | textDelta text =>
    simp only [react, onText, eventUses]
    cases s.phase <;> rfl
  | toolEnd =>
    simp only [react, onToolEnd, eventUses]
    split <;> rfl
  | textFinal _ | toolStart _ _ | error _ | done | imageData _ | logLine _ _ => rfl

theorem step_flush (s : Scheduler) (action : Nat × Step) :
    (s.step action).flush = s.flush.after (s.flushUses action) := by
  obtain ⟨now, action⟩ := action
  cases action with
  | handle event =>
    simp only [step, handle, flushUses]
    split
    · rfl
    · exact s.react_flush now event
  | flushRings generation =>
    simp only [step, onFlush, flushUses]
    split
    · rfl
    · split
      · exact release_flush _
      · rfl
  | dispose => rfl

theorem onFlush_of_stale {s : Scheduler} {generation : Nat}
    (stale : s.flush.isCurrent generation = false) : s.onFlush generation = s := by
  simp [onFlush, Timer.take, stale]

structure Armed (s : Scheduler) (past : List Change) : Prop where
  used : s.flush = Timer.after {} (past.flatMap Change.flushUses)
  live : s.flush.held = true → s.disposed = false
  since : s.flush.held = true → ∃ earlier change later, past = earlier ++ change :: later ∧
    Timer.armings change.flushUses = 1 ∧
    s.flush.generation = Timer.armings (earlier.flatMap Change.flushUses) + 1 ∧
    ∀ other ∈ later, other.step.hushes = false

section Step

variable {s : Scheduler} {past : List Change}

theorem react_disposed (s : Scheduler) (now : Nat) (event : Event) :
    (s.react now event).disposed = s.disposed := by
  cases event with
  | textDelta text =>
    simp only [react, onText]
    cases s.phase <;> rfl
  | toolEnd =>
    simp only [react, onToolEnd]
    split <;> rfl
  | textFinal _ | toolStart _ _ | error _ | done | imageData _ | logLine _ _ => rfl

theorem eventUses_cases (s : Scheduler) (now : Nat) (event : Event) :
    (∃ delay, s.eventUses now event = [.arm now delay]) ∨ s.eventUses now event = [.cancel] ∨
      (s.eventUses now event = [] ∧ (Step.handle event).hushes = false) := by
  cases event with
  | textDelta text =>
    simp only [eventUses]
    split
    · exact .inl ⟨_, rfl⟩
    · exact .inr (.inr ⟨rfl, rfl⟩)
  | toolEnd =>
    simp only [eventUses]
    split
    · exact .inl ⟨_, rfl⟩
    · exact .inr (.inr ⟨rfl, rfl⟩)
  | textFinal _ | toolStart _ _ | error _ | done => exact .inr (.inl rfl)
  | imageData _ | logLine _ _ => exact .inr (.inr ⟨rfl, rfl⟩)

/-- A timer that is armed after a step was armed in that step or has not been touched by it. -/
theorem held_cases {action : Nat × Step} (live : s.flush.held = true → s.disposed = false)
    (held : (s.step action).flush.held = true) : (s.step action).disposed = false ∧
      (Timer.armings (s.flushUses action) = 1 ∨
      (s.flush.held = true ∧ (s.step action).flush.generation = s.flush.generation ∧
        action.2.hushes = false)) := by
  obtain ⟨now, action⟩ := action
  cases action with
  | dispose =>
    have freed := s.flush.cancel_released.held
    exact absurd (freed.symm.trans held) (by simp)
  | flushRings generation =>
    by_cases current : s.flush.isCurrent generation = true
    · have open' := live (Timer.held_of_current current)
      have freed : (s.onFlush generation).flush.held = false := by
        change (s.step (now, .flushRings generation)).flush.held = false
        rw [step_flush]
        simp [flushUses, open', Timer.after, Timer.use, Timer.take, current]
      exact absurd (freed.symm.trans held) (by simp)
    · -- an alarm that is not current leaves everything as it was
      have same : s.step (now, .flushRings generation) = s :=
        onFlush_of_stale (Bool.eq_false_iff.mpr current)
      rw [same] at held ⊢
      exact ⟨live held, .inr ⟨held, rfl, rfl⟩⟩
  | handle event =>
    by_cases disposed : s.disposed = true
    · have same : s.step (now, .handle event) = s := if_pos disposed
      rw [same] at held
      exact absurd disposed (by simp [live held])
    · have same : s.step (now, .handle event) = s.react now event := if_neg disposed
      have uses : s.flushUses (now, .handle event) = s.eventUses now event := if_neg disposed
      have flush := s.react_flush now event
      rw [same] at held ⊢
      rw [uses, react_disposed]
      refine ⟨Bool.eq_false_iff.mpr disposed, ?_⟩
      rcases s.eventUses_cases now event with ⟨delay, arms⟩ | cancels | ⟨leaves, goesOn⟩
      · exact .inl (by rw [arms]; rfl)
      · rw [cancels] at flush
        have freed : (s.react now event).flush.held = false := by
          rw [flush]
          exact s.flush.cancel_released.held
        exact absurd (freed.symm.trans held) (by simp)
      · rw [leaves] at flush
        rw [flush] at held ⊢
        exact .inr ⟨held, rfl, goesOn⟩

theorem Armed.step (armed : s.Armed past) (action : Nat × Step) :
    (s.step action).Armed (past ++ [⟨action, s, s.step action⟩]) where
  used := by
    rw [step_flush, armed.used, List.flatMap_append, Timer.after_append]
    simp [Change.flushUses]
  live held := (held_cases armed.live held).1
  since held := by
    rcases (held_cases armed.live held).2 with arms | ⟨was, number, goesOn⟩
    · refine ⟨past, ⟨action, s, s.step action⟩, [], rfl, arms, ?_, by simp⟩
      rw [step_flush, Timer.after_generation, arms, armed.used, Timer.after_generation]
      exact congrArg (· + 1) (Nat.zero_add _)
    · obtain ⟨earlier, change, later, split, arms, counted, hushed⟩ := armed.since was
      refine ⟨earlier, change, later ++ [⟨action, s, s.step action⟩], by simp [split], arms,
        number.trans counted, fun other member => ?_⟩
      rcases List.mem_append.mp member with member | member
      · exact hushed other member
      · rw [List.mem_singleton.mp member]
        exact goesOn

end Step

theorem run_armed (settings : DisplaySettings) (label : String → Json → String)
    (steps : List (Nat × Step)) :
    ((start settings label).after steps).Armed ((start settings label).changes steps) :=
  Transition.run_induction Armed ⟨rfl, by simp [start], by simp [start]⟩
    (fun _ _ action armed => armed.step action) steps

structure HeedsLatest (s : Scheduler) (past : List Change) : Prop where
  flush : ∀ generation, s.flush.isCurrent generation = true ↔
    Timer.Open (past.flatMap Change.flushUses) generation
  stale : ∀ generation, ¬ Timer.Open (past.flatMap Change.flushUses) generation →
    s.onFlush generation = s
  /-- If an alarm has an effect, no step since its arming has silenced the text. -/
  flushed : ∀ generation, s.onFlush generation ≠ s → ∃ earlier change later,
    past = earlier ++ change :: later ∧ Timer.armings change.flushUses = 1 ∧
    generation = Timer.armings (earlier.flatMap Change.flushUses) + 1 ∧
    ∀ other ∈ later, other.step.hushes = false

theorem heeds_of_run (settings : DisplaySettings) (label : String → Json → String)
    (steps : List (Nat × Step)) : ((start settings label).after steps).HeedsLatest
      ((start settings label).changes steps) := by
  let s := (start settings label).after steps
  let past := (start settings label).changes steps
  have armed : s.Armed past := run_armed settings label steps
  have flush (generation : Nat) : s.flush.isCurrent generation = true ↔
      Timer.Open (past.flatMap Change.flushUses) generation := by
    rw [armed.used]
    exact Timer.isCurrent_iff_open _ generation
  have stale (generation : Nat) (unheeded : s.flush.isCurrent generation ≠ true) :
      s.onFlush generation = s := onFlush_of_stale (Bool.eq_false_iff.mpr unheeded)
  refine ⟨flush, fun generation closed => stale generation (mt (flush generation).mp closed), ?_⟩
  intro generation changed
  have current : s.flush.isCurrent generation = true := by
    by_contra unheeded
    exact changed (stale generation unheeded)
  obtain ⟨held, number⟩ := Timer.isCurrent_iff.mp current
  obtain ⟨earlier, change, later, split, arms, counted, hushed⟩ := armed.since held
  exact ⟨earlier, change, later, split, arms, number.symm.trans counted, hushed⟩

end Display.Scheduler

/-- An alarm has an effect only if it belongs to the latest arming and that has been neither
    cancelled nor taken, however late the alarm is. No arming is taken twice. -/
theorem latest_alarms_heeded :
    (∀ uses generation, (Timer.after {} uses).isCurrent generation = true ↔
      Timer.Open uses generation) ∧
    (∀ (timer : Timer) generation uses, (timer.take generation).1 = true →
      (((timer.take generation).2.after uses).take generation).1 = false) ∧
    (∀ settings decoder hook steps,
      ((Supervisor.start settings decoder hook).after steps).HeedsLatest
        ((Supervisor.start settings decoder hook).moments steps)) ∧
    ∀ settings label steps,
      ((Display.Scheduler.start settings label).after steps).HeedsLatest
        ((Display.Scheduler.start settings label).changes steps) :=
  ⟨Timer.isCurrent_iff_open, fun _ _ uses taken => Timer.taken_once taken uses,
    Supervisor.heeds_of_run, Display.Scheduler.heeds_of_run⟩

end AgentHost
