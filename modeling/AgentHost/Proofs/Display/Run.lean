import AgentHost.Display.Scheduler
import AgentHost.Proofs.TimerLaws
import AgentHost.Proofs.Transition

namespace AgentHost.Display

def Action.streamed? : Action → Option String
  | .streamText text => some text
  | _ => none

namespace Scheduler

variable {s s' : Scheduler}

def start (settings : DisplaySettings) (label : String → Json → String) : Scheduler :=
  { settings, label }

namespace Step

def startsTool : Step → Bool
  | .handle (.toolStart _ _) => true
  | _ => false

def endsTool : Step → Bool
  | .handle .toolEnd => true
  | _ => false

def concludes : Step → Bool
  | .handle (.textFinal _) => true
  | _ => false

def text : Step → String
  | .handle (.textDelta text) => text
  | _ => ""

end Step

def receives (s : Scheduler) (action : Step) : String := if s.disposed then "" else action.text

def discards (s : Scheduler) (action : Step) : Bool :=
  !s.disposed && (action.startsTool || action.concludes ||
    (action.endsTool && s.phase == .toolActive))

inductive Took (now : Nat) (s : Scheduler) : Step → Scheduler → Prop where
  | began (text : String) (live : s.disposed = false) (idle : s.phase = .idle) :
      Took now s (.handle (.textDelta text))
        { s with
          buffer := s.buffer ++ text
          phase := .bufferingText
          flush := s.flush.arm now s.settings.flushDelayMs }
  | held (text : String) (live : s.disposed = false)
      (holding : s.phase = .bufferingText ∨ s.phase = .toolActive) :
      Took now s (.handle (.textDelta text)) { s with buffer := s.buffer ++ text }
  | streamed (text : String) (live : s.disposed = false) (streaming : s.phase = .streamingFinal) :
      Took now s (.handle (.textDelta text)) (s.present (.streamText text))
  | concluded (text : String) (live : s.disposed = false) :
      Took now s (.handle (.textFinal text)) ((s.discard .streamingFinal).present (.setFinal text))
  | toolStarted (name : String) (input : Json) (live : s.disposed = false) :
      Took now s (.handle (.toolStart name input))
        ((s.discard .toolActive).present (.showActivity (s.label name input)))
  | toolEnded (live : s.disposed = false) (working : s.phase = .toolActive) :
      Took now s (.handle .toolEnd)
        { s with
          buffer := ""
          phase := .bufferingText
          flush := s.flush.arm now s.settings.postToolDelayMs }
  | released (generation : Nat) (live : s.disposed = false)
      (current : s.flush.isCurrent generation = true) (holding : s.phase = .bufferingText) :
      Took now s (.flushRings generation) { s with flush := (s.flush.take generation).2 }.release
  | quiet {action : Step} {flush : Timer} {disposed : Bool} (keeps : s.discards action = false)
      (silent : s.receives action = "") (timer : flush = s.flush ∨ s.flush.Released flush)
      (lasting : s.disposed = true → disposed = true) :
      Took now s action { s with flush, disposed }

theorem discards_disposed (disposed : s.disposed = true) (action : Step) :
    s.discards action = false := by
  rw [discards, disposed, Bool.not_true, Bool.false_and]

theorem receives_disposed (disposed : s.disposed = true) (action : Step) :
    s.receives action = "" := if_pos disposed

theorem receives_textless {action : Step} (textless : action.text = "") :
    s.receives action = "" := by
  rw [receives, textless, ite_self]

theorem handle_took (s : Scheduler) (now : Nat) (event : Event) :
    s.Took now (.handle event) (s.handle now event) := by
  unfold handle
  split
  · next disposed =>
    exact .quiet (discards_disposed disposed _) (receives_disposed disposed _) (.inl rfl) id
  · next undisposed =>
    have live := Bool.eq_false_iff.mpr undisposed
    cases event with
    | textDelta text =>
      simp only [react, onText]
      split
      · exact .began text live ‹_›
      · exact .held text live (.inl ‹_›)
      · exact .held text live (.inr ‹_›)
      · exact .streamed text live ‹_›
    | textFinal text => exact .concluded text live
    | toolStart name input => exact .toolStarted name input live
    | toolEnd =>
      simp only [react, onToolEnd]
      split
      · exact .toolEnded live ‹_›
      · next idle =>
        have keeps : s.discards (.handle .toolEnd) = false := by
          simp [discards, Step.startsTool, Step.concludes, idle]
        exact .quiet keeps (receives_textless rfl) (.inl rfl) id
    | error _ | done =>
      exact .quiet (Bool.and_false _) (receives_textless rfl) (.inr s.flush.cancel_released) id
    | imageData _ | logLine _ _ =>
      exact .quiet (Bool.and_false _) (receives_textless rfl) (.inl rfl) id

theorem onFlush_took (s : Scheduler) (now generation : Nat) :
    s.Took now (.flushRings generation) (s.onFlush generation) := by
  have keeps : s.discards (.flushRings generation) = false := Bool.and_false _
  unfold onFlush
  split
  · exact .quiet keeps (receives_textless rfl) (.inl rfl) id
  · next undisposed =>
    have live := Bool.eq_false_iff.mpr undisposed
    rcases s.flush.take_cases generation with ⟨current, taken, released⟩ | ⟨_, stale⟩
    · simp only [taken, Bool.true_and, decide_eq_true_eq]
      split
      · exact .released generation live current ‹_›
      · exact .quiet keeps (receives_textless rfl) (.inr released) id
    · simp only [stale]
      exact .quiet keeps (receives_textless rfl) (.inl rfl) id

theorem step_took (s : Scheduler) (now : Nat) (action : Step) :
    s.Took now action (s.step (now, action)) := by
  cases action with
  | handle event => exact s.handle_took now event
  | flushRings generation => exact s.onFlush_took now generation
  | dispose =>
    exact .quiet (Bool.and_false _) (receives_textless rfl) (.inr s.flush.cancel_released)
      fun _ => rfl

def shownTo (s s' : Scheduler) : List Action := s'.shown.drop s.shown.length

def streamedTo (s s' : Scheduler) : List String := (s.shownTo s').filterMap Action.streamed?

theorem shownTo_same (same : s'.shown = s.shown) : s.shownTo s' = [] := by
  rw [shownTo, same, List.drop_length]

theorem shownTo_present (same : s'.shown = s.shown) (action : Action) :
    s.shownTo (s'.present action) = [action] := by
  rw [shownTo, present, same, List.drop_left]

theorem shownTo_release (same : s'.shown = s.shown) :
    s.shownTo s'.release = if s'.buffer.isEmpty then [] else [.streamText s'.buffer] := by
  unfold release
  split
  · exact shownTo_same same
  · exact shownTo_present same _

theorem Took.shown {now : Nat} {action : Step} (took : s.Took now action s') :
    s'.shown = s.shown ++ s.shownTo s' := by
  have grows : s.shown <+: s'.shown := by
    cases took with
    | streamed | concluded | toolStarted => exact List.prefix_append _ _
    | began | held | toolEnded | quiet => exact List.prefix_refl _
    | released =>
      unfold release
      split
      · exact List.prefix_refl _
      · exact List.prefix_append _ _
  exact (List.prefix_iff_eq_append.mp grows).symm

@[simp] theorem release_phase (s : Scheduler) : s.release.phase = .streamingFinal := by
  unfold release
  split <;> rfl

@[simp] theorem release_buffer (s : Scheduler) : s.release.buffer = "" := by
  unfold release
  split <;> rfl

@[simp] theorem release_flush (s : Scheduler) : s.release.flush = s.flush := by
  unfold release
  split <;> rfl

@[simp] theorem release_settings (s : Scheduler) : s.release.settings = s.settings := by
  unfold release
  split <;> rfl

theorem Took.streamed_cases {now : Nat} {action : Step} (took : s.Took now action s')
    (streams : s.streamedTo s' ≠ []) : s.disposed = false ∧ s'.phase = .streamingFinal ∧
      (s.phase = .streamingFinal ∨ s.phase = .bufferingText ∧
        ∃ generation, action = .flushRings generation ∧ s.flush.isCurrent generation = true) := by
  unfold streamedTo at streams
  cases took with
  | streamed text live streaming => exact ⟨live, streaming, .inl streaming⟩
  | released generation live current holding =>
    exact ⟨live, release_phase _, .inr ⟨holding, generation, rfl, current⟩⟩
  | concluded | toolStarted => exact absurd (congrArg _ (shownTo_present rfl _)) streams
  | began | held | toolEnded | quiet => exact absurd (congrArg _ (shownTo_same rfl)) streams

theorem Took.still_streaming {now : Nat} {action : Step} (took : s.Took now action s')
    (keeps : s.discards action = false) (streaming : s.phase = .streamingFinal) :
    s'.phase = .streamingFinal := by
  cases took with
  | began _ _ idle => rw [idle] at streaming; contradiction
  | concluded => rfl
  | released => exact release_phase _
  | toolStarted _ _ live => simp [discards, live, Step.startsTool] at keeps
  | toolEnded live working => rw [working] at streaming; contradiction
  | held | streamed | quiet => exact streaming

abbrev Change := Transition Scheduler (Nat × Step)

def changes (s : Scheduler) (steps : List (Nat × Step)) : List Change :=
  Transition.ofRun step s steps

namespace Change

def time (change : Change) : Nat := change.action.1

def step (change : Change) : Step := change.action.2

def shown (change : Change) : List Action := change.before.shownTo change.after

def streamed (change : Change) : List String := change.before.streamedTo change.after

end Change

end Scheduler

end AgentHost.Display
