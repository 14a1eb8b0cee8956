import AgentHost.Proofs.Display.Armings
import AgentHost.Proofs.Supervisor.TurnBounds

namespace AgentHost

def Event.final? : Event → Option String
  | .textFinal text => some text
  | _ => none

/-- Only `done` can follow an outcome or `done`. -/
theorem StreamSoFar.done_of_ended {before : List Event} {event : Event}
    (sent : StreamSoFar (before ++ [event])) (ended : ∃ past ∈ before, past.isProgress = false) :
    event = .done := by
  obtain ⟨past, member, _⟩ := ended
  obtain ⟨earlier, later, rfl⟩ := List.append_of_mem member
  rw [List.append_assoc, List.cons_append] at sent
  by_cases outcome : past.isOutcome = true
  · have rest := sent.done_after_outcome outcome
    cases later with
    | nil => simpa using rest.eq_of_length rfl
    | cons _ later => simpa using rest.length_le
  · have done : past = .done := by
      cases past <;> simp_all [Event.isProgress, Event.isOutcome]
    rw [done] at sent
    simpa using sent.nothing_after_done

theorem StreamSoFar.before {earlier later : List Event} (sent : StreamSoFar (earlier ++ later)) :
    StreamSoFar earlier := by
  obtain ⟨word, whole, more⟩ := sent
  exact ⟨word, whole, (List.prefix_append _ _).trans more⟩

/-- A turn has at most one final text. -/
theorem StreamSoFar.finals {events : List Event} (sent : StreamSoFar events) {text : String}
    (member : .textFinal text ∈ events) : events.filterMap Event.final? = [text] := by
  obtain ⟨earlier, later, rfl⟩ := List.append_of_mem member
  have ahead : earlier.filterMap Event.final? = [] := by
    rw [List.filterMap_eq_nil_iff]
    intro event among
    have start : StreamSoFar (earlier ++ [.textFinal text]) := by
      rw [List.append_cons] at sent
      exact sent.before
    cases event with
    | textFinal other => simpa using start.done_of_ended ⟨_, among, rfl⟩
    | _ => rfl
  have rest : later.filterMap Event.final? = [] := by
    have only := sent.done_after_outcome rfl
    rw [List.filterMap_eq_nil_iff]
    intro event among
    rw [List.mem_singleton.mp (only.subset among)]
    rfl
  rw [List.filterMap_append, ahead, List.filterMap_cons, rest]
  rfl

theorem Supervisor.run_so_far (settings : AgentSettings) (decoder : Decoder) (hook : Bool)
    (steps : List (Nat × Supervisor.Step)) (call : Nat) :
    StreamSoFar (((Supervisor.start settings decoder hook).after steps).events call) := by
  have coherent := run_coherent settings decoder hook steps
  have streams := run_streams settings decoder hook steps
  by_cases current : ∃ turn, ((start settings decoder hook).after steps).turn = some (call, turn)
  · obtain ⟨turn, current⟩ := current
    rw [events_of_turn current]
    exact .of_progress (coherent.live call turn current).progress
  · by_cases called : call < ((start settings decoder hook).after steps).calls
    · exact (streams.whole called fun turn same => current ⟨turn, same⟩).so_far
    · rw [streams.events_ahead (Nat.le_of_not_lt called)]
      exact .of_progress (by simp)

namespace Display

def Action.final? : Action → Option String
  | .setFinal text => some text
  | _ => none

namespace Scheduler

variable {s : Scheduler} {heard : List Event}

namespace Step

def event? : Step → Option Event
  | .handle event => some event
  | _ => none

def disposes : Step → Bool
  | .dispose => true
  | _ => false

end Step

def handled (steps : List (Nat × Step)) : List Event := steps.filterMap fun (_, action) => action.event?

structure Driven (s : Scheduler) (heard : List Event) : Prop where
  live : s.disposed = false
  finals : s.shown.filterMap Action.final? = heard.filterMap Event.final?
  hushed : (∃ event ∈ heard, event.isProgress = false) → s.flush.held = false
  last : ∀ text, .textFinal text ∈ heard → s.shown.getLast? = some (.setFinal text)

theorem handled_snoc (steps : List (Nat × Step)) (now : Nat) (action : Step) :
    handled (steps ++ [(now, action)]) = handled steps ++ action.event?.toList := by
  unfold handled
  rw [List.filterMap_append]
  cases action <;> rfl

theorem react_finals (s : Scheduler) (now : Nat) (event : Event) :
    (s.react now event).shown.filterMap Action.final? =
      s.shown.filterMap Action.final? ++ event.final?.toList := by
  cases event with
  | textDelta text =>
    simp only [react, onText]
    cases s.phase <;> simp [present, Action.final?, Event.final?]
  | toolEnd =>
    simp only [react, onToolEnd]
    split <;> simp [Event.final?]
  | textFinal | toolStart | error | done | imageData | logLine =>
    simp [react, present, discard, Action.final?, Event.final?]

theorem react_hushed (s : Scheduler) (now : Nat) {event : Event} (ends : event.isProgress = false) :
    (s.react now event).flush.held = false := by
  have freed := s.flush.cancel_released.held
  cases event with
  | textFinal | error | done => exact freed
  | textDelta | toolStart | toolEnd | imageData | logLine => simp [Event.isProgress] at ends

theorem release_finals (s : Scheduler) :
    s.release.shown.filterMap Action.final? = s.shown.filterMap Action.final? := by
  unfold release
  split
  · rfl
  · simp [present, Action.final?]

theorem Driven.handle (driven : s.Driven heard) (now : Nat) {event : Event}
    (sent : StreamSoFar (heard ++ [event])) : (s.handle now event).Driven (heard ++ [event]) := by
  have reacts : s.handle now event = s.react now event := if_neg (by simp [driven.live])
  rw [reacts]
  constructor
  · rw [react_disposed, driven.live]
  · rw [react_finals, driven.finals]
    cases final : event.final? <;> simp [final]
  · rintro ⟨past, member, ends⟩
    refine s.react_hushed now ?_
    rcases List.mem_append.mp member with earlier | latest
    · rw [sent.done_of_ended ⟨past, earlier, ends⟩]
      rfl
    · rwa [List.mem_singleton.mp latest] at ends
  · intro text member
    rcases List.mem_append.mp member with earlier | latest
    · -- the end alone can come after the final text, and shows nothing
      rw [sent.done_of_ended ⟨_, earlier, rfl⟩]
      exact driven.last text earlier
    · rw [← List.mem_singleton.mp latest]
      exact List.getLast?_concat

@[simp] theorem release_disposed (s : Scheduler) : s.release.disposed = s.disposed := by
  unfold release
  split <;> rfl

theorem onFlush_finals (live : s.disposed = false) (generation : Nat) :
    (s.onFlush generation).disposed = false ∧ (s.onFlush generation).shown.filterMap Action.final? =
      s.shown.filterMap Action.final? := by
  unfold onFlush
  rw [if_neg (by simp [live])]
  dsimp only
  split
  · exact ⟨(release_disposed _).trans live, release_finals _⟩
  · exact ⟨live, rfl⟩

theorem Driven.rings (driven : s.Driven heard) (generation : Nat) :
    (s.onFlush generation).Driven heard := by
  cases current : s.flush.isCurrent generation with
  | false =>
    rw [onFlush_of_stale current]
    exact driven
  | true =>
    -- the flush timer is cancelled when the turn ends, so the turn has not ended yet
    have goesOn : ¬ ∃ event ∈ heard, event.isProgress = false := fun ended => by
      have freed := driven.hushed ended
      simp [Timer.held_of_current current] at freed
    obtain ⟨live, finals⟩ := onFlush_finals driven.live generation
    exact ⟨live, finals.trans driven.finals, fun ended => absurd ended goesOn,
      fun text member => absurd ⟨_, member, rfl⟩ goesOn⟩

/-- Nothing is shown after the outcome of a turn. -/
theorem Driven.quiet (driven : s.Driven heard) (ended : ∃ event ∈ heard, event.isProgress = false)
    {now : Nat} {action : Step} (sent : StreamSoFar (heard ++ action.event?.toList))
    (kept : action.disposes = false) : (s.step (now, action)).shown = s.shown := by
  cases action with
  | handle event =>
    rw [StreamSoFar.done_of_ended sent ended]
    dsimp only [step, Scheduler.handle]
    rw [if_neg (by simp [driven.live])]
    rfl
  | flushRings generation =>
    have stale : s.flush.isCurrent generation = false := by
      simp [Timer.isCurrent, driven.hushed ended]
    dsimp only [step]
    rw [onFlush_of_stale stale]
  | dispose => simp [Step.disposes] at kept

section Run

variable (settings : DisplaySettings) (label : String → Json → String)

theorem run_driven {steps : List (Nat × Step)} (sent : StreamSoFar (handled steps))
    (kept : ∀ step ∈ steps, step.2.disposes = false) :
    ((start settings label).after steps).Driven (handled steps) := by
  induction steps using List.reverseRecOn with
  | nil => exact ⟨rfl, rfl, by simp [handled], by simp [handled]⟩
  | append_singleton steps last ih =>
    obtain ⟨now, action⟩ := last
    rw [handled_snoc] at sent ⊢
    have driven := ih sent.before fun step member => kept step (List.mem_append_left _ member)
    rw [after, List.foldl_append]
    change (((start settings label).after steps).step (now, action)).Driven _
    cases action with
    | handle event => exact driven.handle now sent
    | flushRings generation =>
      simp only [Step.event?, Option.toList_none, List.append_nil]
      exact driven.rings generation
    | dispose => exact absurd (kept (now, .dispose) (by simp)) (by simp [Step.disposes])

theorem shown_after_end {earlier later : List (Nat × Step)}
    (sent : StreamSoFar (handled (earlier ++ later)))
    (kept : ∀ step ∈ earlier ++ later, step.2.disposes = false)
    (ended : ∃ event ∈ handled earlier, event.isProgress = false) :
    ((start settings label).after (earlier ++ later)).shown =
      ((start settings label).after earlier).shown := by
  induction later using List.reverseRecOn with
  | nil => rw [List.append_nil]
  | append_singleton later last ih =>
    obtain ⟨now, action⟩ := last
    rw [← List.append_assoc] at sent kept ⊢
    rw [handled_snoc] at sent
    have before : ∀ step ∈ earlier ++ later, step.2.disposes = false :=
      fun step member => kept step (List.mem_append_left _ member)
    have driven := run_driven settings label sent.before before
    have still : ∃ event ∈ handled (earlier ++ later), event.isProgress = false := by
      obtain ⟨event, member, ends⟩ := ended
      exact ⟨event, by simp [handled] at member ⊢; exact .inl member, ends⟩
    rw [after, List.foldl_append]
    exact (driven.quiet still sent (kept (now, action) (by simp))).trans (ih sent.before before)

theorem drive_eq {before events : List Event} (sent : StreamSoFar (before ++ events)) (s : Scheduler)
    (now : Nat) : s.drive now events = s.after (events.map fun event => (now, .handle event)) := by
  induction events generalizing s before with
  | nil => rfl
  | cons event rest ih =>
    unfold drive
    split
    · next done =>
      have last : event = .done := by cases event <;> simp_all [Event.isDone]
      rw [last] at sent
      rw [sent.nothing_after_done]
      rfl
    · rw [List.append_cons] at sent
      exact ih sent _

end Run

/-- The final text of a turn is shown exactly once, as the last action. If there is none, no final
    text is shown. Nothing is shown after the outcome, however late the flush timer goes off. -/
theorem shown_of_turn (settings : AgentSettings) (decoder : Decoder) (hook : Bool)
    (turns : List (Nat × Supervisor.Step)) (display : DisplaySettings)
    (label : String → Json → String) (call : Nat) (steps : List (Nat × Step))
    (fed : handled steps <+:
      ((Supervisor.start settings decoder hook).after turns).events call)
    (kept : ∀ step ∈ steps, step.2.disposes = false) :
    let run := (start display label).after
    (∀ text, .textFinal text ∈ handled steps → ∃ before,
      (run steps).shown = before ++ [.setFinal text] ∧ ∀ action ∈ before, action.final? = none) ∧
    ((∀ event ∈ handled steps, event.final? = none) →
      ∀ action ∈ (run steps).shown, action.final? = none) ∧
    (∀ earlier later, steps = earlier ++ later → (∃ event ∈ handled earlier, event.isProgress = false) →
      (run steps).shown = (run earlier).shown) ∧
    ∀ now events, handled steps ++ events <+:
        ((Supervisor.start settings decoder hook).after turns).events call →
      (run steps).drive now events = run (steps ++ events.map fun event => (now, .handle event)) := by
  intro run
  obtain ⟨word, whole, more⟩ := Supervisor.run_so_far settings decoder hook turns call
  have sent : StreamSoFar (handled steps) := ⟨word, whole, fed.trans more⟩
  have driven := run_driven display label sent kept
  refine ⟨fun text member => ?_, fun finals action member => ?_, fun earlier later split ended => ?_,
    fun now events next => ?_⟩
  · obtain ⟨before, shown⟩ := List.getLast?_eq_some_iff.mp (driven.last text member)
    refine ⟨before, shown, ?_⟩
    have finals := driven.finals
    rw [sent.finals member, shown, List.filterMap_append] at finals
    exact List.filterMap_eq_nil_iff.mp (List.append_left_eq_self.mp finals)
  · have none : (run steps).shown.filterMap Action.final? = [] := by
      rw [driven.finals]
      exact List.filterMap_eq_nil_iff.mpr finals
    exact List.filterMap_eq_nil_iff.mp none action member
  · subst split
    exact shown_after_end display label sent kept ended
  · have all : StreamSoFar (handled steps ++ events) := ⟨word, whole, next.trans more⟩
    rw [drive_eq all]
    exact List.foldl_append.symm

/-- A result, and a flush timer that goes off long after it. -/
theorem shown_of_answered_turn :
    let answer := "\x7b\"type\":\"result\",\"result\":\"done\"\x7d\n".toUTF8.toList
    let turns := [(0, .spawn (.ok 1)), (1, .sendTurn ⟨"hello", []⟩), (2, .readOutput answer)]
    let run := (Supervisor.start {} (.streamJson false) true).after turns
    let steps := (run.events 0).map (fun event => (3, Step.handle event)) ++ [(9000, .flushRings 1)]
    handled steps <+: run.events 0 ∧ (∀ step ∈ steps, step.2.disposes = false) ∧
      ∃ before, ((start {} activityLabel).after steps).shown = before ++ [.setFinal "done"] ∧
        ∀ action ∈ before, action.final? = none := by
  intro answer turns run steps
  have fed : handled steps <+: run.events 0 := by simp [steps, handled, Step.event?]
  have kept : ∀ step ∈ steps, step.2.disposes = false := by
    simp [steps, or_imp, forall_and, Step.disposes]
  have told : (handled steps).filterMap Event.final? = ["done"] := by decide +kernel
  have member : .textFinal "done" ∈ handled steps := by
    obtain ⟨event, among, final⟩ := List.mem_filterMap.mp (told ▸ List.mem_singleton_self "done")
    cases event <;> simp_all [Event.final?]
  exact ⟨fed, kept, (shown_of_turn {} (.streamJson false) true turns {} activityLabel 0 steps fed
    kept).1 "done" member⟩

end Scheduler

end Display

end AgentHost
