import AgentHost.Proofs.Display.Run

namespace AgentHost.Display.Scheduler

variable {s s' : Scheduler}

namespace Change

def discards (change : Change) : Bool := change.before.discards change.step

def received (change : Change) : String := change.before.receives change.step

end Change

def sinceDiscard (past : List Change) : List Change := past.rtakeWhile fun change => !change.discards

/-- All text received since text was last discarded has been streamed or is in the buffer. -/
structure Accounted (s : Scheduler) (since : List Change) : Prop where
  text : String.join (since.flatMap Change.streamed) ++ s.buffer =
    String.join (since.map Change.received)
  unstreamed : s.phase ≠ .streamingFinal → since.flatMap Change.streamed = []
  released : s.phase = .idle ∨ s.phase = .streamingFinal → s.buffer = ""

theorem start_accounted (settings : DisplaySettings) (label : String → Json → String) :
    Accounted (start settings label) [] where
  text := rfl
  unstreamed _ := rfl
  released _ := rfl

theorem sinceDiscard_snoc (past : List Change) (change : Change) :
    sinceDiscard (past ++ [change]) =
      if change.discards then [] else sinceDiscard past ++ [change] := by
  unfold sinceDiscard
  rw [List.rtakeWhile_concat]
  cases change.discards <;> rfl

theorem Took.discarded {now : Nat} {action : Step} (took : s.Took now action s')
    (discards : s.discards action = true) : s'.Accounted [] := by
  cases took with
  | concluded | toolStarted | toolEnded => exact ⟨rfl, fun _ => rfl, fun _ => rfl⟩
  | began | held | streamed | released =>
    simp [Scheduler.discards, Step.startsTool, Step.concludes, Step.endsTool] at discards
  | quiet keeps => rw [keeps] at discards; contradiction

/-- The buffered text and the new text are what is streamed and what is buffered afterwards. -/
theorem Took.conserved {now : Nat} {action : Step} (took : s.Took now action s')
    (keeps : s.discards action = false) (drained : s.phase = .streamingFinal → s.buffer = "") :
    s.buffer ++ s.receives action = String.join (s.streamedTo s') ++ s'.buffer := by
  unfold streamedTo
  cases took with
  | began text live | held text live =>
    rw [shownTo_same (by rfl)]
    simp [receives, live, Step.text]
  | streamed text live streaming =>
    rw [shownTo_present (by rfl), present, drained streaming]
    simp [receives, live, Step.text, Action.streamed?]
  | released =>
    rw [shownTo_release (by rfl), release_buffer, receives_textless rfl]
    dsimp only
    split
    · next empty => simp [String.isEmpty_iff.mp empty]
    · simp [Action.streamed?]
  | quiet _ silent =>
    rw [shownTo_same (by rfl), silent]
    simp
  | concluded _ live | toolStarted _ _ live =>
    simp [discards, live, Step.startsTool, Step.concludes] at keeps
  | toolEnded live working => simp [discards, live, Step.endsTool, working] at keeps

theorem Took.drained {now : Nat} {action : Step} (took : s.Took now action s')
    (drained : s.phase = .idle ∨ s.phase = .streamingFinal → s.buffer = "")
    (phase : s'.phase = .idle ∨ s'.phase = .streamingFinal) : s'.buffer = "" := by
  cases took with
  | began => simp at phase
  | held _ _ holding => rcases holding with holding | holding <;> simp [holding] at phase
  | streamed | quiet => exact drained phase
  | concluded | toolStarted | toolEnded => rfl
  | released => exact release_buffer _

theorem Accounted.kept {since : List Change} {now : Nat} {action : Step}
    (accounted : s.Accounted since) (took : s.Took now action s')
    (keeps : s.discards action = false) :
    s'.Accounted (since ++ [⟨(now, action), s, s'⟩]) where
  text := by
    have conserved := took.conserved keeps fun streaming => accounted.released (.inr streaming)
    calc
      _ = String.join (since.flatMap Change.streamed) ++
          (String.join (s.streamedTo s') ++ s'.buffer) := by
        rw [List.flatMap_append, String.join_append, List.flatMap_singleton, String.append_assoc]
        rfl
      _ = String.join (since.map Change.received) ++ s.receives action := by
        rw [← conserved, ← String.append_assoc, accounted.text]
      _ = _ := by simp [Change.received, Change.step]
  unstreamed phase := by
    have before : s.phase ≠ .streamingFinal := mt (took.still_streaming keeps) phase
    have silent : s.streamedTo s' = [] := by
      by_contra streams
      exact phase (took.streamed_cases streams).2.1
    rw [List.flatMap_append, accounted.unstreamed before, List.flatMap_singleton]
    exact silent
  released := took.drained accounted.released

theorem run_accounted (settings : DisplaySettings) (label : String → Json → String)
    (steps : List (Nat × Step)) : ((start settings label).after steps).Accounted
      (sinceDiscard ((start settings label).changes steps)) := by
  refine Transition.run_induction (fun s past => Accounted s (sinceDiscard past))
    (start_accounted settings label) ?_ steps
  rintro s past ⟨now, action⟩ accounted
  have took := s.step_took now action
  rw [sinceDiscard_snoc]
  split
  · next discards => exact took.discarded discards
  · next keeps => exact accounted.kept took (Bool.eq_false_iff.mpr keeps)

theorem shown_of_run (settings : DisplaySettings) (label : String → Json → String)
    (steps : List (Nat × Step)) : ((start settings label).after steps).shown =
      ((start settings label).changes steps).flatMap Change.shown := by
  refine Transition.run_induction (fun (s : Scheduler) past => s.shown = past.flatMap Change.shown) rfl
    ?_ steps
  rintro s past ⟨now, action⟩ shown
  rw [(s.step_took now action).shown, shown, List.flatMap_append, List.flatMap_singleton]
  rfl

/-- The text received since the last label, tool end or final text is the text streamed since then
    followed by the buffer. Nothing is lost or shown twice. -/
theorem text_of_run (settings : DisplaySettings) (label : String → Json → String)
    (steps : List (Nat × Step)) :
    let s := (start settings label).after steps
    let past := (start settings label).changes steps
    s.shown = past.flatMap Change.shown ∧
    String.join ((sinceDiscard past).flatMap Change.streamed) ++ s.buffer =
      String.join ((sinceDiscard past).map Change.received) ∧
    (s.phase = .idle ∨ s.phase = .bufferingText ∨ s.phase = .toolActive →
      (sinceDiscard past).flatMap Change.streamed = []) ∧
    (s.phase = .idle ∨ s.phase = .streamingFinal → s.buffer = "") := by
  intro s past
  have accounted := run_accounted settings label steps
  refine ⟨shown_of_run settings label steps, accounted.text, fun phase => ?_, accounted.released⟩
  refine accounted.unstreamed ?_
  rcases phase with phase | phase | phase <;> rw [phase] <;> decide

example :
    let s := (start {} fun name _ => name).after
      [(0, .handle (.textDelta "Hel")), (10, .handle (.textDelta "lo")), (2000, .flushRings 1),
        (2100, .handle (.textDelta " there"))]
    s.shown = [.streamText "Hello", .streamText " there"] ∧ s.buffer = "" := by decide +kernel

end AgentHost.Display.Scheduler
