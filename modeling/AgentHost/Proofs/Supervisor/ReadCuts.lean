import AgentHost.Proofs.Supervisor.HangDeadline
import AgentHost.Proofs.Supervisor.Twin
import AgentHost.Proofs.Text.LineCuts

namespace AgentHost.Supervisor

variable {s other : Supervisor}

def withReader (s : Supervisor) (outputOpen : Bool) (lines : Text.LineBuffer) : Supervisor :=
  { s with outputOpen, lines }

theorem completeTurn_withReader (s : Supervisor) (now : Nat) (record : Json) (outputOpen : Bool)
    (lines : Text.LineBuffer) : (s.withReader outputOpen lines).completeTurn now record =
      (s.completeTurn now record).withReader outputOpen lines := by
  cases none : s.turn.isNone with
  | true => simp [completeTurn, withReader, none]
  | false =>
    by_cases busy : s.state = .busy <;> cases error : s.decoder.resultError record <;>
      simp [completeTurn, withReader, none, error, note, closeTurn_eq, busy, armIdle]

theorem handleLine_withReader (s : Supervisor) (now : Nat) (line : String) (outputOpen : Bool)
    (lines : Text.LineBuffer) : (s.withReader outputOpen lines).handleLine now line =
      (s.handleLine now line).withReader outputOpen lines := by
  unfold handleLine
  rw [show (s.withReader outputOpen lines).decoder = s.decoder from rfl]
  split
  · rfl
  · cases s.decoder.parseLine line with
    | none => rfl
    | some record =>
      dsimp only
      split
      · exact s.completeTurn_withReader now record outputOpen lines
      · rfl

theorem handleLines_withReader (s : Supervisor) (now : Nat) (texts : List String)
    (outputOpen : Bool) (lines : Text.LineBuffer) :
    (s.withReader outputOpen lines).handleLines now texts =
      (s.handleLines now texts).withReader outputOpen lines := by
  induction texts generalizing s with
  | nil => rfl
  | cons text rest ih =>
    change ((s.withReader outputOpen lines).handleLine now text).handleLines now rest = _
    rw [handleLine_withReader, ih]
    rfl

def withLog (s : Supervisor) (logOpen : Bool) (logBuffer : Text.LineBuffer) : Supervisor :=
  { s with logOpen, logBuffer }

theorem foldl_logLine_withLog (s : Supervisor) (texts : List String) (logOpen : Bool)
    (logBuffer : Text.LineBuffer) : texts.foldl logLine (s.withLog logOpen logBuffer) =
      (texts.foldl logLine s).withLog logOpen logBuffer := by
  induction texts generalizing s with
  | nil => rfl
  | cons text rest ih =>
    have first : (s.withLog logOpen logBuffer).logLine text =
        (s.logLine text).withLog logOpen logBuffer := by
      unfold logLine
      split <;> rfl
    rw [List.foldl_cons, first, ih]
    rfl

theorem heard_eq (s : Supervisor) (now : Nat) : s.heard now = s.withTimers
    (if s.state = .busy then s.hang.arm now s.settings.hangTimeoutMs else s.hang) s.idle := by
  unfold heard
  split <;> rfl

theorem heard_withReader (s : Supervisor) (now : Nat) (outputOpen : Bool)
    (lines : Text.LineBuffer) : (s.withReader outputOpen lines).heard now =
      (s.heard now).withReader outputOpen lines := by
  rw [heard_eq, heard_eq]
  rfl

theorem heard_withLog (s : Supervisor) (now : Nat) (logOpen : Bool) (logBuffer : Text.LineBuffer) :
    (s.withLog logOpen logBuffer).heard now = (s.heard now).withLog logOpen logBuffer := by
  rw [heard_eq, heard_eq]
  rfl

theorem readOutput_eq (opened : s.outputOpen = true) {chunk : List UInt8} (some : chunk ≠ [])
    (now : Nat) : s.readOutput now chunk =
      ((s.heard now).handleLines now (s.lines.push chunk).1).withReader s.outputOpen
        (s.lines.push chunk).2 := by
  have reads : (s.outputOpen && !chunk.isEmpty) = true := by simp [opened, some]
  unfold readOutput
  rw [if_pos reads, ← handleLines_withReader, heard_eq]
  rfl

theorem readLog_eq (opened : s.logOpen = true) {chunk : List UInt8} (some : chunk ≠ [])
    (now : Nat) : s.readLog now chunk =
      ((s.logBuffer.push chunk).1.foldl logLine (s.heard now)).withLog s.logOpen
        (s.logBuffer.push chunk).2 := by
  have reads : (s.logOpen && !chunk.isEmpty) = true := by simp [opened, some]
  unfold readLog
  rw [if_pos reads, ← foldl_logLine_withLog, ← heard_withLog]
  rfl

/-- Two chunks at the same time give the hang timer the same deadline as one. -/
theorem heard_again {now : Nat} {next : Supervisor} (coherent : s.Coherent)
    (moves : Moves now (s.heard now) next) : (next.heard now).Twin next := by
  have coherentNext := moves.coherent (coherent.heard now)
  by_cases busy : next.state = .busy
  · obtain ⟨call, turn, current⟩ := coherentNext.turn_of_busy busy
    obtain ⟨⟨before, was⟩, same⟩ := moves.turn_before current
    have wasBusy : s.state = .busy := coherent.busy_of_turn (s.heard_turn now ▸ was)
    have armed : next.hang = s.hang.arm now s.settings.hangTimeoutMs := by
      rw [same, heard, if_pos wasBusy]
      rfl
    have settings : next.settings = s.settings := moves.steady.settings.trans (s.heard_settings now)
    have sound : (next.hang.arm now next.settings.hangTimeoutMs).Sound :=
      Timer.arm_sound coherentNext.hang now _
    rw [heard, if_pos busy]
    refine ⟨rfl, ⟨⟨?_, ?_⟩, sound, coherentNext.hang⟩, .refl coherentNext.idle⟩
    · rw [armed]
      rfl
    · change next.hang.deadline? = (next.hang.arm now next.settings.hangTimeoutMs).deadline?
      rw [Timer.arm_deadline coherentNext.hang, armed, Timer.arm_deadline coherent.hang, settings]
  · rw [heard, if_neg busy]
    exact .refl coherentNext

theorem heard_twice {now : Nat} {take : Supervisor → String → Supervisor}
    (moves : ∀ s line, Moves now s (take s line))
    (twins : ∀ s other line, Twin s other → Twin (take s line) (take other line))
    (coherent : s.Coherent) (first second : List String) :
    (second.foldl take ((first.foldl take (s.heard now)).heard now)).Twin
      ((first ++ second).foldl take (s.heard now)) := by
  rw [List.foldl_append]
  have again := heard_again coherent (foldl_moves moves first (s.heard now))
  generalize (first.foldl take (s.heard now)).heard now = reheard at again ⊢
  generalize first.foldl take (s.heard now) = heard at again ⊢
  induction second generalizing reheard heard with
  | nil => exact again
  | cons line rest ih => exact ih _ _ (twins _ _ line again)

theorem withReader_untimed (outputOpen : Bool) (lines : Text.LineBuffer) :
    Untimed (·.withReader outputOpen lines) := fun _ _ _ => rfl

theorem withLog_untimed (logOpen : Bool) (logBuffer : Text.LineBuffer) :
    Untimed (·.withLog logOpen logBuffer) := fun _ _ _ => rfl

theorem readOutput_append (coherent : s.Coherent) (now : Nat) {first second : List UInt8}
    (some : first ≠ []) (more : second ≠ []) :
    ((s.readOutput now first).readOutput now second).Twin (s.readOutput now (first ++ second)) := by
  cases opened : s.outputOpen with
  | false =>
    have closed (chunk : List UInt8) : s.readOutput now chunk = s := if_neg (by simp [opened])
    simp only [closed]
    exact .refl coherent
  | true =>
    rw [readOutput_eq opened (List.append_ne_nil_of_left_ne_nil some second),
      Text.LineBuffer.push_append, readOutput_eq opened some, readOutput_eq (by exact opened) more,
      heard_withReader, handleLines_withReader]
    exact (heard_twice (handleLine_moves now) (fun _ _ line twin => twin.handleLine now line)
      coherent _ _).untimed (withReader_untimed _ _)

theorem readLog_append (coherent : s.Coherent) (now : Nat) {first second : List UInt8}
    (some : first ≠ []) (more : second ≠ []) :
    ((s.readLog now first).readLog now second).Twin (s.readLog now (first ++ second)) := by
  cases opened : s.logOpen with
  | false =>
    have closed (chunk : List UInt8) : s.readLog now chunk = s := if_neg (by simp [opened])
    simp only [closed]
    exact .refl coherent
  | true =>
    rw [readLog_eq opened (List.append_ne_nil_of_left_ne_nil some second),
      Text.LineBuffer.push_append, readLog_eq opened some, readLog_eq (by exact opened) more,
      heard_withLog, foldl_logLine_withLog]
    exact (heard_twice (logLine_moves now)
      (fun _ _ line twin => twin.untimed (logLine_untimed line)) coherent _ _).untimed
        (withLog_untimed _ _)

def Step.reading : LogStream → List UInt8 → Step
  | .stdout, chunk => .readOutput chunk
  | .stderr, chunk => .readLog chunk

theorem step_reading_nil (s : Supervisor) (now : Nat) (stream : LogStream) :
    s.step now (.reading stream []) = s := by
  cases stream <;> exact if_neg (by simp)

theorem step_reading_append (coherent : s.Coherent) (now : Nat) (stream : LogStream)
    (first second : List UInt8) :
    ((s.step now (.reading stream first)).step now (.reading stream second)).Twin
      (s.step now (.reading stream (first ++ second))) := by
  by_cases none : first = []
  · rw [none, step_reading_nil]
    exact .refl (step_coherent coherent now _)
  by_cases noneLeft : second = []
  · rw [noneLeft, step_reading_nil, List.append_nil]
    exact .refl (step_coherent coherent now _)
  cases stream with
  | stdout => exact readOutput_append coherent now none noneLeft
  | stderr => exact readLog_append coherent now none noneLeft

def readsOf (stream : LogStream) (now : Nat) (chunks : List (List UInt8)) : List (Nat × Step) :=
  chunks.map fun chunk => (now, .reading stream chunk)

theorem after_readsOf (coherent : s.Coherent) (stream : LogStream) (now : Nat)
    (chunks : List (List UInt8)) :
    (s.after (readsOf stream now chunks)).Twin
      (s.step now (.reading stream chunks.flatten)) := by
  induction chunks generalizing s with
  | nil =>
    rw [List.flatten_nil, step_reading_nil]
    exact .refl coherent
  | cons chunk rest ih =>
    have first := step_coherent coherent now (.reading stream chunk)
    exact (ih first).trans (step_reading_append coherent now stream chunk rest.flatten)

/-- Two runs that differ only in how the bytes read at one time are cut into chunks. -/
inductive Recut : Supervisor → List (Nat × Step) → Supervisor → List (Nat × Step) → Prop where
  | nil (s other : Supervisor) : Recut s [] other []
  | step {s other : Supervisor} {now : Nat} {action otherAction : Step}
      {steps otherSteps : List (Nat × Step)} (same : s.Matches other action otherAction)
      (rest : Recut (s.step now action) steps (other.step now otherAction) otherSteps) :
      Recut s ((now, action) :: steps) other ((now, otherAction) :: otherSteps)
  | reads {s other : Supervisor} {stream : LogStream} {now : Nat}
      {chunks otherChunks : List (List UInt8)} {steps otherSteps : List (Nat × Step)}
      (same : otherChunks.flatten = chunks.flatten)
      (rest : Recut (s.after (readsOf stream now chunks)) steps
        (other.after (readsOf stream now otherChunks)) otherSteps) :
      Recut s (readsOf stream now chunks ++ steps) other (readsOf stream now otherChunks ++ otherSteps)

theorem Twin.reading (twin : s.Twin other) (now : Nat) (stream : LogStream) (chunk : List UInt8) :
    (s.step now (.reading stream chunk)).Twin (other.step now (.reading stream chunk)) := by
  cases stream with
  | stdout => exact twin.readOutput now chunk
  | stderr => exact twin.readLog now chunk

theorem Recut.twin {steps otherSteps : List (Nat × Step)} (recut : Recut s steps other otherSteps)
    (coherent : s.Coherent) (coherentOther : other.Coherent) (twin : s.Twin other) :
    (s.after steps).Twin (other.after otherSteps) := by
  induction recut with
  | nil => exact twin
  | @step s other now action otherAction _ _ same rest ih =>
    exact ih (step_coherent coherent now action) (step_coherent coherentOther now otherAction)
      (twin.step same now)
  | @reads s other stream now chunks otherChunks _ _ same rest ih =>
    rw [after_append, after_append]
    refine ih (after_coherent coherent _) (after_coherent coherentOther _) ?_
    -- compare both runs with a third one, in which the bytes arrive in one read
    have cut := after_readsOf coherent stream now chunks
    have otherCut := same ▸ after_readsOf coherentOther stream now otherChunks
    exact (cut.trans (twin.reading now stream chunks.flatten)).trans otherCut.symm

/-- The events and the state do not depend on how the bytes read at one time are cut into chunks. -/
theorem reads_of_run (settings : AgentSettings) (decoder : Decoder) (hook : Bool)
    (steps : List (Nat × Step)) :
    let s := (start settings decoder hook).after steps
    (∀ stream now first second,
      let cut := (s.step now (.reading stream first)).step now (.reading stream second)
      let whole := s.step now (.reading stream (first ++ second))
      cut.Alike whole ∧ ∀ call, cut.events call = whole.events call) ∧
    ∀ more otherMore, Recut s more s otherMore →
      (s.after more).Alike (s.after otherMore) ∧
      (∀ call, (s.after more).events call = (s.after otherMore).events call) ∧
      ∀ action, ∃ otherAction, (s.after more).Matches (s.after otherMore) action otherAction := by
  intro s
  have coherent := run_coherent settings decoder hook steps
  constructor
  · intro stream now first second
    have twin := step_reading_append coherent now stream first second
    exact ⟨twin.alike, fun call => (twin.events call).symm⟩
  · intro more otherMore recut
    have twin := recut.twin coherent coherent (.refl coherent)
    exact ⟨twin.alike, fun call => (twin.events call).symm, twin.alike.exists_matching⟩

/-- A character that comes whole in one run and in two chunks in the other. -/
theorem cut_character_unseen :
    let begun : List (Nat × Step) := [(0, .spawn (.ok 1)), (0, .sendTurn ⟨"one", []⟩)]
    let whole := readsOf .stdout 500 [[0xC3, 0xA9]] ++ [(1500, .hangRings 2)]
    let parts := readsOf .stdout 500 [[0xC3], [0xA9]] ++ [(1500, .hangRings 3)]
    let s := impatient.after begun
    Recut s whole s parts ∧ (s.after whole).Alike (s.after parts) ∧ (s.after parts).state = .dead := by
  intro begun whole parts s
  have recut : Recut s whole s parts :=
    .reads rfl (.step (.hangRings (by decide +kernel)) (.nil _ _))
  exact ⟨recut, ((reads_of_run _ _ _ begun).2 whole parts recut).1, by decide +kernel⟩

end AgentHost.Supervisor
