import AgentHost.Proofs.Supervisor.Streams

namespace AgentHost.Supervisor

structure Accepts (s s' : Supervisor) : Prop where
  busy : s'.state = .busy
  turn : s'.turn = some (s.calls, .start s.settings.maxImagesPerTurn)
  unrejected : s'.events s.calls = []

def Settled (s : Supervisor) : Prop := ∀ call, call < s.calls → .done ∈ s.events call

theorem sendTurn_of_held {s : Supervisor} (idle : s.state = .idle) (held : s.inputHeld = true)
    (now : Nat) (prompt : Prompt) : s.Accepts (s.sendTurn now prompt) := by
  unfold sendTurn
  rw [idle]
  dsimp only
  rw [if_pos held]
  exact ⟨rfl, rfl, by simp [events, armHang, Turn.start]⟩

theorem sendTurn_of_away {s : Supervisor} (idle : s.state = .idle) (away : s.inputHeld = false)
    (now : Nat) (prompt : Prompt) :
    s.sendTurn now prompt = s.reject ProcessFault.inputClosed.message := by
  unfold sendTurn
  rw [idle]
  dsimp only
  rw [if_neg (by simp [away])]

theorem Coherent.accepts_iff {s : Supervisor} (coherent : s.Coherent) (idle : s.state = .idle)
    (now : Nat) (prompt : Prompt) : s.Accepts (s.sendTurn now prompt) ↔ s.writing = none := by
  have input := coherent.input_of_alive (.inl idle)
  cases writing : s.writing with
  | none =>
    rw [writing] at input
    exact ⟨fun _ => rfl, fun _ => sendTurn_of_held idle input now prompt⟩
  | some write =>
    rw [writing] at input
    constructor
    · intro accepts
      have busy := accepts.busy
      rw [sendTurn_of_away idle input] at busy
      simp [reject, idle] at busy
    · simp

theorem Coherent.idle_of_settled {s : Supervisor} (coherent : s.Coherent) (streams : s.Streams)
    (alive : s.state.isAlive = true) (settled : s.Settled) : s.state = .idle := by
  cases state : s.state with
  | idle => rfl
  | starting => simp [state, Lifecycle.isAlive] at alive
  | dead => simp [state, Lifecycle.isAlive] at alive
  | busy =>
    obtain ⟨call, turn, current⟩ := coherent.turn_of_busy state
    -- while a turn is current its stream has progress events only, so no `done`
    have told := settled call (streams.current call turn current).1
    rw [events_of_turn current] at told
    have progress := (coherent.live call turn current).progress _ told
    simp [Event.isProgress] at progress

theorem Coherent.settled_of_idle {s : Supervisor} (coherent : s.Coherent) (streams : s.Streams)
    (idle : s.state = .idle) : s.Settled := by
  have noTurn := coherent.no_turn (by simp [idle])
  intro call called
  exact (streams.whole called (by simp [noTurn])).done_mem

/-- An idle supervisor rejects a call exactly if the line of an ended turn is still being written.
    This can happen even if every call waits for the end of the turns before it. -/
theorem acceptance_of_run (settings : AgentSettings) (decoder : Decoder) (hook : Bool)
    (steps : List (Nat × Step)) :
    let s := (start settings decoder hook).after steps
    (s.state = .idle → ∀ now prompt,
      (s.Accepts (s.sendTurn now prompt) ↔ s.writing = none) ∧
      ∀ write, s.writing = some write →
        s.sendTurn now prompt = s.reject ProcessFault.inputClosed.message ∧
        WholeStream (s.events write.call)) ∧
    ∀ moment ∈ (start settings decoder hook).moments steps, ∀ prompt,
      moment.action = .sendTurn prompt → moment.before.state.isAlive = true →
      moment.before.Settled →
        (moment.before.Accepts moment.after ↔ moment.before.writing = none) := by
  intro s
  have coherent : s.Coherent := run_coherent settings decoder hook steps
  have streams : s.Streams := run_streams settings decoder hook steps
  constructor
  · intro idle now prompt
    refine ⟨coherent.accepts_iff idle now prompt, fun write writing => ⟨?_, ?_⟩⟩
    · have input := coherent.input_of_alive (.inl idle)
      rw [writing] at input
      exact sendTurn_of_away idle input now prompt
    · have noTurn := coherent.no_turn (by simp [idle])
      exact streams.whole (streams.writing write writing) (by simp [noTurn])
  · intro moment member prompt calls alive settled
    obtain ⟨past, before, after⟩ := mem_moments member
    have ready : moment.before.Coherent := before ▸ run_coherent settings decoder hook past
    have known : moment.before.Streams := before ▸ run_streams settings decoder hook past
    rw [after, calls]
    exact ready.accepts_iff (ready.idle_of_settled known alive settled) moment.time prompt

def answeredEarly : List (Nat × Step) :=
  [(0, .spawn (.ok 1)), (0, .sendTurn ⟨"one", []⟩),
   (0, .readOutput (Text.Utf8.encode "\x7b\"type\":\"result\",\"result\":\"ack\"\x7d\n"))]

theorem next_call_refused :
    let s := (start {} (.streamJson false) true).after answeredEarly
    let next := s.sendTurn 0 ⟨"two", []⟩
    s.state = .idle ∧ s.Settled ∧ next.state ≠ .busy ∧
      (next.events s.calls).map Event.tag = ["error", "done"] := by
  intro s next
  have idle : s.state = .idle := by decide +kernel
  have coherent : s.Coherent := run_coherent _ _ _ answeredEarly
  have streams : s.Streams := run_streams _ _ _ answeredEarly
  exact ⟨idle, coherent.settled_of_idle streams idle, by decide +kernel, by decide +kernel⟩

end AgentHost.Supervisor
