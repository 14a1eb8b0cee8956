import AgentHost.Proofs.Supervisor.StepCases

namespace AgentHost.Supervisor

open Relation (ReflTransGen)

def Shaped (s : Supervisor) : Prop :=
  match s.state with
  | .starting => s.turn = none ∧ s.hang.held = false ∧ s.idle.held = false ∧
      s.inputHeld = false ∧ s.writing = none ∧ s.isLaunched = false
  | .idle => s.turn = none ∧ s.hang.held = false ∧ s.idle.held = true ∧
      s.inputHeld = s.writing.isNone ∧ s.isLaunched = true
  | .busy => s.turn.isSome = true ∧ s.hang.held = true ∧ s.idle.held = false ∧
      s.inputHeld = s.writing.isNone ∧ s.isLaunched = true
  | .dead => s.turn = none ∧ s.hang.held = false ∧ s.idle.held = false ∧ s.inputHeld = false

structure Coherent (s : Supervisor) : Prop where
  shaped : s.Shaped
  hang : s.hang.Sound
  idle : s.idle.Sound
  live : ∀ call turn, s.turn = some (call, turn) → turn.Live

theorem start_coherent (settings : AgentSettings) (decoder : Decoder) (hook : Bool) :
    (start settings decoder hook).Coherent where
  shaped := by simp [Shaped, start, isLaunched]
  hang := Timer.sound_new
  idle := Timer.sound_new
  live := by simp [start]

theorem Coherent.busy_of_turn {s : Supervisor} (coherent : s.Coherent) {call : Nat} {turn : Turn}
    (current : s.turn = some (call, turn)) : s.state = .busy := by
  have shaped := coherent.shaped
  unfold Shaped at shaped
  cases state : s.state <;> simp_all

theorem Coherent.no_turn {s : Supervisor} (coherent : s.Coherent) (other : s.state ≠ .busy) :
    s.turn = none := by
  cases current : s.turn with
  | none => rfl
  | some current' =>
    obtain ⟨call, turn⟩ := current'
    exact absurd (coherent.busy_of_turn current) other

theorem Coherent.turn_of_busy {s : Supervisor} (coherent : s.Coherent) (busy : s.state = .busy) :
    ∃ call turn, s.turn = some (call, turn) := by
  have shaped := coherent.shaped
  simp only [Shaped, busy] at shaped
  obtain ⟨⟨call, turn⟩, current⟩ := Option.isSome_iff_exists.mp shaped.1
  exact ⟨call, turn, current⟩

theorem Coherent.hang_held_iff {s : Supervisor} (coherent : s.Coherent) :
    s.hang.held = true ↔ s.state = .busy := by
  have shaped := coherent.shaped
  unfold Shaped at shaped
  cases state : s.state <;> simp_all

theorem Coherent.idle_held_iff {s : Supervisor} (coherent : s.Coherent) :
    s.idle.held = true ↔ s.state = .idle := by
  have shaped := coherent.shaped
  unfold Shaped at shaped
  cases state : s.state <;> simp_all

theorem Coherent.input_of_alive {s : Supervisor} (coherent : s.Coherent)
    (alive : s.state = .idle ∨ s.state = .busy) : s.inputHeld = s.writing.isNone := by
  have shaped := coherent.shaped
  rcases alive with state | state <;> simp only [Shaped, state] at shaped
  · exact shaped.2.2.2.1
  · exact shaped.2.2.2.1

theorem Aside.coherent {s s' : Supervisor} (same : Aside s s') (coherent : s.Coherent) :
    s'.Coherent where
  shaped := by
    have shaped := coherent.shaped
    unfold Shaped at shaped ⊢
    rw [same.state, same.turn, same.hang, same.idle, same.inputHeld, same.writing, same.isLaunched]
    exact shaped
  hang := same.hang ▸ coherent.hang
  idle := same.idle ▸ coherent.idle
  live := same.turn ▸ coherent.live

theorem Move.coherent {now : Nat} {s s' : Supervisor} (move : Move now s s')
    (coherent : s.Coherent) : s'.Coherent := by
  have shaped := coherent.shaped
  cases move with
  | aside rest => exact rest.coherent coherent
  | @advance call before after was advances rest =>
    have busy := coherent.busy_of_turn was
    refine rest.coherent ⟨?_, coherent.hang, coherent.idle, ?_⟩
    · simp_all [Shaped, isLaunched]
    · intro other turn current
      simp only [Option.some.injEq, Prod.mk.injEq] at current
      rw [← current.2]
      exact advances.live (coherent.live _ _ was)
  | complete was ends rest =>
    have busy := coherent.busy_of_turn was
    refine rest.coherent ⟨?_, s.hang.cancel_released.sound coherent.hang, ?_, ?_⟩
    · simp_all [Shaped, completed, isLaunched, s.hang.cancel_released.held]
    · simp only [completed, busy, if_true]
      exact Timer.arm_sound coherent.idle now _
    · simp [completed]
  | stop message hang idle writing rest =>
    refine rest.coherent ⟨?_, hang.sound coherent.hang, idle.sound coherent.idle, ?_⟩
    · simp [Shaped, stopped, hang.held, idle.held]
    · simp [stopped]
  | @inputTaken write count was rest =>
    refine rest.coherent ⟨?_, coherent.hang, coherent.idle, coherent.live⟩
    cases state : s.state <;> simp_all [Shaped, isLaunched]
  | @inputReturned call was rest =>
    refine rest.coherent ⟨?_, coherent.hang, coherent.idle, coherent.live⟩
    cases state : s.state <;> simp_all [Shaped, isLaunched]
  | inputLost dead rest =>
    refine rest.coherent ⟨?_, coherent.hang, coherent.idle, coherent.live⟩
    simp_all [Shaped]

theorem Moves.coherent {now : Nat} {s s' : Supervisor} (moves : Moves now s s')
    (coherent : s.Coherent) : s'.Coherent := by
  induction moves with
  | refl => exact coherent
  | tail _ move ih => exact move.coherent ih

theorem Coherent.heard {s : Supervisor} (coherent : s.Coherent) (now : Nat) :
    (s.heard now).Coherent := by
  unfold Supervisor.heard
  split
  · rename_i busy
    refine ⟨?_, Timer.arm_sound coherent.hang now _, coherent.idle, coherent.live⟩
    have shaped := coherent.shaped
    simp_all [Shaped, armHang, isLaunched]
  · exact coherent

theorem Took.coherent {now : Nat} {s s' : Supervisor} {action : Step}
    (took : Took now s action s') (coherent : s.Coherent) : s'.Coherent := by
  have shaped := coherent.shaped
  cases took with
  | launched starting rest =>
    refine rest.coherent ⟨?_, coherent.hang, Timer.arm_sound coherent.idle now _, coherent.live⟩
    simp_all [Shaped, isLaunched]
  | launchFailed starting rest =>
    refine rest.coherent ⟨?_, coherent.hang, coherent.idle, coherent.live⟩
    simp_all [Shaped]
  | begun idle held rest =>
    refine rest.coherent ⟨?_, Timer.arm_sound coherent.hang now _,
      s.idle.cancel_released.sound coherent.idle, ?_⟩
    · simp_all [Shaped, isLaunched, s.idle.cancel_released.held]
    · intro call turn current
      simp only [Option.some.injEq, Prod.mk.injEq] at current
      rw [← current.2]
      exact Turn.start_live _
  | refused message why rest =>
    exact rest.coherent ⟨shaped, coherent.hang, coherent.idle, coherent.live⟩
  | moved uncalled moves =>
    refine moves.coherent ?_
    split
    · exact coherent.heard now
    · exact coherent

theorem Coherent.took {s : Supervisor} (coherent : s.Coherent) (now : Nat) (action : Step) :
    Took now s action (s.step now action) :=
  step_took coherent.hang_held_iff.mp coherent.idle_held_iff.mp now action

theorem step_coherent {s : Supervisor} (coherent : s.Coherent) (now : Nat) (action : Step) :
    (s.step now action).Coherent := (coherent.took now action).coherent coherent

theorem after_coherent {s : Supervisor} (coherent : s.Coherent) (steps : List (Nat × Step)) :
    (s.after steps).Coherent :=
  run_induction (fun current _ => current.Coherent) coherent
    (fun _ _ now action ih => step_coherent ih now action) steps

theorem run_coherent (settings : AgentSettings) (decoder : Decoder) (hook : Bool)
    (steps : List (Nat × Step)) : ((start settings decoder hook).after steps).Coherent :=
  after_coherent (start_coherent settings decoder hook) steps

theorem Coherent.run {s : Supervisor} (coherent : s.Coherent)
    (law : Supervisor → List Moment → Prop) (begins : law s [])
    (continues : ∀ current past now action next, current.Coherent →
      next = current.step now action → Took now current action next → law current past →
      law next (past ++ [⟨now, action, current, next⟩]))
    (steps : List (Nat × Step)) : law (s.after steps) (s.moments steps) := by
  have both := run_induction (fun current past => current.Coherent ∧ law current past)
    ⟨coherent, begins⟩ ?_ steps
  · exact both.2
  rintro current past now action ⟨ready, holds⟩
  have took := ready.took now action
  exact ⟨took.coherent ready, continues current past now action _ ready rfl took holds⟩

theorem Took.decoder {now : Nat} {s s' : Supervisor} {action : Step} (took : Took now s action s') :
    s'.decoder = s.decoder := by
  cases took with
  | launched _ rest => exact rest.decoder
  | launchFailed _ rest => exact rest.decoder
  | begun _ _ rest => exact rest.decoder
  | refused _ _ rest => exact rest.decoder
  | moved _ moves =>
    rw [moves.steady.decoder]
    split
    · unfold heard
      split <;> rfl
    · rfl

theorem after_decoder {s : Supervisor} (coherent : s.Coherent) (steps : List (Nat × Step)) :
    (s.after steps).decoder = s.decoder :=
  coherent.run (fun current _ => current.decoder = s.decoder) rfl
    (fun _ _ _ _ _ _ _ took same => took.decoder.trans same) steps

end AgentHost.Supervisor
