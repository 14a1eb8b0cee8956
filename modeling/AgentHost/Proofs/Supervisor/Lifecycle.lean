import AgentHost.Proofs.Supervisor.Coherence

namespace AgentHost.Supervisor

open Relation (ReflTransGen)

def becomesIdle (moment : Moment) : Bool :=
  moment.before.state != .idle && moment.after.state == .idle

theorem Took.settings {now : Nat} {s s' : Supervisor} {action : Step}
    (took : Took now s action s') : s'.settings = s.settings := by
  cases took with
  | launched _ rest => exact rest.settings
  | launchFailed _ rest => exact rest.settings
  | begun _ _ rest => exact rest.settings
  | refused _ _ rest => exact rest.settings
  | moved _ moves =>
    rw [moves.steady.settings]
    split
    · exact s.heard_settings now
    · rfl

theorem after_settings {s : Supervisor} (coherent : s.Coherent) (steps : List (Nat × Step)) :
    (s.after steps).settings = s.settings :=
  coherent.run (fun current _ => current.settings = s.settings) rfl
    (fun _ _ _ _ _ _ _ took same => took.settings.trans same) steps

theorem Move.state_cases {now : Nat} {s s' : Supervisor} (move : Move now s s') :
    (s'.state = s.state ∧ s'.idle = s.idle) ∨
      (s.state = .busy ∧ s'.state = .idle ∧
        s'.idle = s.idle.arm now s.settings.idleTimeoutMs) ∨ s'.state = .dead := by
  cases move with
  | aside rest => exact .inl ⟨rest.state, rest.idle⟩
  | advance _ _ rest => exact .inl ⟨rest.state, rest.idle⟩
  | complete _ _ rest =>
    have state := rest.state
    have timer := rest.idle
    dsimp only [completed] at state timer
    by_cases busy : s.state = .busy
    · rw [if_pos busy] at state timer
      exact .inr (.inl ⟨busy, state, timer⟩)
    · rw [if_neg busy] at state timer
      exact .inl ⟨state, timer⟩
  | stop _ _ _ _ rest => exact .inr (.inr rest.state)
  | inputTaken _ _ rest => exact .inl ⟨rest.state, rest.idle⟩
  | inputReturned _ rest => exact .inl ⟨rest.state, rest.idle⟩
  | inputLost _ rest => exact .inl ⟨rest.state, rest.idle⟩

theorem Move.busy_before {now : Nat} {s s' : Supervisor} (move : Move now s s')
    (busy : s'.state = .busy) : s.state = .busy := by
  rcases move.state_cases with ⟨same, _⟩ | ⟨before, _, _⟩ | dead
  · exact same.symm.trans busy
  · exact before
  · simp [dead] at busy

theorem Move.dead {now : Nat} {s s' : Supervisor} (move : Move now s s')
    (dead : s.state = .dead) : s'.state = .dead := by
  rcases move.state_cases with ⟨same, _⟩ | ⟨busy, _, _⟩ | dies
  · exact same.trans dead
  · simp [dead] at busy
  · exact dies

theorem Moves.busy_before {now : Nat} {s s' : Supervisor} (moves : Moves now s s')
    (busy : s'.state = .busy) : s.state = .busy := by
  induction moves with
  | refl => exact busy
  | tail _ move ih => exact ih (move.busy_before busy)

theorem Move.turn_before {now : Nat} {s s' : Supervisor} (move : Move now s s') {call : Nat}
    {turn : Turn} (current : s'.turn = some (call, turn)) :
    (∃ before, s.turn = some (call, before)) ∧ s'.hang = s.hang := by
  cases move with
  | aside rest => exact ⟨⟨turn, rest.turn ▸ current⟩, rest.hang⟩
  | advance was _ rest =>
    have same := rest.turn.symm.trans current
    simp only [Option.some.injEq, Prod.mk.injEq] at same
    exact ⟨⟨_, same.1 ▸ was⟩, rest.hang⟩
  | complete _ _ rest => exact absurd (rest.turn.symm.trans current) (by simp [completed])
  | stop _ _ _ _ rest => exact absurd (rest.turn.symm.trans current) (by simp [stopped])
  | inputTaken _ _ rest => exact ⟨⟨turn, rest.turn ▸ current⟩, rest.hang⟩
  | inputReturned _ rest => exact ⟨⟨turn, rest.turn ▸ current⟩, rest.hang⟩
  | inputLost _ rest => exact ⟨⟨turn, rest.turn ▸ current⟩, rest.hang⟩

theorem Moves.turn_before {now : Nat} {s s' : Supervisor} (moves : Moves now s s') {call : Nat}
    {turn : Turn} (current : s'.turn = some (call, turn)) :
    (∃ before, s.turn = some (call, before)) ∧ s'.hang = s.hang := by
  induction moves generalizing turn with
  | refl => exact ⟨⟨turn, current⟩, rfl⟩
  | tail _ move ih =>
    obtain ⟨⟨before, was⟩, same⟩ := move.turn_before current
    obtain ⟨first, kept⟩ := ih was
    exact ⟨first, same.trans kept⟩

theorem Moves.idle_before {now : Nat} {s s' : Supervisor} (moves : Moves now s s')
    (coherent : s.Coherent) (idle : s'.state = .idle) :
    (s.state = .idle ∧ s'.idle = s.idle) ∨
      (s.state = .busy ∧ s'.idle.deadline? = some (now + s.settings.idleTimeoutMs)) := by
  induction moves with
  | refl => exact .inl ⟨idle, rfl⟩
  | tail earlier move ih =>
    rcases move.state_cases with ⟨same, timer⟩ | ⟨busy, _, armed⟩ | dead
    · rw [timer]
      exact ih (same.symm.trans idle)
    -- the idle timer is armed by this step: a turn ends, so the state was busy before it
    · have sound := (Moves.coherent earlier coherent).idle
      rw [armed, Timer.arm_deadline sound, (Moves.steady earlier).settings]
      exact .inr ⟨Moves.busy_before earlier busy, rfl⟩
    · simp [dead] at idle

/-- The idle timer is armed exactly by the steps that make the process idle. -/
theorem Took.idle_before {now : Nat} {s s' : Supervisor} {action : Step}
    (took : Took now s action s') (coherent : s.Coherent) (idle : s'.state = .idle) :
    (s.state = .idle ∧ s'.idle = s.idle) ∨
      (s.state ≠ .idle ∧ s'.idle.deadline? = some (now + s.settings.idleTimeoutMs)) := by
  cases took with
  | launched starting rest =>
    refine .inr ⟨by simp [starting], ?_⟩
    rw [rest.idle]
    exact Timer.arm_deadline coherent.idle now _
  | launchFailed _ rest => exact absurd (rest.state.symm.trans idle) (by simp)
  | begun _ _ rest => exact absurd (rest.state.symm.trans idle) (by simp)
  | refused _ _ rest => exact .inl ⟨rest.state.symm.trans idle, rest.idle⟩
  | moved _ moves =>
    split at moves
    · rcases moves.idle_before (coherent.heard now) idle with ⟨before, same⟩ | ⟨before, deadline⟩
      · exact .inl ⟨s.heard_state now ▸ before, same.trans (s.heard_idle now)⟩
      · rw [heard_state] at before
        rw [heard_settings] at deadline
        exact .inr ⟨by simp [before], deadline⟩
    · rcases moves.idle_before coherent idle with kept | ⟨before, deadline⟩
      · exact .inl kept
      · exact .inr ⟨by simp [before], deadline⟩

theorem Took.dead {now : Nat} {s s' : Supervisor} {action : Step} (took : Took now s action s')
    (dead : s.state = .dead) : s'.state = .dead := by
  cases took with
  | launched starting rest => simp [starting] at dead
  | launchFailed _ rest => exact rest.state
  | begun idle _ rest => simp [idle] at dead
  | refused _ _ rest => exact rest.state.trans dead
  | moved _ moves =>
    have first : (if s.hears action then s.heard now else s).state = .dead := by
      split
      · exact (s.heard_state now).trans dead
      · exact dead
    induction moves with
    | refl => exact first
    | tail _ move ih => exact move.dead ih

theorem after_dead {s : Supervisor} (coherent : s.Coherent) (dead : s.state = .dead)
    (steps : List (Nat × Step)) : (s.after steps).state = .dead :=
  coherent.run (fun current _ => current.state = .dead) dead
    (fun _ _ _ _ _ _ _ took dead => took.dead dead) steps

theorem idle_deadline {s : Supervisor} (coherent : s.Coherent) (fresh : s.state ≠ .idle)
    (steps : List (Nat × Step)) (idle : (s.after steps).state = .idle) :
    ∃ since, lastTime becomesIdle (s.moments steps) = some since ∧
      (s.after steps).idle.deadline? = some (since + s.settings.idleTimeoutMs) := by
  have all := coherent.run (fun current past =>
    current.settings = s.settings ∧ (current.state = .idle →
      ∃ since, lastTime becomesIdle past = some since ∧
        current.idle.deadline? = some (since + s.settings.idleTimeoutMs)))
    ⟨rfl, fun idle => absurd idle fresh⟩ ?_ steps
  · exact all.2 idle
  rintro current past now action next ready - took ⟨same, law⟩
  refine ⟨took.settings.trans same, fun idle => ?_⟩
  rw [lastTime_snoc]
  rcases took.idle_before ready idle with ⟨before, timer⟩ | ⟨before, deadline⟩
  · rw [if_neg (by simp [becomesIdle, before]), timer]
    exact law before
  · rw [if_pos (by simp [becomesIdle, before, idle]), ← same]
    exact ⟨now, rfl, deadline⟩

/-- How the state, the turn, the timers and the input are related at any time. -/
theorem lifecycle_of_run (settings : AgentSettings) (decoder : Decoder) (hook : Bool)
    (steps : List (Nat × Step)) :
    let s := (start settings decoder hook).after steps
    let past := (start settings decoder hook).moments steps
    (s.state = .busy ↔ ∃ call turn, s.turn = some (call, turn) ∧ turn.finished = false) ∧
    (s.state = .busy ↔ s.turn.isSome = true) ∧
    (s.hang.Claimable ↔ s.state = .busy) ∧
    (s.idle.Claimable ↔ s.state = .idle) ∧
    (s.state = .idle → ∃ since, lastTime becomesIdle past = some since ∧
      s.idle.deadline? = some (since + settings.idleTimeoutMs)) ∧
    (s.state = .starting → s.turn = none ∧ s.inputOpen = false ∧ s.isLaunched = false ∧
      ¬ s.hang.Claimable ∧ ¬ s.idle.Claimable) ∧
    (s.state = .dead → s.turn = none ∧ s.inputHeld = false ∧
      ¬ s.hang.Claimable ∧ ¬ s.idle.Claimable) ∧
    (s.state = .dead → ∀ later, (s.after later).state = .dead) := by
  intro s past
  have coherent : s.Coherent := run_coherent settings decoder hook steps
  have shaped := coherent.shaped
  have hang : s.hang.Claimable ↔ s.state = .busy :=
    s.hang.claimable_iff.trans coherent.hang_held_iff
  have idle : s.idle.Claimable ↔ s.state = .idle :=
    s.idle.claimable_iff.trans coherent.idle_held_iff
  refine ⟨?_, ?_, hang, idle, ?_, ?_, ?_, fun dead => after_dead coherent dead⟩
  · constructor
    · intro busy
      obtain ⟨call, turn, current⟩ := coherent.turn_of_busy busy
      exact ⟨call, turn, current, (coherent.live call turn current).unfinished⟩
    · rintro ⟨call, turn, current, _⟩
      exact coherent.busy_of_turn current
  · constructor
    · intro busy
      obtain ⟨call, turn, current⟩ := coherent.turn_of_busy busy
      simp [current]
    · intro held
      obtain ⟨⟨call, turn⟩, current⟩ := Option.isSome_iff_exists.mp held
      exact coherent.busy_of_turn current
  · exact idle_deadline (start_coherent settings decoder hook) (by simp [start]) steps
  · intro starting
    simp only [Shaped, starting] at shaped
    obtain ⟨noTurn, _, _, noInput, noWrite, unlaunched⟩ := shaped
    exact ⟨noTurn, by simp [inputOpen, noInput, noWrite], unlaunched, by simp [hang, starting],
      by simp [idle, starting]⟩
  · intro dead
    simp only [Shaped, dead] at shaped
    exact ⟨shaped.1, shaped.2.2.2, by simp [hang, dead], by simp [idle, dead]⟩

end AgentHost.Supervisor
