import AgentHost.Proofs.Supervisor.Run
import AgentHost.Proofs.TimerLaws
import AgentHost.Proofs.TurnEvents
import Mathlib.Logic.Relation

namespace AgentHost.Supervisor

open Relation (ReflTransGen)

structure Aside (s s' : Supervisor) : Prop where
  settings : s'.settings = s.settings
  decoder : s'.decoder = s.decoder
  state : s'.state = s.state
  turn : s'.turn = s.turn
  ended : s'.ended = s.ended
  calls : s'.calls = s.calls
  hang : s'.hang = s.hang
  idle : s'.idle = s.idle
  inputHeld : s'.inputHeld = s.inputHeld
  writing : s'.writing = s.writing
  written : s'.written = s.written
  isLaunched : s'.isLaunched = s.isLaunched

theorem Aside.refl (s : Supervisor) : Aside s s := by constructor <;> rfl

theorem Aside.trans {a b c : Supervisor} (first : Aside a b) (second : Aside b c) : Aside a c where
  settings := second.settings.trans first.settings
  decoder := second.decoder.trans first.decoder
  state := second.state.trans first.state
  turn := second.turn.trans first.turn
  ended := second.ended.trans first.ended
  calls := second.calls.trans first.calls
  hang := second.hang.trans first.hang
  idle := second.idle.trans first.idle
  inputHeld := second.inputHeld.trans first.inputHeld
  writing := second.writing.trans first.writing
  written := second.written.trans first.written
  isLaunched := second.isLaunched.trans first.isLaunched

def failed (s : Supervisor) (message : String) : List (Nat × List Event) :=
  s.turn.toList.map fun (call, turn) => (call, (turn.fail message).sent)

def stopped (s : Supervisor) (message : String) (hang idle : Timer) (writing : Option Write) :
    Supervisor :=
  { s with
    state := .dead, turn := none, ended := s.ended ++ s.failed message
    hang, idle, inputHeld := false, writing }

def completed (s : Supervisor) (now call : Nat) (events : List Event) : Supervisor :=
  { s with
    state := if s.state = .busy then .idle else s.state
    turn := none, ended := s.ended ++ [(call, events)]
    hang := s.hang.cancel
    idle := if s.state = .busy then s.idle.arm now s.settings.idleTimeoutMs else s.idle }

inductive Move (now : Nat) (s s' : Supervisor) : Prop where
  | aside (rest : Aside s s')
  | advance {call : Nat} {before after : Turn} (was : s.turn = some (call, before))
      (advances : before.Advances after) (rest : Aside { s with turn := some (call, after) } s')
  | complete {call : Nat} {before after : Turn} (was : s.turn = some (call, before))
      (ends : before.Ends after) (rest : Aside (s.completed now call after.sent) s')
  | stop (message : String) (hang : s.hang.Released s'.hang) (idle : s.idle.Released s'.idle)
      (writing : s'.writing = s.writing ∨ s'.writing = none)
      (rest : Aside (s.stopped message s'.hang s'.idle s'.writing) s')
  | inputTaken {write : Write} (count : Nat) (was : s.writing = some write)
      (rest : Aside { s with
        written := s.written ++ write.rest.take count
        writing := some { write with rest := write.rest.drop count } } s')
  | inputReturned {call : Nat} (was : s.writing = some ⟨call, []⟩)
      (rest : Aside { s with writing := none, inputHeld := s.state != .dead } s')
  | inputLost (dead : s.state = .dead) (rest : Aside { s with writing := none } s')

structure Steady (s s' : Supervisor) : Prop where
  settings : s'.settings = s.settings
  decoder : s'.decoder = s.decoder
  calls : s'.calls = s.calls

theorem Aside.steady {s s' : Supervisor} (same : Aside s s') : Steady s s' :=
  ⟨same.settings, same.decoder, same.calls⟩

theorem Move.steady {now : Nat} {s s' : Supervisor} (move : Move now s s') : Steady s s' := by
  cases move with
  | aside rest => exact rest.steady
  | advance _ _ rest => exact ⟨rest.settings, rest.decoder, rest.calls⟩
  | complete _ _ rest => exact ⟨rest.settings, rest.decoder, rest.calls⟩
  | stop _ _ _ _ rest => exact ⟨rest.settings, rest.decoder, rest.calls⟩
  | inputTaken _ _ rest => exact ⟨rest.settings, rest.decoder, rest.calls⟩
  | inputReturned _ rest => exact ⟨rest.settings, rest.decoder, rest.calls⟩
  | inputLost _ rest => exact ⟨rest.settings, rest.decoder, rest.calls⟩

abbrev Moves (now : Nat) : Supervisor → Supervisor → Prop := ReflTransGen (Move now)

theorem Moves.single {now : Nat} {s s' : Supervisor} (move : Move now s s') : Moves now s s' :=
  ReflTransGen.single move

theorem Moves.aside {now : Nat} {s s' : Supervisor} (rest : Aside s s') : Moves now s s' :=
  .single (.aside rest)

theorem Moves.steady {now : Nat} {s s' : Supervisor} (moves : Moves now s s') : Steady s s' := by
  induction moves with
  | refl => exact ⟨rfl, rfl, rfl⟩
  | tail _ move ih =>
    have last := move.steady
    exact ⟨last.settings.trans ih.settings, last.decoder.trans ih.decoder,
      last.calls.trans ih.calls⟩

theorem note_aside (s : Supervisor) (notice : Notice) : Aside s (s.note notice) := by
  constructor <;> rfl

theorem askToEnd_aside (s : Supervisor) (now : Nat) (urgency : Urgency) :
    Aside s (s.askToEnd now urgency) := by
  unfold askToEnd
  split
  · cases urgency <;> constructor <;> rfl
  · constructor <;> rfl

theorem closeTurn_eq (s : Supervisor) (last : Turn → Turn) :
    s.closeTurn last = { s with
      turn := none
      ended := s.ended ++ s.turn.toList.map fun (call, turn) => (call, (last turn).abandon.sent) } := by
  unfold closeTurn
  cases turn : s.turn with
  | none => cases s; simp_all
  | some current => rfl

theorem shutDown_eq (s : Supervisor) (message : String) :
    s.shutDown message = s.stopped message s.hang.cancel s.idle.cancel s.writing := by
  unfold shutDown
  rw [closeTurn_eq]
  simp only [(Turn.fail_ends _ message).unabandoned]
  rfl

theorem terminate_aside {s : Supervisor} (alive : s.state ≠ .dead) (now : Nat) (cause : Cause)
    (urgency : Urgency) :
    Aside (s.stopped cause.turnError s.hang.cancel s.idle.cancel s.writing)
      (s.terminate now cause urgency).2 := by
  unfold terminate
  rw [if_neg alive]
  dsimp only
  rw [shutDown_eq]
  exact Aside.trans (by constructor <;> rfl) (askToEnd_aside _ now urgency)

theorem Aside.stopped {s s' : Supervisor}
    (same : Aside { s with hang := s'.hang, idle := s'.idle, writing := s'.writing } s')
    (message : String) (hang idle : Timer) (writing : Option Write) :
    Aside (s.stopped message hang idle writing) (s'.stopped message hang idle writing) := by
  have told : s'.ended ++ s'.failed message = s.ended ++ s.failed message := by
    rw [failed, failed, same.turn, same.ended]
  exact ⟨same.settings, same.decoder, rfl, rfl, told, same.calls, rfl, rfl, rfl, rfl, same.written,
    same.isLaunched⟩

theorem terminate_move {s noted : Supervisor} (now : Nat) (cause : Cause) (urgency : Urgency)
    (same : Aside { s with hang := noted.hang, idle := noted.idle, writing := noted.writing } noted)
    (alive : s.state ≠ .dead) (hang : s.hang.Released noted.hang.cancel)
    (idle : s.idle.Released noted.idle.cancel)
    (writing : noted.writing = s.writing ∨ noted.writing = none) :
    Move now s (noted.terminate now cause urgency).2 := by
  have rest := terminate_aside (by rw [same.state]; exact alive) now cause urgency
  refine .stop cause.turnError (by rw [rest.hang]; exact hang)
    (by rw [rest.idle]; exact idle) (by rw [rest.writing]; exact writing) ?_
  rw [rest.hang, rest.idle, rest.writing]
  exact (same.stopped _ _ _ _).trans rest

theorem terminate_moves (s : Supervisor) (now : Nat) (cause : Cause) (urgency : Urgency) :
    Moves now s (s.terminate now cause urgency).2 := by
  by_cases dead : s.state = .dead
  · rw [terminate, if_pos dead]
  · exact .single (terminate_move now cause urgency (.refl s) dead s.hang.cancel_released
      s.idle.cancel_released (.inl rfl))

theorem failWrite_moves (s : Supervisor) (now : Nat) (error : String) :
    Moves now s (s.failWrite now error) := by
  unfold failWrite
  cases s.writing with
  | none => exact .refl
  | some write =>
    let noted := { s with writing := none }.note (.writeAborted error)
    change Moves now s (noted.terminate now (.writeFailed error) .forced).2
    by_cases dead : s.state = .dead
    · have unchanged : (noted.terminate now (.writeFailed error) .forced).2 = noted := by
        rw [terminate, if_pos (show noted.state = .dead from dead)]
      rw [unchanged]
      exact .single (.inputLost dead (by constructor <;> rfl))
    · exact .single (terminate_move now _ _ (by constructor <;> rfl) dead s.hang.cancel_released
        s.idle.cancel_released (.inr rfl))

/-- The hang timer either ends the process and its turn, or has no effect. -/
theorem onHang_cases {s : Supervisor} (busy : s.hang.held = true → s.state = .busy)
    (now generation : Nat) :
    (s.hang.isCurrent generation = true ∧ ∃ hang, s.hang.Released hang ∧
      Aside (s.stopped "hang detected" hang s.idle.cancel s.writing) (s.onHang now generation)) ∨
    (s.hang.isCurrent generation = false ∧ s.onHang now generation = s) := by
  unfold onHang
  rcases s.hang.take_cases generation with ⟨current, taken, released⟩ | ⟨other, missed⟩
  · have isBusy := busy (Timer.held_of_current current)
    have fires : ((s.hang.take generation).1 && s.state == .busy) = true := by simp [taken, isBusy]
    refine .inl ⟨current, _, released.trans (Timer.cancel_released _), ?_⟩
    change Aside _ (if (s.hang.take generation).1 && s.state == .busy then _ else _ : Supervisor)
    rw [if_pos fires]
    let noted := { s with hang := (s.hang.take generation).2 }.note
      (.hung s.settings.hangTimeoutMs s.pid s.turn.isSome)
    have alive : noted.state ≠ .dead := by simp [noted, note, isBusy]
    exact Aside.trans (by constructor <;> rfl) (terminate_aside alive now .hang .forced)
  · rw [missed]
    exact .inr ⟨other, rfl⟩

theorem onHang_moves {s : Supervisor} (busy : s.hang.held = true → s.state = .busy)
    (now generation : Nat) : Moves now s (s.onHang now generation) := by
  rcases onHang_cases busy now generation with ⟨_, hang, released, rest⟩ | ⟨_, same⟩
  · refine .single (.stop "hang detected" (by rw [rest.hang]; exact released)
      (by rw [rest.idle]; exact s.idle.cancel_released) (.inl rest.writing) ?_)
    rw [rest.hang, rest.idle, rest.writing]
    exact rest
  · rw [same]

theorem onIdle_moves {s : Supervisor} (idle : s.idle.held = true → s.state = .idle)
    (now generation : Nat) : Moves now s (s.onIdle now generation) := by
  unfold onIdle
  rcases s.idle.take_cases generation with ⟨current, taken, released⟩ | ⟨_, missed⟩
  · have isIdle := idle (Timer.held_of_current current)
    have fires : ((s.idle.take generation).1 && s.state == .idle) = true := by simp [taken, isIdle]
    change Moves now s (if (s.idle.take generation).1 && s.state == .idle then _ else _)
    rw [if_pos fires]
    exact .single (terminate_move now _ _ (by constructor <;> rfl) (by simp [isIdle])
      s.hang.cancel_released (released.trans (Timer.cancel_released _)) (.inl rfl))
  · rw [missed]
    exact .refl

end AgentHost.Supervisor
