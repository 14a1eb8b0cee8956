import AgentHost.Proofs.Supervisor.Lifecycle
import AgentHost.Proofs.Supervisor.Streams

namespace AgentHost

theorem WholeStream.ends_done {events : List Event} (whole : WholeStream events) :
    ∃ before, events = before ++ [.done] := by
  obtain ⟨before, after, split⟩ := List.append_of_mem whole.done_mem
  have nothing := whole.nothing_after_done split
  exact ⟨before, by rw [split, nothing]⟩

namespace Supervisor

def Moment.begins (moment : Moment) : Bool :=
  isCall moment.action && moment.after.turn.any fun (call, _) => call == moment.before.calls

theorem Took.begins_iff {now : Nat} {s s' : Supervisor} {action : Step}
    (took : Took now s action s') (streams : s.Streams) :
    Moment.begins ⟨now, action, s, s'⟩ = true ↔
      ∃ prompt, action = .sendTurn prompt ∧ s.state = .idle ∧ s.inputHeld = true := by
  cases took with
  | launched | launchFailed => simp [Moment.begins, isCall]
  | @begun prompt _ idle held rest => simp [Moment.begins, isCall, rest.turn, idle, held]
  | @refused prompt _ message why rest =>
    have unbegun : (s'.turn.any fun (call, _) => call == s.calls) = false := by
      cases current : s.turn with
      | none => simp [rest.turn.trans current]
      | some made =>
        obtain ⟨call, turn⟩ := made
        have earlier := (streams.current call turn current).1
        simp [rest.turn.trans current]
        omega
    simp only [Moment.begins, isCall, unbegun, Bool.and_false, Bool.false_eq_true, false_iff]
    rintro ⟨_, _, idle, held⟩
    rw [why idle] at held
    contradiction
  | moved uncalled =>
    simp only [Moment.begins, isCall_eq_false uncalled, Bool.false_and, Bool.false_eq_true, false_iff]
    rintro ⟨prompt, calls, _⟩
    exact uncalled prompt calls

/-- The current turn has begun in this step or was current before it. -/
theorem Took.turn_before {now : Nat} {s s' : Supervisor} {action : Step}
    (took : Took now s action s') {call : Nat} {turn : Turn}
    (current : s'.turn = some (call, turn)) :
    (∃ before, s.turn = some (call, before)) ∨
      call = s.calls ∧ Moment.begins ⟨now, action, s, s'⟩ = true := by
  cases took with
  | launched _ rest => exact .inl ⟨turn, rest.turn.symm.trans current⟩
  | launchFailed _ rest => exact .inl ⟨turn, rest.turn.symm.trans current⟩
  | begun _ _ rest =>
    have made := rest.turn.symm.trans current
    simp only [Option.some.injEq, Prod.mk.injEq] at made
    exact .inr ⟨made.1.symm, by simp [Moment.begins, isCall, rest.turn]⟩
  | refused _ _ rest => exact .inl ⟨turn, rest.turn.symm.trans current⟩
  | moved _ moves =>
    obtain ⟨⟨before, was⟩, _⟩ := moves.turn_before current
    refine .inl ⟨before, ?_⟩
    split at was
    · exact (s.heard_turn now).symm.trans was
    · exact was

structure Over (s : Supervisor) (call : Nat) : Prop where
  called : call < s.calls
  other : ∀ turn, s.turn ≠ some (call, turn)

theorem Took.called {now : Nat} {s s' : Supervisor} {action : Step} (took : Took now s action s')
    {call : Nat} (called : call < s.calls) : call < s'.calls := by
  have counted := took.calls
  omega

/-- The events of an ended turn do not change. -/
theorem Took.over {now : Nat} {s s' : Supervisor} {action : Step} (took : Took now s action s')
    (coherent : s.Coherent) (streams : s.Streams) {call : Nat} (gone : s.Over call) :
    s'.Over call ∧ s'.events call = s.events call := by
  have keeps := took.keeps coherent streams
  have called := took.called gone.called
  obtain ⟨before, ends⟩ := (streams.whole gone.called gone.other).ends_done
  obtain ⟨more, grown⟩ := keeps.grows call
  have told : s'.events call = before ++ .done :: more := by
    rw [← grown, ends, List.append_assoc]
    rfl
  have other : ∀ turn, s'.turn ≠ some (call, turn) := by
    intro turn current
    rw [events_of_turn current] at told
    have progress := ((took.coherent coherent).live call turn current).progress .done (by simp [told])
    simp [Event.isProgress] at progress
  -- the stream already has its `done`, and a stream has at most one
  have nothing := (keeps.streams.whole called other).nothing_after_done told
  exact ⟨⟨called, other⟩, by rw [told, ends, nothing]⟩

theorem Streams.events_ahead {s : Supervisor} (streams : s.Streams) {call : Nat}
    (ahead : s.calls ≤ call) : s.events call = [] := by
  have other : ∀ turn, s.turn ≠ some (call, turn) := by
    intro turn current
    have called := (streams.current call turn current).1
    omega
  rw [events_of_other other, streams.none_ahead call ahead]
  rfl

theorem Took.unheard {now : Nat} {s s' : Supervisor} {action : Step} (took : Took now s action s')
    (coherent : s.Coherent) (streams : s.Streams) (uncalled : isCall action = false) {call : Nat}
    (other : ∀ turn, s.turn ≠ some (call, turn)) : s'.events call = s.events call := by
  by_cases called : call < s.calls
  · exact (took.over coherent streams ⟨called, other⟩).2
  · have ahead := Nat.le_of_not_lt called
    have counted := took.calls
    rw [uncalled] at counted
    rw [streams.events_ahead ahead,
      (took.keeps coherent streams).streams.events_ahead (counted ▸ ahead)]

theorem after_over {s : Supervisor} (coherent : s.Coherent) (streams : s.Streams) {call : Nat}
    (gone : s.Over call) (steps : List (Nat × Step)) :
    (s.after steps).Over call ∧ (s.after steps).events call = s.events call := by
  have all := coherent.run (fun current _ => current.Streams ∧ current.Over call ∧
    current.events call = s.events call) ⟨streams, gone, rfl⟩ ?_ steps
  · exact all.2
  rintro current past now action next ready - took ⟨known, stays, same⟩
  obtain ⟨still, unchanged⟩ := took.over ready known stays
  exact ⟨(took.keeps ready known).streams, still, unchanged.trans same⟩

def termination? (s : Supervisor) (action : Step) : Option (Cause × Urgency) :=
  if s.state = .dead then none
  else
    match action with
    | .kill => some (.killed, .graceful)
    | .forceKill => some (.killed, .forced)
    | .drop => some (.dropped, .forced)
    | .failWrite error => if s.writing.isSome then some (.writeFailed error, .forced) else none
    | .hangRings generation => if s.hang.isCurrent generation then some (.hang, .forced) else none
    | .idleRings generation =>
      if s.idle.isCurrent generation then some (.idleTimeout, .graceful) else none
    | _ => none

def keptWrite (s : Supervisor) : Step → Option Write
  | .failWrite _ => none
  | _ => s.writing

theorem alive_of_termination {s : Supervisor} {action : Step} {order : Cause × Urgency}
    (orders : s.termination? action = some order) : s.state ≠ .dead := by
  intro dead
  simp [termination?, dead] at orders

theorem onHang_of_current {s : Supervisor} (busy : s.state = .busy) {generation : Nat}
    (current : s.hang.isCurrent generation = true) (now : Nat) :
    s.onHang now generation = (({ s with hang := (s.hang.take generation).2 }.note
      (.hung s.settings.hangTimeoutMs s.pid s.turn.isSome)).terminate now .hang .forced).2 := by
  have taken : (s.hang.take generation).1 = true := by simp [Timer.take, current]
  have fires : ((s.hang.take generation).1 && s.state == .busy) = true := by simp [taken, busy]
  exact if_pos fires

theorem onIdle_of_current {s : Supervisor} (idle : s.state = .idle) {generation : Nat}
    (current : s.idle.isCurrent generation = true) (now : Nat) :
    s.onIdle now generation = (({ s with idle := (s.idle.take generation).2 }.note
      (.idled s.settings.idleTimeoutMs s.pid)).terminate now .idleTimeout .graceful).2 := by
  have taken : (s.idle.take generation).1 = true := by simp [Timer.take, current]
  have fires : ((s.idle.take generation).1 && s.state == .idle) = true := by simp [taken, idle]
  exact if_pos fires

theorem onHang_of_stale {s : Supervisor} {generation : Nat}
    (stale : s.hang.isCurrent generation = false) (now : Nat) : s.onHang now generation = s := by
  simp [onHang, Timer.take, stale]

theorem onIdle_of_stale {s : Supervisor} {generation : Nat}
    (stale : s.idle.isCurrent generation = false) (now : Nat) : s.onIdle now generation = s := by
  simp [onIdle, Timer.take, stale]

/-- All orders to end the process do the same, apart from their notices and timers. -/
theorem step_of_termination {s : Supervisor} (coherent : s.Coherent) {action : Step} {cause : Cause}
    {urgency : Urgency} (orders : s.termination? action = some (cause, urgency)) (now : Nat) :
    ∃ hang idle notices, hang.generation = s.hang.generation ∧
      idle.generation = s.idle.generation ∧ s.step now action = (terminate { s with
        hang, idle, notices, writing := s.keptWrite action } now cause urgency).2 := by
  unfold termination? at orders
  rw [if_neg (alive_of_termination orders)] at orders
  cases action with
  | kill | forceKill | drop =>
    obtain ⟨rfl, rfl⟩ := Prod.mk.inj (Option.some.inj orders)
    exact ⟨s.hang, s.idle, s.notices, rfl, rfl, rfl⟩
  | failWrite error =>
    dsimp only at orders
    cases writing : s.writing with
    | none => simp [writing] at orders
    | some write =>
      simp only [writing, Option.isSome_some, if_true, Option.some.injEq, Prod.mk.injEq] at orders
      obtain ⟨rfl, rfl⟩ := orders
      refine ⟨s.hang, s.idle, s.notices ++ [.writeAborted error], rfl, rfl, ?_⟩
      change s.failWrite now error = _
      rw [failWrite, writing]
      rfl
  | hangRings generation =>
    dsimp only at orders
    split at orders
    · next current =>
      obtain ⟨rfl, rfl⟩ := Prod.mk.inj (Option.some.inj orders)
      have busy := coherent.hang_held_iff.mp (Timer.held_of_current current)
      exact ⟨_, s.idle, _, s.hang.take_generation generation, rfl, onHang_of_current busy current now⟩
    · simp at orders
  | idleRings generation =>
    dsimp only at orders
    split at orders
    · next current =>
      obtain ⟨rfl, rfl⟩ := Prod.mk.inj (Option.some.inj orders)
      have idle := coherent.idle_held_iff.mp (Timer.held_of_current current)
      exact ⟨s.hang, _, _, rfl, s.idle.take_generation generation, onIdle_of_current idle current now⟩
    · simp at orders
  | _ => simp at orders

theorem step_stopped {s : Supervisor} (coherent : s.Coherent) {action : Step} {cause : Cause}
    {urgency : Urgency} (orders : s.termination? action = some (cause, urgency)) (now : Nat) :
    ∃ hang idle, hang.generation = s.hang.generation ∧ idle.generation = s.idle.generation ∧
      Aside (s.stopped cause.turnError hang idle (s.keptWrite action)) (s.step now action) := by
  obtain ⟨hang, idle, notices, sameHang, sameIdle, given⟩ := step_of_termination coherent orders now
  have alive := alive_of_termination orders
  rw [given]
  refine ⟨hang.cancel, idle.cancel, hang.cancel_generation.trans sameHang,
    idle.cancel_generation.trans sameIdle, ?_⟩
  exact Aside.trans (by constructor <;> rfl) (terminate_aside (by exact alive) now cause urgency)

/-- An order to end the process tells the current turn its cause, then `done`. -/
theorem events_of_termination {s : Supervisor} (coherent : s.Coherent) (streams : s.Streams)
    {action : Step} {cause : Cause} {urgency : Urgency}
    (orders : s.termination? action = some (cause, urgency)) (now : Nat) {call : Nat} {turn : Turn}
    (current : s.turn = some (call, turn)) :
    (s.step now action).events call = turn.sent ++ [.error cause.turnError, .done] := by
  obtain ⟨hang, idle, _, _, rest⟩ := step_stopped coherent orders now
  exact events_of_stopped streams current (coherent.live call turn current) rest

theorem state_of_termination {s : Supervisor} (coherent : s.Coherent) {action : Step}
    {order : Cause × Urgency} (orders : s.termination? action = some order) (now : Nat) :
    (s.step now action).state = .dead := by
  obtain ⟨hang, idle, _, _, rest⟩ := step_stopped coherent orders now
  exact rest.state

end Supervisor

end AgentHost
