import AgentHost.Proofs.Supervisor.Acceptance
import AgentHost.Proofs.Supervisor.InputLines
import AgentHost.Proofs.Supervisor.TurnEnds

namespace AgentHost.Supervisor

inductive Fails (now : Nat) (s : Supervisor) (call : Nat) : Step → String → Prop where
  | answered {action : Step} {record : Json} {message : String}
      (answers : s.answer? action = some record)
      (error : s.decoder.resultError record = some message) : Fails now s call action message
  | hung {generation : Nat} (current : s.hang.isCurrent generation = true) :
      Fails now s call (.hangRings generation) "hang detected"
  | killed {action : Step} (kills : action = .kill ∨ action = .forceKill ∨ action = .drop) :
      Fails now s call action "terminated"
  | unwritten {error : String} {rest : List UInt8} (own : s.writing = some ⟨call, rest⟩) :
      Fails now s call (.failWrite error) ("failed to write turn input: " ++ error)
  | exited {status : ExitStatus} (exits : s.exit? now .finishDraining = some status) :
      Fails now s call .finishDraining "process exited unexpectedly"

section Step

variable {s : Supervisor} {call : Nat} {turn : Turn} {now : Nat} {action : Step} {message : String}

theorem error_mem_told (live : turn.Live) (told : String) :
    .error message ∈ turn.sent ++ [.error told, .done] ↔ message = told := by
  simp [live.no_error message]

theorem fails_of_orders (coherent : s.Coherent) (current : s.turn = some (call, turn))
    (owner : ∀ write, s.writing = some write → call = write.call) {cause : Cause}
    {urgency : Urgency} (orders : s.termination? action = some (cause, urgency)) :
    Fails now s call action cause.turnError := by
  have busy := coherent.busy_of_turn current
  unfold termination? at orders
  rw [if_neg (alive_of_termination orders)] at orders
  cases action with
  | kill | forceKill | drop =>
    obtain ⟨rfl, rfl⟩ := Prod.mk.inj (Option.some.inj orders)
    exact .killed (by simp)
  | failWrite error =>
    cases underWay : s.writing with
    | none => simp [underWay] at orders
    | some write =>
      simp only [underWay, Option.isSome_some, if_true, Option.some.injEq, Prod.mk.injEq] at orders
      obtain ⟨rfl, rfl⟩ := orders
      have own : s.writing = some ⟨call, write.rest⟩ := by rw [underWay, owner write underWay]
      exact .unwritten own
  | hangRings generation =>
    dsimp only at orders
    split at orders
    · next claimable =>
      obtain ⟨rfl, rfl⟩ := Prod.mk.inj (Option.some.inj orders)
      exact .hung claimable
    · contradiction
  | idleRings generation =>
    dsimp only at orders
    split at orders
    · next claimable =>
      have idle := coherent.idle_held_iff.mp (Timer.held_of_current claimable)
      simp [busy] at idle
    · contradiction
  | _ => simp at orders

theorem error_of_orders (coherent : s.Coherent) (streams : s.Streams)
    (current : s.turn = some (call, turn)) {cause : Cause} {urgency : Urgency}
    (orders : s.termination? action = some (cause, urgency)) :
    .error cause.turnError ∈ (s.step now action).events call := by
  rw [events_of_termination coherent streams orders now current]
  simp

/-- The current turn is told an error exactly by the steps in `Fails`. -/
theorem error_iff_fails (coherent : s.Coherent) (streams : s.Streams)
    (current : s.turn = some (call, turn))
    (owner : ∀ write, s.writing = some write → call = write.call) :
    .error message ∈ (s.step now action).events call ↔ Fails now s call action message := by
  have live := coherent.live call turn current
  have busy := coherent.busy_of_turn current
  have alive : s.state ≠ .dead := by simp [busy]
  have fate := coherent.fate streams current now action
  constructor
  · intro member
    -- a turn under way has sent no error, so the error is among the events of this step
    cases fate with
    | stopped orders _ _ told =>
      rw [told, error_mem_told live] at member
      rw [member]
      exact fails_of_orders coherent current owner orders
    | exited exits _ _ told =>
      rw [told, error_mem_told live] at member
      rw [member]
      obtain ⟨rfl, _⟩ := draining_of_exit exits
      exact .exited exits
    | answered answers _ _ advances told =>
      rw [told, concludeWith_error_iff (advances.live live)] at member
      exact .answered answers member
    | goesOn _ _ _ _ advances later =>
      rw [events_of_turn later] at member
      exact absurd member ((advances.live live).no_error message)
  · intro fails
    cases fails with
    | answered answers error =>
      cases fate with
      | stopped orders => simp [(only_ending_of_orders orders now).2] at answers
      | exited exits => simp [only_ending_of_exit exits] at answers
      | answered known _ _ advances told =>
        rw [answers] at known
        obtain rfl := Option.some.inj known
        rw [told, concludeWith_error_iff (advances.live live)]
        exact error
      | goesOn _ _ unanswered => simp [unanswered] at answers
    | @hung generation claimable =>
      have orders : s.termination? (.hangRings generation) = some (.hang, .forced) := by
        simp [termination?, alive, claimable]
      exact error_of_orders coherent streams current orders
    | killed kills =>
      rcases kills with rfl | rfl | rfl
      · have orders : s.termination? .kill = some (.killed, .graceful) := if_neg alive
        exact error_of_orders coherent streams current orders
      · have orders : s.termination? .forceKill = some (.killed, .forced) := if_neg alive
        exact error_of_orders coherent streams current orders
      · have orders : s.termination? .drop = some (.dropped, .forced) := if_neg alive
        exact error_of_orders coherent streams current orders
    | unwritten own =>
      exact error_of_orders coherent streams current (failWrite_orders alive own _)
    | exited exits =>
      cases fate with
      | stopped orders => simp [(only_ending_of_orders orders now).1] at exits
      | exited _ _ _ told => simp [told]
      | answered answers => simp [only_ending_of_exit exits] at answers
      | goesOn _ runs => simp [runs] at exits

theorem answered_of_fails (fails : Fails now s call action message)
    (never : message = "idle timeout" ∨ message = "turn abandoned") :
    ∃ record, s.answer? action = some record ∧ s.decoder.resultError record = some message := by
  cases fails with
  | answered answers error => exact ⟨_, answers, error⟩
  | @unwritten error =>
    have first : ("failed to write turn input: " ++ error).toList.head? = some 'f' := by simp
    rcases never with same | same <;> rw [same] at first <;> simp at first
  | hung | killed | exited => simp at never

theorem over_of_fails (coherent : s.Coherent) (streams : s.Streams)
    (current : s.turn = some (call, turn))
    (owner : ∀ write, s.writing = some write → call = write.call)
    (fails : Fails now s call action message) : (s.step now action).Over call := by
  have took := coherent.took now action
  have told := (error_iff_fails coherent streams current owner).mpr fails
  refine ⟨took.called (streams.current call turn current).1, fun later under => ?_⟩
  rw [events_of_turn under] at told
  exact ((took.coherent coherent).live call later under).no_error message told

end Step

/-- Either the current turn goes on to the end of the run, or one of the steps ends it. -/
theorem ended_of_active {s : Supervisor} (coherent : s.Coherent) (streams : s.Streams) {call : Nat}
    {turn : Turn} (current : s.turn = some (call, turn)) (steps : List (Nat × Step)) :
    (∃ turn, (s.after steps).turn = some (call, turn)) ∨
      ∃ before now action rest turn, steps = before ++ (now, action) :: rest ∧
        (s.after before).turn = some (call, turn) ∧
        ((s.after before).step now action).Over call := by
  induction steps generalizing s turn with
  | nil => exact .inl ⟨turn, current⟩
  | cons head rest ih =>
    obtain ⟨now, action⟩ := head
    have took := coherent.took now action
    -- the ending step is the first one after which the call is no longer current
    by_cases goesOn : ∃ later, (s.step now action).turn = some (call, later)
    · obtain ⟨later, under⟩ := goesOn
      rcases ih (took.coherent coherent) (took.keeps coherent streams).streams under with
        still | ⟨before, time, last, more, ended, split, active, gone⟩
      · exact .inl still
      · exact .inr ⟨(now, action) :: before, time, last, more, ended, by rw [split]; rfl, active, gone⟩
    · have called := took.called (streams.current call turn current).1
      exact .inr ⟨[], now, action, rest, turn, rfl, current, called,
        fun later under => goesOn ⟨later, under⟩⟩

def refusals : List String := ["engine is busy", "engine is not running", "agent stdin not available"]

/-- A call is accepted, or rejected at once. -/
theorem sendTurn_cases (s : Supervisor) (now : Nat) (prompt : Prompt) :
    (∃ turn, (s.sendTurn now prompt).turn = some (s.calls, turn)) ∨
      ∃ message ∈ refusals, s.sendTurn now prompt = s.reject message := by
  cases state : s.state with
  | idle =>
    cases held : s.inputHeld with
    | true =>
      have accepts := sendTurn_of_held state held now prompt
      exact .inl ⟨_, accepts.turn⟩
    | false =>
      have away := sendTurn_of_away state held now prompt
      exact .inr ⟨ProcessFault.inputClosed.message, .tail _ (.tail _ (.head _)), away⟩
  | starting | dead =>
    exact .inr ⟨"engine is not running", by simp [refusals], by rw [sendTurn, state]⟩
  | busy => exact .inr ⟨"engine is busy", by simp [refusals], by rw [sendTurn, state]⟩

theorem events_of_reject {s : Supervisor} (streams : s.Streams) (message : String) :
    (s.reject message).events s.calls = TurnStream.rejection message := by
  have other : ∀ turn, (s.reject message).turn ≠ some (s.calls, turn) := by
    intro turn current
    exact Nat.lt_irrefl _ (streams.current s.calls turn current).1
  rw [events_of_other other]
  simp [reject, lookup_snoc, streams.none_ahead s.calls (Nat.le_refl _)]

theorem active_or_refused {s : Supervisor} (coherent : s.Coherent) (streams : s.Streams)
    (fresh : s.calls = 0) (steps : List (Nat × Step)) {call : Nat}
    (called : call < (s.after steps).calls) :
    (∃ before rest turn, steps = before ++ rest ∧ (s.after before).turn = some (call, turn)) ∨
      ∃ message ∈ refusals, (s.after steps).events call = TurnStream.rejection message := by
  induction steps using List.reverseRecOn with
  | nil => exact absurd called (by simp [after, fresh])
  | append_singleton steps last ih =>
    obtain ⟨now, action⟩ := last
    have ready := after_coherent coherent steps
    have known := (after_keeps coherent streams steps).streams
    have took := ready.took now action
    rw [after_snoc] at called ⊢
    by_cases earlier : call < (s.after steps).calls
    · rcases ih earlier with ⟨before, rest, turn, split, active⟩ | ⟨message, refusal, told⟩
      · exact .inl ⟨before, rest ++ [(now, action)], turn, by rw [split, List.append_assoc], active⟩
      · by_cases active : ∃ turn, (s.after steps).turn = some (call, turn)
        · obtain ⟨turn, current⟩ := active
          exact .inl ⟨steps, [(now, action)], turn, rfl, current⟩
        · have gone : (s.after steps).Over call := ⟨earlier, fun turn under => active ⟨turn, under⟩⟩
          exact .inr ⟨message, refusal, (took.over ready known gone).2.trans told⟩
    · -- the call is that of this step
      have counted := took.calls
      cases action with
      | sendTurn prompt =>
        have latest : call = (s.after steps).calls := by
          simp only [isCall, if_true] at counted
          omega
        rw [latest]
        rcases (s.after steps).sendTurn_cases now prompt with ⟨turn, begun⟩ | ⟨message, refusal, same⟩
        · exact .inl ⟨steps ++ [(now, .sendTurn prompt)], [], turn, by simp,
            by rw [after_snoc]; exact begun⟩
        · refine .inr ⟨message, refusal, ?_⟩
          dsimp only [step]
          rw [same]
          exact events_of_reject known message
      | _ => exact absurd called (by rw [counted]; simpa [isCall] using earlier)

section Run

variable (settings : AgentSettings) (decoder : Decoder) (hook : Bool)

theorem run_decoder (steps : List (Nat × Step)) :
    ((start settings decoder hook).after steps).decoder = decoder :=
  after_decoder (start_coherent settings decoder hook) steps

/-- The line being written belongs to the current turn. -/
theorem run_owner {before : List (Nat × Step)} {call : Nat} {turn : Turn}
    (current : ((start settings decoder hook).after before).turn = some (call, turn)) (write : Write)
    (underWay : ((start settings decoder hook).after before).writing = some write) :
    call = write.call :=
  (run_fed settings decoder hook before).owner write call turn underWay current

theorem told_of_fails {before : List (Nat × Step)} {now : Nat} {action : Step} {call : Nat}
    {turn : Turn} {message : String}
    (current : ((start settings decoder hook).after before).turn = some (call, turn))
    (fails : Fails now ((start settings decoder hook).after before) call action message)
    (rest : List (Nat × Step)) :
    let told := ((start settings decoder hook).after (before ++ [(now, action)])).events call
    ((start settings decoder hook).after (before ++ (now, action) :: rest)).events call = told ∧
      ∀ other, .error other ∈ told ↔ other = message := by
  intro told
  have coherent := run_coherent settings decoder hook before
  have streams := run_streams settings decoder hook before
  have owner := run_owner settings decoder hook current
  have gone := over_of_fails coherent streams current owner fails
  have failed : .error message ∈ told := by
    unfold told
    rw [after_snoc]
    exact (error_iff_fails coherent streams current owner).mpr fails
  have reached := after_snoc (start settings decoder hook) before now action
  have ready := run_coherent settings decoder hook (before ++ [(now, action)])
  have known := run_streams settings decoder hook (before ++ [(now, action)])
  rw [← reached] at gone
  have whole : WholeStream told := known.whole gone.called gone.other
  refine ⟨?_, fun other => ⟨fun again => whole.error_unique failed again, fun same => ?_⟩⟩
  · have parts : before ++ (now, action) :: rest = (before ++ [(now, action)]) ++ rest := by simp
    rw [parts, after_append]
    exact (after_over ready known gone rest).2
  · rw [same]
    exact failed

theorem fails_of_told {before rest : List (Nat × Step)} {call : Nat} {turn : Turn}
    {message : String}
    (current : ((start settings decoder hook).after before).turn = some (call, turn))
    (told : .error message ∈ ((start settings decoder hook).after (before ++ rest)).events call) :
    ∃ earlier now action later turn, rest = earlier ++ (now, action) :: later ∧
      ((start settings decoder hook).after (before ++ earlier)).turn = some (call, turn) ∧
      Fails now ((start settings decoder hook).after (before ++ earlier)) call action message := by
  have coherent := run_coherent settings decoder hook before
  have streams := run_streams settings decoder hook before
  rcases ended_of_active coherent streams current rest with
    ⟨turn, active⟩ | ⟨earlier, now, action, later, turn, split, active, gone⟩
  · rw [← after_append] at active
    have live := (run_coherent settings decoder hook (before ++ rest)).live call turn active
    rw [events_of_turn active] at told
    exact absurd told (live.no_error message)
  · -- the stream has not changed since the step that ended the turn
    rw [← after_append] at active gone
    have ready := run_coherent settings decoder hook (before ++ earlier)
    have known := run_streams settings decoder hook (before ++ earlier)
    have took := ready.took now action
    have parts : before ++ rest = (before ++ earlier) ++ [(now, action)] ++ later := by simp [split]
    rw [parts, after_append, after_snoc,
      (after_over (took.coherent ready) (took.keeps ready known).streams gone later).2] at told
    have owner := run_owner settings decoder hook active
    exact ⟨earlier, now, action, later, turn, split, active,
      (error_iff_fails ready known active owner).mp told⟩

/-- Every error of a turn is caused by exactly one step, taken while the turn was current, and every
    such step tells the turn its error. -/
theorem errors_of_run :
    let run := (start settings decoder hook).after
    (∀ steps, (run steps).decoder = decoder) ∧
    (∀ before rest call turn message, (run before).turn = some (call, turn) →
      .error message ∈ (run (before ++ rest)).events call →
      ∃ earlier now action later turn, rest = earlier ++ (now, action) :: later ∧
        (run (before ++ earlier)).turn = some (call, turn) ∧
        Fails now (run (before ++ earlier)) call action message) ∧
    (∀ before now action rest call turn message, (run before).turn = some (call, turn) →
      Fails now (run before) call action message →
      let told := (run (before ++ [(now, action)])).events call
      (run (before ++ (now, action) :: rest)).events call = told ∧
        ∀ other, .error other ∈ told ↔ other = message) ∧
    ∀ steps call message, .error message ∈ (run steps).events call →
      message = "idle timeout" ∨ message = "turn abandoned" →
      ∃ before now action rest turn record, steps = before ++ (now, action) :: rest ∧
        (run before).turn = some (call, turn) ∧ (run before).answer? action = some record ∧
        decoder.resultError record = some message := by
  intro run
  refine ⟨run_decoder settings decoder hook, ?_, ?_, ?_⟩
  · intro before rest call turn message current told
    exact fails_of_told settings decoder hook current told
  · intro before now action rest call turn message current fails
    exact told_of_fails settings decoder hook current fails rest
  · intro steps call message told never
    have coherent := start_coherent settings decoder hook
    have streams := start_streams settings decoder hook
    have called : call < (run steps).calls := by
      refine Nat.lt_of_not_le fun ahead => ?_
      rw [(run_streams settings decoder hook steps).events_ahead ahead] at told
      simp at told
    rcases active_or_refused coherent streams rfl steps called with
      ⟨before, rest, turn, split, active⟩ | ⟨refusal, known, whole⟩
    · rw [split] at told
      obtain ⟨earlier, now, action, later, turn, parts, current, fails⟩ :=
        fails_of_told settings decoder hook active told
      obtain ⟨record, answers, error⟩ := answered_of_fails fails never
      rw [run_decoder] at error
      exact ⟨before ++ earlier, now, action, later, turn, record, by rw [split, parts]; simp,
        current, answers, error⟩
    · rw [whole] at told
      have same : message = refusal := by simpa [TurnStream.rejection] using told
      rw [← same] at known
      rcases never with rfl | rfl <;> exact absurd known (by decide)

end Run

end AgentHost.Supervisor
