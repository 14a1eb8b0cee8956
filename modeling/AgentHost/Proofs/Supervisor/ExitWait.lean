import AgentHost.Proofs.Supervisor.Errors
import AgentHost.Proofs.Supervisor.OutputLines

namespace AgentHost.Supervisor

def Moment.reaps (moment : Moment) : Bool :=
  match moment.action with
  | .processExits _ => moment.before.observer == .watching
  | _ => false

/-- The time at which an exit is handled: at once if the output has ended before, otherwise at the
    end of the output, but no later than `drainTime` after the exit. -/
def exitDue (exit : Nat) (ended : Option Nat) : Nat :=
  match ended with
  | some time => if time ≤ exit then exit else min time (exit + drainTime)
  | none => exit + drainTime

def exitDue? (past : List Moment) : Option Nat :=
  if past.any Moment.exits then none
  else (lastTime Moment.reaps past).map fun exit => exitDue exit (lastTime Moment.endsOutput past)

/-- No step comes after the time at which an exit is to be handled. -/
def DrainsOnTime (past : List Moment) : Prop :=
  ∀ i (inside : i < past.length), ∀ due ∈ exitDue? (past.take i), past[i].time ≤ due

instance (past : List Moment) : Decidable (DrainsOnTime past) :=
  inferInstanceAs (Decidable (∀ i (inside : i < past.length), ∀ due ∈ exitDue? (past.take i),
    past[i].time ≤ due))

def Awaited (observer : Observer) (past : List Moment) : Prop :=
  match observer with
  | .absent | .watching => lastTime Moment.reaps past = none
  | .draining _ deadline => ∃ exit, lastTime Moment.reaps past = some exit ∧ deadline = exit + drainTime
  | .finished => True

section Observed

variable {s s' : Supervisor} {past : List Moment} {now : Nat} {action : Step}

theorem Awaited.still {observer : Observer} (awaited : Awaited observer past) {moment : Moment}
    (other : moment.reaps = false) : Awaited observer (past ++ [moment]) := by
  have same : lastTime Moment.reaps (past ++ [moment]) = lastTime Moment.reaps past := by
    rw [lastTime_snoc, if_neg (by simp [other])]
  unfold Awaited
  rw [same]
  exact awaited

theorem Awaited.processExits (awaited : Awaited s.observer past) (now : Nat) (status : ExitStatus) :
    Awaited (s.processExits now status).observer (past ++ [⟨now, .processExits status, s, s'⟩]) := by
  by_cases watching : s.observer = .watching
  · have next : (s.processExits now status).observer = .draining status (now + drainTime) := by
      simp [Supervisor.processExits, watching]
    rw [next]
    refine ⟨now, ?_, rfl⟩
    rw [lastTime_snoc, if_pos (by simp [Moment.reaps, watching])]
  · have next : (s.processExits now status).observer = s.observer := by
      simp [Supervisor.processExits, watching]
    rw [next]
    exact awaited.still (by simp [Moment.reaps, watching])

theorem Awaited.ending {side : EndSide} (awaited : Awaited s.observer past) (coherent : s.Coherent)
    (ending : EndTook now s action side) (other : ∀ status, action ≠ .processExits status) :
    Awaited side.observer (past ++ [⟨now, action, s, s'⟩]) := by
  have unreaped : Moment.reaps ⟨now, action, s, s'⟩ = false := by
    cases action <;> first | rfl | exact absurd rfl (other _)
  cases ending with
  | launched starting =>
    have shaped := coherent.shaped
    simp only [Shaped, starting] at shaped
    have absent : s.observer = .absent := by simpa [isLaunched] using shaped.2.2.2.2.2
    rw [absent] at awaited
    have waits : Awaited .watching past := awaited
    exact waits.still unreaped
  | ordered =>
    rw [(asked_same s.endSide now s.settings.killGraceMs _).1]
    exact awaited.still unreaped
  | reaped => exact absurd rfl (other _)
  | exited => trivial
  | launchFailed | overdue | obeyed | quiet => exact awaited.still unreaped

theorem Awaited.step (awaited : Awaited s.observer past) (coherent : s.Coherent) (now : Nat)
    (action : Step) : Awaited (s.step now action).observer
      (past ++ [⟨now, action, s, s.step now action⟩]) := by
  by_cases exits : ∃ status, action = .processExits status
  · obtain ⟨status, rfl⟩ := exits
    exact awaited.processExits now status
  · exact awaited.ending coherent (coherent.ending now action) fun status same => exits ⟨status, same⟩

theorem EndTook.stays_finished {side : EndSide} (ending : EndTook now s action side)
    (coherent : s.Coherent) (finished : s.observer = .finished) : side.observer = .finished := by
  cases ending with
  | launched starting =>
    have shaped := coherent.shaped
    simp only [Shaped, starting] at shaped
    simp [isLaunched, finished] at shaped
  | ordered =>
    rw [(asked_same s.endSide now s.settings.killGraceMs _).1]
    exact finished
  | reaped watching => simp [watching] at finished
  | exited => rfl
  | launchFailed | overdue | obeyed | quiet => exact finished

theorem after_finished (coherent : s.Coherent) (finished : s.observer = .finished)
    (later : List (Nat × Step)) : (s.after later).observer = .finished := by
  refine coherent.run (fun current _ => current.observer = .finished) finished ?_ later
  rintro current past now action next ready rfl took still
  exact (ready.ending now action).stays_finished ready still

theorem finished_of_exit {status : ExitStatus} (exits : s.exit? now action = some status) :
    (s.step now action).observer = .finished := by
  obtain ⟨rfl, _⟩ := draining_of_exit exits
  have left : (s.step now .finishDraining).endSide = s.endSide.left := by
    dsimp only [Supervisor.step]
    rw [finishDraining_of_exit exits, onExit_endSide]
  exact congrArg EndSide.observer left

end Observed

section Run

variable (settings : AgentSettings) (decoder : Decoder) (hook : Bool)

theorem run_awaited (steps : List (Nat × Step)) :
    Awaited ((start settings decoder hook).after steps).observer
      ((start settings decoder hook).moments steps) := by
  refine (start_coherent settings decoder hook).run
    (fun current past => Awaited current.observer past) rfl ?_ steps
  rintro current past now action next coherent rfl took awaited
  exact awaited.step coherent now action

/-- An exit can be handled from the time on at which it is due. -/
theorem exit_iff_due (steps : List (Nat × Step)) {now : Nat}
    (latest : ∀ moment ∈ (start settings decoder hook).moments steps, moment.time ≤ now) :
    (((start settings decoder hook).after steps).exit? now .finishDraining).isSome = true ↔
      ∃ due, exitDue? ((start settings decoder hook).moments steps) = some due ∧ due ≤ now := by
  have awaited := run_awaited settings decoder hook steps
  have heard := run_heard settings decoder hook steps
  have ended := (run_ended settings decoder hook steps).2
  generalize (start settings decoder hook).after steps = s at awaited heard ended ⊢
  generalize (start settings decoder hook).moments steps = past at latest awaited heard ended ⊢
  have exited : past.any Moment.exits = (s.observer == .finished) := by
    have counted := ended.counted
    cases finished : s.observer == .finished with
    | false =>
      rw [show s.endSide.observer = s.observer from rfl, finished] at counted
      exact List.any_eq_false.mpr (by simpa using counted)
    | true =>
      rw [show s.endSide.observer = s.observer from rfl, finished] at counted
      refine List.any_eq_true.mpr (List.countP_pos_iff.mp ?_)
      simp [counted]
  cases observer : s.observer with
  | absent | watching =>
    rw [observer] at awaited
    have unreaped : lastTime Moment.reaps past = none := awaited
    simp [exit?, exitDue?, observer, unreaped]
  | finished =>
    rw [observer] at exited
    simp [exit?, exitDue?, observer, exited]
  | draining status deadline =>
    rw [observer] at awaited exited
    obtain ⟨exit, reaped, after⟩ := awaited
    have early : exit ≤ now := lastTime_le reaped latest
    have launched : past.any Moment.launches = true := by
      rw [← ended.launched, show s.endSide.observer = s.observer from rfl, observer]
      rfl
    have opened : s.outputOpen = (lastTime Moment.endsOutput past).isNone := by
      rw [heard.opened, launched, outputEnded, ← lastTime_isSome, Option.not_isSome]
      simp
    have due : exitDue? past = some (exitDue exit (lastTime Moment.endsOutput past)) := by
      simp [exitDue?, exited, reaped]
    simp only [exit?, observer, due, opened, Option.some.injEq, exists_eq_left']
    cases last : lastTime Moment.endsOutput past with
    | none => simp [exitDue, after]
    | some time =>
      have reached : time ≤ now := lastTime_le last latest
      have passed : exitDue exit (some time) ≤ now := by
        unfold exitDue
        dsimp only
        split <;> omega
      simp [passed]

theorem exits_on_time {steps : List (Nat × Step)} {earlier later : List Moment} {moment : Moment}
    (inOrder : InOrder ((start settings decoder hook).moments steps))
    (onTime : DrainsOnTime ((start settings decoder hook).moments steps))
    (split : (start settings decoder hook).moments steps = earlier ++ moment :: later)
    (exits : moment.exits = true) : exitDue? earlier = some moment.time := by
  obtain ⟨before, rfl, reached, _⟩ := moments_split split
  rw [split] at inOrder onTime
  obtain ⟨status, left⟩ := Option.isSome_iff_exists.mp exits
  obtain ⟨drains, _⟩ := draining_of_exit left
  rw [drains, reached] at left
  have latest : ∀ past ∈ (start settings decoder hook).moments before, past.time ≤ moment.time :=
    fun past member => (List.pairwise_append.mp inOrder).2.2 past member moment (by simp)
  obtain ⟨due, waits, passed⟩ :=
    (exit_iff_due settings decoder hook before latest).mp (Option.isSome_of_eq_some left)
  have punctual := onTime ((start settings decoder hook).moments before).length (by simp) due
    (by rw [List.take_left]; exact waits)
  rw [List.getElem_append_right (Nat.le_refl _)] at punctual
  simp only [Nat.sub_self, List.getElem_cons_zero] at punctual
  rw [waits, Nat.le_antisymm passed punctual]

end Run

section Turn

variable {s : Supervisor} {call : Nat} {turn : Turn}

theorem active_before (coherent : s.Coherent) (streams : s.Streams)
    (current : s.turn = some (call, turn)) {steps : List (Nat × Step)} {now : Nat} {action : Step}
    {last : Turn} (later : (s.after (steps ++ [(now, action)])).turn = some (call, last)) :
    ∃ before, (s.after steps).turn = some (call, before) := by
  rw [after_snoc] at later
  rcases ((after_coherent coherent steps).took now action).turn_before later with goesOn | ⟨same, _⟩
  · exact goesOn
  · have called := (streams.current call turn current).1
    have counted := after_calls coherent steps
    omega

theorem unanswered_of_active (coherent : s.Coherent) (streams : s.Streams)
    (current : s.turn = some (call, turn)) (steps : List (Nat × Step)) {last : Turn}
    (later : (s.after steps).turn = some (call, last)) :
    (outputLines (s.moments steps)).findSome? (result? s.decoder) = none := by
  induction steps using List.reverseRecOn generalizing last with
  | nil => rfl
  | append_singleton steps final ih =>
    obtain ⟨now, action⟩ := final
    obtain ⟨before, active⟩ := active_before coherent streams current later
    have ready := after_coherent coherent steps
    have known := (after_keeps coherent streams steps).streams
    rw [after_snoc] at later
    have unanswered := (ready.ends_nothing known active later).2.2
    rw [answer?, after_decoder coherent steps] at unanswered
    rw [moments_snoc, outputLines_append, List.findSome?_append, ih active, Option.none_or,
      outputLines_cons]
    simpa [outputLines, Moment.lines] using unanswered

theorem unfinished_of_exit {now : Nat} {action : Step} {status : ExitStatus}
    (exits : s.exit? now action = some status) : s.observer ≠ .finished := by
  obtain ⟨_, deadline, draining, _⟩ := draining_of_exit exits
  simp [draining]

/-- The first result that is read ends the turn, and the turn is told no error but that of the
    result. -/
structure Concluded (s : Supervisor) (call : Nat) (during : List (Nat × Step)) (record : Json)
    (told : List Event) : Prop where
  step : ∃ earlier time action later heard, during = earlier ++ (time, action) :: later ∧
    (s.after earlier).turn = some (call, heard) ∧ (s.after earlier).answer? action = some record ∧
    told = (concludeWith s.decoder record (hearLines s.decoder
      (linesAhead s.decoder ((s.after earlier).linesRead action)) heard)).finish.sent
  error : ∀ message, .error message ∈ told ↔ s.decoder.resultError record = some message

theorem concluded_of_answer (coherent : s.Coherent) (streams : s.Streams)
    (current : s.turn = some (call, turn)) {earlier : List (Nat × Step)} {time : Nat} {action : Step}
    {heard : Turn} (active : (s.after earlier).turn = some (call, heard))
    {record : Json} (answers : (s.after earlier).answer? action = some record)
    (gone : ((s.after earlier).step time action).Over call) (later rest : List (Nat × Step)) :
    (outputLines (s.moments (earlier ++ (time, action) :: later))).findSome? (result? s.decoder) =
        some record ∧
      Concluded s call (earlier ++ (time, action) :: later) record
        ((s.after (earlier ++ (time, action) :: rest)).events call) := by
  have ready := after_coherent coherent earlier
  have known := (after_keeps coherent streams earlier).streams
  have took := ready.took time action
  have same := after_decoder coherent earlier
  have told : (s.after (earlier ++ (time, action) :: rest)).events call =
      ((s.after earlier).step time action).events call := by
    rw [after_append]
    exact (after_over (took.coherent ready) (took.keeps ready known).streams gone rest).2
  have ends := events_of_answer known active (output_of_answer answers) answers time
  rw [same] at ends
  refine ⟨?_, ⟨earlier, time, action, later, heard, rfl, active, answers, told.trans ends⟩,
    fun message => ?_⟩
  · have unread := unanswered_of_active coherent streams current earlier active
    have first : ((s.after earlier).linesRead action).findSome? (result? s.decoder) = some record := by
      rw [← same]
      exact answers
    rw [moments_append, outputLines_append, List.findSome?_append, unread, Option.none_or, moments,
      outputLines_cons, List.findSome?_append]
    dsimp only [Moment.lines]
    rw [first]
    rfl
  · have advances := hearLines_advances s.decoder
      (linesAhead s.decoder ((s.after earlier).linesRead action)) heard
    rw [told, ends, concludeWith_error_iff (advances.live (ready.live call heard active))]

theorem state_of_exit {now : Nat} {action : Step} {status : ExitStatus}
    (exits : s.exit? now action = some status) : (s.step now action).state = .dead := by
  obtain ⟨rfl, _⟩ := draining_of_exit exits
  dsimp only [Supervisor.step]
  rw [finishDraining_of_exit exits]
  exact (onExit_stopped (launched_of_exit exits) status).state

/-- If nothing else ends a turn before the exit is handled, the output read until then determines
    how it ends. -/
theorem turn_until_exit (coherent : s.Coherent) (streams : s.Streams)
    (current : s.turn = some (call, turn)) {during : List (Nat × Step)} {now : Nat}
    {status : ExitStatus} (exits : (s.after during).exit? now .finishDraining = some status)
    (unordered : ∀ moment ∈ s.moments during, (∃ turn, moment.before.turn = some (call, turn)) →
      moment.before.termination? moment.action = none) (rest : List (Nat × Step)) :
    let read := (outputLines (s.moments during)).findSome? (result? s.decoder)
    let told := (s.after (during ++ (now, .finishDraining) :: rest)).events call
    (∀ record, read = some record → Concluded s call during record told) ∧
      (read = none → ∃ last, (s.after during).turn = some (call, last) ∧
        told = last.sent ++ [.error "process exited unexpectedly", .done]) := by
  intro read told
  rcases ended_of_active coherent streams current during with
    ⟨last, active⟩ | ⟨earlier, time, action, later, heard, split, active, gone⟩
  · have unread : read = none := unanswered_of_active coherent streams current during active
    refine ⟨fun record found => by simp [unread] at found, fun _ => ⟨last, active, ?_⟩⟩
    have ready := after_coherent coherent during
    have known := (after_keeps coherent streams during).streams
    have took := ready.took now .finishDraining
    have ends : ((s.after during).step now .finishDraining).Over call := by
      refine ⟨took.called (known.current call last active).1, fun turn => ?_⟩
      rw [(took.coherent ready).no_turn (by simp [state_of_exit exits])]
      simp
    change (s.after (during ++ (now, .finishDraining) :: rest)).events call = _
    rw [after_append]
    refine (after_over (took.coherent ready) (took.keeps ready known).streams ends rest).2.trans ?_
    cases ready.fate known active now .finishDraining with
    | stopped orders => simp [(only_ending_of_orders orders now).1] at exits
    | exited _ _ _ ends => exact ends
    | answered answers => simp [only_ending_of_exit exits] at answers
    | goesOn _ runs => simp [runs] at exits
  · have before := after_coherent coherent earlier
    have known := (after_keeps coherent streams earlier).streams
    cases before.fate known active time action with
    | stopped orders =>
      have member : (⟨time, action, s.after earlier, (s.after earlier).step time action⟩ : Moment) ∈
          s.moments during := by
        rw [split, moments_append]
        exact List.mem_append_right _ (.head _)
      have never := unordered _ member ⟨heard, active⟩
      simp [never] at orders
    | exited leaves =>
      -- the exit has been handled at this step, but the assumption says it is handled later
      have finished := after_finished (step_coherent before time action) (finished_of_exit leaves) later
      rw [split, after_append] at exits
      exact absurd finished (unfinished_of_exit exits)
    | goesOn _ _ _ _ _ still => exact absurd still (gone.other _)
    | @answered record _ answers =>
      obtain ⟨first, concluded⟩ := concluded_of_answer coherent streams current
        active answers gone later (later ++ (now, .finishDraining) :: rest)
      have parts : during ++ (now, .finishDraining) :: rest =
          earlier ++ (time, action) :: (later ++ (now, .finishDraining) :: rest) := by simp [split]
      rw [← split, ← parts] at concluded
      rw [← split] at first
      refine ⟨fun found given => ?_, fun unread => by simp [read, first] at unread⟩
      obtain rfl := Option.some.inj (first.symm.trans given)
      exact concluded

end Turn

theorem dead_of_exited (settings : AgentSettings) (decoder : Decoder) (hook : Bool)
    (steps : List (Nat × Step))
    (exited : ((start settings decoder hook).moments steps).any Moment.exits = true) :
    ((start settings decoder hook).after steps).state = .dead := by
  refine (start_coherent settings decoder hook).run
    (fun current past => past.any Moment.exits = true → current.state = .dead) (by simp) ?_ steps exited
  rintro current past now action next - rfl took dead exited
  rw [List.any_append, Bool.or_eq_true] at exited
  rcases exited with before | last
  · exact took.dead (dead before)
  · have exits : Moment.exits ⟨now, action, current, current.step now action⟩ = true := by simpa using last
    obtain ⟨status, left⟩ := Option.isSome_iff_exists.mp exits
    exact state_of_exit left

/-- An exit is handled once the output has ended or the drain time is over. Until then the output is
    read up to its last line; the first result in it ends the turn, and the turn fails only if there
    is none. -/
theorem exit_of_run (settings : AgentSettings) (decoder : Decoder) (hook : Bool)
    (steps : List (Nat × Step)) :
    let s := (start settings decoder hook).after steps
    let past := (start settings decoder hook).moments steps
    (∀ now, (∀ moment ∈ past, moment.time ≤ now) →
      ((s.exit? now .finishDraining).isSome = true ↔ ∃ due, exitDue? past = some due ∧ due ≤ now)) ∧
    (InOrder past → DrainsOnTime past → ∀ earlier moment later,
      past = earlier ++ moment :: later → moment.exits = true → exitDue? earlier = some moment.time) ∧
    (outputEnded past = true → s.lines.pending = []) ∧
    (∀ during, linesOf (outputBytes (past ++ s.moments during)) (outputEnded (past ++ s.moments during)) =
      outputLines past ++ outputLines (s.moments during)) ∧
    (∀ during now rest status call turn, s.turn = some (call, turn) →
      (s.after during).exit? now .finishDraining = some status →
      (∀ moment ∈ s.moments during, (∃ turn, moment.before.turn = some (call, turn)) →
        moment.before.termination? moment.action = none) →
      let read := (outputLines (s.moments during)).findSome? (result? s.decoder)
      let told := (s.after (during ++ (now, .finishDraining) :: rest)).events call
      (∀ record, read = some record → Concluded s call during record told) ∧
        (read = none → ∃ last, (s.after during).turn = some (call, last) ∧
          told = last.sent ++ [.error "process exited unexpectedly", .done])) ∧
    (past.any Moment.exits = true → ∀ now action, isCall action = false →
      ∀ call, (s.step now action).events call = s.events call) := by
  intro s past
  have coherent : s.Coherent := run_coherent settings decoder hook steps
  have streams : s.Streams := run_streams settings decoder hook steps
  refine ⟨fun now latest => exit_iff_due settings decoder hook steps latest,
    fun inOrder onTime earlier moment later split exits =>
      exits_on_time settings decoder hook inOrder onTime split exits,
    fun ended => ?_, fun during => ?_, ?_, fun exited now action uncalled call => ?_⟩
  · have pending := (run_heard settings decoder hook steps).pending
    rwa [if_pos ended] at pending
  · have all := (run_heard settings decoder hook (steps ++ during)).lines
    rw [moments_append] at all
    rw [← all]
    exact List.flatMap_append
  · intro during now rest status call turn current exits unordered
    exact turn_until_exit coherent streams current exits unordered rest
  · have dead : s.state = .dead := dead_of_exited settings decoder hook steps exited
    refine (coherent.took now action).unheard coherent streams uncalled fun turn => ?_
    rw [coherent.no_turn (by simp [dead])]
    simp

/-- A result without a line end that is read between the exit and the end of the output. -/
theorem answer_read_after_exit :
    let answer := "\x7b\"type\":\"result\",\"result\":\"done\"\x7d".toUTF8.toList
    let first := start {} (.streamJson false) true
    let begun : List (Nat × Step) := [(0, .spawn (.ok 1)), (1, .sendTurn ⟨"hello", []⟩)]
    let during : List (Nat × Step) :=
      [(5, .processExits (.code 0)), (6, .readOutput answer), (7, .closeOutput)]
    let exit : Nat × Step := (7, .finishDraining)
    let past := first.moments (begun ++ during ++ [exit])
    InOrder past ∧ DrainsOnTime past ∧ past.any Moment.exits = true ∧
      exitDue? (first.moments (begun ++ during)) = some 7 ∧
      ∃ record, Concluded (first.after begun) 0 during record
        ((first.after (begun ++ during ++ [exit])).events 0) := by
  intro answer first begun during exit past
  let s := first.after begun
  let last : Moment := ⟨7, .finishDraining, s.after during, (s.after during).step 7 .finishDraining⟩
  have inOrder : InOrder past := by decide +kernel
  have onTime : DrainsOnTime past := by decide +kernel
  have unordered : ∀ moment ∈ s.moments during, moment.before.termination? moment.action = none := by
    decide +kernel
  have reads : ((outputLines (s.moments during)).findSome? (result? s.decoder)).isSome = true := by
    decide +kernel
  have active : s.turn.map Prod.fst = some 0 := by decide +kernel
  have exits : (s.after during).exit? 7 .finishDraining = some (.code 0) := by decide +kernel
  have counts : last.exits = true := Option.isSome_of_eq_some exits
  have split : past = first.moments (begun ++ during) ++ [last] := by
    unfold past
    rw [moments_append, after_append]
    rfl
  obtain ⟨⟨call, turn⟩, current, rfl⟩ := Option.map_eq_some_iff.mp active
  obtain ⟨record, read⟩ := Option.isSome_iff_exists.mp reads
  obtain ⟨-, due, -⟩ := exit_of_run {} (.streamJson false) true (begun ++ during ++ [exit])
  obtain ⟨-, -, -, -, ends, -⟩ := exit_of_run {} (.streamJson false) true begun
  refine ⟨inOrder, onTime, ?_, due inOrder onTime _ _ _ split counts, record, ?_⟩
  · rw [split, List.any_append]
    simp [counts]
  · have ended := ends during 7 [] (.code 0) 0 turn current exits
      fun moment member _ => unordered moment member
    rw [List.append_assoc, after_append]
    exact ended.1 record read

end AgentHost.Supervisor
