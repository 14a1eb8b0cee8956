import AgentHost.Proofs.Supervisor.ProcessSide
import AgentHost.Proofs.Supervisor.TurnEnds

namespace AgentHost

def Observer.isReaped : Observer → Bool
  | .draining _ _ | .finished => true
  | .absent | .watching => false

namespace Supervisor

def EndSide.asked (side : EndSide) (now grace : Nat) (urgency : Urgency) : EndSide :=
  if side.observer = .absent then { side with exited := true }
  else
    match urgency with
    | .forced => { side with requests := side.requests ++ [⟨.force, now⟩] }
    | .graceful =>
      { side with requests := side.requests ++ [⟨.interrupt, now⟩], killDue := some (now + grace) }

section Asked

variable {side : EndSide} {now grace : Nat}

theorem EndSide.asked_absent (absent : side.observer = .absent) {urgency : Urgency} :
    side.asked now grace urgency = { side with exited := true } := if_pos absent

theorem EndSide.asked_forced (present : side.observer ≠ .absent) : side.asked now grace .forced =
    { side with requests := side.requests ++ [⟨.force, now⟩] } := if_neg present

theorem EndSide.asked_graceful (present : side.observer ≠ .absent) :
    side.asked now grace .graceful = { side with
      requests := side.requests ++ [⟨.interrupt, now⟩], killDue := some (now + grace) } :=
  if_neg present

end Asked

def EndSide.left (side : EndSide) : EndSide :=
  { side with
    observer := .finished
    exited := true
    hook := false
    cleanups := side.cleanups + if side.hook then 1 else 0 }

inductive EndTook (now : Nat) (s : Supervisor) : Step → EndSide → Prop where
  | launched {pid : Nat} (starting : s.state = .starting) :
      EndTook now s (.spawn (.ok pid)) { s.endSide with observer := .watching }
  | launchFailed {fault : ProcessFault} (starting : s.state = .starting) :
      EndTook now s (.spawn (.error fault)) { s.endSide with exited := true }
  | ordered {action : Step} {cause : Cause} {urgency : Urgency}
      (orders : s.termination? action = some (cause, urgency)) :
      EndTook now s action (s.endSide.asked now s.settings.killGraceMs urgency)
  | overdue {due : Nat} (waits : s.killDue = some due) (reached : due ≤ now) :
      EndTook now s .killDue
        { s.endSide with requests := s.requests ++ [⟨.force, now⟩], killDue := none }
  | obeyed {request : KillRequest} (watching : s.observer = .watching)
      (pending : s.requests[s.obeyed]? = some request) :
      EndTook now s .obey { s.endSide with obeyed := s.obeyed + 1 }
  | reaped {status : ExitStatus} (watching : s.observer = .watching) :
      EndTook now s (.processExits status)
        { s.endSide with observer := .draining status (now + drainTime) }
  | exited {status : ExitStatus} (exits : s.exit? now .finishDraining = some status) :
      EndTook now s .finishDraining s.endSide.left
  | quiet {action : Step} (unordered : s.termination? action = none)
      (runs : s.exit? now action = none)
      (unspawned : ∀ outcome, action = .spawn outcome → s.state ≠ .starting) :
      EndTook now s action s.endSide

section Step

variable (s : Supervisor) (now : Nat)

theorem askToEnd_endSide (urgency : Urgency) : (s.askToEnd now urgency).endSide =
    s.endSide.asked now s.settings.killGraceMs urgency := by
  unfold askToEnd EndSide.asked isLaunched
  by_cases absent : s.observer = .absent
  · simp [endSide, absent]
  · cases urgency <;> simp [endSide, absent, request]

theorem terminate_endSide (alive : s.state ≠ .dead) (cause : Cause) (urgency : Urgency) :
    (s.terminate now cause urgency).2.endSide =
      s.endSide.asked now s.settings.killGraceMs urgency := by
  have same := congrArg ProcessSide.ending
    (shutDown_processSide (s.note (.terminating cause urgency s.pid s.state)) cause.turnError)
  unfold terminate
  rw [if_neg alive]
  dsimp only
  rw [askToEnd_endSide]
  have kept : ((s.note (.terminating cause urgency s.pid s.state)).shutDown cause.turnError).settings =
      s.settings := by
    rw [shutDown_eq]
    rfl
  rw [kept]
  exact congrArg (·.asked now s.settings.killGraceMs urgency) same

theorem terminate_of_dead (dead : s.state = .dead) (cause : Cause) (urgency : Urgency) :
    (s.terminate now cause urgency).2 = s := by
  rw [terminate, if_pos dead]

theorem onExit_endSide (status : ExitStatus) : (s.onExit status).endSide = s.endSide.left := by
  unfold onExit
  dsimp only
  generalize told : (if s.turn.isSome then _ else _ : Supervisor) = noted
  have same : noted.endSide = s.endSide := by
    rw [← told]
    split <;> rfl
  have shut : (noted.shutDown "process exited unexpectedly").endSide = s.endSide :=
    (congrArg ProcessSide.ending (shutDown_processSide noted _)).trans same
  have requests := congrArg EndSide.requests shut
  have obeyed := congrArg EndSide.obeyed shut
  have killDue := congrArg EndSide.killDue shut
  dsimp only [endSide] at requests obeyed killDue
  simp only [endSide, EndSide.left, requests, obeyed, killDue]
  rfl

theorem sendTurn_endSide (prompt : Prompt) : (s.sendTurn now prompt).endSide = s.endSide := by
  unfold sendTurn
  cases s.state with
  | idle => cases s.inputHeld <;> rfl
  | starting | busy | dead => rfl

theorem failWrite_endSide {s : Supervisor} {now : Nat} (idle : s.writing = none ∨ s.state = .dead)
    (error : String) : (s.failWrite now error).endSide = s.endSide := by
  unfold failWrite
  cases underWay : s.writing with
  | none => rfl
  | some write =>
    have dead : s.state = .dead := idle.resolve_left (by simp [underWay])
    let noted := { s with writing := none }.note (.writeAborted error)
    change (noted.terminate now (.writeFailed error) .forced).2.endSide = s.endSide
    rw [noted.terminate_of_dead now dead]
    rfl

end Step

section Ending

variable {s : Supervisor} {now : Nat} {action : Step}

theorem EndTook.ofQuiet {side : EndSide} (unordered : s.termination? action = none)
    (runs : s.exit? now action = none)
    (unspawned : ∀ outcome, action = .spawn outcome → s.state ≠ .starting)
    (same : side = s.endSide) : EndTook now s action side := by
  rw [same]
  exact .quiet unordered runs unspawned

theorem EndTook.ofSpawn (outcome : Except ProcessFault Nat) :
    EndTook now s (.spawn outcome) (s.spawn now outcome).2.endSide := by
  unfold spawn
  by_cases starting : s.state = .starting
  · simp only [starting, bne_self_eq_false, Bool.false_eq_true, if_false]
    cases outcome with
    | ok pid => exact .launched starting
    | error fault => exact .launchFailed starting
  · have other : (s.state != .starting) = true := by simp [starting]
    rw [if_pos other]
    exact .quiet (ite_self _) rfl fun _ _ => starting

theorem EndTook.ofOrders (coherent : s.Coherent) {cause : Cause} {urgency : Urgency}
    (orders : s.termination? action = some (cause, urgency)) :
    EndTook now s action (s.step now action).endSide := by
  obtain ⟨hang, idle, notices, _, _, given⟩ := step_of_termination coherent orders now
  have alive := alive_of_termination orders
  have asked := terminate_endSide { s with
    hang, idle, notices, writing := s.keptWrite action } now alive cause urgency
  rw [given, asked]
  exact .ordered orders

theorem EndTook.ofKillDue : EndTook now s .killDue (s.onKillDue now).endSide := by
  have unordered : s.termination? .killDue = none := ite_self _
  unfold onKillDue
  split
  · next due waits =>
    split
    · next reached => exact .overdue waits reached
    · exact .quiet unordered rfl (by simp)
  · exact .quiet unordered rfl (by simp)

theorem EndTook.ofObey : EndTook now s .obey s.obey.endSide := by
  unfold obey
  split
  · next request watching pending => exact .obeyed watching pending
  · exact .quiet (ite_self _) rfl (by simp)

theorem EndTook.ofProcessExits (status : ExitStatus) :
    EndTook now s (.processExits status) (s.processExits now status).endSide := by
  unfold processExits
  split
  · next watching => exact .reaped (eq_of_beq watching)
  · exact .quiet (ite_self _) rfl (by simp)

theorem EndTook.ofFinishDraining :
    EndTook now s .finishDraining (s.finishDraining now).endSide := by
  cases exits : s.exit? now .finishDraining with
  | some status =>
    rw [finishDraining_of_exit exits, onExit_endSide]
    exact .exited exits
  | none =>
    rw [finishDraining_of_none exits]
    exact .quiet (ite_self _) exits (by simp)

/-- Every step changes the end of the process as listed in `EndTook`. -/
theorem Coherent.ending (coherent : s.Coherent) (now : Nat) (action : Step) :
    EndTook now s action (s.step now action).endSide := by
  cases orders : s.termination? action with
  | some order => exact .ofOrders coherent orders
  | none =>
    have side {next : Supervisor} (same : next.processSide = s.processSide) :
        next.endSide = s.endSide := congrArg ProcessSide.ending same
    cases action with
    | spawn outcome => exact .ofSpawn outcome
    | sendTurn prompt => exact .ofQuiet orders rfl (by simp) (s.sendTurn_endSide now prompt)
    | kill | forceKill | drop =>
      have dead : s.state = .dead := by simpa [termination?] using orders
      exact .ofQuiet orders rfl (by simp) (congrArg endSide (s.terminate_of_dead now dead _ _))
    | acceptInput count =>
      refine .ofQuiet orders rfl (by simp) ?_
      dsimp only [step]
      unfold acceptInput
      split <;> rfl
    | finishWrite =>
      refine .ofQuiet orders rfl (by simp) ?_
      dsimp only [step]
      unfold finishWrite
      split <;> rfl
    | failWrite error =>
      have idle : s.writing = none ∨ s.state = .dead := by
        simpa [termination?, imp_iff_or_not, or_comm] using orders
      exact .ofQuiet orders rfl (by simp) (failWrite_endSide idle error)
    | readOutput chunk =>
      exact .ofQuiet orders rfl (by simp) (side (s.readOutput_processSide now chunk))
    | closeOutput => exact .ofQuiet orders rfl (by simp) (side (s.closeOutput_processSide now))
    | failOutput error =>
      exact .ofQuiet orders rfl (by simp) (side (s.failOutput_processSide now error))
    | readLog chunk => exact .ofQuiet orders rfl (by simp) (side (s.readLog_processSide now chunk))
    | closeLog => exact .ofQuiet orders rfl (by simp) (side (s.closeLog_processSide now))
    | hangRings generation =>
      -- a current hang alarm ends the process (the timer is only held while busy), so this one is stale
      have stale : s.hang.isCurrent generation = false := by
        refine Bool.eq_false_iff.mpr fun current => ?_
        have busy := coherent.hang_held_iff.mp (Timer.held_of_current current)
        simp [termination?, busy, current] at orders
      exact .ofQuiet orders rfl (by simp) (congrArg endSide (onHang_of_stale stale now))
    | idleRings generation =>
      have stale : s.idle.isCurrent generation = false := by
        refine Bool.eq_false_iff.mpr fun current => ?_
        have idle := coherent.idle_held_iff.mp (Timer.held_of_current current)
        simp [termination?, idle, current] at orders
      exact .ofQuiet orders rfl (by simp) (congrArg endSide (onIdle_of_stale stale now))
    | killDue => exact .ofKillDue
    | obey => exact .ofObey
    | processExits status => exact .ofProcessExits status
    | finishDraining => exact .ofFinishDraining

end Ending

namespace Moment

def launches (moment : Moment) : Bool :=
  match moment.action with
  | .spawn (.ok _) => moment.before.state == .starting
  | _ => false

def launchFails (moment : Moment) : Bool :=
  match moment.action with
  | .spawn (.error _) => moment.before.state == .starting
  | _ => false

def order? (moment : Moment) : Option (Nat × Urgency) :=
  if moment.before.isLaunched then
    (moment.before.termination? moment.action).map fun order => (moment.time, order.2)
  else none

def forgone (moment : Moment) : Bool :=
  (moment.before.termination? moment.action).isSome && !moment.before.isLaunched

def exits (moment : Moment) : Bool := (moment.before.exit? moment.time moment.action).isSome

end Moment

def order? (past : List Moment) : Option (Nat × Urgency) := past.findSome? Moment.order?

/-- No step comes after the time at which a kill is due. -/
def KillsOnTime (past : List Moment) : Prop :=
  ∀ moment ∈ past, ∀ due ∈ moment.before.killDue, moment.time ≤ due

instance (past : List Moment) : Decidable (KillsOnTime past) :=
  inferInstanceAs (Decidable (∀ moment ∈ past, ∀ due ∈ moment.before.killDue, moment.time ≤ due))

/-- The kill requests that an order to end the process leads to, and when the next one is due. -/
inductive Sent (grace : Nat) (onTime : Prop) :
    Option (Nat × Urgency) → List KillRequest → Option Nat → Prop where
  | unasked : Sent grace onTime none [] none
  | forced (time : Nat) : Sent grace onTime (some (time, .forced)) [⟨.force, time⟩] none
  | waiting (time : Nat) :
      Sent grace onTime (some (time, .graceful)) [⟨.interrupt, time⟩] (some (time + grace))
  | overdue (time late : Nat) (reached : time + grace ≤ late)
      (punctual : onTime → late = time + grace) :
      Sent grace onTime (some (time, .graceful)) [⟨.interrupt, time⟩, ⟨.force, late⟩] none

structure Ended (grace : Nat) (hook : Bool) (past : List Moment) (side : EndSide) : Prop where
  sent : Sent grace (KillsOnTime past) (order? past) side.requests side.killDue
  launched : (side.observer != .absent) = past.any Moment.launches
  counted : past.countP Moment.exits = (side.observer == .finished).toNat
  hookLeft : side.hook = (hook && side.observer != .finished)
  cleanups : side.cleanups = (hook && side.observer == .finished).toNat
  exited : side.exited = past.any fun moment =>
    moment.exits || moment.launchFails || moment.forgone
  obeyed : side.obeyed ≤ side.requests.length

theorem start_ended (settings : AgentSettings) (decoder : Decoder) (hook : Bool) :
    Ended settings.killGraceMs hook [] (start settings decoder hook).endSide where
  sent := .unasked
  launched := rfl
  counted := rfl
  hookLeft := (Bool.and_true hook).symm
  cleanups := (congrArg Bool.toNat (Bool.and_false hook)).symm
  exited := rfl
  obeyed := Nat.zero_le _

section Ended

variable {s s' : Supervisor} {past : List Moment} {now grace : Nat} {hook : Bool} {action : Step}

theorem order_snoc (past : List Moment) (moment : Moment) :
    order? (past ++ [moment]) = (order? past).or moment.order? := by
  unfold order?
  rw [List.findSome?_append]
  cases ordered : moment.order? <;> simp [ordered]

theorem Sent.weaken {onTime later : Prop} {order : Option (Nat × Urgency)}
    {requests : List KillRequest} {killDue : Option Nat} (sent : Sent grace onTime order requests killDue)
    (earlier : later → onTime) : Sent grace later order requests killDue := by
  cases sent with
  | unasked => exact .unasked
  | forced time => exact .forced time
  | waiting time => exact .waiting time
  | overdue time late reached punctual =>
    exact .overdue time late reached fun onTime => punctual (earlier onTime)

theorem Sent.of_unordered {onTime : Prop} {requests : List KillRequest} {killDue : Option Nat}
    (sent : Sent grace onTime none requests killDue) : requests = [] ∧ killDue = none := by
  cases sent
  exact ⟨rfl, rfl⟩

theorem Sent.of_due {onTime : Prop} {order : Option (Nat × Urgency)} {requests : List KillRequest}
    {due : Nat} (sent : Sent grace onTime order requests (some due)) :
    ∃ time, order = some (time, .graceful) ∧ requests = [⟨.interrupt, time⟩] ∧
      due = time + grace := by
  cases sent with
  | waiting time => exact ⟨time, rfl, rfl, rfl⟩

theorem Sent.of_punctual {onTime : Prop} {requests : List KillRequest} {time : Nat}
    (sent : Sent grace onTime (some (time, .graceful)) requests none) (punctual : onTime) :
    requests = [⟨.interrupt, time⟩, ⟨.force, time + grace⟩] := by
  cases sent with
  | overdue _ late _ exact => rw [exact punctual]

theorem KillsOnTime.before {moment : Moment} (onTime : KillsOnTime (past ++ [moment])) :
    KillsOnTime past := fun earlier member => onTime earlier (List.mem_append_left _ member)

theorem Ended.extend {side next : EndSide} (moment : Moment) (ended : Ended grace hook past side)
    (sent : Sent grace (KillsOnTime (past ++ [moment])) ((order? past).or moment.order?)
      next.requests next.killDue)
    (launched : (next.observer != .absent) = (side.observer != .absent || moment.launches))
    (finished : (next.observer == .finished) = (side.observer == .finished || moment.exits))
    (once : moment.exits = true → side.observer ≠ .finished)
    (hookLeft : next.hook = (side.hook && !moment.exits))
    (cleanups : next.cleanups = side.cleanups + (side.hook && moment.exits).toNat)
    (exited : next.exited =
      (side.exited || (moment.exits || moment.launchFails || moment.forgone)))
    (obeyed : next.obeyed ≤ next.requests.length) : Ended grace hook (past ++ [moment]) next where
  sent := order_snoc past moment ▸ sent
  launched := by simp [launched, ended.launched]
  counted := by
    rw [countP_snoc, ended.counted, finished]
    cases exits : moment.exits with
    | false => simp
    | true => simp [beq_eq_false_iff_ne.mpr (once exits)]
  hookLeft := by
    rw [hookLeft, ended.hookLeft, bne, bne, finished, Bool.not_or, Bool.and_assoc]
  cleanups := by
    rw [cleanups, ended.cleanups, ended.hookLeft, finished]
    cases exits : moment.exits with
    | false => simp
    | true =>
      have running : (side.observer != .finished) = true := bne_iff_ne.mpr (once exits)
      simp [beq_eq_false_iff_ne.mpr (once exits), running]
  exited := by simp [exited, ended.exited]
  obeyed := obeyed

theorem order_of_unordered {moment : Moment}
    (unordered : moment.before.termination? moment.action = none) :
    moment.order? = none ∧ moment.forgone = false := by
  simp [Moment.order?, Moment.forgone, unordered]

theorem unlaunched_of_other {moment : Moment}
    (other : ∀ outcome, moment.action = .spawn outcome → moment.before.state ≠ .starting) :
    moment.launches = false ∧ moment.launchFails = false := by
  obtain ⟨time, action, before, after⟩ := moment
  cases action with
  | spawn outcome =>
    have started := other outcome rfl
    cases outcome <;> simp [Moment.launches, Moment.launchFails, started]
  | _ => exact ⟨rfl, rfl⟩

theorem Ended.still {side : EndSide} (ended : Ended s.settings.killGraceMs hook past s.endSide)
    (unordered : s.termination? action = none) (runs : s.exit? now action = none)
    (other : ∀ outcome, action = .spawn outcome → s.state ≠ .starting)
    (sent : Sent s.settings.killGraceMs (KillsOnTime (past ++ [⟨now, action, s, s'⟩])) (order? past)
      side.requests side.killDue)
    (absent : (side.observer != .absent) = (s.observer != .absent))
    (finished : (side.observer == .finished) = (s.observer == .finished))
    (hookLeft : side.hook = s.hook) (cleanups : side.cleanups = s.cleanups)
    (exited : side.exited = s.exited) (obeyed : side.obeyed ≤ side.requests.length) :
    Ended s.settings.killGraceMs hook (past ++ [⟨now, action, s, s'⟩]) side := by
  let moment : Moment := ⟨now, action, s, s'⟩
  have noOrder : moment.order? = none ∧ moment.forgone = false := order_of_unordered unordered
  have noLaunch : moment.launches = false ∧ moment.launchFails = false := unlaunched_of_other other
  have noExit : moment.exits = false := by simp [moment, Moment.exits, runs]
  refine ended.extend moment ?_ ?_ ?_ ?_ ?_ ?_ ?_ obeyed
  · rw [noOrder.1, Option.or_none]
    exact sent
  · rw [noLaunch.1, Bool.or_false]
    exact absent
  · rw [noExit, Bool.or_false]
    exact finished
  · simp [noExit]
  · simp [noExit, hookLeft, endSide]
  · simp [noExit, cleanups, endSide]
  · simp [noExit, noLaunch.2, noOrder.2, exited, endSide]

theorem Ended.ofLaunch (ended : Ended s.settings.killGraceMs hook past s.endSide)
    (coherent : s.Coherent) (starting : s.state = .starting) (pid : Nat) :
    Ended s.settings.killGraceMs hook (past ++ [⟨now, .spawn (.ok pid), s, s'⟩])
      { s.endSide with observer := .watching } := by
  let moment : Moment := ⟨now, .spawn (.ok pid), s, s'⟩
  have noOrder : moment.order? = none ∧ moment.forgone = false := order_of_unordered (ite_self _)
  have launches : moment.launches = true := by simp [moment, Moment.launches, starting]
  have absent : s.observer = .absent := by
    have shaped := coherent.shaped
    simp only [Shaped, starting] at shaped
    simpa [isLaunched] using shaped.2.2.2.2.2
  refine ended.extend moment ?_ ?_ ?_ ?_ ?_ ?_ ?_ ended.obeyed
  · rw [noOrder.1, Option.or_none]
    exact ended.sent.weaken KillsOnTime.before
  · rw [launches, Bool.or_true]
    rfl
  · simp only [endSide, absent]
    rfl
  · simp [moment, Moment.exits, exit?]
  · simp [moment, Moment.exits, exit?, endSide]
  · simp [moment, Moment.exits, exit?, endSide]
  · simp [moment, Moment.exits, exit?, endSide, noOrder.2, Moment.launchFails]

theorem Ended.ofLaunchFailure (ended : Ended s.settings.killGraceMs hook past s.endSide)
    (starting : s.state = .starting) (fault : ProcessFault) :
    Ended s.settings.killGraceMs hook (past ++ [⟨now, .spawn (.error fault), s, s'⟩])
      { s.endSide with exited := true } := by
  let moment : Moment := ⟨now, .spawn (.error fault), s, s'⟩
  have noOrder : moment.order? = none ∧ moment.forgone = false := order_of_unordered (ite_self _)
  have fails : moment.launchFails = true := by simp [moment, Moment.launchFails, starting]
  refine ended.extend moment ?_ ?_ ?_ ?_ ?_ ?_ ?_ ended.obeyed
  · rw [noOrder.1, Option.or_none]
    exact ended.sent.weaken KillsOnTime.before
  · simp [moment, Moment.launches, endSide]
  · simp [moment, Moment.exits, exit?, endSide]
  · simp [moment, Moment.exits, exit?]
  · simp [moment, Moment.exits, exit?, endSide]
  · simp [moment, Moment.exits, exit?, endSide]
  · simp [fails]

theorem launched_of_exit {status : ExitStatus} (exits : s.exit? now action = some status) :
    s.isLaunched = true := by
  obtain ⟨_, deadline, draining, _⟩ := draining_of_exit exits
  rw [isLaunched, draining]
  rfl

theorem Ended.ofExit {status : ExitStatus} (ended : Ended s.settings.killGraceMs hook past s.endSide)
    (exits : s.exit? now .finishDraining = some status) :
    Ended s.settings.killGraceMs hook (past ++ [⟨now, .finishDraining, s, s'⟩]) s.endSide.left := by
  let moment : Moment := ⟨now, .finishDraining, s, s'⟩
  have noOrder : moment.order? = none ∧ moment.forgone = false := order_of_unordered (ite_self _)
  have exited : moment.exits = true := by simp [moment, Moment.exits, exits]
  obtain ⟨_, deadline, draining, _⟩ := draining_of_exit exits
  refine ended.extend moment ?_ ?_ ?_ ?_ ?_ ?_ ?_ ended.obeyed
  · rw [noOrder.1, Option.or_none]
    exact ended.sent.weaken KillsOnTime.before
  · simp only [EndSide.left, endSide, draining]
    rfl
  · rw [exited, Bool.or_true]
    rfl
  · simp [endSide, draining]
  · simp [exited, EndSide.left]
  · cases kept : s.hook <;> simp [exited, EndSide.left, endSide, kept]
  · simp [exited, EndSide.left]

theorem unlaunched_of_orders {moment : Moment} {order : Cause × Urgency}
    (orders : moment.before.termination? moment.action = some order) :
    moment.launches = false ∧ moment.launchFails = false ∧ moment.exits = false := by
  have other : ∀ outcome, moment.action ≠ .spawn outcome := by
    intro outcome spawns
    rw [spawns] at orders
    have unordered : moment.before.termination? (.spawn outcome) = none := ite_self _
    simp [unordered] at orders
  obtain ⟨noLaunch, noFailure⟩ := unlaunched_of_other fun outcome spawns => absurd spawns (other outcome)
  exact ⟨noLaunch, noFailure, by simp [Moment.exits, (only_ending_of_orders orders _).1]⟩

theorem Ended.ofEarlyOrder {order : Cause × Urgency}
    (ended : Ended s.settings.killGraceMs hook past s.endSide) (absent : s.observer = .absent)
    (orders : s.termination? action = some order) :
    Ended s.settings.killGraceMs hook (past ++ [⟨now, action, s, s'⟩])
      { s.endSide with exited := true } := by
  let moment : Moment := ⟨now, action, s, s'⟩
  have noEnd : moment.launches = false ∧ moment.launchFails = false ∧ moment.exits = false :=
    unlaunched_of_orders orders
  have noOrder : moment.order? = none := by simp [moment, Moment.order?, isLaunched, absent]
  have forgone : moment.forgone = true := by
    simp [moment, Moment.forgone, orders, isLaunched, absent]
  refine ended.extend moment ?_ ?_ ?_ ?_ ?_ ?_ ?_ ended.obeyed
  · rw [noOrder, Option.or_none]
    exact ended.sent.weaken KillsOnTime.before
  · simp [noEnd, endSide]
  · simp [noEnd, endSide]
  · simp [noEnd]
  · simp [noEnd, endSide]
  · simp [noEnd, endSide]
  · simp [forgone]

theorem Ended.ofOrder {cause : Cause} {urgency : Urgency} {requests : List KillRequest}
    {killDue : Option Nat} (ended : Ended s.settings.killGraceMs hook past s.endSide)
    (present : s.observer ≠ .absent) (unordered : order? past = none)
    (orders : s.termination? action = some (cause, urgency))
    (sent : ∀ onTime, Sent s.settings.killGraceMs onTime (some (now, urgency)) requests killDue) :
    Ended s.settings.killGraceMs hook (past ++ [⟨now, action, s, s'⟩])
      { s.endSide with requests, killDue } := by
  let moment : Moment := ⟨now, action, s, s'⟩
  have noEnd : moment.launches = false ∧ moment.launchFails = false ∧ moment.exits = false :=
    unlaunched_of_orders orders
  have order : moment.order? = some (now, urgency) := by
    simp [moment, Moment.order?, isLaunched, present, orders]
  have kept : moment.forgone = false := by simp [moment, Moment.forgone, isLaunched, present]
  have before := ended.sent
  rw [unordered] at before
  have unasked : s.requests = [] := before.of_unordered.1
  have obeyed : s.obeyed ≤ s.requests.length := ended.obeyed
  refine ended.extend moment ?_ ?_ ?_ ?_ ?_ ?_ ?_ ?_
  · rw [unordered, order]
    exact sent _
  · simp [noEnd, endSide]
  · simp [noEnd, endSide]
  · simp [noEnd]
  · simp [noEnd, endSide]
  · simp [noEnd, endSide]
  · simp [noEnd, kept, endSide]
  · rw [unasked] at obeyed
    exact Nat.le_trans obeyed (Nat.zero_le _)

theorem Ended.ofKill {due : Nat} (ended : Ended s.settings.killGraceMs hook past s.endSide)
    (waits : s.killDue = some due) (reached : due ≤ now) :
    Ended s.settings.killGraceMs hook (past ++ [⟨now, .killDue, s, s'⟩])
      { s.endSide with requests := s.requests ++ [⟨.force, now⟩], killDue := none } := by
  have sent := ended.sent
  rw [show s.endSide.killDue = some due from waits] at sent
  obtain ⟨time, order, requests, after⟩ := sent.of_due
  have asked : s.requests = [⟨.interrupt, time⟩] := requests
  refine ended.still (ite_self _) rfl (by simp) ?_ rfl rfl rfl rfl rfl ?_
  · rw [order, asked]
    -- the alarm cannot ring before its time; on time it rings at the first step from there on
    refine .overdue time now (after ▸ reached) fun onTime => ?_
    have early := onTime _ (List.mem_append_right _ (List.mem_singleton_self _)) due waits
    exact Nat.le_antisymm (after ▸ early) (after ▸ reached)
  · have obeyed : s.obeyed ≤ s.requests.length := ended.obeyed
    simp only [List.length_append, List.length_singleton]
    exact Nat.le_succ_of_le obeyed

theorem Ended.step {side : EndSide} (ended : Ended s.settings.killGraceMs hook past s.endSide)
    (coherent : s.Coherent) (fresh : s.state ≠ .dead → order? past = none)
    (ending : EndTook now s action side) :
    Ended s.settings.killGraceMs hook (past ++ [⟨now, action, s, s'⟩]) side := by
  cases ending with
  | launched starting => exact ended.ofLaunch coherent starting _
  | launchFailed starting => exact ended.ofLaunchFailure starting _
  | @ordered _ cause urgency orders =>
    -- an order is given only while the state is not dead, and then there was no order before
    have unordered := fresh (alive_of_termination orders)
    by_cases absent : s.observer = .absent
    · rw [EndSide.asked_absent absent]
      exact ended.ofEarlyOrder absent orders
    · have before := ended.sent
      rw [unordered] at before
      have unasked : s.requests = [] ∧ s.killDue = none := before.of_unordered
      cases urgency with
      | forced =>
        rw [EndSide.asked_forced absent]
        refine ended.ofOrder absent unordered orders fun onTime => ?_
        simp only [endSide, unasked]
        exact .forced now
      | graceful =>
        rw [EndSide.asked_graceful absent]
        refine ended.ofOrder absent unordered orders fun onTime => ?_
        simp only [endSide, unasked]
        exact .waiting now
  | overdue waits reached => exact ended.ofKill waits reached
  | obeyed watching pending =>
    refine ended.still (ite_self _) rfl (by simp) (ended.sent.weaken KillsOnTime.before) rfl rfl rfl
      rfl rfl ?_
    exact (List.getElem?_eq_some_iff.mp pending).1
  | reaped watching =>
    refine ended.still (ite_self _) rfl (by simp) (ended.sent.weaken KillsOnTime.before) ?_ ?_ rfl
      rfl rfl ended.obeyed
    · rw [watching]; rfl
    · rw [watching]; rfl
  | exited exits => exact ended.ofExit exits
  | quiet unordered runs unspawned =>
    exact ended.still unordered runs unspawned (ended.sent.weaken KillsOnTime.before) rfl rfl rfl
      rfl rfl ended.obeyed

end Ended

theorem run_ended (settings : AgentSettings) (decoder : Decoder) (hook : Bool)
    (steps : List (Nat × Step)) :
    let s := (start settings decoder hook).after steps
    let past := (start settings decoder hook).moments steps
    (s.state ≠ .dead → order? past = none) ∧ Ended settings.killGraceMs hook past s.endSide := by
  have all := (start_coherent settings decoder hook).run (fun current past =>
    current.settings = settings ∧ (current.state ≠ .dead → order? past = none) ∧
      Ended settings.killGraceMs hook past current.endSide)
    ⟨rfl, fun _ => rfl, start_ended settings decoder hook⟩ ?_ steps
  · exact all.2
  rintro current past now action next coherent rfl took ⟨rfl, fresh, ended⟩
  refine ⟨took.settings, fun alive => ?_, ended.step coherent fresh (coherent.ending now action)⟩
  have unordered : current.termination? action = none := by
    cases orders : current.termination? action with
    | none => rfl
    | some order => exact absurd (state_of_termination coherent orders now) alive
  rw [order_snoc, fresh (mt took.dead alive), Option.none_or]
  exact (order_of_unordered unordered).1

theorem asked_same (side : EndSide) (now grace : Nat) (urgency : Urgency) :
    (side.asked now grace urgency).observer = side.observer ∧
      (side.asked now grace urgency).obeyed = side.obeyed ∧
      (side.exited = true → (side.asked now grace urgency).exited = true) := by
  by_cases absent : side.observer = .absent
  · rw [EndSide.asked_absent absent]
    exact ⟨rfl, rfl, fun _ => rfl⟩
  · cases urgency with
    | forced =>
      rw [EndSide.asked_forced absent]
      exact ⟨rfl, rfl, id⟩
    | graceful =>
      rw [EndSide.asked_graceful absent]
      exact ⟨rfl, rfl, id⟩

section Later

variable {s : Supervisor} {now : Nat} {action : Step} {side : EndSide}

/-- No request is obeyed after the process has been reaped. -/
theorem EndTook.stays_reaped (ending : EndTook now s action side) (coherent : s.Coherent)
    (reaped : s.observer.isReaped = true) :
    side.observer.isReaped = true ∧ side.obeyed = s.obeyed := by
  cases ending with
  | launched starting =>
    have shaped := coherent.shaped
    simp only [Shaped, starting] at shaped
    have absent : s.observer = .absent := by simpa [isLaunched] using shaped.2.2.2.2.2
    simp [absent, Observer.isReaped] at reaped
  | ordered =>
    obtain ⟨observer, obeyed, _⟩ := asked_same s.endSide now s.settings.killGraceMs _
    rw [observer, obeyed]
    exact ⟨reaped, rfl⟩
  | obeyed watching | reaped watching => simp [watching, Observer.isReaped] at reaped
  | exited => exact ⟨rfl, rfl⟩
  | launchFailed | overdue | quiet => exact ⟨reaped, rfl⟩

theorem EndTook.stays_exited (ending : EndTook now s action side) (exited : s.exited = true) :
    side.exited = true := by
  cases ending with
  | ordered => exact (asked_same s.endSide now s.settings.killGraceMs _).2.2 exited
  | launchFailed | exited => rfl
  | launched | overdue | obeyed | reaped | quiet => exact exited

theorem after_reaped (coherent : s.Coherent) (reaped : s.observer.isReaped = true)
    (later : List (Nat × Step)) :
    (s.after later).observer.isReaped = true ∧ (s.after later).obeyed = s.obeyed := by
  refine coherent.run (fun current _ => current.observer.isReaped = true ∧
    current.obeyed = s.obeyed) ⟨reaped, rfl⟩ ?_ later
  rintro current past now action next ready rfl took ⟨still, same⟩
  obtain ⟨stays, kept⟩ := (ready.ending now action).stays_reaped ready still
  exact ⟨stays, kept.trans same⟩

theorem reaped_of_processExits (launched : s.isLaunched = true) (now : Nat) (status : ExitStatus) :
    (s.processExits now status).observer.isReaped = true ∧
      (s.processExits now status).obeyed = s.obeyed := by
  unfold processExits
  cases observer : s.observer with
  | absent => simp [isLaunched, observer] at launched
  | watching => exact ⟨rfl, rfl⟩
  | draining | finished => simp [observer, Observer.isReaped]

theorem after_exited (coherent : s.Coherent) (exited : s.exited = true)
    (later : List (Nat × Step)) : (s.after later).exited = true := by
  refine coherent.run (fun current _ => current.exited = true) exited ?_ later
  rintro current past now action next ready rfl took still
  exact (ready.ending now action).stays_exited still

end Later

/-- The kill requests, the exit and the cleanup of a process, in whatever way it ends. -/
theorem shutdown_of_run (settings : AgentSettings) (decoder : Decoder) (hook : Bool)
    (steps : List (Nat × Step)) :
    let s := (start settings decoder hook).after steps
    let past := (start settings decoder hook).moments steps
    (s.state ≠ .dead → s.requests = []) ∧
    Sent settings.killGraceMs (KillsOnTime past) (order? past) s.requests s.killDue ∧
    (∀ due, s.killDue = some due → (∀ now < due, s.onKillDue now = s) ∧
      ∀ now ≥ due, (s.onKillDue now).requests = s.requests ++ [⟨.force, now⟩]) ∧
    s.obeyed ≤ s.requests.length ∧
    (∀ now status later, s.isLaunched = true →
      ((s.processExits now status).after later).obeyed = s.obeyed) ∧
    s.isLaunched = past.any Moment.launches ∧
    (∀ moment ∈ past, moment.exits = true → moment.before.isLaunched = true) ∧
    past.countP Moment.exits ≤ 1 ∧
    (s.cleanups = if hook then past.countP Moment.exits else 0) ∧
    (s.exited = past.any fun moment => moment.exits || moment.launchFails || moment.forgone) ∧
    (s.exited = true → ∀ later, (s.after later).exited = true) := by
  intro s past
  have coherent : s.Coherent := run_coherent settings decoder hook steps
  have all := run_ended settings decoder hook steps
  have fresh : s.state ≠ .dead → order? past = none := all.1
  have ended : Ended settings.killGraceMs hook past s.endSide := all.2
  refine ⟨fun alive => ?_, ended.sent, fun due waits => ⟨fun now early => ?_, fun now reached => ?_⟩,
    ended.obeyed, fun now status later launched => ?_, ended.launched, ?_, ?_, ?_, ended.exited,
    after_exited coherent⟩
  · have sent := ended.sent
    rw [fresh alive] at sent
    exact sent.of_unordered.1
  · simp [onKillDue, waits, Nat.not_le_of_lt early]
  · simp [onKillDue, waits, show due ≤ now from reached, request]
  · obtain ⟨reaped, same⟩ := reaped_of_processExits launched now status
    have ready : (s.processExits now status).Coherent :=
      step_coherent coherent now (.processExits status)
    exact (after_reaped ready reaped later).2.trans same
  · intro moment member exits
    obtain ⟨status, left⟩ := Option.isSome_iff_exists.mp exits
    exact launched_of_exit left
  · rw [ended.counted]
    exact Bool.toNat_le _
  · have cleanups : s.cleanups = (hook && s.observer == .finished).toNat := ended.cleanups
    rw [cleanups, ended.counted]
    cases hook <;> rfl

/-- A kill, an exit within the grace period, and requests that come too late. -/
theorem requests_of_killed_run :
    let first := start { killGraceMs := 10 } (.streamJson false) true
    let killed : List (Nat × Step) := [(0, .spawn (.ok 1)), (3, .kill), (4, .obey)]
    let later : List (Nat × Step) := [(13, .killDue), (13, .obey), (1005, .finishDraining)]
    let steps := killed ++ (5, .processExits .signal) :: later
    let s := first.after steps
    KillsOnTime (first.moments steps) ∧ (first.after killed).isLaunched = true ∧
      s.requests = [⟨.interrupt, 3⟩, ⟨.force, 13⟩] ∧ s.obeyed = 1 ∧ s.cleanups = 1 := by
  intro first killed later steps s
  have onTime : KillsOnTime (first.moments steps) := by decide +kernel
  have launched : (first.after killed).isLaunched = true := by decide +kernel
  have ordered : order? (first.moments steps) = some (3, .graceful) := by decide +kernel
  have sentAll : s.killDue = none := by decide +kernel
  have obeyed : (first.after killed).obeyed = 1 := by decide +kernel
  have exits : (first.moments steps).countP Moment.exits = 1 := by decide +kernel
  obtain ⟨-, -, -, -, reaped, -⟩ :=
    shutdown_of_run { killGraceMs := 10 } (.streamJson false) true killed
  obtain ⟨-, sent, -, -, -, -, -, -, cleanups, -⟩ :=
    shutdown_of_run { killGraceMs := 10 } (.streamJson false) true steps
  change Sent 10 (KillsOnTime (first.moments steps)) (order? (first.moments steps)) s.requests
    s.killDue at sent
  rw [ordered, sentAll] at sent
  refine ⟨onTime, launched, sent.of_punctual onTime, ?_, cleanups.trans exits⟩
  have unheeded := reaped 5 .signal later launched
  rw [obeyed] at unheeded
  unfold s steps
  rw [after_append, after, List.foldl_cons]
  exact unheeded

end Supervisor

end AgentHost
