import AgentHost.Proofs.Supervisor.TurnEnds
import AgentHost.Proofs.TimerHistory

namespace AgentHost.Supervisor

namespace Moment

def armsHang (moment : Moment) : Bool :=
  moment.begins || (moment.before.state == .busy && moment.before.hears moment.action)

def hangTaken (moment : Moment) : List Nat :=
  match moment.action with
  | .hangRings generation => [generation]
  | _ => []

def idleTaken (moment : Moment) : List Nat :=
  match moment.action with
  | .idleRings generation => [generation]
  | _ => []

def leaves (state : Lifecycle) (moment : Moment) : Bool :=
  moment.before.state == state && moment.after.state != state

def hangUses (moment : Moment) : List Timer.Use :=
  moment.hangTaken.map Timer.Use.take ++
  (if moment.armsHang then [.arm moment.time moment.before.settings.hangTimeoutMs] else []) ++
  (if moment.leaves .busy then [.cancel] else [])

def idleUses (moment : Moment) : List Timer.Use :=
  moment.idleTaken.map Timer.Use.take ++
  (if moment.leaves .idle then [.cancel] else []) ++
  (if becomesIdle moment then [.arm moment.time moment.before.settings.idleTimeoutMs] else [])

end Moment

section Generations

variable {s s' : Supervisor} {now : Nat} {action : Step}

theorem Move.hang_generation (move : Move now s s') : s'.hang.generation = s.hang.generation := by
  cases move with
  | aside rest => rw [rest.hang]
  | advance _ _ rest => rw [rest.hang]
  | complete _ _ rest =>
    rw [rest.hang]
    exact s.hang.cancel_generation
  | stop _ hang => exact hang.generation
  | inputTaken _ _ rest => rw [rest.hang]
  | inputReturned _ rest => rw [rest.hang]
  | inputLost _ rest => rw [rest.hang]

theorem Moves.hang_generation (moves : Moves now s s') :
    s'.hang.generation = s.hang.generation := by
  induction moves with
  | refl => rfl
  | tail _ move ih => exact move.hang_generation.trans ih

theorem heard_hang_generation (s : Supervisor) (now : Nat) : (s.heard now).hang.generation =
    s.hang.generation + (s.state == .busy).toNat := by
  unfold heard
  split
  · next busy => simp [armHang, Timer.arm, busy]
  · next other => simp [other]

/-- The hang timer is armed once by each step in `armsHang`, and by no others. -/
theorem Took.hang_generation (took : Took now s action s') (streams : s.Streams) :
    s'.hang.generation = s.hang.generation + (Moment.armsHang ⟨now, action, s, s'⟩).toNat := by
  have begins := took.begins_iff streams
  cases took with
  | launched starting rest => simp [rest.hang, Moment.armsHang, Moment.begins, isCall, starting]
  | launchFailed starting rest => simp [rest.hang, Moment.armsHang, Moment.begins, isCall, starting]
  | begun idle held rest =>
    have begun := begins.mpr ⟨_, rfl, idle, held⟩
    simp [rest.hang, Moment.armsHang, begun, Timer.arm]
  | @refused prompt _ message why rest =>
    have unbegun : Moment.begins ⟨now, .sendTurn prompt, s, s'⟩ = false := by
      refine Bool.eq_false_iff.mpr fun begun => ?_
      obtain ⟨_, _, idle, held⟩ := begins.mp begun
      simp [why idle] at held
    simp [rest.hang, reject, Moment.armsHang, unbegun, hears, reads, logEnds]
  | moved uncalled moves =>
    have unbegun : Moment.begins ⟨now, action, s, s'⟩ = false := by
      simp [Moment.begins, isCall_eq_false uncalled]
    rw [moves.hang_generation]
    simp only [Moment.armsHang, unbegun, Bool.false_or]
    split
    · next hears => rw [heard_hang_generation, hears, Bool.and_true]
    · next silent => simp [silent]

theorem Move.idle_generation (move : Move now s s') (other : s.state ≠ .busy) :
    s'.idle.generation = s.idle.generation := by
  cases move with
  | aside rest => rw [rest.idle]
  | advance _ _ rest => rw [rest.idle]
  | complete _ _ rest =>
    rw [rest.idle]
    simp [completed, other]
  | stop _ _ idle => exact idle.generation
  | inputTaken _ _ rest => rw [rest.idle]
  | inputReturned _ rest => rw [rest.idle]
  | inputLost _ rest => rw [rest.idle]

theorem Moves.idle_generation (moves : Moves now s s') (other : s.state ≠ .busy) :
    s'.idle.generation = s.idle.generation ∧ (s'.state = .idle → s.state = .idle) := by
  induction moves with
  | refl => exact ⟨rfl, id⟩
  | tail earlier move ih =>
    have still := mt (Moves.busy_before earlier) other
    refine ⟨(move.idle_generation still).trans ih.1, fun idle => ih.2 ?_⟩
    rcases move.state_cases with ⟨same, _⟩ | ⟨busy, _⟩ | dead
    · exact same.symm.trans idle
    · exact absurd busy still
    · simp [dead] at idle

theorem Coherent.idle_generation (coherent : s.Coherent) (streams : s.Streams) (now : Nat)
    (action : Step) : (s.step now action).idle.generation =
      s.idle.generation + (becomesIdle ⟨now, action, s, s.step now action⟩).toNat := by
  have took := coherent.took now action
  cases current : s.turn with
  | some under =>
    obtain ⟨call, turn⟩ := under
    have busy := coherent.busy_of_turn current
    cases coherent.fate streams current now action with
    | stopped _ state idle => simp [becomesIdle, state, idle]
    | exited _ state idle => simp [becomesIdle, state, idle]
    | answered _ state idle =>
      simp only [becomesIdle, busy, state, idle]
      rfl
    | goesOn _ _ _ idle _ later =>
      have still := (took.coherent coherent).busy_of_turn later
      simp [becomesIdle, still, idle]
  | none =>
    have other : s.state ≠ .busy := by
      intro busy
      obtain ⟨call, turn, under⟩ := coherent.turn_of_busy busy
      simp [current] at under
    generalize s.step now action = next at took
    cases took with
    | launched starting rest =>
      simp only [becomesIdle, starting, rest.state, rest.idle]
      rfl
    | launchFailed starting rest => simp [becomesIdle, rest.state, rest.idle]
    | begun idle held rest =>
      simp [becomesIdle, rest.state, rest.idle, Timer.cancel_generation]
    | refused message why rest => simp [becomesIdle, rest.state, rest.idle, reject]
    | moved uncalled moves =>
      have unheard : (if s.hears action then s.heard now else s) = s := by
        split
        · exact if_neg other
        · rfl
      rw [unheard] at moves
      obtain ⟨same, kept⟩ := moves.idle_generation other
      have unarmed : becomesIdle ⟨now, action, s, next⟩ = false := by
        simpa [becomesIdle] using fun away idle => away (kept idle)
      simp [same, unarmed]

end Generations

section Slots

variable {s : Supervisor}

theorem hangUses_slot (timer : Timer) (moment : Moment) : (timer.after moment.hangUses).slot =
    (timer.generation + moment.armsHang.toNat, !moment.leaves .busy &&
      (moment.armsHang || (timer.held && !moment.hangTaken.any timer.isCurrent))) := by
  unfold Moment.hangUses
  obtain ⟨rung, waits⟩ := Prod.mk.inj (timer.after_takes moment.hangTaken)
  obtain ⟨armed, held⟩ := Prod.mk.inj ((timer.after (moment.hangTaken.map .take)).after_arm
    moment.armsHang moment.time moment.before.settings.hangTimeoutMs)
  rw [Timer.after_append, Timer.after_append, Timer.after_cancel, armed, held, rung, waits]

theorem idleUses_slot (timer : Timer) (moment : Moment) : (timer.after moment.idleUses).slot =
    (timer.generation + (becomesIdle moment).toNat, becomesIdle moment ||
      (!moment.leaves .idle && (timer.held && !moment.idleTaken.any timer.isCurrent))) := by
  unfold Moment.idleUses
  obtain ⟨rung, waits⟩ := Prod.mk.inj (timer.after_takes moment.idleTaken)
  obtain ⟨left, held⟩ := Prod.mk.inj ((timer.after (moment.idleTaken.map .take)).after_cancel
    (moment.leaves .idle))
  rw [Timer.after_append, Timer.after_append, Timer.after_arm, left, held, rung, waits]

theorem busy_of_begins {moment : Moment} (ready : moment.after.Coherent)
    (begins : moment.begins = true) : moment.after.state = .busy := by
  simp only [Moment.begins, Bool.and_eq_true, Option.any_eq_true_iff_get] at begins
  obtain ⟨_, under, _⟩ := begins
  obtain ⟨⟨call, turn⟩, current⟩ := Option.isSome_iff_exists.mp under
  exact ready.busy_of_turn current

theorem Coherent.hang_unheeded (coherent : s.Coherent) (now : Nat) (action : Step)
    (alive : (s.step now action).state ≠ .dead) :
    (Moment.hangTaken ⟨now, action, s, s.step now action⟩).any s.hang.isCurrent = false := by
  cases action with
  | hangRings generation =>
    simp only [Moment.hangTaken, List.any_cons, List.any_nil, Bool.or_false]
    refine Bool.eq_false_iff.mpr fun current => alive ?_
    have busy := coherent.hang_held_iff.mp (Timer.held_of_current current)
    have orders : s.termination? (.hangRings generation) = some (.hang, .forced) := by
      simp [termination?, busy, current]
    exact state_of_termination coherent orders now
  | _ => rfl

theorem Coherent.idle_unheeded (coherent : s.Coherent) (now : Nat) (action : Step)
    (alive : (s.step now action).state ≠ .dead) :
    (Moment.idleTaken ⟨now, action, s, s.step now action⟩).any s.idle.isCurrent = false := by
  cases action with
  | idleRings generation =>
    simp only [Moment.idleTaken, List.any_cons, List.any_nil, Bool.or_false]
    refine Bool.eq_false_iff.mpr fun current => alive ?_
    have idle := coherent.idle_held_iff.mp (Timer.held_of_current current)
    have orders : s.termination? (.idleRings generation) = some (.idleTimeout, .graceful) := by
      simp [termination?, idle, current]
    exact state_of_termination coherent orders now
  | _ => rfl

/-- `hangUses` describes the effect of a step on the hang timer. -/
theorem Coherent.hang_slot (coherent : s.Coherent) (streams : s.Streams) (now : Nat)
    (action : Step) : (s.step now action).hang.slot =
      (s.hang.after (Moment.hangUses ⟨now, action, s, s.step now action⟩)).slot := by
  have took := coherent.took now action
  have ready := took.coherent coherent
  rw [hangUses_slot, Timer.slot, took.hang_generation streams]
  -- the generations agree, so it remains to show that both sides hold the timer or neither does
  refine congrArg (Prod.mk _) ?_
  by_cases busy : (s.step now action).state = .busy
  · rw [ready.hang_held_iff.mpr busy]
    obtain ⟨call, turn, current⟩ := ready.turn_of_busy busy
    rcases took.turn_before current with ⟨before, was⟩ | ⟨_, begun⟩
    · have held := coherent.hang_held_iff.mpr (coherent.busy_of_turn was)
      have unheeded := coherent.hang_unheeded now action (by simp [busy])
      simp [Moment.leaves, busy, held, unheeded]
    · simp [Moment.leaves, Moment.armsHang, busy, begun]
  · rw [Bool.eq_false_iff.mpr (mt ready.hang_held_iff.mp busy)]
    by_cases was : s.state = .busy
    · simp [Moment.leaves, was, busy]
    · have free := Bool.eq_false_iff.mpr (mt coherent.hang_held_iff.mp was)
      have unbegun : Moment.begins ⟨now, action, s, s.step now action⟩ = false :=
        Bool.eq_false_iff.mpr fun begins => busy (busy_of_begins ready begins)
      simp [Moment.armsHang, unbegun, was, free]

theorem Coherent.idle_slot (coherent : s.Coherent) (streams : s.Streams) (now : Nat)
    (action : Step) : (s.step now action).idle.slot =
      (s.idle.after (Moment.idleUses ⟨now, action, s, s.step now action⟩)).slot := by
  have took := coherent.took now action
  have ready := took.coherent coherent
  rw [idleUses_slot, Timer.slot, coherent.idle_generation streams now action]
  -- the generations agree, so it remains to show that both sides hold the timer or neither does
  refine congrArg (Prod.mk _) ?_
  by_cases idle : (s.step now action).state = .idle
  · rw [ready.idle_held_iff.mpr idle]
    by_cases was : s.state = .idle
    · have held := coherent.idle_held_iff.mpr was
      have unheeded := coherent.idle_unheeded now action (by simp [idle])
      simp [Moment.leaves, becomesIdle, idle, was, held, unheeded]
    · simp [becomesIdle, idle, was]
  · rw [Bool.eq_false_iff.mpr (mt ready.idle_held_iff.mp idle)]
    by_cases was : s.state = .idle
    · simp [Moment.leaves, becomesIdle, was, idle]
    · have free := Bool.eq_false_iff.mpr (mt coherent.idle_held_iff.mp was)
      simp [becomesIdle, idle, free]

end Slots

structure Alarmed (s : Supervisor) (past : List Moment) : Prop where
  hang : s.hang.slot = (Timer.after {} (past.flatMap Moment.hangUses)).slot
  idle : s.idle.slot = (Timer.after {} (past.flatMap Moment.idleUses)).slot
  heard : ∀ call turn, s.turn = some (call, turn) → ∃ earlier moment later,
    past = earlier ++ moment :: later ∧ moment.armsHang = true ∧
    (∃ turn, moment.after.turn = some (call, turn)) ∧
    s.hang.generation = Timer.armings (earlier.flatMap Moment.hangUses) + 1 ∧
    ∀ other ∈ later, other.begins = false ∧ other.before.hears other.action = false
  rested : s.state = .idle → ∃ earlier moment later,
    past = earlier ++ moment :: later ∧ becomesIdle moment = true ∧
    s.idle.generation = Timer.armings (earlier.flatMap Moment.idleUses) + 1 ∧
    ∀ other ∈ later, other.begins = false

theorem start_alarmed (settings : AgentSettings) (decoder : Decoder) (hook : Bool) :
    (start settings decoder hook).Alarmed [] := by
  constructor <;> simp [start, Timer.after]

section Alarmed

variable {s : Supervisor} {past : List Moment}

theorem slot_snoc {timer next : Timer} {past : List Moment} {uses : Moment → List Timer.Use}
    (same : timer.slot = (Timer.after {} (past.flatMap uses)).slot) {moment : Moment}
    (step : next.slot = (timer.after (uses moment)).slot) :
    next.slot = (Timer.after {} ((past ++ [moment]).flatMap uses)).slot := by
  rw [step, Timer.after_slot same, List.flatMap_append, Timer.after_append]
  simp

theorem generation_of_slot {timer : Timer} {uses : List Timer.Use}
    (same : timer.slot = (Timer.after {} uses).slot) : timer.generation = Timer.armings uses := by
  rw [(Prod.mk.inj same).1, Timer.after_generation]
  exact Nat.zero_add _

theorem Alarmed.step (alarmed : s.Alarmed past) (coherent : s.Coherent) (streams : s.Streams)
    (now : Nat) (action : Step) :
    (s.step now action).Alarmed (past ++ [⟨now, action, s, s.step now action⟩]) where
  hang := slot_snoc alarmed.hang (coherent.hang_slot streams now action)
  idle := slot_snoc alarmed.idle (coherent.idle_slot streams now action)
  heard call turn current := by
    have took := coherent.took now action
    have number := took.hang_generation streams
    cases arms : Moment.armsHang ⟨now, action, s, s.step now action⟩ with
    | true =>
      refine ⟨past, ⟨now, action, s, s.step now action⟩, [], rfl, arms, ⟨turn, current⟩, ?_, by simp⟩
      rw [number, arms, generation_of_slot alarmed.hang]
      rfl
    | false =>
      have was : ∃ before, s.turn = some (call, before) := by
        rcases took.turn_before current with was | ⟨_, begun⟩
        · exact was
        · simp [Moment.armsHang, begun] at arms
      obtain ⟨before, under⟩ := was
      obtain ⟨earlier, moment, later, split, armed, owned, counted, silent⟩ :=
        alarmed.heard call before under
      refine ⟨earlier, moment, later ++ [⟨now, action, s, s.step now action⟩], by simp [split], armed,
        owned, ?_, fun other member => ?_⟩
      · rw [number, arms]
        exact counted
      · rcases List.mem_append.mp member with member | member
        · exact silent other member
        · rw [List.mem_singleton.mp member]
          simpa [Moment.armsHang, coherent.busy_of_turn under] using arms
  rested idle := by
    have number := coherent.idle_generation streams now action
    have ready := (coherent.took now action).coherent coherent
    cases arms : becomesIdle ⟨now, action, s, s.step now action⟩ with
    | true =>
      refine ⟨past, ⟨now, action, s, s.step now action⟩, [], rfl, arms, ?_, by simp⟩
      rw [number, arms, generation_of_slot alarmed.idle]
      rfl
    | false =>
      have was : s.state = .idle := by simpa [becomesIdle, idle] using arms
      obtain ⟨earlier, moment, later, split, armed, counted, unbegun⟩ := alarmed.rested was
      refine ⟨earlier, moment, later ++ [⟨now, action, s, s.step now action⟩], by simp [split], armed,
        ?_, fun other member => ?_⟩
      · rw [number, arms]
        exact counted
      · rcases List.mem_append.mp member with member | member
        · exact unbegun other member
        · rw [List.mem_singleton.mp member]
          refine Bool.eq_false_iff.mpr fun begins => ?_
          have busy := busy_of_begins ready begins
          simp [idle] at busy

end Alarmed

theorem run_alarmed (settings : AgentSettings) (decoder : Decoder) (hook : Bool)
    (steps : List (Nat × Step)) : ((start settings decoder hook).after steps).Alarmed
      ((start settings decoder hook).moments steps) := by
  have both := (start_coherent settings decoder hook).run
    (fun current past => current.Streams ∧ current.Alarmed past)
    ⟨start_streams settings decoder hook, start_alarmed settings decoder hook⟩ ?_ steps
  · exact both.2
  rintro current past now action next coherent rfl took ⟨streams, alarmed⟩
  exact ⟨(took.keeps coherent streams).streams, alarmed.step coherent streams now action⟩

/-- Only the latest arming of each timer has an effect when it goes off, and only until it is
    cancelled or taken. -/
structure HeedsLatest (s : Supervisor) (past : List Moment) : Prop where
  hang : ∀ generation, s.hang.isCurrent generation = true ↔
    Timer.Open (past.flatMap Moment.hangUses) generation
  idle : ∀ generation, s.idle.isCurrent generation = true ↔
    Timer.Open (past.flatMap Moment.idleUses) generation
  staleHang : ∀ now generation, ¬ Timer.Open (past.flatMap Moment.hangUses) generation →
    s.onHang now generation = s
  staleIdle : ∀ now generation, ¬ Timer.Open (past.flatMap Moment.idleUses) generation →
    s.onIdle now generation = s
  /-- An alarm that ends a turn was set during it, with no sign of life since. -/
  hung : ∀ now generation, s.onHang now generation ≠ s → ∃ call turn earlier moment later,
    s.turn = some (call, turn) ∧ past = earlier ++ moment :: later ∧ moment.armsHang = true ∧
    (∃ turn, moment.after.turn = some (call, turn)) ∧
    generation = Timer.armings (earlier.flatMap Moment.hangUses) + 1 ∧
    ∀ other ∈ later, other.begins = false ∧ other.before.hears other.action = false
  /-- An alarm that ends an idle process was set after its latest turn. -/
  idled : ∀ now generation, s.onIdle now generation ≠ s → ∃ earlier moment later,
    past = earlier ++ moment :: later ∧ becomesIdle moment = true ∧
    generation = Timer.armings (earlier.flatMap Moment.idleUses) + 1 ∧
    ∀ other ∈ later, other.begins = false

theorem heeds_of_run (settings : AgentSettings) (decoder : Decoder) (hook : Bool)
    (steps : List (Nat × Step)) : ((start settings decoder hook).after steps).HeedsLatest
      ((start settings decoder hook).moments steps) := by
  let s := (start settings decoder hook).after steps
  let past := (start settings decoder hook).moments steps
  have coherent : s.Coherent := run_coherent settings decoder hook steps
  have alarmed : s.Alarmed past := run_alarmed settings decoder hook steps
  have hang (generation : Nat) : s.hang.isCurrent generation = true ↔
      Timer.Open (past.flatMap Moment.hangUses) generation := by
    rw [Timer.isCurrent_of_slot alarmed.hang, Timer.isCurrent_iff_open]
  have idle (generation : Nat) : s.idle.isCurrent generation = true ↔
      Timer.Open (past.flatMap Moment.idleUses) generation := by
    rw [Timer.isCurrent_of_slot alarmed.idle, Timer.isCurrent_iff_open]
  have staleHang (now generation : Nat) (unheeded : s.hang.isCurrent generation ≠ true) :
      s.onHang now generation = s := onHang_of_stale (Bool.eq_false_iff.mpr unheeded) now
  have staleIdle (now generation : Nat) (unheeded : s.idle.isCurrent generation ≠ true) :
      s.onIdle now generation = s := onIdle_of_stale (Bool.eq_false_iff.mpr unheeded) now
  refine ⟨hang, idle, fun now generation closed => staleHang now generation (mt (hang _).mp closed),
    fun now generation closed => staleIdle now generation (mt (idle _).mp closed), ?_, ?_⟩
  · intro now generation changed
    have current : s.hang.isCurrent generation = true := by
      by_contra unheeded
      exact changed (staleHang now generation unheeded)
    obtain ⟨held, number⟩ := Timer.isCurrent_iff.mp current
    obtain ⟨call, turn, under⟩ := coherent.turn_of_busy (coherent.hang_held_iff.mp held)
    obtain ⟨earlier, moment, later, split, arms, owned, counted, silent⟩ :=
      alarmed.heard call turn under
    exact ⟨call, turn, earlier, moment, later, under, split, arms, owned,
      number.symm.trans counted, silent⟩
  · intro now generation changed
    have current : s.idle.isCurrent generation = true := by
      by_contra unheeded
      exact changed (staleIdle now generation unheeded)
    obtain ⟨held, number⟩ := Timer.isCurrent_iff.mp current
    obtain ⟨earlier, moment, later, split, becomes, counted, unbegun⟩ :=
      alarmed.rested (coherent.idle_held_iff.mp held)
    exact ⟨earlier, moment, later, split, becomes, number.symm.trans counted, unbegun⟩

end AgentHost.Supervisor
