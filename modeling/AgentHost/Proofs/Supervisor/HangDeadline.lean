import AgentHost.Proofs.Supervisor.Lifecycle
import AgentHost.Proofs.Supervisor.Streams

namespace AgentHost.Supervisor

namespace Moment

def makes (call : Nat) (moment : Moment) : Bool :=
  isCall moment.action && moment.before.calls == call

def reads (moment : Moment) : Bool := moment.before.reads moment.action

def logEnds (moment : Moment) : Bool := moment.before.logEnds moment.action

end Moment

def lastHeard (call : Nat) (past : List Moment) : Nat :=
  max ((lastTime (Moment.makes call) past).getD 0) ((lastTime Moment.reads past).getD 0)

/-- The time of the last sign of life. The end of the log counts as one. -/
def lastSign (call : Nat) (past : List Moment) : Nat :=
  max (lastHeard call past) ((lastTime Moment.logEnds past).getD 0)

theorem lastTime_getD_le {past : List Moment} {latest : Nat}
    (bound : ∀ moment ∈ past, moment.time ≤ latest) (event : Moment → Bool) :
    (lastTime event past).getD 0 ≤ latest := by
  cases last : lastTime event past with
  | none => exact Nat.zero_le _
  | some time => exact lastTime_le last bound

theorem lastSign_snoc {past : List Moment} {moment : Moment}
    (bound : ∀ earlier ∈ past, earlier.time ≤ moment.time) (call : Nat) :
    lastSign call (past ++ [moment]) =
      if moment.makes call || moment.reads || moment.logEnds then moment.time
      else lastSign call past := by
  have made := lastTime_getD_le bound (Moment.makes call)
  have heard := lastTime_getD_le bound Moment.reads
  have ended := lastTime_getD_le bound Moment.logEnds
  unfold lastSign lastHeard
  simp only [lastTime_snoc]
  cases moment.makes call <;> cases moment.reads <;> cases moment.logEnds <;> simp <;> omega

theorem lastSign_eq_lastHeard_iff (call : Nat) (past : List Moment) :
    lastSign call past = lastHeard call past ↔
      ∀ ended, lastTime Moment.logEnds past = some ended → ended ≤ lastHeard call past := by
  unfold lastSign
  cases lastTime Moment.logEnds past with
  | none => simp
  | some time =>
    simp only [Option.getD_some, Option.some.injEq, forall_eq']
    omega

structure Watched (timeout : Nat) (s : Supervisor) (past : List Moment) : Prop where
  streams : s.Streams
  unchanged : s.settings.hangTimeoutMs = timeout
  deadline : ∀ call turn, s.turn = some (call, turn) →
    (∃ since, lastTime (Moment.makes call) past = some since) ∧
      s.hang.deadline? = some (lastSign call past + timeout)

theorem Watched.silent {timeout : Nat} {s : Supervisor} {past : List Moment} {moment : Moment}
    {hang : Timer} (watched : Watched timeout s past)
    (bound : ∀ earlier ∈ past, earlier.time ≤ moment.time) {call : Nat} {turn : Turn}
    (was : s.turn = some (call, turn)) (same : hang = s.hang)
    (silent : (moment.makes call || moment.reads || moment.logEnds) = false) :
    (∃ since, lastTime (Moment.makes call) (past ++ [moment]) = some since) ∧
      hang.deadline? = some (lastSign call (past ++ [moment]) + timeout) := by
  obtain ⟨⟨since, made⟩, deadline⟩ := watched.deadline call turn was
  rw [lastSign_snoc bound, silent, same]
  simp only [Bool.or_eq_false_iff] at silent
  exact ⟨⟨since, by rw [lastTime_snoc, silent.1.1]; exact made⟩, deadline⟩

theorem Watched.armed {timeout : Nat} {s : Supervisor} {past : List Moment} {moment : Moment}
    {hang : Timer} (watched : Watched timeout s past) (coherent : s.Coherent)
    (bound : ∀ earlier ∈ past, earlier.time ≤ moment.time) {call : Nat}
    (armed : hang = s.hang.arm moment.time s.settings.hangTimeoutMs)
    (sign : (moment.makes call || moment.reads || moment.logEnds) = true) :
    hang.deadline? = some (lastSign call (past ++ [moment]) + timeout) := by
  rw [lastSign_snoc bound, sign, armed, Timer.arm_deadline coherent.hang, watched.unchanged]
  rfl

theorem Watched.took {timeout now : Nat} {s s' : Supervisor} {past : List Moment} {action : Step}
    (watched : Watched timeout s past) (coherent : s.Coherent) (took : Took now s action s')
    (bound : ∀ earlier ∈ past, earlier.time ≤ now) :
    Watched timeout s' (past ++ [⟨now, action, s, s'⟩]) := by
  refine ⟨(took.keeps coherent watched.streams).streams,
    (congrArg (·.hangTimeoutMs) took.settings).trans watched.unchanged, ?_⟩
  intro call turn current
  let moment : Moment := ⟨now, action, s, s'⟩
  have signs : (moment.reads || moment.logEnds) = s.hears action := rfl
  cases took with
  | launched starting rest =>
    have busy := coherent.busy_of_turn (rest.turn.symm.trans current)
    simp [starting] at busy
  | launchFailed starting rest =>
    have busy := coherent.busy_of_turn (rest.turn.symm.trans current)
    simp [starting] at busy
  | begun _ _ rest =>
    have same := rest.turn.symm.trans current
    simp only [Option.some.injEq, Prod.mk.injEq] at same
    have made : moment.makes call = true := by simp [moment, Moment.makes, isCall, same.1]
    refine ⟨⟨now, by rw [lastTime_snoc, made]; rfl⟩, ?_⟩
    exact watched.armed coherent bound rest.hang (by rw [made]; rfl)
  | refused _ _ rest =>
    have was := rest.turn.symm.trans current
    have known := (watched.streams.current call turn was).1
    have other : (s.calls == call) = false := beq_eq_false_iff_ne.mpr (by omega)
    refine watched.silent bound was rest.hang ?_
    simp [Moment.makes, Moment.reads, Moment.logEnds, reads, logEnds, other]
  | moved uncalled moves =>
    have unmade : moment.makes call = false := by
      simp [moment, Moment.makes, isCall_eq_false uncalled]
    obtain ⟨⟨before, was⟩, same⟩ := moves.turn_before current
    cases sign : s.hears action with
    | false =>
      rw [sign] at was same
      exact watched.silent bound was same (by rw [unmade, Bool.false_or, signs, sign])
    | true =>
      rw [sign] at was same
      have held : s.turn = some (call, before) := (s.heard_turn now).symm.trans was
      have busy := coherent.busy_of_turn held
      obtain ⟨⟨since, made⟩, _⟩ := watched.deadline call before held
      refine ⟨⟨since, by rw [lastTime_snoc, unmade]; exact made⟩, ?_⟩
      have armed : s'.hang = s.hang.arm now s.settings.hangTimeoutMs := by
        rw [same, if_pos rfl, heard, if_pos busy]
        rfl
      exact watched.armed coherent bound armed (by rw [unmade, Bool.false_or, signs, sign])

theorem after_watched (settings : AgentSettings) (decoder : Decoder) (hook : Bool)
    (steps : List (Nat × Step)) (ordered : InOrder ((start settings decoder hook).moments steps)) :
    Watched settings.hangTimeoutMs ((start settings decoder hook).after steps)
      ((start settings decoder hook).moments steps) := by
  refine (start_coherent settings decoder hook).run
    (fun current past => InOrder past → Watched settings.hangTimeoutMs current past) ?_ ?_ steps
    ordered
  · intro _
    exact ⟨start_streams settings decoder hook, rfl, by simp [start]⟩
  · intro current past now action next ready _ took watched ordered
    obtain ⟨earlier, _, bound⟩ := List.pairwise_append.mp ordered
    refine (watched earlier).took ready took fun moment member => ?_
    exact bound moment member _ (List.mem_singleton_self _)

def ringsHang (generation : Nat) : Step → Bool
  | .hangRings rung => generation == rung
  | _ => false

/-- The hang timer is punctual: it never goes off before it is due, and while it is armed nothing
    happens after it is due. -/
def Punctual (past : List Moment) : Prop :=
  ∀ moment ∈ past, ∀ due ∈ moment.before.hang.deadline?, moment.time ≤ due ∧
    (ringsHang moment.before.hang.generation moment.action = true → due ≤ moment.time)

instance (past : List Moment) : Decidable (Punctual past) :=
  inferInstanceAs (Decidable (∀ moment ∈ past, ∀ due ∈ moment.before.hang.deadline?,
    moment.time ≤ due ∧
      (ringsHang moment.before.hang.generation moment.action = true → due ≤ moment.time)))

structure Moment.Hangs (moment : Moment) : Prop where
  rings : ∃ generation, moment.action = .hangRings generation
  during : moment.before.turn.isSome = true
  ends : moment.after.turn = none

theorem hangs_iff {moment : Moment} (coherent : moment.before.Coherent)
    (streams : moment.before.Streams)
    (steps : moment.after = moment.before.step moment.time moment.action) {call : Nat} {turn : Turn}
    (current : moment.before.turn = some (call, turn)) :
    (moment.Hangs ↔ ringsHang moment.before.hang.generation moment.action = true) ∧
      (moment.Hangs → moment.after.state = .dead ∧
        moment.after.events call = turn.sent ++ [.error "hang detected", .done]) := by
  obtain ⟨now, action, s, s'⟩ := moment
  dsimp only at coherent streams steps current ⊢
  have held := coherent.hang_held_iff.mpr (coherent.busy_of_turn current)
  have calls {generation : Nat} (rings : action = .hangRings generation) :
      s' = s.onHang now generation := by rw [steps, rings]; rfl
  have outcome := fun generation => onHang_cases coherent.hang_held_iff.mp now generation
  constructor
  · constructor
    · rintro ⟨⟨generation, rings⟩, _, ends⟩
      dsimp only at rings ends
      rw [rings, ringsHang]
      rcases outcome generation with ⟨isCurrent, _⟩ | ⟨_, same⟩
      · simpa [Timer.isCurrent, held] using isCurrent
      · rw [calls rings, same, current] at ends
        contradiction
    · intro rings
      cases action with
      | hangRings generation =>
        refine ⟨⟨generation, rfl⟩, by simp [current], ?_⟩
        dsimp only
        rw [calls rfl]
        rcases outcome generation with ⟨_, _, _, rest⟩ | ⟨stale, _⟩
        · exact rest.turn
        · simp only [ringsHang] at rings
          simp [Timer.isCurrent, held, rings] at stale
      | _ => simp [ringsHang] at rings
  · rintro ⟨⟨generation, rings⟩, _, ends⟩
    dsimp only at rings ends
    rw [calls rings] at ends ⊢
    rcases outcome generation with ⟨_, hang, _, rest⟩ | ⟨_, same⟩
    · exact ⟨rest.state, events_of_stopped streams current (coherent.live call turn current) rest⟩
    · rw [same, current] at ends
      contradiction

/-- The hang timer counts from the last sign of life in a turn, and ends the turn exactly when it is
    due. That sign is the last chunk, or the call itself, exactly if the log has not ended since. -/
theorem hang_of_run (settings : AgentSettings) (decoder : Decoder) (hook : Bool)
    (steps : List (Nat × Step)) (ordered : InOrder ((start settings decoder hook).moments steps)) :
    let s := (start settings decoder hook).after steps
    let past := (start settings decoder hook).moments steps
    (∀ call turn, s.turn = some (call, turn) →
      (∃ since, lastTime (Moment.makes call) past = some since) ∧
      s.hang.deadline? = some (lastSign call past + settings.hangTimeoutMs) ∧
      (s.hang.deadline? = some (lastHeard call past + settings.hangTimeoutMs) ↔
        ∀ ended, lastTime Moment.logEnds past = some ended → ended ≤ lastHeard call past)) ∧
    (Punctual past → ∀ earlier moment later, past = earlier ++ moment :: later →
      ∀ call turn, moment.before.turn = some (call, turn) →
        moment.time ≤ lastSign call earlier + settings.hangTimeoutMs ∧
        (moment.Hangs ↔ ringsHang moment.before.hang.generation moment.action = true) ∧
        (moment.Hangs → moment.time = lastSign call earlier + settings.hangTimeoutMs ∧
          (moment.time = lastHeard call earlier + settings.hangTimeoutMs ↔
            ∀ ended, lastTime Moment.logEnds earlier = some ended →
              ended ≤ lastHeard call earlier) ∧
          moment.after.state = .dead ∧
          moment.after.events call = turn.sent ++ [.error "hang detected", .done])) := by
  intro s past
  constructor
  · intro call turn current
    obtain ⟨made, deadline⟩ := (after_watched settings decoder hook steps ordered).deadline call turn
      current
    refine ⟨made, deadline, ?_⟩
    rw [deadline, ← lastSign_eq_lastHeard_iff, Option.some.injEq, Nat.add_right_cancel_iff]
  · intro punctual earlier moment later split call turn current
    obtain ⟨before, isEarlier, reached, isStep⟩ := moments_split split
    have parts : InOrder (earlier ++ moment :: later) := split ▸ show InOrder past from ordered
    have orderedEarlier : InOrder earlier := (List.pairwise_append.mp parts).1
    have watched := after_watched settings decoder hook before (isEarlier ▸ orderedEarlier)
    rw [← reached, ← isEarlier] at watched
    have coherent : moment.before.Coherent := reached ▸ run_coherent settings decoder hook before
    have deadline := (watched.deadline call turn current).2
    have keptTime := punctual moment (by rw [split]; simp) _ deadline
    obtain ⟨hangs, outcome⟩ := hangs_iff coherent watched.streams isStep current
    refine ⟨keptTime.1, hangs, fun hung => ?_⟩
    have onTime := Nat.le_antisymm keptTime.1 (keptTime.2 (hangs.mp hung))
    refine ⟨onTime, ?_, outcome hung⟩
    rw [onTime, ← lastSign_eq_lastHeard_iff, Nat.add_right_cancel_iff]

def impatient : Supervisor := start { hangTimeoutMs := 1000 } (.streamJson false) true

def silentRun : List (Nat × Step) :=
  [(0, .spawn (.ok 1)), (0, .sendTurn ⟨"one", []⟩), (500, .closeLog), (1500, .hangRings 2)]

theorem silent_run_hangs :
    let past := impatient.moments silentRun
    InOrder past ∧ Punctual past ∧ ∃ earlier moment, past = earlier ++ [moment] ∧
      moment.Hangs ∧ moment.time = lastSign 0 earlier + 1000 ∧ lastSign 0 earlier = 500 := by
  intro past
  have ordered : InOrder past := by decide +kernel
  have punctual : Punctual past := by decide +kernel
  obtain ⟨_, onTime⟩ := hang_of_run _ _ _ silentRun ordered
  let earlier := impatient.moments (silentRun.take 3)
  let moment : Moment := ⟨1500, .hangRings 2, impatient.after (silentRun.take 3),
    impatient.after silentRun⟩
  have split : past = earlier ++ [moment] := rfl
  obtain ⟨_, hangs, outcome⟩ := onTime punctual earlier moment [] split 0 (.start 8) rfl
  have hung : moment.Hangs := hangs.mpr (by decide +kernel)
  exact ⟨ordered, punctual, earlier, moment, split, hung, (outcome hung).1, by decide +kernel⟩

theorem log_end_puts_off_hang :
    let steps := silentRun.take 3 ++ [(1400, .acceptInput 1)]
    let past := impatient.moments steps
    let s := impatient.after steps
    InOrder past ∧ Punctual past ∧ s.turn.map (·.1) = some 0 ∧ lastHeard 0 past = 0 ∧
      s.hang.deadline? = some 1500 ∧ s.hang.deadline? ≠ some (lastHeard 0 past + 1000) := by
  decide +kernel

end AgentHost.Supervisor
