import AgentHost.Proofs.TimerLaws
import Mathlib.Data.List.Induction

namespace AgentHost.Timer

inductive Use where
  | arm (now delay : Nat)
  | cancel
  | take (generation : Nat)
deriving Repr, DecidableEq

def Use.isArm : Use → Bool
  | .arm _ _ => true
  | _ => false

def use (timer : Timer) : Use → Timer
  | .arm now delay => timer.arm now delay
  | .cancel => timer.cancel
  | .take generation => (timer.take generation).2

def after (timer : Timer) (uses : List Use) : Timer := uses.foldl use timer

def armings (uses : List Use) : Nat := uses.countP Use.isArm

/-- The arming with this number is the last one, and has been neither cancelled nor taken. -/
def Open (uses : List Use) (generation : Nat) : Prop :=
  ∃ earlier now delay later, uses = earlier ++ .arm now delay :: later ∧
    generation = armings earlier + 1 ∧ ∀ use ∈ later, ∃ other, use = .take other ∧ other ≠ generation

def slot (timer : Timer) : Nat × Bool := (timer.generation, timer.held)

theorem after_append (timer : Timer) (uses more : List Use) :
    timer.after (uses ++ more) = (timer.after uses).after more := List.foldl_append

theorem after_snoc (timer : Timer) (uses : List Use) (last : Use) :
    timer.after (uses ++ [last]) = (timer.after uses).use last := by
  rw [after_append]
  rfl

theorem armings_append (uses more : List Use) :
    armings (uses ++ more) = armings uses + armings more := List.countP_append

@[simp] theorem cancel_slot (timer : Timer) : timer.cancel.slot = (timer.generation, false) := by
  have released := timer.cancel_released
  rw [slot, released.held, released.generation]

@[simp] theorem arm_slot (timer : Timer) (now delay : Nat) :
    (timer.arm now delay).slot = (timer.generation + 1, true) := rfl

theorem take_slot (timer : Timer) (generation : Nat) : (timer.take generation).2.slot =
    (timer.generation, timer.held && !timer.isCurrent generation) := by
  unfold take
  cases current : timer.isCurrent generation <;> simp [slot]

theorem take_taken (timer : Timer) (generation : Nat) :
    (timer.take generation).1 = timer.isCurrent generation := by
  unfold take
  cases current : timer.isCurrent generation <;> rfl

theorem take_isCurrent (timer : Timer) (other generation : Nat) :
    (timer.take other).2.isCurrent generation = true ↔
      timer.isCurrent generation = true ∧ other ≠ generation := by
  unfold take
  cases taken : timer.isCurrent other with
  | true =>
    have latest := generation_of_current taken
    simp [isCurrent, latest]
  | false =>
    simp only [Bool.false_eq_true, if_false]
    refine ⟨fun current => ⟨current, fun same => ?_⟩, fun both => both.1⟩
    rw [same, current] at taken
    contradiction

theorem isCurrent_of_slot {timer other : Timer} (same : other.slot = timer.slot) (generation : Nat) :
    other.isCurrent generation = timer.isCurrent generation := by
  obtain ⟨number, held⟩ := Prod.mk.inj same
  rw [isCurrent, isCurrent, number, held]

theorem use_slot {timer other : Timer} (same : other.slot = timer.slot) (action : Use) :
    (other.use action).slot = (timer.use action).slot := by
  have current := isCurrent_of_slot same
  obtain ⟨number, held⟩ := Prod.mk.inj same
  cases action with
  | arm now delay => simp [use, number]
  | cancel => simp [use, number]
  | take generation => simp only [use, take_slot, number, held, current]

theorem after_slot {timer other : Timer} (same : other.slot = timer.slot) (uses : List Use) :
    (other.after uses).slot = (timer.after uses).slot := by
  induction uses generalizing timer other with
  | nil => exact same
  | cons action rest ih => exact ih (use_slot same action)

theorem after_takes (timer : Timer) (taken : List Nat) :
    (timer.after (taken.map Use.take)).slot =
      (timer.generation, timer.held && !taken.any timer.isCurrent) := by
  induction taken generalizing timer with
  | nil => simp [after, slot]
  | cons generation rest ih =>
    change ((timer.take generation).2.after (rest.map Use.take)).slot = _
    rw [ih, take_generation]
    rcases timer.take_cases generation with ⟨current, _, released⟩ | ⟨stale, kept⟩
    · simp [current, released.held]
    · simp [stale, kept]

theorem after_arm (timer : Timer) (arms : Bool) (now delay : Nat) :
    (timer.after (if arms then [.arm now delay] else [])).slot =
      (timer.generation + arms.toNat, arms || timer.held) := by
  cases arms <;> rfl

theorem after_cancel (timer : Timer) (cancels : Bool) :
    (timer.after (if cancels then [.cancel] else [])).slot =
      (timer.generation, !cancels && timer.held) := by
  cases cancels with
  | true => exact timer.cancel_slot
  | false => rfl

theorem use_generation (timer : Timer) (action : Use) :
    (timer.use action).generation = timer.generation + armings [action] := by
  cases action with
  | arm now delay => rfl
  | cancel => exact timer.cancel_generation
  | take generation => exact timer.take_generation generation

theorem after_generation (timer : Timer) (uses : List Use) :
    (timer.after uses).generation = timer.generation + armings uses := by
  induction uses generalizing timer with
  | nil => rfl
  | cons action rest ih =>
    have split : armings (action :: rest) = armings [action] + armings rest :=
      armings_append [action] rest
    rw [split, ← Nat.add_assoc, ← use_generation]
    exact ih (timer.use action)

theorem open_arm (uses : List Use) (now delay generation : Nat) :
    Open (uses ++ [.arm now delay]) generation ↔ generation = armings uses + 1 := by
  constructor
  · rintro ⟨earlier, time, span, later, split, number, spared⟩
    rcases List.eq_nil_or_concat later with rfl | ⟨rest, last, rfl⟩
    · obtain ⟨rfl, _⟩ := List.append_inj' split rfl
      exact number
    · have parts : uses ++ [.arm now delay] = (earlier ++ .arm time span :: rest) ++ [last] := by
        simpa using split
      obtain ⟨_, tails⟩ := List.append_inj' parts rfl
      obtain ⟨rfl, _⟩ := List.cons.inj tails
      obtain ⟨other, same, _⟩ := spared (.arm now delay) (by simp)
      contradiction
  · rintro rfl
    exact ⟨uses, now, delay, [], rfl, rfl, by simp⟩

theorem open_keep (uses : List Use) {last : Use} (unarmed : last.isArm = false) (generation : Nat) :
    Open (uses ++ [last]) generation ↔
      Open uses generation ∧ ∃ other, last = .take other ∧ other ≠ generation := by
  constructor
  · rintro ⟨earlier, time, span, later, split, number, spared⟩
    rcases List.eq_nil_or_concat later with rfl | ⟨rest, end', rfl⟩
    · obtain ⟨_, tails⟩ := List.append_inj' split rfl
      obtain ⟨rfl, _⟩ := List.cons.inj tails
      simp [Use.isArm] at unarmed
    · have parts : uses ++ [last] = (earlier ++ .arm time span :: rest) ++ [end'] := by
        simpa using split
      obtain ⟨rfl, tails⟩ := List.append_inj' parts rfl
      obtain ⟨rfl, _⟩ := List.cons.inj tails
      exact ⟨⟨earlier, time, span, rest, rfl, number, fun use member => spared use (by simp [member])⟩,
        spared last (by simp)⟩
  · rintro ⟨⟨earlier, time, span, later, rfl, number, spared⟩, taken⟩
    refine ⟨earlier, time, span, later ++ [last], by simp, number, fun use member => ?_⟩
    rcases List.mem_append.mp member with member | member
    · exact spared use member
    · rw [List.mem_singleton.mp member]
      exact taken

/-- An alarm is current exactly if its arming is the last one and still open. -/
theorem isCurrent_iff_open (uses : List Use) (generation : Nat) :
    (after {} uses).isCurrent generation = true ↔ Open uses generation := by
  -- induction from the end of the history, since the last use decides what is open
  induction uses using List.reverseRecOn with
  | nil => simp [after, isCurrent, Open]
  | append_singleton uses last ih =>
    have number : (after {} uses).generation = armings uses := by
      rw [after_generation]
      exact Nat.zero_add _
    rw [after_snoc]
    cases last with
    | arm now delay =>
      rw [open_arm, isCurrent_iff]
      simp [use, arm, number, eq_comm]
    | cancel =>
      rw [open_keep uses rfl, isCurrent_iff]
      simp [use, (cancel_released _).held]
    | take other =>
      rw [open_keep uses rfl, ← ih]
      simp only [use, take_isCurrent, Use.take.injEq, exists_eq_left']

theorem stale_after {timer : Timer} {generation : Nat} (known : generation ≤ timer.generation)
    (stale : timer.isCurrent generation = false) (uses : List Use) :
    (timer.after uses).isCurrent generation = false := by
  induction uses generalizing timer with
  | nil => exact stale
  | cons action rest ih =>
    have number := timer.use_generation action
    refine ih (by omega) ?_
    cases action with
    | arm now delay =>
      have newer : timer.generation + 1 ≠ generation := by omega
      simp [use, isCurrent, arm, newer]
    | cancel => simp [use, isCurrent, (cancel_released timer).held]
    | take other =>
      refine Bool.eq_false_iff.mpr fun current => ?_
      rw [((timer.take_isCurrent other generation).mp current).1] at stale
      contradiction

/-- No arming is taken twice, whatever happens in between. -/
theorem taken_once {timer : Timer} {generation : Nat}
    (taken : (timer.take generation).1 = true) (uses : List Use) :
    (((timer.take generation).2.after uses).take generation).1 = false := by
  rw [take_taken] at taken ⊢
  have known : generation ≤ (timer.take generation).2.generation :=
    Nat.le_of_eq (by rw [take_generation, generation_of_current taken])
  have gone : (timer.take generation).2.isCurrent generation = false :=
    Bool.eq_false_iff.mpr fun still => ((timer.take_isCurrent _ _).mp still).2 rfl
  exact stale_after known gone uses

end AgentHost.Timer
