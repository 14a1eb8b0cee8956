import AgentHost.Timer
import Mathlib.Data.List.Basic

namespace AgentHost.Timer

def deadline? (timer : Timer) : Option Nat := timer.current?.map (·.due)

def Claimable (timer : Timer) : Prop := ∃ generation, (timer.take generation).1 = true

def Sound (timer : Timer) : Prop := ∀ alarm ∈ timer.alarms, alarm.generation ≤ timer.generation

structure Released (before after : Timer) : Prop where
  held : after.held = false
  generation : after.generation = before.generation
  alarms : after.alarms ⊆ before.alarms

structure Alike (timer other : Timer) : Prop where
  held : other.held = timer.held
  deadline : other.deadline? = timer.deadline?

structure Twin (timer other : Timer) : Prop where
  alike : timer.Alike other
  sound : timer.Sound
  soundOther : other.Sound

theorem claimable_iff (timer : Timer) : timer.Claimable ↔ timer.held = true := by
  constructor
  · rintro ⟨generation, taken⟩
    unfold take isCurrent at taken
    cases held : timer.held <;> simp_all
  · intro held
    exact ⟨timer.generation, by simp [take, isCurrent, held]⟩

theorem sound_new : Sound {} := by simp [Sound]

theorem cancel_generation (timer : Timer) : timer.cancel.generation = timer.generation := by
  unfold cancel
  split <;> rfl

theorem cancel_alarms_subset (timer : Timer) : timer.cancel.alarms ⊆ timer.alarms := by
  unfold cancel
  split
  · exact List.filter_subset_self _
  · exact List.Subset.refl _

theorem cancel_released (timer : Timer) : timer.Released timer.cancel where
  held := by unfold cancel; split <;> simp_all
  generation := timer.cancel_generation
  alarms := timer.cancel_alarms_subset

theorem Released.trans {a b c : Timer} (first : a.Released b) (second : b.Released c) :
    a.Released c :=
  ⟨second.held, second.generation.trans first.generation,
    List.Subset.trans second.alarms first.alarms⟩

theorem Released.sound {before after : Timer} (released : before.Released after)
    (sound : before.Sound) : after.Sound := by
  intro alarm member
  rw [released.generation]
  exact sound alarm (released.alarms member)

theorem isCurrent_iff {timer : Timer} {generation : Nat} :
    timer.isCurrent generation = true ↔ timer.held = true ∧ timer.generation = generation := by
  simp [isCurrent]

theorem held_of_current {timer : Timer} {generation : Nat}
    (current : timer.isCurrent generation = true) : timer.held = true := (isCurrent_iff.mp current).1

theorem generation_of_current {timer : Timer} {generation : Nat}
    (current : timer.isCurrent generation = true) : generation = timer.generation :=
  (isCurrent_iff.mp current).2.symm

theorem take_cases (timer : Timer) (generation : Nat) :
    (timer.isCurrent generation = true ∧ (timer.take generation).1 = true ∧
      timer.Released (timer.take generation).2) ∨
    (timer.isCurrent generation = false ∧ timer.take generation = (false, timer)) := by
  unfold take
  cases current : timer.isCurrent generation with
  | true => exact .inl ⟨rfl, rfl, rfl, rfl, List.Subset.refl _⟩
  | false => exact .inr ⟨rfl, rfl⟩

theorem take_generation (timer : Timer) (generation : Nat) :
    (timer.take generation).2.generation = timer.generation := by
  rcases timer.take_cases generation with ⟨_, _, released⟩ | ⟨_, kept⟩
  · exact released.generation
  · rw [kept]

@[simp] theorem arm_held (timer : Timer) (now delay : Nat) : (timer.arm now delay).held = true := rfl

theorem arm_sound {timer : Timer} (sound : timer.Sound) (now delay : Nat) :
    (timer.arm now delay).Sound := by
  intro alarm member
  change alarm ∈ timer.cancel.alarms ++ [⟨timer.generation + 1, now + delay⟩] at member
  change alarm.generation ≤ timer.generation + 1
  rcases List.mem_append.mp member with earlier | latest
  · have bound := sound alarm (timer.cancel_alarms_subset earlier)
    omega
  · have same := List.mem_singleton.mp latest
    simp [same]

theorem arm_deadline {timer : Timer} (sound : timer.Sound) (now delay : Nat) :
    (timer.arm now delay).deadline? = some (now + delay) := by
  have older : timer.cancel.alarms.find? (·.generation == timer.generation + 1) = none := by
    rw [List.find?_eq_none]
    intro alarm member same
    have bound := sound alarm (timer.cancel_alarms_subset member)
    simp only [beq_iff_eq] at same
    omega
  simp [deadline?, current?, arm, List.find?_append, older]

theorem deadline_of_free {timer : Timer} (free : timer.held = false) : timer.deadline? = none := by
  simp [deadline?, current?, free]

theorem Alike.exists_like {timer other : Timer} (alike : timer.Alike other) (generation : Nat) :
    ∃ like, other.isCurrent like = timer.isCurrent generation := by
  cases current : timer.isCurrent generation with
  | true =>
    have held := alike.held.trans (isCurrent_iff.mp current).1
    exact ⟨other.generation, isCurrent_iff.mpr ⟨held, rfl⟩⟩
  | false => exact ⟨other.generation + 1, by simp [isCurrent]⟩

namespace Twin

variable {timer other : Timer}

theorem refl (sound : timer.Sound) : timer.Twin timer := ⟨⟨rfl, rfl⟩, sound, sound⟩

theorem symm (twin : timer.Twin other) : other.Twin timer :=
  ⟨⟨twin.alike.held.symm, twin.alike.deadline.symm⟩, twin.soundOther, twin.sound⟩

theorem trans {third : Timer} (first : timer.Twin other) (second : other.Twin third) :
    timer.Twin third where
  alike := ⟨second.alike.held.trans first.alike.held,
    second.alike.deadline.trans first.alike.deadline⟩
  sound := first.sound
  soundOther := second.soundOther

theorem arm (twin : timer.Twin other) (now delay : Nat) :
    (timer.arm now delay).Twin (other.arm now delay) where
  alike := ⟨rfl, by rw [arm_deadline twin.sound, arm_deadline twin.soundOther]⟩
  sound := arm_sound twin.sound now delay
  soundOther := arm_sound twin.soundOther now delay

theorem released (twin : timer.Twin other) {freed otherFreed : Timer} (first : timer.Released freed)
    (second : other.Released otherFreed) : freed.Twin otherFreed where
  alike := ⟨second.held.trans first.held.symm,
    (deadline_of_free second.held).trans (deadline_of_free first.held).symm⟩
  sound := first.sound twin.sound
  soundOther := second.sound twin.soundOther

theorem cancel (twin : timer.Twin other) : timer.cancel.Twin other.cancel :=
  twin.released timer.cancel_released other.cancel_released

theorem take (twin : timer.Twin other) {generation otherGeneration : Nat}
    (same : other.isCurrent otherGeneration = timer.isCurrent generation) :
    (other.take otherGeneration).1 = (timer.take generation).1 ∧
      (timer.take generation).2.Twin (other.take otherGeneration).2 := by
  rcases timer.take_cases generation with ⟨current, taken, freed⟩ | ⟨stale, kept⟩
  · rcases other.take_cases otherGeneration with ⟨_, otherTaken, otherFreed⟩ | ⟨otherStale, _⟩
    · exact ⟨otherTaken.trans taken.symm, twin.released freed otherFreed⟩
    · simp [current, otherStale] at same
  · rcases other.take_cases otherGeneration with ⟨otherCurrent, _⟩ | ⟨_, otherKept⟩
    · simp [stale, otherCurrent] at same
    · rw [kept, otherKept]
      exact ⟨rfl, twin⟩

end Twin

end AgentHost.Timer
