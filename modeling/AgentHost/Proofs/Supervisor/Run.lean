import AgentHost.Supervisor.Step
import Mathlib.Data.List.Induction

namespace AgentHost.Supervisor

def start (settings : AgentSettings) (decoder : Decoder) (hook : Bool) : Supervisor :=
  { settings, decoder, hook }

structure Moment where
  time : Nat
  action : Step
  before : Supervisor
  after : Supervisor

def moments (s : Supervisor) : List (Nat × Step) → List Moment
  | [] => []
  | (now, action) :: rest =>
    ⟨now, action, s, s.step now action⟩ :: (s.step now action).moments rest

def InOrder (past : List Moment) : Prop := past.Pairwise fun earlier later => earlier.time ≤ later.time

instance (past : List Moment) : Decidable (InOrder past) :=
  inferInstanceAs (Decidable (past.Pairwise fun earlier later => earlier.time ≤ later.time))

def lastTime (event : Moment → Bool) (past : List Moment) : Option Nat :=
  (past.filter event).getLast?.map (·.time)

theorem after_append (s : Supervisor) (steps more : List (Nat × Step)) :
    s.after (steps ++ more) = (s.after steps).after more := List.foldl_append

theorem after_snoc (s : Supervisor) (steps : List (Nat × Step)) (now : Nat) (action : Step) :
    s.after (steps ++ [(now, action)]) = (s.after steps).step now action := by
  rw [after_append]
  rfl

theorem moments_append (s : Supervisor) (steps more : List (Nat × Step)) :
    s.moments (steps ++ more) = s.moments steps ++ (s.after steps).moments more := by
  induction steps generalizing s with
  | nil => rfl
  | cons head rest ih =>
    rw [List.cons_append, moments, ih]
    rfl

theorem moments_snoc (s : Supervisor) (steps : List (Nat × Step)) (now : Nat) (action : Step) :
    s.moments (steps ++ [(now, action)]) = s.moments steps ++
      [⟨now, action, s.after steps, (s.after steps).step now action⟩] :=
  s.moments_append steps [(now, action)]

/-- A law that holds at the start and is preserved by every step holds after every run. -/
theorem run_induction {s : Supervisor} (law : Supervisor → List Moment → Prop)
    (begins : law s [])
    (continues : ∀ current past now action, law current past →
      law (current.step now action) (past ++ [⟨now, action, current, current.step now action⟩]))
    (steps : List (Nat × Step)) : law (s.after steps) (s.moments steps) := by
  induction steps using List.reverseRecOn with
  | nil => exact begins
  | append_singleton steps last ih =>
    obtain ⟨now, action⟩ := last
    rw [after_snoc, moments_snoc]
    exact continues _ _ now action ih

theorem moments_split {s : Supervisor} {steps : List (Nat × Step)} {earlier later : List Moment}
    {moment : Moment} (split : s.moments steps = earlier ++ moment :: later) :
    ∃ past, earlier = s.moments past ∧ moment.before = s.after past ∧
      moment.after = moment.before.step moment.time moment.action := by
  induction steps generalizing s earlier with
  | nil => simp [moments] at split
  | cons head rest ih =>
    cases earlier with
    | nil =>
      obtain ⟨rfl, _⟩ := List.cons.inj split
      exact ⟨[], rfl, rfl, rfl⟩
    | cons first earlier =>
      obtain ⟨rfl, more⟩ := List.cons.inj split
      obtain ⟨past, before, reached, after⟩ := ih more
      exact ⟨head :: past, by rw [before]; rfl, reached, after⟩

theorem mem_moments {s : Supervisor} {steps : List (Nat × Step)} {moment : Moment}
    (member : moment ∈ s.moments steps) :
    ∃ past, moment.before = s.after past ∧
      moment.after = moment.before.step moment.time moment.action := by
  obtain ⟨earlier, later, split⟩ := List.append_of_mem member
  obtain ⟨past, _, before, after⟩ := moments_split split
  exact ⟨past, before, after⟩

theorem lastTime_le {event : Moment → Bool} {past : List Moment} {time latest : Nat}
    (last : lastTime event past = some time) (bound : ∀ moment ∈ past, moment.time ≤ latest) :
    time ≤ latest := by
  obtain ⟨moment, found, rfl⟩ := Option.map_eq_some_iff.mp last
  have member := List.mem_of_getLast? found
  exact bound moment (List.mem_filter.mp member).1

theorem lastTime_snoc (event : Moment → Bool) (past : List Moment) (moment : Moment) :
    lastTime event (past ++ [moment]) =
      if event moment then some moment.time else lastTime event past := by
  unfold lastTime
  rw [List.filter_append]
  cases happened : event moment <;> simp [happened]

theorem lastTime_isSome {event : Moment → Bool} {past : List Moment} :
    (lastTime event past).isSome = past.any event := by
  induction past using List.reverseRecOn with
  | nil => rfl
  | append_singleton past last ih =>
    rw [lastTime_snoc, List.any_append]
    cases happened : event last <;> simp [happened, ih]

theorem countP_snoc (event : Moment → Bool) (past : List Moment) (moment : Moment) :
    (past ++ [moment]).countP event = past.countP event + (event moment).toNat := by
  rw [List.countP_append]
  cases happened : event moment <;> simp [happened]

end AgentHost.Supervisor
