import Mathlib.Data.List.DropRight
import Mathlib.Data.List.Induction

namespace AgentHost

structure Transition (σ α : Type) where
  action : α
  before : σ
  after : σ

namespace Transition

variable {σ α : Type} {step : σ → α → σ} {s : σ}

def ofRun (step : σ → α → σ) (s : σ) : List α → List (Transition σ α)
  | [] => []
  | action :: rest => ⟨action, s, step s action⟩ :: ofRun step (step s action) rest

theorem ofRun_snoc (actions : List α) (action : α) :
    ofRun step s (actions ++ [action]) = ofRun step s actions ++
      [⟨action, actions.foldl step s, step (actions.foldl step s) action⟩] := by
  induction actions generalizing s with
  | nil => rfl
  | cons first rest ih =>
    rw [List.cons_append, ofRun, ih]
    rfl

/-- A law that holds at the start and is preserved by every step holds after every run. -/
theorem run_induction (law : σ → List (Transition σ α) → Prop) (begins : law s [])
    (continues : ∀ current past action, law current past →
      law (step current action) (past ++ [⟨action, current, step current action⟩]))
    (actions : List α) : law (actions.foldl step s) (ofRun step s actions) := by
  induction actions using List.reverseRecOn with
  | nil => exact begins
  | append_singleton actions action ih =>
    rw [List.foldl_append, ofRun_snoc]
    exact continues _ _ action ih

theorem ofRun_split {actions : List α} {earlier later : List (Transition σ α)}
    {change : Transition σ α} (split : ofRun step s actions = earlier ++ change :: later) :
    ∃ before after, actions = before ++ change.action :: after ∧ earlier = ofRun step s before ∧
      change.before = before.foldl step s ∧ change.after = step change.before change.action := by
  induction actions generalizing s earlier with
  | nil => simp [ofRun] at split
  | cons action rest ih =>
    cases earlier with
    | nil =>
      obtain ⟨rfl, _⟩ := List.cons.inj split
      exact ⟨[], rest, rfl, rfl, rfl, rfl⟩
    | cons first earlier =>
      obtain ⟨rfl, more⟩ := List.cons.inj split
      obtain ⟨before, after, parts, same, reached, changed⟩ := ih more
      exact ⟨action :: before, after, by rw [parts]; rfl, by rw [same]; rfl, reached, changed⟩

theorem ofRun_append (actions more : List α) : ofRun step s (actions ++ more) =
    ofRun step s actions ++ ofRun step (actions.foldl step s) more := by
  induction actions generalizing s with
  | nil => rfl
  | cons action rest ih => rw [List.cons_append, ofRun, ih]; rfl

theorem ofRun_rest {actions : List α} {earlier later : List (Transition σ α)}
    {change : Transition σ α} (split : ofRun step s actions = earlier ++ change :: later) :
    ∃ more, later = ofRun step change.after more := by
  obtain ⟨before, after, parts, same, reached, changed⟩ := ofRun_split split
  rw [parts, ofRun_append, same, List.append_cancel_left_eq, ← reached, ofRun, ← changed] at split
  exact ⟨after, (List.cons.inj split).2.symm⟩

theorem exists_mem_snoc {holds : α → Prop} {items : List α} {last : α} :
    (∃ item ∈ items ++ [last], holds item) ↔ (∃ item ∈ items, holds item) ∨ holds last := by
  simp only [List.mem_append, List.mem_singleton, or_and_right, exists_or, exists_eq_left]

end Transition

end AgentHost
