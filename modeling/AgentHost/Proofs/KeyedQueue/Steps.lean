import AgentHost.KeyedQueue
import Mathlib.Data.List.Basic

namespace AgentHost.KeyedQueue

variable {κ : Type} {queue next : KeyedQueue κ}

def key? (queue : KeyedQueue κ) (id : Nat) : Option κ := queue.calls[id]?.map (·.key)

def EndsBy (queue : KeyedQueue κ) (id : Nat) : Step κ → Prop
  | .finish other => other = id ∧ queue.isRunning id = true
  | .drop other => other = id ∧ id < queue.calls.length
  | _ => False

def AwaitedBy (queue : KeyedQueue κ) (id : Nat) : Step κ → Prop
  | .await other => other = id ∧ id < queue.calls.length
  | _ => False

theorem isOver_iff {id : Nat} : queue.isOver id = true ↔ queue.stage? id = some .over := by
  simp [isOver]

theorem isRunning_iff_free {id : Nat} : queue.isRunning id = true ↔
    ∃ call, queue.calls[id]? = some call ∧ call.stage = .awaited ∧ queue.isFree call = true := by
  unfold isRunning
  cases queue.calls[id]? <;> simp

theorem keyed_of_stage {id : Nat} {stage : CallStage} (reached : queue.stage? id = some stage) :
    ∃ key, queue.key? id = some key := by
  obtain ⟨call, found, _⟩ := Option.map_eq_some_iff.mp reached
  exact ⟨call.key, by rw [key?, found, Option.map_some]⟩

theorem awaited_of_running {id : Nat} (running : queue.isRunning id = true) :
    queue.stage? id = some .awaited := by
  obtain ⟨call, found, awaited, _⟩ := isRunning_iff_free.mp running
  rw [stage?, found, Option.map_some, awaited]

theorem isOver_eq_false_iff {id : Nat} :
    queue.isOver id = false ↔ queue.stage? id ≠ some .over := by
  rw [← Bool.not_eq_true, isOver_iff]

theorem lt_of_running {id : Nat} (running : queue.isRunning id = true) :
    id < queue.calls.length := by
  obtain ⟨call, found, _⟩ := isRunning_iff_free.mp running
  exact (List.getElem?_eq_some_iff.mp found).1

theorem isRunning_eq_not_isWaiting {id : Nat} (awaited : queue.stage? id = some .awaited) :
    queue.isRunning id = !queue.isWaiting id := by
  obtain ⟨call, found, stage⟩ := Option.map_eq_some_iff.mp awaited
  simp [isRunning, isWaiting, found, stage]

theorem stage?_latest (queue : KeyedQueue κ) : queue.stage? queue.calls.length = none := by
  simp [stage?]

theorem AwaitedBy.called {id : Nat} {action : Step κ} (awaits : queue.AwaitedBy id action) :
    id < queue.calls.length := by
  cases action with
  | await other => exact awaits.2
  | _ => exact awaits.elim

theorem setStage_calls (queue : KeyedQueue κ) (id other : Nat) (stage : CallStage) :
    (queue.setStage id stage).calls[other]? =
      queue.calls[other]?.map fun call => if id = other then { call with stage } else call :=
  List.getElem?_modify _ id queue.calls other

theorem key?_setStage (queue : KeyedQueue κ) (id other : Nat) (stage : CallStage) :
    (queue.setStage id stage).key? other = queue.key? other := by
  rw [key?, setStage_calls, key?, Option.map_map]
  congr 1
  funext call
  dsimp only [Function.comp]
  split <;> rfl

theorem stage?_setStage {id : Nat} {call : QueueCall κ} (found : queue.calls[id]? = some call)
    (other : Nat) (stage : CallStage) :
    (queue.setStage id stage).stage? other =
      if other = id then some stage else queue.stage? other := by
  rw [stage?, setStage_calls, stage?, Option.map_map]
  by_cases same : other = id
  · simp [same, found]
  · have apart : ¬ id = other := fun equal => same equal.symm
    simp [same, apart, Function.comp_def]

variable [DecidableEq κ]

@[simp] theorem release_calls (queue : KeyedQueue κ) (key : κ) :
    (queue.release key).calls = queue.calls := by
  unfold release
  split
  · rfl
  · split <;> rfl

theorem key?_release (queue : KeyedQueue κ) (key : κ) (id : Nat) :
    (queue.release key).key? id = queue.key? id := by rw [key?, release_calls, key?]

theorem stage?_release (queue : KeyedQueue κ) (key : κ) (id : Nat) :
    (queue.release key).stage? id = queue.stage? id := by rw [stage?, release_calls, stage?]

theorem getElem?_run (queue : KeyedQueue κ) (key : κ) (id : Nat) :
    (queue.run key).calls[id]? = if id = queue.calls.length
      then some { key, behind := ((queue.entry? key).getD ⟨0, []⟩).tail } else queue.calls[id]? := by
  change (queue.calls ++ [_])[id]? = _
  split
  · rename_i latest
    simp [latest]
  · rename_i other
    rcases Nat.lt_or_gt_of_ne other with earlier | later
    · exact List.getElem?_append_left earlier
    · rw [List.getElem?_eq_none (by simp; omega), List.getElem?_eq_none (by omega)]

theorem key?_run (queue : KeyedQueue κ) (key : κ) (id : Nat) :
    (queue.run key).key? id = if id = queue.calls.length then some key else queue.key? id := by
  rw [key?, getElem?_run]
  split <;> rfl

theorem stage?_run (queue : KeyedQueue κ) (key : κ) (id : Nat) :
    (queue.run key).stage? id =
      if id = queue.calls.length then some .pending else queue.stage? id := by
  rw [stage?, getElem?_run]
  split <;> rfl

inductive Took (queue : KeyedQueue κ) : Step κ → KeyedQueue κ → Prop where
  | called (key : κ) : Took queue (.run key) (queue.run key)
  | awaited {id : Nat} {call : QueueCall κ} (found : queue.calls[id]? = some call)
      (pending : call.stage = .pending) : Took queue (.await id) (queue.setStage id .awaited)
  | ended {action : Step κ} {id : Nat} {call : QueueCall κ} (found : queue.calls[id]? = some call)
      (live : call.stage ≠ .over) (ends : ∀ other, queue.EndsBy other action ↔ other = id)
      (unawaited : ∀ other, ¬ queue.AwaitedBy other action) :
      Took queue action ((queue.setStage id .over).release call.key)
  | ignored {action : Step κ} (uncalled : ∀ key, action ≠ .run key)
      (unawaited : ∀ id, queue.AwaitedBy id action → queue.stage? id ≠ some .pending)
      (unended : ∀ id, queue.EndsBy id action → queue.isOver id = true) : Took queue action queue

theorem conclude_eq {id : Nat} {call : QueueCall κ} (found : queue.calls[id]? = some call) :
    queue.conclude id = (queue.setStage id .over).release call.key := by rw [conclude, found]

theorem await_took (queue : KeyedQueue κ) (id : Nat) : queue.Took (.await id) (queue.await id) := by
  unfold await
  split
  · rename_i pending
    obtain ⟨call, found, stage⟩ := Option.map_eq_some_iff.mp pending
    exact .awaited found stage
  · rename_i other
    refine .ignored (by simp) ?_ (by simp [EndsBy])
    rintro id ⟨rfl, _⟩
    exact other

theorem finish_took (queue : KeyedQueue κ) (id : Nat) : queue.Took (.finish id) (queue.finish id) := by
  unfold finish
  split
  · rename_i running
    obtain ⟨call, found, awaited, _⟩ := isRunning_iff_free.mp running
    rw [conclude_eq found]
    refine .ended found (by simp [awaited]) (fun other => ?_) (by simp [AwaitedBy])
    constructor
    · rintro ⟨rfl, _⟩
      rfl
    · rintro rfl
      exact ⟨rfl, running⟩
  · rename_i still
    refine .ignored (by simp) (by simp [AwaitedBy]) ?_
    rintro id ⟨rfl, running⟩
    exact absurd running still

theorem drop_took (queue : KeyedQueue κ) (id : Nat) : queue.Took (.drop id) (queue.drop id) := by
  unfold drop
  split
  · rename_i gone
    refine .ignored (by simp) (by simp [AwaitedBy]) ?_
    rintro id ⟨rfl, _⟩
    exact gone
  · rename_i goesOn
    cases found : queue.calls[id]? with
    | none =>
      rw [conclude, found]
      refine .ignored (by simp) (by simp [AwaitedBy]) ?_
      rintro id ⟨rfl, called⟩
      exact absurd found (by simp [called])
    | some call =>
      rw [conclude_eq found]
      have live : call.stage ≠ .over := fun gone =>
        goesOn (isOver_iff.mpr (by rw [stage?, found, Option.map_some, gone]))
      refine .ended found live (fun other => ?_) (by simp [AwaitedBy])
      constructor
      · rintro ⟨rfl, _⟩
        rfl
      · rintro rfl
        exact ⟨rfl, (List.getElem?_eq_some_iff.mp found).1⟩

theorem step_took (queue : KeyedQueue κ) (action : Step κ) :
    queue.Took action (queue.step action) := by
  cases action with
  | run key => exact .called key
  | await id => exact queue.await_took id
  | finish id => exact queue.finish_took id
  | drop id => exact queue.drop_took id

/-- Calls keep their numbers and keys. -/
theorem Took.key? {action : Step κ} (took : queue.Took action next) {id : Nat}
    (called : id < queue.calls.length) : next.key? id = queue.key? id := by
  cases took with
  | called key => rw [key?_run, if_neg (Nat.ne_of_lt called)]
  | awaited => exact key?_setStage queue _ id _
  | ended => rw [key?_release, key?_setStage]
  | ignored => rfl

theorem Took.over_iff {action : Step κ} (took : queue.Took action next) (id : Nat) :
    next.isOver id = true ↔ queue.isOver id = true ∨ queue.EndsBy id action := by
  rw [isOver_iff, isOver_iff]
  cases took with
  | called key =>
    rw [stage?_run]
    split
    · rename_i latest
      simp [latest, stage?_latest, EndsBy]
    · simp [EndsBy]
  | awaited found pending =>
    rw [stage?_setStage found]
    split
    · rename_i same
      simp [same, stage?, found, pending, EndsBy]
    · simp [EndsBy]
  | ended found _ ends =>
    rw [stage?_release, stage?_setStage found, ends]
    split
    · rename_i same
      simp [same]
    · rename_i other
      simp [other]
  | ignored _ _ unended =>
    have known : queue.EndsBy id action → queue.stage? id = some .over := fun ends =>
      isOver_iff.mp (unended id ends)
    exact (or_iff_left_of_imp known).symm

/-- A call is awaited from when its caller first waits for it until it is over. -/
theorem Took.awaited_iff {action : Step κ} (took : queue.Took action next) (id : Nat) :
    next.stage? id = some .awaited ↔
      (queue.stage? id = some .awaited ∨ queue.AwaitedBy id action) ∧
        next.stage? id ≠ some .over := by
  cases took with
  | called key =>
    rw [stage?_run]
    split
    · rename_i latest
      simp [latest, stage?_latest, AwaitedBy]
    · simp +contextual [AwaitedBy]
  | @awaited other call found pending =>
    rw [stage?_setStage found]
    split
    · rename_i same
      simp [same, AwaitedBy, (List.getElem?_eq_some_iff.mp found).1]
    · rename_i apart
      simp +contextual [AwaitedBy, Ne.symm apart]
  | ended found _ _ unawaited =>
    rw [stage?_release, stage?_setStage found]
    split
    · simp
    · simp +contextual [unawaited]
  | ignored _ unawaited _ =>
    refine ⟨fun awaited => ⟨.inl awaited, by simp [awaited]⟩, ?_⟩
    rintro ⟨awaited | awaits, goesOn⟩
    · exact awaited
    · have called : id < queue.calls.length := awaits.called
      have unpending := unawaited id awaits
      cases stage : queue.calls[id].stage <;> simp_all [stage?]

end AgentHost.KeyedQueue
