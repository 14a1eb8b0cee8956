import AgentHost.Proofs.KeyedQueue.Line
import AgentHost.Proofs.Transition

namespace AgentHost.KeyedQueue

variable {κ : Type} {queue next : KeyedQueue κ}

abbrev Change (κ : Type) := Transition (KeyedQueue κ) (Step κ)

namespace Change

def Awaits (id : Nat) (change : Change κ) : Prop := change.before.AwaitedBy id change.action

def Starts (id : Nat) (change : Change κ) : Prop :=
  change.before.isRunning id = false ∧ change.after.isRunning id = true

def Ends (id : Nat) (change : Change κ) : Prop := change.before.EndsBy id change.action

end Change

def Step.called? : Step κ → Option κ
  | .run key => some key
  | _ => none

structure Recorded (queue : KeyedQueue κ) (past : List (Change κ)) : Prop where
  ended : ∀ id, queue.isOver id = true ↔ ∃ change ∈ past, change.Ends id
  awaited : ∀ id, queue.stage? id = some .awaited ↔
    (∃ change ∈ past, change.Awaits id) ∧ queue.isOver id = false
  running : ∀ id, queue.isRunning id = true ↔
    (∃ change ∈ past, change.Starts id) ∧ queue.isOver id = false

theorem new_recorded : Recorded ({} : KeyedQueue κ) [] := by
  constructor <;> simp [isOver, isRunning, stage?]

theorem Recorded.unended_iff {past : List (Change κ)} (recorded : queue.Recorded past) (id : Nat) :
    queue.isOver id = false ↔ ∀ change ∈ past, ¬ change.Ends id := by
  rw [← Bool.not_eq_true, recorded.ended id]
  exact ⟨fun none change member ends => none ⟨change, member, ends⟩,
    fun all ⟨change, member, ends⟩ => all change member ends⟩

variable [DecidableEq κ]

def changes (queue : KeyedQueue κ) (steps : List (Step κ)) : List (Change κ) :=
  Transition.ofRun step queue steps

theorem Lined.isFree_iff (lined : queue.Lined) {id : Nat} {call : QueueCall κ}
    (found : queue.calls[id]? = some call) : queue.isFree call = true ↔
      ∀ other < id, queue.key? other = some call.key → queue.isOver other = true :=
  (lined.behind id call found).all_over_iff

theorem Lined.isRunning_iff (lined : queue.Lined) {id : Nat} {key : κ}
    (keyed : queue.key? id = some key) : queue.isRunning id = true ↔
      queue.stage? id = some .awaited ∧
        ∀ other < id, queue.key? other = some key → queue.isOver other = true := by
  obtain ⟨call, found, rfl⟩ := Option.map_eq_some_iff.mp keyed
  have free := lined.isFree_iff found
  simp only [isRunning, stage?, found, Option.any_some, Option.map_some, Bool.and_eq_true,
    beq_iff_eq, Option.some.injEq, free]

theorem Lined.isWaiting_iff (lined : queue.Lined) {id : Nat} {key : κ}
    (keyed : queue.key? id = some key) : queue.isWaiting id = true ↔
      queue.stage? id = some .awaited ∧
        ∃ other < id, queue.key? other = some key ∧ queue.isOver other = false := by
  obtain ⟨call, found, rfl⟩ := Option.map_eq_some_iff.mp keyed
  have free := lined.isFree_iff found
  simp only [isWaiting, stage?, found, Option.any_some, Option.map_some, Bool.and_eq_true,
    beq_iff_eq, Option.some.injEq, Bool.not_eq_true', ← Bool.not_eq_true, free]
  simp

/-- An operation that has started runs until its call is over. -/
theorem Took.running_kept {action : Step κ} (took : queue.Took action next) (lined : queue.Lined)
    {id : Nat} (running : queue.isRunning id = true) (goesOn : next.isOver id = false) :
    next.isRunning id = true := by
  have awaited := awaited_of_running running
  obtain ⟨key, keyed⟩ := keyed_of_stage awaited
  have called := lt_of_running running
  have still : next.stage? id = some .awaited :=
    (took.awaited_iff id).mpr ⟨.inl awaited, isOver_eq_false_iff.mp goesOn⟩
  refine ((took.lined lined).isRunning_iff ((took.key? called).trans keyed)).mpr ⟨still, ?_⟩
  intro other earlier sameKey
  have earlierKeyed := (took.key? (Nat.lt_trans earlier called)).symm.trans sameKey
  exact (took.over_iff other).mpr (.inl (((lined.isRunning_iff keyed).mp running).2 other earlier
    earlierKeyed))

theorem Recorded.took {past : List (Change κ)} {action : Step κ} (recorded : queue.Recorded past)
    (lined : queue.Lined) (took : queue.Took action next) :
    next.Recorded (past ++ [⟨action, queue, next⟩]) := by
  have gone (id : Nat) : next.isOver id = false → queue.isOver id = false := by
    simp only [← Bool.not_eq_true]
    exact mt fun gone => (took.over_iff id).mpr (.inl gone)
  refine ⟨fun id => ?_, fun id => ?_, fun id => ?_⟩
  · rw [took.over_iff, recorded.ended, Transition.exists_mem_snoc]
    rfl
  · rw [took.awaited_iff, recorded.awaited, Transition.exists_mem_snoc, ← isOver_eq_false_iff]
    constructor
    · rintro ⟨⟨awaits, _⟩ | awaits, goesOn⟩
      · exact ⟨.inl awaits, goesOn⟩
      · exact ⟨.inr awaits, goesOn⟩
    · rintro ⟨awaits | awaits, goesOn⟩
      · exact ⟨.inl ⟨awaits, gone id goesOn⟩, goesOn⟩
      · exact ⟨.inr awaits, goesOn⟩
  · rw [Transition.exists_mem_snoc]
    constructor
    · intro running
      have goesOn : next.isOver id = false := by
        rw [isOver_eq_false_iff, awaited_of_running running]
        simp
      cases before : queue.isRunning id with
      | true => exact ⟨.inl ((recorded.running id).mp before).1, goesOn⟩
      | false => exact ⟨.inr ⟨before, running⟩, goesOn⟩
    · rintro ⟨starts | starts, goesOn⟩
      · exact took.running_kept lined ((recorded.running id).mpr ⟨starts, gone id goesOn⟩) goesOn
      · exact starts.2

theorem run_recorded (steps : List (Step κ)) :
    (({} : KeyedQueue κ).after steps).Lined ∧
      (({} : KeyedQueue κ).after steps).Recorded (({} : KeyedQueue κ).changes steps) := by
  refine Transition.run_induction
    (fun (queue : KeyedQueue κ) past => queue.Lined ∧ queue.Recorded past)
    ⟨new_lined, new_recorded⟩ ?_ steps
  rintro queue past action ⟨lined, recorded⟩
  have took := queue.step_took action
  exact ⟨took.lined lined, recorded.took lined took⟩

theorem Took.keys {action : Step κ} (took : queue.Took action next) :
    next.calls.map (·.key) = queue.calls.map (·.key) ++ action.called?.toList := by
  have unchanged (uncalled : action.called? = none) (same : ∀ id, next.key? id = queue.key? id) :
      next.calls.map (·.key) = queue.calls.map (·.key) ++ action.called?.toList := by
    rw [uncalled, Option.toList_none, List.append_nil]
    refine List.ext_getElem? fun id => ?_
    rw [List.getElem?_map, List.getElem?_map]
    exact same id
  cases took with
  | called key => exact List.map_append
  | awaited found pending => exact unchanged rfl fun id => key?_setStage queue _ id _
  | @ended _ id call found live ends _ =>
    refine unchanged ?_ fun other => by rw [key?_release, key?_setStage]
    have ending := (ends id).mpr rfl
    cases action with
    | run key => exact ending.elim
    | _ => rfl
  | ignored uncalled _ _ =>
    refine unchanged ?_ fun id => rfl
    cases action with
    | run key => exact absurd rfl (uncalled key)
    | _ => rfl

theorem keys_of_run (steps : List (Step κ)) :
    (({} : KeyedQueue κ).after steps).calls.map (·.key) = steps.filterMap Step.called? := by
  induction steps using List.reverseRecOn with
  | nil => rfl
  | append_singleton steps action ih =>
    have took := (({} : KeyedQueue κ).after steps).step_took action
    rw [after, List.foldl_append, List.filterMap_append, ← ih]
    refine took.keys.trans ?_
    cases action <;> rfl

theorem key?_after (steps : List (Step κ)) (id : Nat) :
    (({} : KeyedQueue κ).after steps).key? id = (steps.filterMap Step.called?)[id]? := by
  rw [← keys_of_run, List.getElem?_map, key?]

theorem key?_later (steps more : List (Step κ)) {id : Nat}
    (called : id < (({} : KeyedQueue κ).after steps).calls.length) :
    (({} : KeyedQueue κ).after (steps ++ more)).key? id =
      (({} : KeyedQueue κ).after steps).key? id := by
  rw [key?_after, key?_after, List.filterMap_append, ← keys_of_run steps]
  exact List.getElem?_append_left (by simpa using called)

theorem Lined.not_running_behind (lined : queue.Lined) {a b : Nat} {key : κ} (first : a < b)
    (keyedA : queue.key? a = some key) (keyedB : queue.key? b = some key)
    (runningA : queue.isRunning a = true) : queue.isRunning b = false := by
  refine Bool.eq_false_iff.mpr fun runningB => ?_
  have gone := isOver_iff.mp (((lined.isRunning_iff keyedB).mp runningB).2 a first keyedA)
  simp [awaited_of_running runningA] at gone

theorem ended_of_starts {steps : List (Step κ)} {a b : Nat} {key : κ} (first : a < b)
    (keyedA : (({} : KeyedQueue κ).after steps).key? a = some key)
    (keyedB : (({} : KeyedQueue κ).after steps).key? b = some key)
    {earlier later : List (Change κ)} {change : Change κ}
    (split : ({} : KeyedQueue κ).changes steps = earlier ++ change :: later)
    (starts : change.Starts b) : ∃ ending ∈ earlier ++ [change], ending.Ends a := by
  obtain ⟨before, after, parts, same, reached, changed⟩ := Transition.ofRun_split split
  have sofar : earlier ++ [change] = ({} : KeyedQueue κ).changes (before ++ [change.action]) := by
    rw [changes, Transition.ofRun_snoc, same, ← reached, ← changed]
  have now : change.after = ({} : KeyedQueue κ).after (before ++ [change.action]) := by
    rw [KeyedQueue.after, List.foldl_append, ← reached]
    exact changed
  have whole : steps = before ++ [change.action] ++ after := by
    rw [List.append_assoc, List.singleton_append, ← parts]
  obtain ⟨lined, recorded⟩ := run_recorded (before ++ [change.action])
  rw [← now, ← sofar] at recorded
  rw [← now] at lined
  -- a call keeps the key it was made with for the rest of the run
  have known {id : Nat} (called : id < change.after.calls.length) :
      change.after.key? id = (({} : KeyedQueue κ).after steps).key? id := by
    rw [whole, key?_later _ _ (now ▸ called), now]
  have called := lt_of_running starts.2
  have ahead := ((lined.isRunning_iff ((known called).trans keyedB)).mp starts.2).2
  exact (recorded.ended a).mp (ahead a first ((known (Nat.lt_trans first called)).trans keyedA))

/-- Operations on a key run one at a time, in the order of their calls. None starts before all
    earlier calls on the key are over, and a waiting call always waits for one of these, however the
    other calls end. -/
theorem turns_of_run (steps : List (Step κ)) :
    let queue := ({} : KeyedQueue κ).after steps
    let past := ({} : KeyedQueue κ).changes steps
    (∀ id, queue.key? id = (steps.filterMap Step.called?)[id]?) ∧
    (∀ id, queue.isRunning id = true ↔
      (∃ change ∈ past, change.Starts id) ∧ ∀ change ∈ past, ¬ change.Ends id) ∧
    (∀ a b key, queue.key? a = some key → queue.key? b = some key →
      queue.isRunning a = true → queue.isRunning b = true → a = b) ∧
    (∀ a b key, a < b → queue.key? a = some key → queue.key? b = some key →
      ∀ earlier change later, past = earlier ++ change :: later → change.Starts b →
        ∃ ending ∈ earlier ++ [change], ending.Ends a) ∧
    (∀ b key, queue.key? b = some key → (∃ change ∈ past, change.Awaits b) →
      (∀ change ∈ past, ¬ change.Ends b) →
        (queue.isWaiting b = true ↔
          ∃ a < b, queue.key? a = some key ∧ ∀ change ∈ past, ¬ change.Ends a) ∧
        queue.isRunning b = !queue.isWaiting b) := by
  intro queue past
  obtain ⟨lined, recorded⟩ := run_recorded steps
  refine ⟨key?_after steps, fun id => ?_, ?_, ?_, ?_⟩
  · rw [← recorded.unended_iff]
    exact recorded.running id
  · intro a b key keyedA keyedB runningA runningB
    rcases Nat.lt_trichotomy a b with first | same | first
    · simp [queue, lined.not_running_behind first keyedA keyedB runningA] at runningB
    · exact same
    · simp [queue, lined.not_running_behind first keyedB keyedA runningB] at runningA
  · intro a b key first keyedA keyedB earlier change later split starts
    exact ended_of_starts first keyedA keyedB split starts
  · intro b key keyed awaits unended
    have awaited := (recorded.awaited b).mpr ⟨awaits, (recorded.unended_iff b).mpr unended⟩
    refine ⟨?_, isRunning_eq_not_isWaiting awaited⟩
    rw [lined.isWaiting_iff keyed]
    constructor
    · rintro ⟨_, a, first, sameKey, goesOn⟩
      exact ⟨a, first, sameKey, (recorded.unended_iff a).mp goesOn⟩
    · rintro ⟨a, first, sameKey, unended⟩
      exact ⟨awaited, a, first, sameKey, (recorded.unended_iff a).mpr unended⟩

-- A call that is awaited first does not get ahead of one made before it.
example :
    let queue := ({} : KeyedQueue String).after [.run "k", .run "k", .await 1]
    queue.isWaiting 1 = true ∧ (queue.drop 0).isRunning 1 = true := by decide

end AgentHost.KeyedQueue
