import AgentHost.Proofs.KeyedQueue.Turns
import Mathlib.Data.Finset.Card

namespace AgentHost.KeyedQueue

variable {κ : Type} {queue next : KeyedQueue κ}

instance (queue : KeyedQueue κ) (id : Nat) : DecidablePred (queue.EndsBy id)
  | .finish _ => inferInstanceAs (Decidable (_ ∧ _))
  | .drop _ => inferInstanceAs (Decidable (_ ∧ _))
  | .run _ => inferInstanceAs (Decidable False)
  | .await _ => inferInstanceAs (Decidable False)

instance (id : Nat) : DecidablePred (Change.Ends (κ := κ) id) :=
  fun change => inferInstanceAs (Decidable (change.before.EndsBy id change.action))

def keys (queue : KeyedQueue κ) : List κ := queue.entries.map Prod.fst

variable [DecidableEq κ]

def openCalls (steps : List (Step κ)) (key : κ) : List Nat :=
  let called := steps.filterMap Step.called?
  (List.range called.length).filter fun id =>
    called[id]? = some key ∧ ∀ change ∈ ({} : KeyedQueue κ).changes steps, ¬ change.Ends id

structure Tidy (queue : KeyedQueue κ) : Prop where
  once : queue.keys.Nodup
  held : ∀ key entry, queue.entry? key = some entry → 0 < entry.holders

theorem mem_keys_iff {key : κ} : key ∈ queue.keys ↔ ∃ entry, queue.entry? key = some entry := by
  unfold keys entry?
  induction queue.entries with
  | nil => simp
  | cons head rest ih =>
    obtain ⟨first, old⟩ := head
    rw [lookup_entry]
    by_cases here : key = first
    · simp [here]
    · simp [here, ih]

theorem keys_setEntry (entries : List (κ × QueueEntry)) (key : κ) (entry : QueueEntry) :
    (setEntry entries key entry).map Prod.fst = if key ∈ entries.map Prod.fst
      then entries.map Prod.fst else entries.map Prod.fst ++ [key] := by
  induction entries with
  | nil => rfl
  | cons head rest ih =>
    obtain ⟨first, old⟩ := head
    unfold setEntry
    by_cases here : first = key
    · simp [here]
    · have apart : ¬ key = first := fun same => here same.symm
      simp only [here, if_false, List.map_cons, ih, List.mem_cons, apart, false_or]
      split <;> rfl

theorem nodup_setEntry {entries : List (κ × QueueEntry)} (once : (entries.map Prod.fst).Nodup)
    (key : κ) (entry : QueueEntry) : ((setEntry entries key entry).map Prod.fst).Nodup := by
  rw [keys_setEntry]
  split
  · exact once
  · rename_i new
    rw [← List.concat_eq_append]
    exact once.concat new

theorem entry_run (queue : KeyedQueue κ) (key other : κ) :
    entry? (queue.run key) other = if other = key then
      some ⟨(queue.ahead key).holders + 1, (queue.ahead key).tail ++ [queue.calls.length]⟩
    else queue.entry? other := lookup_setEntry _ _ _ _

theorem entry_release {key : κ} {entry : QueueEntry} (found : queue.entry? key = some entry)
    (other : κ) : entry? (queue.release key) other = if other = key then
      if entry.holders ≤ 1 then none else some { entry with holders := entry.holders - 1 }
    else queue.entry? other := by
  unfold release
  rw [found]
  dsimp only
  split
  · exact lookup_remove _ _ _
  · exact lookup_setEntry _ _ _ _

theorem release_of_none {key : κ} (none : queue.entry? key = none) : queue.release key = queue := by
  rw [release, none]

theorem Tidy.run (tidy : queue.Tidy) (key : κ) : (queue.run key).Tidy where
  once := nodup_setEntry tidy.once key _
  held other entry found := by
    rw [entry_run] at found
    split at found
    · obtain rfl := Option.some.inj found
      exact Nat.succ_pos _
    · exact tidy.held other entry found

theorem Tidy.release (tidy : queue.Tidy) (key : κ) : (queue.release key).Tidy := by
  cases found : queue.entry? key with
  | none =>
    rw [release_of_none found]
    exact tidy
  | some entry =>
    constructor
    · unfold KeyedQueue.release
      rw [found]
      dsimp only
      split
      · exact tidy.once.sublist (List.filter_sublist.map _)
      · exact nodup_setEntry tidy.once key _
    · intro other kept there
      rw [entry_release found] at there
      split at there
      · split at there
        · contradiction
        · rename_i more
          obtain rfl := Option.some.inj there
          dsimp only
          omega
      · exact tidy.held other kept there

theorem Took.tidy {action : Step κ} (took : queue.Took action next) (tidy : queue.Tidy) :
    next.Tidy := by
  cases took with
  | called key => exact tidy.run key
  | awaited => exact ⟨tidy.once, tidy.held⟩
  | @ended _ id call found live ends unawaited =>
    have same : (queue.setStage id .over).Tidy := ⟨tidy.once, tidy.held⟩
    exact same.release call.key
  | ignored => exact tidy

theorem run_tidy (steps : List (Step κ)) : (({} : KeyedQueue κ).after steps).Tidy := by
  induction steps using List.reverseRecOn with
  | nil => exact ⟨List.nodup_nil, by simp [after, entry?]⟩
  | append_singleton steps action ih =>
    rw [after, List.foldl_append]
    exact (step_took _ action).tidy ih

theorem Lined.holders_of_entry (lined : queue.Lined) {key : κ} {entry : QueueEntry}
    (found : queue.entry? key = some entry) : entry.holders = queue.live key := by
  rw [← lined.holders, ahead, found]
  rfl

theorem Lined.live_of_none (lined : queue.Lined) {key : κ} (none : queue.entry? key = none) :
    queue.live key = 0 := by
  rw [← lined.holders, ahead, none]
  rfl

theorem Lined.exists_entry_iff (lined : queue.Lined) (tidy : queue.Tidy) (key : κ) :
    (∃ entry, queue.entry? key = some entry) ↔ 0 < queue.live key := by
  constructor
  · rintro ⟨entry, found⟩
    rw [← lined.holders_of_entry found]
    exact tidy.held key entry found
  · intro goesOn
    apply Option.ne_none_iff_exists'.mp
    intro none
    rw [lined.live_of_none none] at goesOn
    exact Nat.lt_irrefl _ goesOn

theorem Lined.holders_eq (lined : queue.Lined) (tidy : queue.Tidy) (key : κ) :
    (queue.entry? key).map (·.holders) =
      if queue.live key = 0 then none else some (queue.live key) := by
  split
  · rename_i idle
    rw [Option.map_eq_none_iff]
    apply Option.eq_none_iff_forall_ne_some.mpr
    intro entry found
    have goesOn := (lined.exists_entry_iff tidy key).mp ⟨entry, found⟩
    omega
  · rename_i busy
    obtain ⟨entry, found⟩ := (lined.exists_entry_iff tidy key).mpr (Nat.pos_of_ne_zero busy)
    rw [found, Option.map_some, lined.holders_of_entry found]

theorem countP_range {α : Type} (counted : α → Bool) (items : List α) :
    (List.range items.length).countP (fun i => items[i]?.any counted) = items.countP counted := by
  induction items using List.reverseRecOn with
  | nil => rfl
  | append_singleton items last ih =>
    have earlier : ∀ i ∈ List.range items.length,
        (items ++ [last])[i]?.any counted = true ↔ items[i]?.any counted = true := by
      intro i member
      rw [List.getElem?_append_left (List.mem_range.mp member)]
    rw [List.length_append, List.length_singleton, List.range_succ, List.countP_append,
      List.countP_append, List.countP_congr earlier, ih]
    simp [List.countP_singleton]

theorem length_openCalls (steps : List (Step κ)) (key : κ) :
    (openCalls steps key).length = (({} : KeyedQueue κ).after steps).live key := by
  obtain ⟨_, recorded⟩ := run_recorded steps
  have named := keys_of_run steps
  unfold openCalls live
  rw [← countP_range, ← List.countP_eq_length_filter, ← named, List.length_map]
  apply List.countP_congr
  intro id member
  have called := List.mem_range.mp member
  have goesOn := recorded.unended_iff id
  simp only [decide_eq_true_eq, ← goesOn, ← Bool.not_eq_true, isOver_iff, stage?]
  simp [called]

theorem live_pos {id : Nat} {call : QueueCall κ} (found : queue.calls[id]? = some call)
    (goesOn : call.stage ≠ .over) : 0 < queue.live call.key := by
  apply List.countP_pos_iff.mpr
  exact ⟨call, List.mem_of_getElem? found, by simp [goesOn]⟩

theorem Took.entry_given_up {action : Step κ} (took : queue.Took action next) (lined : queue.Lined)
    (tidy : queue.Tidy) {id : Nat} (goesOn : queue.isOver id = false)
    (gone : next.isOver id = true) :
    ∃ key entry, queue.key? id = some key ∧ queue.entry? key = some entry ∧ 0 < entry.holders ∧
      next.entry? key =
        if entry.holders = 1 then none else some { entry with holders := entry.holders - 1 } := by
  have ends : queue.EndsBy id action := by
    rcases (took.over_iff id).mp gone with already | ends
    · rw [goesOn] at already
      contradiction
    · exact ends
  cases took with
  | called key => exact ends.elim
  | awaited => exact ends.elim
  | ignored _ _ unended =>
    rw [unended id ends] at goesOn
    contradiction
  | @ended _ ended call found live only unawaited =>
    obtain rfl := (only id).mp ends
    obtain ⟨entry, there⟩ := (lined.exists_entry_iff tidy call.key).mpr (live_pos found live)
    have positive := tidy.held call.key entry there
    refine ⟨call.key, entry, Option.map_eq_some_iff.mpr ⟨call, found, rfl⟩, there, positive, ?_⟩
    rw [entry_release (show entry? (queue.setStage id .over) call.key = some entry from there),
      if_pos rfl]
    have last : entry.holders ≤ 1 ↔ entry.holders = 1 := by omega
    simp only [last]

/-- A key has an entry exactly while there are calls on it that are not over, and the entry counts
    them. No hold is given up twice, and a new entry starts with nothing to wait for. -/
theorem entries_of_run (steps : List (Step κ)) :
    let queue := ({} : KeyedQueue κ).after steps
    let live (key : κ) := (openCalls steps key).length
    (∀ key, (queue.entry? key).map (·.holders) = if live key = 0 then none else some (live key)) ∧
    (∃ keys : Finset κ, (∀ key, key ∈ keys ↔ 0 < live key) ∧ queue.size = keys.card) ∧
    ∀ earlier change later, ({} : KeyedQueue κ).changes steps = earlier ++ change :: later →
      (∀ id, change.before.isOver id = false → change.after.isOver id = true →
        ∃ key entry, change.before.key? id = some key ∧ change.before.entry? key = some entry ∧
          0 < entry.holders ∧ change.after.entry? key =
            if entry.holders = 1 then none else some { entry with holders := entry.holders - 1 }) ∧
      ∀ key, change.action = .run key → change.before.entry? key = none →
        change.after.calls.getLast? = some { key, behind := [] } ∧
        ∀ id, change.before.key? id = some key → ∃ ending ∈ earlier, ending.Ends id := by
  intro queue live
  obtain ⟨lined, _⟩ := run_recorded steps
  have tidy := run_tidy steps
  have counted (key : κ) : live key = queue.live key := length_openCalls steps key
  refine ⟨fun key => ?_, ⟨queue.keys.toFinset, fun key => ?_, ?_⟩, ?_⟩
  · rw [counted]
    exact lined.holders_eq tidy key
  · rw [List.mem_toFinset, mem_keys_iff, counted]
    exact lined.exists_entry_iff tidy key
  · rw [List.toFinset_card_of_nodup tidy.once]
    exact (List.length_map _).symm
  · intro earlier change later split
    obtain ⟨before, after, _, same, reached, changed⟩ := Transition.ofRun_split split
    obtain ⟨linedThen, recorded⟩ := run_recorded before
    have tidyThen := run_tidy before
    change change.before = ({} : KeyedQueue κ).after before at reached
    rw [changed, same, reached]
    constructor
    · intro id goesOn gone
      exact (step_took _ _).entry_given_up linedThen tidyThen goesOn gone
    · intro key calls free
      rw [calls]
      refine ⟨?_, fun id keyed => ?_⟩
      · change (_ ++ [_]).getLast? = _
        rw [free]
        simp
      · have idle := linedThen.live_of_none free
        exact (recorded.ended id).mp (over_of_live_eq_zero idle keyed)

end AgentHost.KeyedQueue
