import AgentHost.Proofs.KeyedQueue.Steps

namespace AgentHost.KeyedQueue

variable {κ : Type} {queue next : KeyedQueue κ}

structure Covers (queue : KeyedQueue κ) (key : κ) (limit : Nat) (ids : List Nat) : Prop where
  calls : ∀ id ∈ ids, id < limit ∧ queue.key? id = some key
  others : ∀ id < limit, queue.key? id = some key → id ∈ ids ∨ queue.isOver id = true

theorem Covers.keep {key : κ} {limit : Nat} {ids : List Nat} (covers : queue.Covers key limit ids)
    (keys : ∀ id < limit, next.key? id = queue.key? id)
    (gone : ∀ id, queue.isOver id = true → next.isOver id = true) : next.Covers key limit ids where
  calls id member := by
    obtain ⟨earlier, keyed⟩ := covers.calls id member
    exact ⟨earlier, (keys id earlier).trans keyed⟩
  others id earlier keyed :=
    (covers.others id earlier ((keys id earlier).symm.trans keyed)).imp_right (gone id)

theorem Covers.all_over_iff {key : κ} {limit : Nat} {ids : List Nat}
    (covers : queue.Covers key limit ids) : ids.all queue.isOver = true ↔
      ∀ id < limit, queue.key? id = some key → queue.isOver id = true := by
  rw [List.all_eq_true]
  constructor
  · intro all id earlier keyed
    rcases covers.others id earlier keyed with member | gone
    · exact all id member
    · exact gone
  · intro all id member
    obtain ⟨earlier, keyed⟩ := covers.calls id member
    exact all id earlier keyed

theorem Covers.snoc {key : κ} {limit : Nat} {ids : List Nat} (covers : queue.Covers key limit ids)
    (keyed : queue.key? limit = some key) : queue.Covers key (limit + 1) (ids ++ [limit]) where
  calls id member := by
    rcases List.mem_append.mp member with earlier | last
    · obtain ⟨bound, keyed⟩ := covers.calls id earlier
      exact ⟨Nat.lt_succ_of_lt bound, keyed⟩
    · obtain rfl := List.mem_singleton.mp last
      exact ⟨Nat.lt_succ_self _, keyed⟩
  others id bound keyed := by
    rcases Nat.lt_succ_iff_lt_or_eq.mp bound with earlier | rfl
    · exact (covers.others id earlier keyed).imp_left (List.mem_append_left _)
    · exact .inl (List.mem_append_right _ (List.mem_singleton_self _))

theorem Covers.skip {key : κ} {limit : Nat} {ids : List Nat} (covers : queue.Covers key limit ids)
    (other : queue.key? limit ≠ some key) : queue.Covers key (limit + 1) ids where
  calls id member := by
    obtain ⟨bound, keyed⟩ := covers.calls id member
    exact ⟨Nat.lt_succ_of_lt bound, keyed⟩
  others id bound keyed := by
    rcases Nat.lt_succ_iff_lt_or_eq.mp bound with earlier | rfl
    · exact covers.others id earlier keyed
    · exact absurd keyed other

theorem countP_modify {α : Type} (counted : α → Bool) (change : α → α) {items : List α} {i : Nat}
    {item : α} (found : items[i]? = some item) :
    (items.modify i change).countP counted + (if counted item then 1 else 0) =
      items.countP counted + if counted (change item) then 1 else 0 := by
  induction items generalizing i with
  | nil => simp at found
  | cons head rest ih =>
    cases i with
    | zero =>
      obtain rfl : head = item := by simpa using found
      simp only [List.modify_zero_cons, List.countP_cons]
      omega
    | succ i =>
      have more := ih (by simpa using found)
      simp only [List.modify_succ_cons, List.countP_cons]
      omega

theorem length_setStage (queue : KeyedQueue κ) (id : Nat) (stage : CallStage) :
    (queue.setStage id stage).calls.length = queue.calls.length := List.length_modify _ _ _

theorem of_getElem?_setStage {id other : Nat} {stage : CallStage} {call : QueueCall κ}
    (found : (queue.setStage id stage).calls[other]? = some call) :
    ∃ old, queue.calls[other]? = some old ∧ call.key = old.key ∧ call.behind = old.behind := by
  rw [setStage_calls] at found
  obtain ⟨old, there, rfl⟩ := Option.map_eq_some_iff.mp found
  refine ⟨old, there, ?_⟩
  split <;> exact ⟨rfl, rfl⟩

variable [DecidableEq κ]

def ahead (queue : KeyedQueue κ) (key : κ) : QueueEntry := (queue.entry? key).getD ⟨0, []⟩

def live (queue : KeyedQueue κ) (key : κ) : Nat :=
  queue.calls.countP fun call => call.key = key && call.stage != .over

/-- Every call waits for the earlier calls on its key, and every entry lists the calls on its key. -/
structure Lined (queue : KeyedQueue κ) : Prop where
  behind : ∀ id call, queue.calls[id]? = some call → queue.Covers call.key id call.behind
  tail : ∀ key, queue.Covers key queue.calls.length (queue.ahead key).tail
  holders : ∀ key, (queue.ahead key).holders = queue.live key

theorem lookup_entry (entries : List (κ × QueueEntry)) (key other : κ) (entry : QueueEntry) :
    ((key, entry) :: entries).lookup other =
      if other = key then some entry else entries.lookup other := by
  by_cases same : other = key
  · simp [same]
  · simp [List.lookup_cons, same, beq_eq_false_iff_ne.mpr same]

theorem lookup_setEntry (entries : List (κ × QueueEntry)) (key other : κ) (entry : QueueEntry) :
    (setEntry entries key entry).lookup other =
      if other = key then some entry else entries.lookup other := by
  induction entries with
  | nil => exact lookup_entry [] key other entry
  | cons head rest ih =>
    obtain ⟨first, old⟩ := head
    unfold setEntry
    split
    · rename_i here
      simp only [lookup_entry, here]
      split <;> rfl
    · rename_i apart
      simp only [lookup_entry, ih]
      by_cases found : other = first
      · simp [found, apart]
      · simp [found]

theorem lookup_remove (entries : List (κ × QueueEntry)) (key other : κ) :
    (entries.filter fun entry => !decide (entry.1 = key)).lookup other =
      if other = key then none else entries.lookup other := by
  induction entries with
  | nil => simp
  | cons head rest ih =>
    obtain ⟨first, old⟩ := head
    by_cases here : first = key
    · rw [List.filter_cons_of_neg (by simp [here]), ih, lookup_entry, here]
      split <;> rfl
    · rw [List.filter_cons_of_pos (by simp [here]), lookup_entry, lookup_entry, ih]
      by_cases found : other = first
      · simp [found, here]
      · simp [found]

theorem ahead_run (queue : KeyedQueue κ) (key other : κ) :
    (queue.run key).ahead other = if other = key then
      ⟨(queue.ahead key).holders + 1, (queue.ahead key).tail ++ [queue.calls.length]⟩
    else queue.ahead other := by
  unfold ahead entry? run
  rw [lookup_setEntry]
  split <;> rfl

/-- An entry is removed with the last hold on its key. -/
theorem ahead_release (queue : KeyedQueue κ) (key other : κ) :
    (queue.release key).ahead other = if other = key then
      if (queue.ahead key).holders ≤ 1 then ⟨0, []⟩
      else { queue.ahead key with holders := (queue.ahead key).holders - 1 }
    else queue.ahead other := by
  unfold release
  cases found : queue.entry? key with
  | none =>
    by_cases same : other = key
    · simp [ahead, found, same]
    · simp [same]
  | some entry =>
    have atKey : queue.ahead key = entry := by simp [ahead, found]
    rw [atKey]
    dsimp only
    split
    · unfold ahead entry?
      rw [lookup_remove]
      split <;> rfl
    · unfold ahead entry?
      rw [lookup_setEntry]
      split <;> rfl

theorem ahead_setStage (queue : KeyedQueue κ) (id : Nat) (stage : CallStage) (key : κ) :
    (queue.setStage id stage).ahead key = queue.ahead key := rfl

theorem live_run (queue : KeyedQueue κ) (key other : κ) :
    (queue.run key).live other = queue.live other + if other = key then 1 else 0 := by
  change (queue.calls ++ [_]).countP _ = _
  rw [List.countP_append, live]
  by_cases same : other = key
  · simp [same]
  · simp [same, Ne.symm same]

theorem live_awaited {id : Nat} {call : QueueCall κ} (found : queue.calls[id]? = some call)
    (pending : call.stage = .pending) (key : κ) :
    (queue.setStage id .awaited).live key = queue.live key := by
  have counted := countP_modify (fun call : QueueCall κ => call.key = key && call.stage != .over)
    (fun call => { call with stage := .awaited }) found
  unfold live setStage
  simpa [pending] using counted

theorem live_over {id : Nat} {call : QueueCall κ} (found : queue.calls[id]? = some call)
    (live : call.stage ≠ .over) (key : κ) :
    (queue.setStage id .over).live key + (if key = call.key then 1 else 0) = queue.live key := by
  have counted := countP_modify (fun call : QueueCall κ => call.key = key && call.stage != .over)
    (fun call => { call with stage := .over }) found
  unfold KeyedQueue.live setStage
  by_cases same : key = call.key
  · simpa [same, live] using counted
  · simpa [same, Ne.symm same] using counted

theorem over_of_live_eq_zero {key : κ} (none : queue.live key = 0) {id : Nat}
    (called : queue.key? id = some key) : queue.isOver id = true := by
  obtain ⟨call, found, keyed⟩ := Option.map_eq_some_iff.mp called
  have gone := List.countP_eq_zero.mp none call (List.mem_of_getElem? found)
  simpa [isOver, stage?, found, keyed] using gone

theorem live_release (queue : KeyedQueue κ) (key other : κ) :
    (queue.release key).live other = queue.live other := by rw [live, release_calls, live]

theorem new_lined : Lined ({} : KeyedQueue κ) where
  behind := by simp
  tail key := ⟨by simp [ahead, entry?], by simp⟩
  holders key := rfl

theorem Lined.run (lined : queue.Lined) (key : κ) : (queue.run key).Lined := by
  have took : queue.Took (.run key) (queue.run key) := .called key
  have keep {other : κ} {limit : Nat} {ids : List Nat} (covers : queue.Covers other limit ids)
      (bound : limit ≤ queue.calls.length) : (queue.run key).Covers other limit ids :=
    covers.keep (fun id earlier => took.key? (Nat.lt_of_lt_of_le earlier bound))
      fun id gone => (took.over_iff id).mpr (.inl gone)
  have latest : (queue.run key).key? queue.calls.length = some key := by rw [key?_run, if_pos rfl]
  have length : (queue.run key).calls.length = queue.calls.length + 1 := List.length_append
  constructor
  · intro id call found
    rw [getElem?_run] at found
    split at found
    · rename_i last
      obtain rfl := Option.some.inj found
      rw [last]
      exact keep (lined.tail key) (Nat.le_refl _)
    · exact keep (lined.behind id call found) (Nat.le_of_lt (List.getElem?_eq_some_iff.mp found).1)
  · intro other
    have covers := keep (lined.tail other) (Nat.le_refl _)
    rw [ahead_run, length]
    split
    · rename_i same
      subst same
      exact covers.snoc latest
    · rename_i apart
      exact covers.skip (by simpa [latest] using Ne.symm apart)
  · intro other
    rw [ahead_run, live_run]
    split
    · rename_i same
      rw [same, ← lined.holders]
    · exact lined.holders other

theorem Took.behind_kept {action : Step κ} (took : queue.Took action next) (lined : queue.Lined)
    (calls : ∀ (id : Nat) (call : QueueCall κ), next.calls[id]? = some call →
      ∃ old : QueueCall κ, queue.calls[id]? = some old ∧ call.key = old.key ∧
        call.behind = old.behind)
    (id : Nat) (call : QueueCall κ) (found : next.calls[id]? = some call) :
    next.Covers call.key id call.behind := by
  obtain ⟨old, there, key, behind⟩ := calls id call found
  rw [key, behind]
  have called := (List.getElem?_eq_some_iff.mp there).1
  exact (lined.behind id old there).keep (fun id earlier => took.key? (Nat.lt_trans earlier called))
    fun id gone => (took.over_iff id).mpr (.inl gone)

theorem Took.tail_kept {action : Step κ} (took : queue.Took action next) (lined : queue.Lined)
    (key : κ) : next.Covers key queue.calls.length (queue.ahead key).tail :=
  (lined.tail key).keep (fun _ called => took.key? called)
    fun id gone => (took.over_iff id).mpr (.inl gone)

theorem Took.lined {action : Step κ} (took : queue.Took action next) (lined : queue.Lined) :
    next.Lined := by
  cases took with
  | called key => exact lined.run key
  | @awaited id call found pending =>
    have took : queue.Took (.await id) (queue.setStage id .awaited) := .awaited found pending
    refine ⟨took.behind_kept lined fun _ _ => of_getElem?_setStage, fun key => ?_, fun key => ?_⟩
    · rw [length_setStage]
      exact took.tail_kept lined key
    · rw [live_awaited found pending]
      exact lined.holders key
  | @ended _ id call found live ends unawaited =>
    have took : queue.Took action ((queue.setStage id .over).release call.key) :=
      .ended found live ends unawaited
    have counted := live_over found live
    refine ⟨took.behind_kept lined ?_, fun key => ?_, fun key => ?_⟩
    · intro other changed
      rw [release_calls]
      exact of_getElem?_setStage
    · have covers := took.tail_kept lined key
      rw [release_calls, length_setStage, ahead_release, ahead_setStage]
      split
      · rename_i same
        subst same
        split
        · rename_i last
          -- this was the last live call on its key, so removing the entry forgets no live call
          have none : ((queue.setStage id .over).release call.key).live call.key = 0 := by
            have before := lined.holders call.key
            have after := counted call.key
            rw [if_pos rfl] at after
            rw [live_release]
            omega
          exact ⟨by simp, fun id _ keyed => .inr (over_of_live_eq_zero none keyed)⟩
        · exact covers
      · exact covers
    · have before := lined.holders key
      have after := counted key
      rw [live_release, ahead_release, ahead_setStage]
      split
      · rename_i same
        subst same
        rw [if_pos rfl] at after
        split
        · dsimp only
          omega
        · dsimp only
          omega
      · rename_i apart
        rw [if_neg apart] at after
        rw [ahead_setStage]
        omega
  | ignored => exact lined

end AgentHost.KeyedQueue
