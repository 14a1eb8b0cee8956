import AgentHost.Proofs.KeyedQueue.Entries

namespace AgentHost.KeyedQueue

section Lists

variable {α : Type} {p : α → Bool} {items : List α}

theorem getElem?_filter {i : Nat} {item : α} (found : items[i]? = some item)
    (kept : p item = true) :
    (items.filter p)[(items.take i).countP p]? = some item := by
  induction items generalizing i with
  | nil => simp at found
  | cons head rest ih =>
    cases i with
    | zero =>
      obtain rfl : head = item := by simpa using found
      simp [kept]
    | succ i =>
      have later := ih (by simpa using found)
      rw [List.take_succ_cons, List.countP_cons, List.filter_cons]
      split
      · simpa using later
      · simpa using later

theorem filter_modify {f : α → α} (same : ∀ item, p (f item) = p item) {i : Nat} {item : α}
    (found : items[i]? = some item) : (items.modify i f).filter p =
      if p item then (items.filter p).modify ((items.take i).countP p) f else items.filter p := by
  induction items generalizing i with
  | nil => simp at found
  | cons head rest ih =>
    cases i with
    | zero =>
      obtain rfl : head = item := by simpa using found
      cases kept : p head <;> simp [same, kept]
    | succ i =>
      have later := ih (by simpa using found)
      rw [List.modify_succ_cons, List.filter_cons, later, List.take_succ_cons, List.countP_cons,
        List.filter_cons]
      cases p item <;> cases p head <;> simp

theorem map_modify {β : Type} {g : α → β} {f : α → α} {h : β → β}
    (commutes : ∀ item, g (f item) = h (g item)) (items : List α) (i : Nat) :
    (items.modify i f).map g = (items.map g).modify i h := by
  apply List.ext_getElem?
  intro j
  rw [List.getElem?_map, List.getElem?_modify, List.getElem?_modify, List.getElem?_map]
  cases items[j]? with
  | none => rfl
  | some item =>
    by_cases here : i = j
    · simp [here, commutes]
    · simp [here]

theorem map_countP_range (p : α → Bool) (items : List α) :
    ((List.range items.length).filter fun i => items[i]?.any p).map
      (fun i => (items.take i).countP p) = List.range (items.countP p) := by
  induction items using List.reverseRecOn with
  | nil => rfl
  | append_singleton items last ih =>
    have earlier : ∀ i ∈ List.range items.length,
        (items ++ [last])[i]?.any p = items[i]?.any p := by
      intro i member
      rw [List.getElem?_append_left (List.mem_range.mp member)]
    have counted : ∀ i ∈ (List.range items.length).filter fun i => items[i]?.any p,
        ((items ++ [last]).take i).countP p = (items.take i).countP p := by
      intro i member
      have bound := List.mem_range.mp (List.mem_of_mem_filter member)
      rw [List.take_append_of_le_length (Nat.le_of_lt bound)]
    rw [List.length_append, List.length_singleton, List.range_succ, List.filter_append,
      List.filter_congr earlier, List.map_append, List.map_congr_left counted, ih,
      List.countP_append]
    cases kept : p last
    · simp [kept]
    · simp [kept, List.range_succ]

end Lists

structure TimedStep (κ ρ : Type) where
  time : Nat
  step : Step κ
  result : ρ

inductive CallEvent (ρ : Type) where
  | started
  | completed (result : ρ)
  | dropped
deriving Repr, DecidableEq

def renumbered {κ : Type} (place : Nat → Nat) (call : QueueCall κ) : QueueCall κ :=
  { call with behind := call.behind.map place }

def Step.renumbered {κ : Type} (place : Nat → Nat) : Step κ → Step κ
  | .run key => .run key
  | .await id => .await (place id)
  | .finish id => .finish (place id)
  | .drop id => .drop (place id)

def TimedStep.ending {κ ρ : Type} (timed : TimedStep κ ρ) : CallEvent ρ :=
  match timed.step with
  | .drop _ => .dropped
  | _ => .completed timed.result

structure DiaryEntry (ρ : Type) where
  time : Nat
  call : Nat
  event : CallEvent ρ
deriving Repr, DecidableEq

variable {κ ρ : Type} {queue next : KeyedQueue κ} {key : κ}

def callEvents (queue next : KeyedQueue κ) (timed : TimedStep κ ρ) (id : Nat) :
    List (CallEvent ρ) :=
  (if !queue.isOver id && next.isOver id then [timed.ending] else []) ++
    if !queue.isRunning id && next.isRunning id then [.started] else []

theorem ending_renumbered (timed : TimedStep κ ρ) (place : Nat → Nat) :
    TimedStep.ending { timed with step := timed.step.renumbered place } = timed.ending := by
  obtain ⟨time, action, result⟩ := timed
  cases action <;> rfl

theorem callEvents_same (queue : KeyedQueue κ) (timed : TimedStep κ ρ) (id : Nat) :
    queue.callEvents queue timed id = [] := by simp [callEvents]

variable [DecidableEq κ]

def place (queue : KeyedQueue κ) (key : κ) (id : Nat) : Nat :=
  (queue.calls.take id).countP (·.key = key)

def callsOn (queue : KeyedQueue κ) (key : κ) : List Nat :=
  (List.range queue.calls.length).filter (queue.key? · = some key)

def OfKey (queue : KeyedQueue κ) (key : κ) (id : Nat) : Prop :=
  queue.key? id = some key ∨ queue.calls.length ≤ id

/-- The queue with all calls on other keys taken out. -/
def alone (queue : KeyedQueue κ) (key : κ) : KeyedQueue κ where
  entries := (queue.entry? key).toList.map fun entry =>
    (key, { entry with tail := entry.tail.map (queue.place key) })
  calls := (queue.calls.filter (·.key = key)).map (renumbered (queue.place key))

def concerns (queue : KeyedQueue κ) (key : κ) : Step κ → Bool
  | .run other => other = key
  | .await id | .finish id | .drop id => queue.key? id = some key

def ownSteps (key : κ) (queue : KeyedQueue κ) : List (TimedStep κ ρ) → List (TimedStep κ ρ)
  | [] => []
  | timed :: rest =>
    let later := ownSteps key (queue.step timed.step) rest
    if queue.concerns key timed.step then
      { timed with step := timed.step.renumbered (queue.place key) } :: later
    else later

def entriesOf (key : κ) (queue : KeyedQueue κ) (timed : TimedStep κ ρ) : List (DiaryEntry ρ) :=
  let next := queue.step timed.step
  (next.callsOn key).flatMap fun id =>
    (queue.callEvents next timed id).map fun event => ⟨timed.time, next.place key id, event⟩

def diary (key : κ) (queue : KeyedQueue κ) : List (TimedStep κ ρ) → List (DiaryEntry ρ)
  | [] => []
  | timed :: rest => queue.entriesOf key timed ++ diary key (queue.step timed.step) rest

theorem place_eq (queue : KeyedQueue κ) (key : κ) (id : Nat) :
    queue.place key id = ((queue.calls.map (·.key)).take id).countP (· = key) := by
  rw [← List.map_take, List.countP_map]
  rfl

theorem Took.place {action : Step κ} (took : queue.Took action next) (key : κ) {id : Nat}
    (called : id ≤ queue.calls.length) : next.place key id = queue.place key id := by
  rw [place_eq, took.keys, place_eq, List.take_append_of_le_length (by simpa using called)]

theorem place_setStage (queue : KeyedQueue κ) (id : Nat) (stage : CallStage) (key : κ) :
    (queue.setStage id stage).place key = queue.place key := by
  funext other
  have keys : (queue.setStage id stage).calls.map (·.key) = queue.calls.map (·.key) := by
    apply List.ext_getElem?
    intro other
    rw [List.getElem?_map, List.getElem?_map]
    exact key?_setStage queue id other stage
  rw [place_eq, keys, place_eq]

theorem place_release (queue : KeyedQueue κ) (other key : κ) :
    (queue.release other).place key = queue.place key := by
  funext id
  rw [place, release_calls, place]

theorem length_alone (queue : KeyedQueue κ) (key : κ) :
    (queue.alone key).calls.length = queue.calls.countP (·.key = key) := by
  rw [alone, List.length_map, List.countP_eq_length_filter]

theorem place_of_length_le {id : Nat} (beyond : queue.calls.length ≤ id) :
    queue.place key id = (queue.alone key).calls.length := by
  rw [place, List.take_of_length_le beyond, length_alone]

theorem key?_alone {place : Nat} (called : place < (queue.alone key).calls.length) :
    (queue.alone key).key? place = some key := by
  obtain ⟨call, member, same⟩ := List.mem_map.mp (List.getElem_mem called)
  have keyed : call.key = key := by simpa using List.of_mem_filter member
  rw [key?, List.getElem?_eq_getElem called, ← same]
  exact congrArg some keyed

theorem place_alone {place : Nat} (called : place ≤ (queue.alone key).calls.length) :
    (queue.alone key).place key place = place := by
  have all : ∀ call ∈ (queue.alone key).calls.take place, decide (call.key = key) = true := by
    intro call member
    obtain ⟨id, bound, rfl⟩ := List.getElem_of_mem (List.mem_of_mem_take member)
    have keyed := key?_alone bound
    rw [key?, List.getElem?_eq_getElem bound] at keyed
    exact decide_eq_true (Option.some.inj keyed)
  rw [KeyedQueue.place, List.countP_eq_length.mpr all, List.length_take, Nat.min_eq_left called]

theorem mem_callsOn {id : Nat} : id ∈ queue.callsOn key ↔ queue.key? id = some key := by
  rw [callsOn, List.mem_filter, List.mem_range, decide_eq_true_eq]
  apply and_iff_right_of_imp
  intro keyed
  obtain ⟨call, found, _⟩ := Option.map_eq_some_iff.mp keyed
  exact (List.getElem?_eq_some_iff.mp found).1

theorem callsOn_alone (queue : KeyedQueue κ) (key : κ) :
    (queue.alone key).callsOn key = List.range (queue.alone key).calls.length := by
  apply List.filter_eq_self.mpr
  intro id member
  exact decide_eq_true (key?_alone (List.mem_range.mp member))

theorem map_place_callsOn (queue : KeyedQueue κ) (key : κ) :
    (queue.callsOn key).map (queue.place key) = List.range (queue.alone key).calls.length := by
  have mine : ∀ id ∈ List.range queue.calls.length,
      decide (queue.key? id = some key) = queue.calls[id]?.any (·.key = key) := by
    intro id member
    rw [key?]
    cases queue.calls[id]? <;> simp
  rw [callsOn, List.filter_congr mine, length_alone]
  exact map_countP_range (fun call : QueueCall κ => decide (call.key = key)) queue.calls

theorem alone_call {id : Nat} (here : queue.OfKey key id) :
    (queue.alone key).calls[queue.place key id]? =
      queue.calls[id]?.map (renumbered (queue.place key)) := by
  rcases here with keyed | beyond
  · obtain ⟨call, found, same⟩ := Option.map_eq_some_iff.mp keyed
    have there := getElem?_filter (p := fun call : QueueCall κ => decide (call.key = key)) found
      (by simp [same])
    rw [alone, List.getElem?_map, found, place, there]
  · rw [place_of_length_le beyond, List.getElem?_eq_none beyond,
      List.getElem?_eq_none (Nat.le_refl _), Option.map_none]

theorem alone_stage? {id : Nat} (here : queue.OfKey key id) :
    (queue.alone key).stage? (queue.place key id) = queue.stage? id := by
  rw [stage?, alone_call here, stage?, Option.map_map]
  rfl

theorem alone_isOver {id : Nat} (here : queue.OfKey key id) :
    (queue.alone key).isOver (queue.place key id) = queue.isOver id := by
  rw [isOver, alone_stage? here, isOver]

theorem Lined.alone_isRunning (lined : queue.Lined) {id : Nat}
    (here : queue.OfKey key id) :
    (queue.alone key).isRunning (queue.place key id) = queue.isRunning id := by
  unfold isRunning
  rw [alone_call here]
  cases found : queue.calls[id]? with
  | none => rfl
  | some call =>
    have keyed : call.key = key := by
      rcases here with keyed | beyond
      · rw [key?, found] at keyed
        exact Option.some.inj keyed
      · rw [List.getElem?_eq_none beyond] at found
        contradiction
    have covers := lined.behind id call found
    have free : (queue.alone key).isFree (renumbered (queue.place key) call) =
        queue.isFree call := by
      rw [isFree, renumbered, List.all_map, isFree, Bool.eq_iff_iff, List.all_eq_true,
        List.all_eq_true]
      apply forall₂_congr
      intro other member
      rw [Function.comp_apply, alone_isOver (.inl (keyed ▸ (covers.calls other member).2))]
    rw [Option.map_some, Option.any_some, Option.any_some, free]
    rfl

theorem entry_alone (queue : KeyedQueue κ) (key : κ) :
    entry? (queue.alone key) key = (queue.entry? key).map fun entry =>
      { entry with tail := entry.tail.map (queue.place key) } := by
  change (queue.alone key).entries.lookup key = _
  rw [alone]
  cases queue.entry? key <;> simp

/-- The rest of the queue depends only on the calls on the key and on its entry. -/
theorem alone_congr (entry : next.entry? key = queue.entry? key)
    (calls : next.calls.filter (·.key = key) = queue.calls.filter (·.key = key))
    (places : next.place key = queue.place key) : next.alone key = queue.alone key := by
  rw [alone, entry, calls, places, alone]

theorem alone_setStage {id : Nat} (stage : CallStage) (keyed : queue.key? id = some key) :
    (queue.setStage id stage).alone key =
      (queue.alone key).setStage (queue.place key id) stage := by
  obtain ⟨call, found, same⟩ := Option.map_eq_some_iff.mp keyed
  have calls := filter_modify (p := fun call : QueueCall κ => decide (call.key = key))
    (f := fun call => { call with stage }) (fun _ => rfl) found
  rw [if_pos (decide_eq_true same)] at calls
  have moved := map_modify (g := renumbered (queue.place key))
    (f := fun call => { call with stage }) (h := fun call => { call with stage }) (fun _ => rfl)
    (queue.calls.filter (·.key = key))
  rw [alone, place_setStage, setStage, calls, moved]
  rfl

theorem alone_setStage_other {id : Nat} (stage : CallStage) (other : queue.key? id ≠ some key) :
    (queue.setStage id stage).alone key = queue.alone key := by
  refine alone_congr rfl ?_ (place_setStage queue id stage key)
  cases found : queue.calls[id]? with
  | none =>
    have beyond := List.getElem?_eq_none_iff.mp found
    rw [setStage, List.modify_eq_self beyond]
  | some call =>
    rw [key?, found, Option.map_some] at other
    have calls := filter_modify (p := fun call : QueueCall κ => decide (call.key = key))
      (f := fun call => { call with stage }) (fun _ => rfl) found
    rw [if_neg (by simpa using other)] at calls
    exact calls

theorem alone_release (queue : KeyedQueue κ) (key : κ) :
    (queue.release key).alone key = (queue.alone key).release key := by
  have entries := entry_alone queue key
  cases found : queue.entry? key with
  | none =>
    rw [found, Option.map_none] at entries
    rw [release_of_none found, release_of_none entries]
  | some entry =>
    rw [found, Option.map_some] at entries
    rw [alone, entry_release found, if_pos rfl, release_calls, place_release]
    unfold release
    rw [entries]
    dsimp only
    split
    · simp [alone, found]
    · simp [alone, found, setEntry]

theorem alone_release_other {other : κ} (apart : key ≠ other) :
    (queue.release other).alone key = queue.alone key := by
  refine alone_congr ?_ (by rw [release_calls]) (place_release queue other key)
  cases found : queue.entry? other with
  | none => rw [release_of_none found]
  | some entry => rw [entry_release found, if_neg apart]

theorem alone_conclude {id : Nat} (keyed : queue.key? id = some key) :
    (queue.conclude id).alone key = (queue.alone key).conclude (queue.place key id) := by
  obtain ⟨call, found, rfl⟩ := Option.map_eq_some_iff.mp keyed
  have there := alone_call (.inl keyed)
  rw [found, Option.map_some] at there
  rw [conclude_eq found, alone_release, alone_setStage _ keyed, conclude_eq there]
  rfl

theorem alone_conclude_other {id : Nat} (other : queue.key? id ≠ some key) :
    (queue.conclude id).alone key = queue.alone key := by
  cases found : queue.calls[id]? with
  | none => rw [conclude, found]
  | some call =>
    have apart : key ≠ call.key := by
      rintro rfl
      exact other (by rw [key?, found, Option.map_some])
    rw [conclude_eq found, alone_release_other apart, alone_setStage_other _ other]

theorem place_run (queue : KeyedQueue κ) (other key : κ) {ids : List Nat}
    (called : ∀ id ∈ ids, id < queue.calls.length) :
    ids.map ((queue.run other).place key) = ids.map (queue.place key) := by
  have took : queue.Took (.run other) (queue.run other) := .called other
  apply List.map_congr_left
  intro id member
  exact took.place key (Nat.le_of_lt (called id member))

theorem Lined.tail_run (lined : queue.Lined) (other key : κ) :
    (queue.ahead key).tail.map ((queue.run other).place key) =
      (queue.ahead key).tail.map (queue.place key) :=
  queue.place_run other key fun id member => ((lined.tail key).calls id member).1

theorem Lined.calls_run (lined : queue.Lined) (other key : κ) :
    (queue.calls.filter (·.key = key)).map (renumbered ((queue.run other).place key)) =
      (queue.alone key).calls := by
  apply List.map_congr_left
  intro call member
  obtain ⟨id, found⟩ := List.mem_iff_getElem?.mp (List.mem_of_mem_filter member)
  have bound := (List.getElem?_eq_some_iff.mp found).1
  have earlier : ∀ other ∈ call.behind, other < queue.calls.length := by
    intro other member
    exact Nat.lt_trans ((lined.behind id call found).calls other member).1 bound
  rw [renumbered, queue.place_run other key earlier]
  rfl

theorem ahead_alone (queue : KeyedQueue κ) (key : κ) : (queue.alone key).ahead key =
    { queue.ahead key with tail := (queue.ahead key).tail.map (queue.place key) } := by
  rw [ahead, entry_alone, ahead]
  cases queue.entry? key <;> rfl

theorem setEntry_alone (queue : KeyedQueue κ) (key : κ) (entry : QueueEntry) :
    setEntry (queue.alone key).entries key entry = [(key, entry)] := by
  rw [alone]
  cases queue.entry? key <;> simp [setEntry]

theorem Lined.alone_run (lined : queue.Lined) (key : κ) :
    (queue.run key).alone key = (queue.alone key).run key := by
  have took : queue.Took (.run key) (queue.run key) := .called key
  have last : (queue.run key).place key queue.calls.length = (queue.alone key).calls.length :=
    (took.place key (Nat.le_refl _)).trans (place_of_length_le (Nat.le_refl _))
  have added : (queue.run key).calls = queue.calls ++ [{ key, behind := (queue.ahead key).tail }] :=
    rfl
  have own : (queue.alone key).run key =
      { entries := setEntry (queue.alone key).entries key
          ⟨((queue.alone key).ahead key).holders + 1,
            ((queue.alone key).ahead key).tail ++ [(queue.alone key).calls.length]⟩
        calls := (queue.alone key).calls ++
          [{ key, behind := ((queue.alone key).ahead key).tail }] } := rfl
  rw [own, setEntry_alone, ahead_alone, alone, entry_run, if_pos rfl, added, List.filter_append,
    List.map_append, lined.calls_run]
  simp [renumbered, lined.tail_run, last]

theorem Lined.alone_run_other (lined : queue.Lined) {other : κ} (apart : other ≠ key) :
    (queue.run other).alone key = queue.alone key := by
  have tail := lined.tail_run other key
  have calls := lined.calls_run other key
  have added : (queue.run other).calls =
      queue.calls ++ [{ key := other, behind := (queue.ahead other).tail }] := rfl
  rw [alone, entry_run, if_neg (Ne.symm apart), added, List.filter_append, List.map_append, calls]
  unfold ahead at tail
  cases found : queue.entry? key with
  | none => simp [alone, found, apart]
  | some entry =>
    rw [found, Option.getD_some] at tail
    simp [alone, found, apart, tail]

theorem Lined.alone_own (lined : queue.Lined) {action : Step κ}
    (own : queue.concerns key action = true) :
    (queue.step action).alone key =
      (queue.alone key).step (action.renumbered (queue.place key)) := by
  cases action with
  | run other =>
    obtain rfl : other = key := of_decide_eq_true own
    exact lined.alone_run other
  | await id =>
    have keyed : queue.key? id = some key := of_decide_eq_true own
    change (queue.await id).alone key = (queue.alone key).await (queue.place key id)
    unfold await
    rw [alone_stage? (.inl keyed)]
    split
    · exact alone_setStage .awaited keyed
    · rfl
  | finish id =>
    have keyed : queue.key? id = some key := of_decide_eq_true own
    change (queue.finish id).alone key = (queue.alone key).finish (queue.place key id)
    unfold finish
    rw [lined.alone_isRunning (.inl keyed)]
    split
    · exact alone_conclude keyed
    · rfl
  | drop id =>
    have keyed : queue.key? id = some key := of_decide_eq_true own
    change (queue.drop id).alone key = (queue.alone key).drop (queue.place key id)
    unfold drop
    rw [alone_isOver (.inl keyed)]
    split
    · rfl
    · exact alone_conclude keyed

theorem Lined.alone_other (lined : queue.Lined) {action : Step κ}
    (other : queue.concerns key action = false) :
    (queue.step action).alone key = queue.alone key := by
  cases action with
  | run called => exact lined.alone_run_other (of_decide_eq_false other)
  | await id =>
    change (queue.await id).alone key = queue.alone key
    unfold await
    split
    · exact alone_setStage_other .awaited (of_decide_eq_false other)
    · rfl
  | finish id =>
    change (queue.finish id).alone key = queue.alone key
    unfold finish
    split
    · exact alone_conclude_other (of_decide_eq_false other)
    · rfl
  | drop id =>
    change (queue.drop id).alone key = queue.alone key
    unfold drop
    split
    · rfl
    · exact alone_conclude_other (of_decide_eq_false other)

theorem Took.called_before {action : Step κ} (took : queue.Took action next) {id : Nat}
    (keyed : next.key? id = some key) :
    id ≤ queue.calls.length ∧ queue.OfKey key id := by
  have length := congrArg List.length took.keys
  rw [List.length_append, List.length_map, List.length_map] at length
  have one : action.called?.toList.length ≤ 1 := by
    cases action.called? <;> simp
  obtain ⟨call, found, _⟩ := Option.map_eq_some_iff.mp keyed
  have bound := (List.getElem?_eq_some_iff.mp found).1
  constructor
  · omega
  · rcases Nat.lt_or_ge id queue.calls.length with earlier | latest
    · exact .inl ((took.key? earlier).symm.trans keyed)
    · exact .inr latest

theorem Took.callEvents_alone {timed : TimedStep κ ρ} (took : queue.Took timed.step next)
    (lined : queue.Lined) {id : Nat} (keyed : next.key? id = some key) :
    (queue.alone key).callEvents (next.alone key) timed (next.place key id) =
      queue.callEvents next timed id := by
  obtain ⟨called, here⟩ := took.called_before keyed
  have linedNext := took.lined lined
  unfold callEvents
  rw [alone_isOver (.inl keyed), linedNext.alone_isRunning (.inl keyed), took.place key called,
    alone_isOver here, lined.alone_isRunning here]

theorem Lined.entriesOf_other (lined : queue.Lined) {timed : TimedStep κ ρ}
    (other : queue.concerns key timed.step = false) : queue.entriesOf key timed = [] := by
  have took := queue.step_took timed.step
  apply List.flatMap_eq_nil_iff.mpr
  intro id member
  rw [← took.callEvents_alone lined (mem_callsOn.mp member), lined.alone_other other,
    callEvents_same, List.map_nil]

theorem Lined.entriesOf_own (lined : queue.Lined) {timed : TimedStep κ ρ}
    (own : queue.concerns key timed.step = true) :
    (queue.alone key).entriesOf key
        { timed with step := timed.step.renumbered (queue.place key) } =
      queue.entriesOf key timed := by
  have took := queue.step_took timed.step
  unfold entriesOf
  dsimp only
  rw [← lined.alone_own own, callsOn_alone, ← map_place_callsOn, List.flatMap_map]
  apply List.flatMap_congr
  intro id member
  have known : (queue.step timed.step).place key id ∈
      List.range ((queue.step timed.step).alone key).calls.length := by
    rw [← map_place_callsOn]
    exact List.mem_map_of_mem member
  rw [place_alone (Nat.le_of_lt (List.mem_range.mp known)),
    ← took.callEvents_alone lined (mem_callsOn.mp member), callEvents, ending_renumbered,
    callEvents]

theorem Lined.diary_alone (lined : queue.Lined) (key : κ) (steps : List (TimedStep κ ρ)) :
    diary key (queue.alone key) (ownSteps key queue steps) = diary key queue steps := by
  induction steps generalizing queue with
  | nil => rfl
  | cons timed rest ih =>
    have later := ih ((queue.step_took timed.step).lined lined)
    rw [ownSteps, diary]
    split
    · rename_i own
      rw [lined.alone_own own] at later
      rw [← lined.entriesOf_own own, ← later]
      rfl
    · rename_i other
      rw [Bool.not_eq_true] at other
      rw [lined.alone_other other] at later
      rw [lined.entriesOf_other other]
      exact later

theorem Lined.after_own_steps (lined : queue.Lined) (key : κ) (steps : List (TimedStep κ ρ)) :
    (queue.alone key).after ((ownSteps key queue steps).map (·.step)) =
      (queue.after (steps.map (·.step))).alone key := by
  induction steps generalizing queue with
  | nil => rfl
  | cons timed rest ih =>
    have later := ih ((queue.step_took timed.step).lined lined)
    rw [ownSteps]
    split
    · rename_i own
      rw [lined.alone_own own] at later
      exact later
    · rename_i other
      rw [Bool.not_eq_true] at other
      rw [lined.alone_other other] at later
      exact later

/-- The calls on a key do not depend on other keys: without the steps on these, the same calls
    start, end and are dropped at the same times. -/
theorem diary_of_own_steps (key : κ) (steps : List (TimedStep κ ρ)) :
    let queue := ({} : KeyedQueue κ).after (steps.map (·.step))
    let own := ({} : KeyedQueue κ).after ((ownSteps key {} steps).map (·.step))
    diary key {} (ownSteps key {} steps) = diary key {} steps ∧
    (queue.callsOn key).map (queue.place key) = List.range own.calls.length ∧
    ∀ id, queue.key? id = some key →
      own.stage? (queue.place key id) = queue.stage? id ∧
      own.isRunning (queue.place key id) = queue.isRunning id := by
  intro queue own
  have lined := (run_recorded (steps.map (·.step))).1
  have reached : own = queue.alone key := new_lined.after_own_steps key steps
  rw [reached]
  refine ⟨new_lined.diary_alone key steps, map_place_callsOn queue key, fun id keyed => ?_⟩
  exact ⟨alone_stage? (.inl keyed), lined.alone_isRunning (.inl keyed)⟩

-- A long operation on another key holds nothing up.
example : diary "b" {} [⟨0, .run "a", ()⟩, ⟨0, .run "b", ()⟩, ⟨0, .await 0, ()⟩, ⟨5, .await 1, ()⟩,
    ⟨10, .finish 1, ()⟩, ⟨90, .finish 0, ()⟩] = [⟨5, 0, .started⟩, ⟨10, 0, .completed ()⟩] := by
  decide

end AgentHost.KeyedQueue
