import AgentHost.Proofs.Supervisor.Coherence

namespace AgentHost.Supervisor

open Relation (ReflTransGen)

/-- Every call has one stream: that of the current turn, or a complete one. -/
structure Streams (s : Supervisor) : Prop where
  none_ahead : ∀ call, s.calls ≤ call → s.ended.lookup call = none
  current : ∀ call turn, s.turn = some (call, turn) → call < s.calls ∧ s.ended.lookup call = none
  others : ∀ call, call < s.calls → (∃ turn, s.turn = some (call, turn)) ∨
    ∃ events, s.ended.lookup call = some events ∧ WholeStream events
  writing : ∀ write, s.writing = some write → write.call < s.calls

structure Keeps (s s' : Supervisor) : Prop where
  streams : s'.Streams
  grows : ∀ call, s.events call <+: s'.events call

theorem start_streams (settings : AgentSettings) (decoder : Decoder) (hook : Bool) :
    (start settings decoder hook).Streams := by
  constructor <;> simp [start]

theorem events_of_turn {s : Supervisor} {call : Nat} {turn : Turn}
    (current : s.turn = some (call, turn)) : s.events call = turn.sent := by
  simp [events, current]

theorem events_of_other {s : Supervisor} {call : Nat} (other : ∀ turn, s.turn ≠ some (call, turn)) :
    s.events call = (s.ended.lookup call).getD [] := by
  unfold events
  split
  · rename_i found turn current
    rw [if_neg fun same => other turn (by rw [current, same])]
  · rfl

theorem lookup_snoc (ended : List (Nat × List Event)) (last call : Nat) (events : List Event) :
    (ended ++ [(last, events)]).lookup call =
      (ended.lookup call).or (if call = last then some events else none) := by
  rw [List.lookup_append]
  by_cases same : call = last
  · simp [same]
  · simp [List.lookup_cons, same, beq_eq_false_iff_ne.mpr same]

theorem Streams.whole {s : Supervisor} (streams : s.Streams) {call : Nat}
    (called : call < s.calls) (other : ∀ turn, s.turn ≠ some (call, turn)) :
    WholeStream (s.events call) := by
  rcases streams.others call called with ⟨turn, current⟩ | ⟨events, found, whole⟩
  · exact absurd current (other turn)
  · rw [events_of_other other, found]
    exact whole

theorem events_of_stopped {s s' : Supervisor} {call : Nat} {turn : Turn} {message : String}
    {hang idle : Timer} {writing : Option Write} (streams : s.Streams)
    (current : s.turn = some (call, turn)) (live : turn.Live)
    (rest : Aside (s.stopped message hang idle writing) s') :
    s'.events call = turn.sent ++ [.error message, .done] := by
  have noTurn : s'.turn = none := rest.turn
  have told : s'.ended = s.ended ++ [(call, (turn.fail message).sent)] := by
    simp [rest.ended, stopped, failed, current]
  rw [events_of_other (by simp [noTurn]), told, lookup_snoc, (streams.current call turn current).2,
    if_pos rfl, Turn.fail_sent live.unfinished]
  rfl

theorem Keeps.trans {a b c : Supervisor} (first : a.Keeps b) (second : b.Keeps c) : a.Keeps c :=
  ⟨second.streams, fun call => (first.grows call).trans (second.grows call)⟩

section

variable {s s' : Supervisor} (streams : s.Streams)
  (writing : ∀ write', s'.writing = some write' → write'.call < s'.calls)

include streams writing

theorem Streams.same (turn : s'.turn = s.turn) (ended : s'.ended = s.ended)
    (calls : s'.calls = s.calls) : s.Keeps s' where
  streams := ⟨by rw [calls, ended]; exact streams.none_ahead,
    by rw [calls, ended, turn]; exact streams.current,
    by rw [calls, ended, turn]; exact streams.others, writing⟩
  grows call := by simp [events, turn, ended]

theorem Streams.advance {call : Nat} {before after : Turn} (was : s.turn = some (call, before))
    (more : before.sent <+: after.sent) (turn : s'.turn = some (call, after))
    (ended : s'.ended = s.ended) (calls : s'.calls = s.calls) : s.Keeps s' := by
  have current := streams.current call before was
  refine ⟨⟨by rw [calls, ended]; exact streams.none_ahead, ?_, ?_, writing⟩, ?_⟩
  · intro other next found
    rw [turn, Option.some.injEq, Prod.mk.injEq] at found
    rw [calls, ended, ← found.1]
    exact current
  · intro other called
    rw [calls] at called
    rcases streams.others other called with ⟨next, found⟩ | past
    · rw [was, Option.some.injEq, Prod.mk.injEq] at found
      exact .inl ⟨after, by rw [turn, found.1]⟩
    · exact .inr (by rw [ended]; exact past)
  · intro other
    by_cases same : call = other
    · simpa [events, was, turn, same] using more
    · simp [events, was, turn, ended, same]

theorem Streams.close {call : Nat} {before : Turn} {events : List Event}
    (was : s.turn = some (call, before)) (more : before.sent <+: events)
    (whole : WholeStream events) (turn : s'.turn = none)
    (ended : s'.ended = s.ended ++ [(call, events)]) (calls : s'.calls = s.calls) : s.Keeps s' := by
  obtain ⟨called, fresh⟩ := streams.current call before was
  refine ⟨⟨?_, by simp [turn], ?_, writing⟩, ?_⟩
  · intro other ahead
    rw [calls] at ahead
    rw [ended, lookup_snoc, streams.none_ahead other ahead, if_neg (by omega)]
    rfl
  · intro other earlier
    rw [calls] at earlier
    rw [ended, lookup_snoc]
    rcases streams.others other earlier with ⟨next, found⟩ | ⟨past, found, complete⟩
    · rw [was, Option.some.injEq, Prod.mk.injEq] at found
      exact .inr ⟨events, by simp [← found.1, fresh], whole⟩
    · exact .inr ⟨past, by simp [found], complete⟩
  · intro other
    by_cases same : call = other
    · subst same
      -- no ended turn belongs to this call yet, so the lookup finds the new entry
      simpa [Supervisor.events, was, turn, ended, lookup_snoc, fresh] using more
    · have later : ¬ other = call := fun equal => same equal.symm
      simp [Supervisor.events, was, turn, ended, lookup_snoc, same, later]

theorem Streams.refuse {message : String} (turn : s'.turn = s.turn)
    (ended : s'.ended = s.ended ++ [(s.calls, TurnStream.rejection message)])
    (calls : s'.calls = s.calls + 1) : s.Keeps s' := by
  have fresh := streams.none_ahead s.calls (Nat.le_refl _)
  refine ⟨⟨?_, ?_, ?_, writing⟩, ?_⟩
  · intro other ahead
    rw [calls] at ahead
    rw [ended, lookup_snoc, streams.none_ahead other (by omega), if_neg (by omega)]
    rfl
  · intro other next found
    rw [turn] at found
    obtain ⟨called, unended⟩ := streams.current other next found
    rw [calls, ended, lookup_snoc, unended, if_neg (by omega)]
    exact ⟨by omega, rfl⟩
  · intro other called
    rw [turn, ended, lookup_snoc]
    by_cases last : other = s.calls
    · exact .inr ⟨_, by rw [last, fresh, if_pos rfl, Option.none_or], rejection_whole message⟩
    · rcases streams.others other (by omega) with current | ⟨past, found, whole⟩
      · exact .inl current
      · exact .inr ⟨past, by rw [found]; rfl, whole⟩
  · intro other
    unfold events
    rw [turn, ended, lookup_snoc]
    cases s.turn with
    | none => cases s.ended.lookup other <;> simp
    | some current =>
      dsimp only
      split
      · exact List.prefix_refl _
      · cases s.ended.lookup other <;> simp

theorem Streams.begin {turn : Turn} (was : s.turn = none) (now : s'.turn = some (s.calls, turn))
    (ended : s'.ended = s.ended) (calls : s'.calls = s.calls + 1) : s.Keeps s' := by
  have fresh := streams.none_ahead s.calls (Nat.le_refl _)
  refine ⟨⟨?_, ?_, ?_, writing⟩, ?_⟩
  · intro other ahead
    rw [ended]
    exact streams.none_ahead other (by omega)
  · intro other next found
    rw [now, Option.some.injEq, Prod.mk.injEq] at found
    rw [calls, ended, ← found.1]
    exact ⟨by omega, fresh⟩
  · intro other called
    by_cases last : other = s.calls
    · exact .inl ⟨turn, by rw [now, last]⟩
    · rcases streams.others other (by omega) with ⟨next, found⟩ | past
      · simp [was] at found
      · exact .inr (by rw [ended]; exact past)
  · intro other
    by_cases last : s.calls = other
    · simp [events, was, now, ← last, fresh]
    · simp [events, was, now, ended, last]

end

theorem Streams.refl {s : Supervisor} (streams : s.Streams) : s.Keeps s :=
  ⟨streams, fun _ => List.prefix_refl _⟩

theorem Aside.keeps {s m s' : Supervisor} (rest : Aside m s') (kept : s.Keeps m) : s.Keeps s' := by
  have writing : ∀ write, s'.writing = some write → write.call < s'.calls := by
    rw [rest.writing, rest.calls]
    exact kept.streams.writing
  exact kept.trans (kept.streams.same writing rest.turn rest.ended rest.calls)

theorem Move.keeps {now : Nat} {s s' : Supervisor} (move : Move now s s') (coherent : s.Coherent)
    (streams : s.Streams) : s.Keeps s' := by
  have writing := streams.writing
  cases move with
  | aside rest => exact rest.keeps streams.refl
  | advance was advances rest =>
    obtain ⟨more, sent, _⟩ := advances.sent
    exact rest.keeps (streams.advance writing was ⟨more, sent.symm⟩ rfl rfl rfl)
  | complete was ends rest =>
    have live := coherent.live _ _ was
    obtain ⟨more, sent, _⟩ := ends.sent live.unfinished
    exact rest.keeps (streams.close writing was ⟨more, sent.symm⟩ (ends.whole live) rfl rfl rfl)
  | stop message _ _ kept rest =>
    refine rest.keeps ?_
    have writing' : ∀ write, s'.writing = some write → write.call < s.calls := by
      intro write found
      rcases kept with same | lost
      · exact writing write (same ▸ found)
      · simp [lost] at found
    cases turn : s.turn with
    | none => exact streams.same writing' turn.symm (by simp [stopped, failed, turn]) rfl
    | some current =>
      obtain ⟨call, current⟩ := current
      have live := coherent.live call current turn
      have told := (Turn.fail_sent live.unfinished message).symm
      exact streams.close writing' turn ⟨_, told⟩ ((current.fail_ends message).whole live) rfl
        (by simp [stopped, failed, turn]) rfl
  | @inputTaken write count was rest =>
    refine rest.keeps (streams.same (fun later found => ?_) rfl rfl rfl)
    rw [← Option.some.inj found]
    exact writing write was
  | inputReturned _ rest => exact rest.keeps (streams.same (by simp) rfl rfl rfl)
  | inputLost _ rest => exact rest.keeps (streams.same (by simp) rfl rfl rfl)

theorem Moves.keeps {now : Nat} {s s' : Supervisor} (moves : Moves now s s')
    (coherent : s.Coherent) (streams : s.Streams) : s.Keeps s' := by
  induction moves with
  | refl => exact streams.refl
  | tail earlier move ih =>
    exact ih.trans (move.keeps (Moves.coherent earlier coherent) ih.streams)

theorem Streams.heard {s : Supervisor} (streams : s.Streams) (now : Nat) :
    s.Keeps (s.heard now) := by
  unfold Supervisor.heard
  split
  · exact streams.same streams.writing rfl rfl rfl
  · exact streams.refl

theorem Took.keeps {now : Nat} {s s' : Supervisor} {action : Step} (took : Took now s action s')
    (coherent : s.Coherent) (streams : s.Streams) : s.Keeps s' := by
  have writing := streams.writing
  cases took with
  | launched _ rest => exact rest.keeps (streams.same writing rfl rfl rfl)
  | launchFailed _ rest => exact rest.keeps (streams.same writing rfl rfl rfl)
  | begun idle _ rest =>
    have free := coherent.no_turn (by simp [idle])
    refine rest.keeps (streams.begin (fun write found => ?_) free rfl rfl rfl)
    rw [← Option.some.inj found]
    exact Nat.lt_succ_self _
  | refused _ _ rest =>
    refine rest.keeps (streams.refuse (fun write found => ?_) rfl rfl rfl)
    exact Nat.lt_succ_of_lt (writing write found)
  | moved _ moves =>
    split at moves
    · have first := streams.heard now
      exact first.trans (moves.keeps (coherent.heard now) first.streams)
    · exact moves.keeps coherent streams

theorem after_keeps {s : Supervisor} (coherent : s.Coherent) (streams : s.Streams)
    (steps : List (Nat × Step)) : s.Keeps (s.after steps) :=
  coherent.run (fun current _ => s.Keeps current) streams.refl
    (fun _ _ _ _ _ ready _ took kept => kept.trans (took.keeps ready kept.streams)) steps

theorem run_streams (settings : AgentSettings) (decoder : Decoder) (hook : Bool)
    (steps : List (Nat × Step)) : ((start settings decoder hook).after steps).Streams :=
  (after_keeps (start_coherent settings decoder hook) (start_streams settings decoder hook)
    steps).streams

def isCall : Step → Bool
  | .sendTurn _ => true
  | _ => false

theorem isCall_eq_false {action : Step} (uncalled : ∀ prompt, action ≠ .sendTurn prompt) :
    isCall action = false := by
  cases action <;> first | rfl | exact absurd rfl (uncalled _)

theorem Took.calls {now : Nat} {s s' : Supervisor} {action : Step} (took : Took now s action s') :
    s'.calls = s.calls + if isCall action then 1 else 0 := by
  cases took with
  | launched _ rest => exact rest.calls
  | launchFailed _ rest => exact rest.calls
  | begun _ _ rest => exact rest.calls
  | refused _ _ rest => exact rest.calls
  | moved uncalled moves =>
    rw [isCall_eq_false uncalled, moves.steady.calls]
    split
    · exact s.heard_calls now
    · rfl

theorem after_calls {s : Supervisor} (coherent : s.Coherent) (steps : List (Nat × Step)) :
    (s.after steps).calls = s.calls + steps.countP fun (_, action) => isCall action := by
  induction steps generalizing s with
  | nil => rfl
  | cons head rest ih =>
    obtain ⟨now, action⟩ := head
    have later := ih (step_coherent coherent now action)
    have first := (coherent.took now action).calls
    change ((s.step now action).after rest).calls = _
    rw [later, first, List.countP_cons]
    dsimp only
    omega

/-- Every call has a stream, which ends with `done` when its turn has ended. -/
theorem streams_of_run (settings : AgentSettings) (decoder : Decoder) (hook : Bool)
    (steps : List (Nat × Step)) :
    let s := (start settings decoder hook).after steps
    (s.calls = steps.countP fun (_, action) => isCall action) ∧
    ∀ call < s.calls,
      StreamSoFar (s.events call) ∧
      (∀ before after, s.events call = before ++ .done :: after → after = []) ∧
      (∀ before last after, s.events call = before ++ last :: after → last.isOutcome = true →
        after <+: [.done]) ∧
      ((∀ turn, s.turn ≠ some (call, turn)) → WholeStream (s.events call)) ∧
      (s.state = .dead → WholeStream (s.events call) ∧
        ∀ stream : TurnStream, stream.ended = false → stream.taken < (s.events call).length →
          (stream.deliver (s.events call)).2.ended = true) ∧
      ∀ more, s.events call <+: (s.after more).events call := by
  intro s
  have coherent : s.Coherent := run_coherent settings decoder hook steps
  have streams : s.Streams := run_streams settings decoder hook steps
  have counted := after_calls (start_coherent settings decoder hook) steps
  refine ⟨counted.trans (Nat.zero_add _), fun call called => ?_⟩
  have soFar : StreamSoFar (s.events call) := by
    rcases streams.others call called with ⟨turn, current⟩ | ⟨events, found, whole⟩
    · rw [events_of_turn current]
      exact .of_progress (coherent.live call turn current).progress
    · have other : ∀ turn, s.turn ≠ some (call, turn) := fun turn current => by
        simp [(streams.current call turn current).2] at found
      exact (streams.whole called other).so_far
  refine ⟨soFar, ?_, ?_, streams.whole called, ?_, fun more => ?_⟩
  · intro before after split
    exact (split ▸ soFar).nothing_after_done
  · intro before last after split outcome
    exact (split ▸ soFar).done_after_outcome outcome
  · intro dead
    have noTurn := coherent.no_turn (by simp [dead])
    have whole := streams.whole called (by simp [noTurn])
    refine ⟨whole, fun stream unended more => ?_⟩
    rw [whole.delivered unended more]
  · exact (after_keeps coherent streams more).grows call

end AgentHost.Supervisor
