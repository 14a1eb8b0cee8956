import AgentHost.Supervisor.Output

namespace AgentHost

namespace Event

def isProgress : Event → Bool
  | .textDelta _ | .toolStart _ _ | .toolEnd | .imageData _ | .logLine _ _ => true
  | .textFinal _ | .error _ | .done => false

def isOutcome : Event → Bool
  | .textFinal _ | .error _ => true
  | _ => false

end Event

/-- A complete stream: progress, at most one outcome, and the end. -/
inductive WholeStream : List Event → Prop where
  | progress {event : Event} {rest : List Event} (progress : event.isProgress = true)
      (whole : WholeStream rest) : WholeStream (event :: rest)
  | outcome {event : Event} (outcome : event.isOutcome = true) : WholeStream [event, .done]
  | done : WholeStream [.done]

theorem WholeStream.after_progress {before rest : List Event}
    (progress : ∀ event ∈ before, event.isProgress = true) (whole : WholeStream rest) :
    WholeStream (before ++ rest) := by
  induction before with
  | nil => exact whole
  | cons event before ih =>
    exact .progress (progress event (by simp))
      (ih fun event member => progress event (List.mem_cons_of_mem _ member))

theorem WholeStream.done_mem {events : List Event} (whole : WholeStream events) :
    .done ∈ events := by
  induction whole with
  | progress _ _ ih => exact List.mem_cons_of_mem _ ih
  | outcome => simp
  | done => simp

theorem WholeStream.nothing_after_done {events before after : List Event}
    (whole : WholeStream events) (split : events = before ++ .done :: after) : after = [] := by
  induction whole generalizing before with
  | progress progress _ ih =>
    cases before with
    | nil =>
      rw [List.nil_append, List.cons.injEq] at split
      simp [split.1, Event.isProgress] at progress
    | cons _ before => exact ih (List.cons.inj split).2
  | outcome outcome =>
    cases before with
    | nil =>
      rw [List.nil_append, List.cons.injEq] at split
      simp [split.1, Event.isOutcome] at outcome
    | cons _ before => cases before <;> simp_all
  | done => cases before <;> simp_all

theorem WholeStream.done_after_outcome {events before after : List Event} {last : Event}
    (whole : WholeStream events) (outcome : last.isOutcome = true)
    (split : events = before ++ last :: after) : after = [.done] := by
  induction whole generalizing before with
  | @progress event rest progress _ ih =>
    cases before with
    | nil =>
      obtain ⟨rfl, _⟩ := List.cons.inj split
      cases event <;> simp_all [Event.isProgress, Event.isOutcome]
    | cons _ before => exact ih (List.cons.inj split).2
  | outcome =>
    cases before with
    | nil => exact (List.cons.inj split).2.symm
    | cons _ before =>
      cases before with
      | nil =>
        obtain ⟨rfl, _⟩ := List.cons.inj (List.cons.inj split).2
        simp [Event.isOutcome] at outcome
      | cons => simp at split
  | done =>
    cases before with
    | nil =>
      obtain ⟨rfl, _⟩ := List.cons.inj split
      simp [Event.isOutcome] at outcome
    | cons => simp at split

/-- A stream has at most one error. -/
theorem WholeStream.error_unique {events : List Event} (whole : WholeStream events)
    {message other : String} (told : .error message ∈ events) (again : .error other ∈ events) :
    other = message := by
  induction whole with
  | progress progress _ ih =>
    cases told with
    | head => simp [Event.isProgress] at progress
    | tail _ told =>
      cases again with
      | head => simp [Event.isProgress] at progress
      | tail _ again => exact ih told again
  | outcome =>
    simp only [List.mem_cons, reduceCtorEq, List.not_mem_nil, or_false] at told again
    exact (Event.error.inj (told.trans again.symm)).symm
  | done => simp at told

theorem WholeStream.drop {events : List Event} (whole : WholeStream events) {taken : Nat}
    (more : taken < events.length) : WholeStream (events.drop taken) := by
  induction whole generalizing taken with
  | progress progress whole ih =>
    cases taken with
    | zero => exact .progress progress whole
    | succ taken => exact ih (Nat.lt_of_succ_lt_succ more)
  | outcome outcome =>
    match taken, more with
    | 0, _ => exact .outcome outcome
    | 1, _ => exact .done
  | done =>
    match taken, more with
    | 0, _ => exact .done

theorem WholeStream.untilDone {events : List Event} (whole : WholeStream events) :
    TurnStream.untilDone events = (events, true) := by
  induction whole with
  | @progress event rest progress _ ih =>
    have goesOn : event.isDone = false := by cases event <;> simp_all [Event.isProgress, Event.isDone]
    simp [TurnStream.untilDone, goesOn, ih]
  | @outcome event outcome =>
    have goesOn : event.isDone = false := by cases event <;> simp_all [Event.isOutcome, Event.isDone]
    simp [TurnStream.untilDone, goesOn, show Event.done.isDone = true from rfl]
  | done => rfl

theorem WholeStream.delivered {events : List Event} (whole : WholeStream events)
    {stream : TurnStream} (unended : stream.ended = false) (more : stream.taken < events.length) :
    stream.deliver events = (events.drop stream.taken, ⟨events.length, true⟩) := by
  have rest := (whole.drop more).untilDone
  have total : stream.taken + (events.length - stream.taken) = events.length := by omega
  simp [TurnStream.deliver, unended, rest, total]

def StreamSoFar (events : List Event) : Prop := ∃ word, WholeStream word ∧ events <+: word

theorem WholeStream.so_far {events : List Event} (whole : WholeStream events) :
    StreamSoFar events := ⟨events, whole, List.prefix_refl _⟩

theorem StreamSoFar.of_progress {events : List Event}
    (progress : ∀ event ∈ events, event.isProgress = true) : StreamSoFar events :=
  ⟨events ++ [.done], WholeStream.done.after_progress progress, List.prefix_append _ _⟩

theorem StreamSoFar.nothing_after_done {before after : List Event}
    (sent : StreamSoFar (before ++ .done :: after)) : after = [] := by
  obtain ⟨word, whole, rest, split⟩ := sent
  rw [List.append_assoc, List.cons_append] at split
  exact (List.append_eq_nil_iff.mp (whole.nothing_after_done split.symm)).1

theorem StreamSoFar.done_after_outcome {before after : List Event} {last : Event}
    (sent : StreamSoFar (before ++ last :: after)) (outcome : last.isOutcome = true) :
    after <+: [.done] := by
  obtain ⟨word, whole, rest, split⟩ := sent
  rw [List.append_assoc, List.cons_append] at split
  exact ⟨rest, whole.done_after_outcome outcome split.symm⟩

theorem rejection_whole (message : String) : WholeStream (TurnStream.rejection message) :=
  .outcome rfl

namespace Turn

structure Live (turn : Turn) : Prop where
  unfinished : turn.finished = false
  progress : ∀ event ∈ turn.sent, event.isProgress = true

structure Advances (before after : Turn) : Prop where
  finished : after.finished = before.finished
  sent : ∃ more, after.sent = before.sent ++ more ∧ ∀ event ∈ more, event.isProgress = true

structure Ends (before after : Turn) : Prop where
  finished : after.finished = true
  sent : before.finished = false → ∃ more, after.sent = before.sent ++ more ∧ WholeStream more

theorem Advances.refl (turn : Turn) : turn.Advances turn := ⟨rfl, [], by simp⟩

theorem Advances.trans {a b c : Turn} (first : a.Advances b) (second : b.Advances c) :
    a.Advances c := by
  obtain ⟨more, sent, progress⟩ := first.sent
  obtain ⟨next, sentNext, progressNext⟩ := second.sent
  refine ⟨second.finished.trans first.finished, more ++ next, ?_, ?_⟩
  · rw [sentNext, sent, List.append_assoc]
  · intro event member
    rcases List.mem_append.mp member with member | member
    · exact progress event member
    · exact progressNext event member

theorem Advances.ends {a b c : Turn} (first : a.Advances b) (last : b.Ends c) : a.Ends c := by
  refine ⟨last.finished, fun unfinished => ?_⟩
  obtain ⟨more, sent, progress⟩ := first.sent
  obtain ⟨rest, sentRest, whole⟩ := last.sent (first.finished.trans unfinished)
  exact ⟨more ++ rest, by rw [sentRest, sent, List.append_assoc], whole.after_progress progress⟩

theorem Advances.live {before after : Turn} (advances : before.Advances after)
    (live : before.Live) : after.Live := by
  obtain ⟨more, sent, progress⟩ := advances.sent
  refine ⟨advances.finished.trans live.unfinished, ?_⟩
  rw [sent]
  intro event member
  rcases List.mem_append.mp member with member | member
  · exact live.progress event member
  · exact progress event member

theorem Ends.whole {before after : Turn} (ends : before.Ends after) (live : before.Live) :
    WholeStream after.sent := by
  obtain ⟨more, sent, whole⟩ := ends.sent live.unfinished
  rw [sent]
  exact whole.after_progress live.progress

theorem Ends.unabandoned {before after : Turn} (ends : before.Ends after) :
    after.abandon = after := by
  simp [abandon, fail, ends.finished]

theorem Live.no_error {turn : Turn} (live : turn.Live) (message : String) :
    .error message ∉ turn.sent := by
  intro told
  have progress := live.progress _ told
  simp [Event.isProgress] at progress

theorem start_live (maxImages : Nat) : (start maxImages).Live := ⟨rfl, by simp [start]⟩

theorem foldl_advances {α : Type} {change : Turn → α → Turn}
    (each : ∀ (turn : Turn) (item : α), turn.Advances (change turn item)) (items : List α) (turn : Turn) :
    turn.Advances (items.foldl change turn) := by
  induction items generalizing turn with
  | nil => exact .refl turn
  | cons item items ih => exact (each turn item).trans (ih _)

theorem emit_advances (turn : Turn) {event : Event} (progress : event.isProgress = true) :
    turn.Advances (turn.emit event) := by
  unfold emit
  split
  · exact .refl turn
  · exact ⟨rfl, [event], rfl, by simpa using progress⟩

theorem Advances.of_same {before same after : Turn} (advances : same.Advances after)
    (finished : same.finished = before.finished) (sent : same.sent = before.sent) :
    before.Advances after :=
  .trans ⟨finished, [], by simp [sent]⟩ advances

theorem emitText_advances (turn : Turn) (text : String) : turn.Advances (turn.emitText text) := by
  unfold emitText
  split
  · exact .refl turn
  · exact turn.emit_advances rfl

theorem pushText_advances (turn : Turn) (text : String) : turn.Advances (turn.pushText text) :=
  .of_same (emitText_advances _ _) rfl rfl

theorem flushText_advances (turn : Turn) : turn.Advances turn.flushText :=
  .of_same (emitText_advances _ _) rfl rfl

theorem startTool_advances (turn : Turn) (tool : ToolUse) :
    turn.Advances (turn.startTool tool) := by
  unfold startTool
  split
  · exact .refl turn
  · exact .of_same (emit_advances _ rfl) rfl rfl

theorem endTool_advances (turn : Turn) (id : String) : turn.Advances (turn.endTool id) := by
  unfold endTool
  split
  · exact .of_same (emit_advances _ rfl) rfl rfl
  · exact .refl turn

theorem pushImage_advances (turn : Turn) (image : Image) :
    turn.Advances (turn.pushImage image) := by
  unfold pushImage
  dsimp only
  split
  · exact .of_same (emit_advances _ rfl) rfl rfl
  · exact .of_same (.refl _) rfl rfl

theorem finish_ends (turn : Turn) : turn.Ends turn.finish :=
  ⟨rfl, fun unfinished => ⟨[.done], by simp [finish, emit, unfinished], .done⟩⟩

theorem emit_finish_ends (turn : Turn) {event : Event} (outcome : event.isOutcome = true) :
    turn.Ends (turn.emit event).finish :=
  ⟨rfl, fun unfinished =>
    ⟨[event, .done], by simp [finish, emit, unfinished], .outcome outcome⟩⟩

theorem fail_ends (turn : Turn) (message : String) : turn.Ends (turn.fail message) := by
  cases finished : turn.finished with
  | false =>
    have failed : turn.fail message = (turn.emit (.error message)).finish := by
      simp [fail, finished]
    rw [failed]
    exact turn.emit_finish_ends rfl
  | true => exact ⟨by simp [fail, finished], by simp [finished]⟩

theorem fail_sent {turn : Turn} (unfinished : turn.finished = false) (message : String) :
    (turn.fail message).sent = turn.sent ++ [.error message, .done] := by
  simp [fail, finish, emit, unfinished]

end Turn

namespace Supervisor

theorem addPart_advances (turn : Turn) (part : RecordPart) : turn.Advances (addPart turn part) := by
  cases part with
  | text text => exact turn.pushText_advances text
  | toolUse tool => exact turn.startTool_advances tool
  | toolResult id => exact turn.endTool_advances id
  | image image => exact turn.pushImage_advances image

/-- A result adds progress events, then at most one error or final text. -/
theorem concludeWith_cases (decoder : Decoder) (record : Json) (turn : Turn) :
    ∃ shown, turn.Advances shown ∧
      ((∃ message, decoder.resultError record = some message ∧
        concludeWith decoder record turn = shown.emit (.error message)) ∨
      (decoder.resultError record = none ∧ (concludeWith decoder record turn = shown ∨
        ∃ text, concludeWith decoder record turn = shown.emit (.textFinal text)))) := by
  unfold concludeWith
  let images := ((decoder.resultContent record).map (·.images)).getD []
  have shown : turn.Advances (images.foldl Turn.pushImage turn.flushText) :=
    turn.flushText_advances.trans (Turn.foldl_advances Turn.pushImage_advances images _)
  refine ⟨_, shown, ?_⟩
  cases decoder.resultError record with
  | some message => exact .inl ⟨message, rfl, rfl⟩
  | none =>
    dsimp only
    split
    · exact .inr ⟨rfl, .inl rfl⟩
    · exact .inr ⟨rfl, .inr ⟨_, rfl⟩⟩

theorem concludeWith_ends (decoder : Decoder) (record : Json) (turn : Turn) :
    turn.Ends (concludeWith decoder record turn).finish := by
  obtain ⟨shown, advances, ⟨message, _, ends⟩ | ⟨_, same | ⟨text, ends⟩⟩⟩ :=
    concludeWith_cases decoder record turn
  · rw [ends]
    exact advances.ends (Turn.emit_finish_ends _ rfl)
  · rw [same]
    exact advances.ends (Turn.finish_ends _)
  · rw [ends]
    exact advances.ends (Turn.emit_finish_ends _ rfl)

/-- A result adds an error exactly if the decoder reads one. -/
theorem concludeWith_error_iff {turn : Turn} (live : turn.Live) (decoder : Decoder) (record : Json)
    (message : String) : .error message ∈ (concludeWith decoder record turn).finish.sent ↔
      decoder.resultError record = some message := by
  obtain ⟨shown, advances, ending⟩ := concludeWith_cases decoder record turn
  have still := advances.live live
  have unfailed := still.no_error message
  rcases ending with ⟨known, failed, ends⟩ | ⟨passed, same | ⟨text, ends⟩⟩
  · rw [failed, ends]
    simp only [Turn.finish, Turn.emit, still.unfinished, Bool.false_eq_true, if_false]
    simp [unfailed, eq_comm]
  · rw [passed, same]
    simp [Turn.finish, Turn.emit, still.unfinished, unfailed]
  · rw [passed, ends]
    simp [Turn.finish, Turn.emit, still.unfinished, unfailed]

end Supervisor

end AgentHost
