import AgentHost.Proofs.ToolPairs

namespace AgentHost

open Rehearsal (TurnStep TurnRun)

theorem Event.isDone_iff {event : Event} : event.isDone = true ↔ event = .done := by
  cases event <;> simp [isDone]

theorem Event.isDone_of_ne {event : Event} (goesOn : event ≠ .done) : event.isDone = false :=
  Bool.eq_false_iff.mpr fun closes => goesOn (isDone_iff.mp closes)

theorem Event.any_isDone {events : List Event} : events.any isDone = true ↔ .done ∈ events := by
  simp [isDone_iff]

def Poll.event? : Poll → Option Event
  | .event next => some next
  | .ended | .pending => none

namespace TurnStream

/-- The events that a consumer is to receive: all up to the first one that closes the turn. -/
def due (sent : List Event) : List Event := (untilDone sent).1

section Due

variable {event : Event} {sent delivered : List Event}

theorem due_done (rest : List Event) : due (.done :: rest) = [.done] := rfl

theorem due_open (goesOn : event ≠ .done) (rest : List Event) :
    due (event :: rest) = event :: due rest := by
  simp [due, untilDone, Event.isDone_of_ne goesOn]

theorem closed_iff : (untilDone sent).2 = true ↔ .done ∈ sent := by
  induction sent with
  | nil => simp [untilDone]
  | cons event rest ih =>
    by_cases closes : event = .done
    · simp [closes, untilDone, Event.isDone]
    · simp [untilDone, Event.isDone_of_ne closes, ih, Ne.symm closes]

theorem due_append_open (goesOn : .done ∉ sent) (more : List Event) :
    due (sent ++ more) = sent ++ due more := by
  induction sent with
  | nil => rfl
  | cons event rest ih =>
    rw [List.mem_cons, not_or] at goesOn
    rw [List.cons_append, due_open (Ne.symm goesOn.1), ih goesOn.2, List.cons_append]

theorem due_of_open (goesOn : .done ∉ sent) : due sent = sent := by
  have whole := due_append_open goesOn []
  rwa [List.append_nil, show due [] = [] from rfl, List.append_nil] at whole

theorem due_append_done (closed : .done ∈ sent) (more : List Event) :
    due (sent ++ more) = due sent := by
  obtain ⟨before, after, rfl, first⟩ := List.eq_append_cons_of_mem closed
  rw [List.append_assoc, due_append_open first, due_append_open first, List.cons_append, due_done,
    due_done]

theorem due_prefix_append (sent more : List Event) : due sent <+: due (sent ++ more) := by
  by_cases closed : .done ∈ sent
  · exact ⟨[], by rw [List.append_nil, due_append_done closed]⟩
  · rw [due_append_open closed, due_of_open closed]
    exact List.prefix_append _ _

theorem done_mem_due : .done ∈ due sent ↔ .done ∈ sent := by
  by_cases closed : .done ∈ sent
  · obtain ⟨before, after, rfl, first⟩ := List.eq_append_cons_of_mem closed
    rw [due_append_open first, due_done]
    simp
  · rw [due_of_open closed]

theorem due_next (within : delivered <+: due sent) (goesOn : .done ∉ delivered) :
    ∃ rest, sent = delivered ++ rest ∧ due sent = delivered ++ due rest := by
  induction delivered generalizing sent with
  | nil => exact ⟨sent, rfl, rfl⟩
  | cons first delivered ih =>
    rw [List.mem_cons, not_or] at goesOn
    cases sent with
    | nil => simp [due, untilDone] at within
    | cons event sent =>
      by_cases closes : event = .done
      · rw [closes, due_done] at within
        exact absurd (List.cons_prefix_cons.mp within).1.symm goesOn.1
      · rw [due_open closes] at within ⊢
        obtain ⟨rfl, later⟩ := List.cons_prefix_cons.mp within
        obtain ⟨rest, split, whole⟩ := ih later goesOn.2
        exact ⟨rest, by rw [split]; rfl, by rw [whole]; rfl⟩

theorem eq_due_of_done (within : delivered <+: due sent) (closed : .done ∈ delivered) :
    delivered = due sent := by
  obtain ⟨before, after, rfl, first⟩ := List.eq_append_cons_of_mem closed
  obtain ⟨rest, split, whole⟩ :=
    due_next ((List.prefix_append before _).trans within) first
  rw [whole, List.prefix_append_right_inj] at within
  rw [whole]
  cases rest with
  | nil => simp [due, untilDone] at within
  | cons event rest =>
    by_cases closes : event = .done
    · rw [closes, due_done] at within ⊢
      obtain rfl := List.prefix_nil.mp (List.cons_prefix_cons.mp within).2
      rfl
    · rw [due_open closes] at within
      exact absurd (List.cons_prefix_cons.mp within).1.symm closes

theorem due_prefix (sent : List Event) : due sent <+: sent := by
  by_cases closed : .done ∈ sent
  · obtain ⟨before, after, rfl, first⟩ := List.eq_append_cons_of_mem closed
    rw [due_append_open first, due_done]
    exact ⟨after, List.append_cons .. |>.symm⟩
  · exact ⟨[], by rw [List.append_nil, due_of_open closed]⟩

theorem due_getLast (closed : .done ∈ sent) : (due sent).getLast? = some .done := by
  obtain ⟨before, after, rfl, first⟩ := List.eq_append_cons_of_mem closed
  rw [due_append_open first, due_done, List.getLast?_concat]

end Due

end TurnStream

def Rehearsal.TurnStep.outcomes : TurnStep → List Event
  | .emit event => [event]
  | .finish => [.done]
  | .fail message => [.error message, .done]
  | .drop => [.error "turn abandoned", .done]
  | .pushText _ | .flushText | .startTool _ | .endTool _ | .pushImage _ | .dropStream => []

namespace Turn

open TurnStream (due)

section Act

variable {turn : Turn} {step : TurnStep}

theorem act_advances (quiet : step.outcomes = []) : turn.Advances (TurnRun.act turn step) := by
  cases step with
  | pushText text => exact turn.pushText_advances text
  | flushText => exact turn.flushText_advances
  | startTool tool => exact turn.startTool_advances tool
  | endTool id => exact turn.endTool_advances id
  | pushImage image => exact turn.pushImage_advances image
  | dropStream => exact .refl turn
  | emit | finish | fail | drop => exact absurd quiet (List.cons_ne_nil _ _)

theorem act_outcomes (unfinished : turn.finished = false) (step : TurnStep) :
    ∃ progress, (TurnRun.act turn step).sent = turn.sent ++ (progress ++ step.outcomes) ∧
      ∀ event ∈ progress, event.isProgress = true := by
  by_cases quiet : step.outcomes = []
  · obtain ⟨progress, sent, each⟩ := (turn.act_advances quiet).sent
    exact ⟨progress, by rw [sent, quiet, List.append_nil], each⟩
  · refine ⟨[], ?_, by simp⟩
    cases step with
    | emit event => exact emit_sent unfinished event
    | finish => exact emit_sent unfinished .done
    | fail message => exact fail_sent unfinished message
    | drop => exact fail_sent unfinished _
    | _ => exact absurd rfl quiet

/-- Events are never taken back. -/
theorem act_extends (turn : Turn) (step : TurnStep) :
    ∃ more, (TurnRun.act turn step).sent = turn.sent ++ more := by
  cases ended : turn.finished with
  | true => exact ⟨[], by rw [(act_silent ended step).sent, List.append_nil]⟩
  | false =>
    obtain ⟨progress, sent, -⟩ := act_outcomes ended step
    exact ⟨_, sent⟩

theorem act_done (closed : turn.finished = true → .done ∈ turn.sent) (asked : .done ∈ step.outcomes) :
    .done ∈ (TurnRun.act turn step).sent := by
  cases ended : turn.finished with
  | true =>
    rw [(act_silent ended step).sent]
    exact closed ended
  | false =>
    obtain ⟨progress, sent, -⟩ := act_outcomes ended step
    rw [sent]
    simp [asked]

theorem act_closed (closed : turn.finished = true → .done ∈ turn.sent)
    (ended : (TurnRun.act turn step).finished = true) : .done ∈ (TurnRun.act turn step).sent := by
  by_cases quiet : step.outcomes = []
  · obtain ⟨more, sent⟩ := turn.act_extends step
    rw [(turn.act_advances quiet).finished] at ended
    rw [sent]
    exact List.mem_append_left _ (closed ended)
  · cases step with
    | emit event =>
      obtain ⟨more, sent⟩ := turn.act_extends (.emit event)
      have still : (turn.emit event).finished = turn.finished := by
        unfold emit
        split <;> rfl
      rw [sent]
      exact List.mem_append_left _ (closed (still.symm.trans ended))
    | finish | fail | drop => exact act_done closed (by simp [TurnStep.outcomes])
    | _ => exact absurd rfl quiet

theorem mem_act_sent {event : Event} (outcome : event.isProgress = false)
    (sent : event ∈ (TurnRun.act turn step).sent) : event ∈ turn.sent ∨ event ∈ step.outcomes := by
  cases ended : turn.finished with
  | true => exact .inl ((act_silent ended step).sent ▸ sent)
  | false =>
    obtain ⟨progress, whole, each⟩ := act_outcomes ended step
    rw [whole, List.mem_append, List.mem_append] at sent
    rcases sent with before | progressed | asked
    · exact .inl before
    · rw [each event progressed] at outcome
      contradiction
    · exact .inr asked

end Act

inductive Use where
  | act (step : TurnStep)
  | poll

structure Exchange where
  run : TurnRun
  answers : List Poll := []

namespace Exchange

def poll (exchange : Exchange) : Exchange :=
  match exchange.run.stream with
  | none => exchange
  | some stream =>
    let (answer, next) := stream.poll exchange.run.turn.sent exchange.run.alive
    ⟨{ exchange.run with stream := some next }, exchange.answers ++ [answer]⟩

def use (exchange : Exchange) : Use → Exchange
  | .act step => { exchange with run := exchange.run.apply step }
  | .poll => exchange.poll

def after (maxImages : Nat) (uses : List Use) : Exchange := uses.foldl use ⟨.start maxImages, []⟩

def delivered (exchange : Exchange) : List Event := exchange.answers.filterMap Poll.event?

theorem after_snoc (maxImages : Nat) (uses : List Use) (last : Use) :
    after maxImages (uses ++ [last]) = (after maxImages uses).use last := List.foldl_concat ..

structure Sound (exchange : Exchange) : Prop where
  within : exchange.delivered <+: due exchange.run.turn.sent
  closed : exchange.run.turn.finished = true → .done ∈ exchange.run.turn.sent
  gone : exchange.run.alive = false → exchange.run.turn.finished = true
  place : ∀ stream, exchange.run.stream = some stream →
    stream = ⟨exchange.delivered.length, exchange.delivered.any Event.isDone⟩

inductive Hears (exchange : Exchange) (stream : TurnStream) : Poll × TurnStream → Prop where
  | ended (closed : .done ∈ exchange.delivered) : Hears exchange stream (.ended, stream)
  | event {event : Event} {rest : List Event} (goesOn : .done ∉ exchange.delivered)
      (next : due exchange.run.turn.sent = exchange.delivered ++ event :: rest) :
      Hears exchange stream (.event event, ⟨exchange.delivered.length + 1, event.isDone⟩)
  | pending (goesOn : .done ∉ exchange.delivered)
      (all : due exchange.run.turn.sent = exchange.delivered) :
      Hears exchange stream (.pending, stream)

def hear (exchange : Exchange) (heard : Poll × TurnStream) : Exchange :=
  ⟨{ exchange.run with stream := some heard.2 }, exchange.answers ++ [heard.1]⟩

section Use

variable {exchange : Exchange} {stream : TurnStream}

theorem poll_turn (exchange : Exchange) : exchange.poll.run.turn = exchange.run.turn := by
  unfold poll
  split <;> rfl

theorem act_turn (exchange : Exchange) (step : TurnStep) : (exchange.use (.act step)).run.turn =
    if exchange.run.alive then TurnRun.act exchange.run.turn step else exchange.run.turn := rfl

theorem poll_of_stream (held : exchange.run.stream = some stream) : exchange.poll =
    exchange.hear (stream.poll exchange.run.turn.sent exchange.run.alive) := by
  rw [poll, held]
  rfl

theorem hear_delivered (heard : Poll × TurnStream) :
    (exchange.hear heard).delivered = exchange.delivered ++ heard.1.event?.toList := by
  rw [delivered, hear, List.filterMap_append]
  cases heard.1 <;> rfl

theorem Sound.hears (sound : exchange.Sound) (held : exchange.run.stream = some stream) :
    exchange.Hears stream (stream.poll exchange.run.turn.sent exchange.run.alive) := by
  have place := sound.place stream held
  by_cases closed : .done ∈ exchange.delivered
  · have ended : stream.ended = true := by rw [place, Event.any_isDone.mpr closed]
    rw [TurnStream.poll, if_pos ended]
    exact .ended closed
  · have goesOn : ¬ stream.ended = true := by rwa [place, Event.any_isDone]
    have taken : stream.taken = exchange.delivered.length := by rw [place]
    obtain ⟨rest, split, whole⟩ := TurnStream.due_next sound.within closed
    rw [TurnStream.poll, if_neg goesOn, taken, split, List.getElem?_append_right (Nat.le_refl _),
      Nat.sub_self]
    cases rest with
    | nil =>
      -- the turn is still alive: a finished or failed turn would have sent `done`
      have alive : exchange.run.alive = true := by
        by_contra gone
        have owed := sound.closed (sound.gone (Bool.eq_false_iff.mpr gone))
        rw [split, List.append_nil] at owed
        exact closed owed
      rw [alive]
      exact .pending closed (by rw [whole]; exact List.append_nil _)
    | cons event rest =>
      by_cases last : event = .done
      · subst last
        exact .event closed (by rw [whole, TurnStream.due_done])
      · exact .event closed (by rw [whole, TurnStream.due_open last])

theorem Sound.heard (sound : exchange.Sound) (held : exchange.run.stream = some stream)
    {heard : Poll × TurnStream} (hears : exchange.Hears stream heard) :
    (exchange.hear heard).Sound := by
  have place := sound.place stream held
  refine ⟨?_, sound.closed, sound.gone, ?_⟩
  · rw [hear_delivered]
    change _ <+: due exchange.run.turn.sent
    cases hears with
    | ended | pending => simpa [Poll.event?] using sound.within
    | @event event rest goesOn next => exact ⟨rest, by rw [next, List.append_assoc]; rfl⟩
  · rintro _ ⟨⟩
    rw [hear_delivered]
    cases hears with
    | ended | pending => simpa [Poll.event?] using place
    | @event event rest goesOn next =>
      have unclosed : exchange.delivered.any Event.isDone = false :=
        Bool.eq_false_iff.mpr (mt Event.any_isDone.mp goesOn)
      simp [Poll.event?, unclosed]

theorem Sound.poll (sound : exchange.Sound) : exchange.poll.Sound := by
  cases held : exchange.run.stream with
  | none =>
    have same : exchange.poll = exchange := by rw [Exchange.poll, held]
    rwa [same]
  | some stream =>
    rw [poll_of_stream held]
    exact sound.heard held (sound.hears held)

theorem Sound.act (sound : exchange.Sound) (step : TurnStep) :
    (exchange.use (.act step)).Sound where
  within := by
    rw [act_turn]
    split
    · obtain ⟨more, sent⟩ := exchange.run.turn.act_extends step
      rw [sent]
      exact sound.within.trans (TurnStream.due_prefix_append _ more)
    · exact sound.within
  closed := by
    rw [act_turn]
    split
    · exact act_closed sound.closed
    · exact sound.closed
  gone gone := by
    rw [act_turn]
    split
    · next alive =>
      cases step with
      | drop => exact (fail_ends _ _).finished
      | _ => exact absurd (alive.symm.trans gone) nofun
    · next dropped => exact sound.gone (Bool.eq_false_iff.mpr dropped)
  place stream held := by
    cases step with
    | dropStream => contradiction
    | _ => exact sound.place stream held

theorem Sound.use (sound : exchange.Sound) (use : Use) : (exchange.use use).Sound := by
  cases use with
  | act step => exact sound.act step
  | poll => exact sound.poll

/-- A poll gives the next event, or the end exactly if `done` has been delivered. -/
theorem Sound.poll_answer (sound : exchange.Sound) (held : exchange.run.stream = some stream) :
    (stream.poll exchange.run.turn.sent exchange.run.alive).1 =
      if exchange.delivered.any Event.isDone then .ended
      else ((due exchange.run.turn.sent)[exchange.delivered.length]?).elim .pending .event := by
  have hears := sound.hears held
  generalize stream.poll exchange.run.turn.sent exchange.run.alive = heard at hears ⊢
  cases hears with
  | ended closed => rw [if_pos (Event.any_isDone.mpr closed)]
  | event goesOn next =>
    rw [if_neg (mt Event.any_isDone.mp goesOn), next, List.getElem?_append_right (Nat.le_refl _),
      Nat.sub_self]
    rfl
  | pending goesOn all =>
    rw [if_neg (mt Event.any_isDone.mp goesOn), all, List.getElem?_eq_none (Nat.le_refl _)]
    rfl

theorem Sound.deliver (sound : exchange.Sound) (held : exchange.run.stream = some stream) :
    let whole := due exchange.run.turn.sent
    stream.deliver exchange.run.turn.sent =
      (whole.drop exchange.delivered.length, ⟨whole.length, whole.any Event.isDone⟩) := by
  intro whole
  have place := sound.place stream held
  by_cases closed : .done ∈ exchange.delivered
  · have all : exchange.delivered = whole := TurnStream.eq_due_of_done sound.within closed
    have ended : stream.ended = true := by rw [place, Event.any_isDone.mpr closed]
    rw [TurnStream.deliver, if_pos ended, ← all, List.drop_length, ← place]
  · obtain ⟨rest, split, all⟩ := TurnStream.due_next sound.within closed
    have goesOn : ¬ stream.ended = true := by rwa [place, Event.any_isDone]
    have taken : stream.taken = exchange.delivered.length := by rw [place]
    have same : (TurnStream.untilDone rest).2 = whole.any Event.isDone := by
      rw [Bool.eq_iff_iff, TurnStream.closed_iff, Event.any_isDone, TurnStream.done_mem_due, split,
        List.mem_append, or_iff_right closed]
    have total : whole.length = exchange.delivered.length + (due rest).length := by
      rw [show whole = _ from all, List.length_append]
    rw [TurnStream.deliver, if_neg goesOn, taken, ← same, total, show whole = _ from all, List.drop_left,
      split, List.drop_left]
    rfl

def polls (exchange : Exchange) (count : Nat) : Exchange :=
  (List.replicate count Use.poll).foldl Exchange.use exchange

/-- Enough polls give all events that are due, and leave the stream as `deliver` does. -/
theorem Sound.polls_eq {count : Nat} (sound : exchange.Sound)
    (held : exchange.run.stream = some stream)
    (enough : (due exchange.run.turn.sent).length ≤ exchange.delivered.length + count) :
    (exchange.polls count).delivered = exchange.delivered ++ (stream.deliver exchange.run.turn.sent).1 ∧
    (exchange.polls count).run =
      { exchange.run with stream := some (stream.deliver exchange.run.turn.sent).2 } := by
  rw [sound.deliver held, List.prefix_iff_eq_append.mp sound.within]
  induction count generalizing exchange stream with
  | zero =>
    have all := sound.within.eq_of_length_le enough
    have place := sound.place stream held
    refine ⟨all, ?_⟩
    rw [← all, ← place, ← held]
    rfl
  | succ count ih =>
    have hears := sound.hears held
    have first : exchange.polls (count + 1) =
        (exchange.hear (stream.poll exchange.run.turn.sent exchange.run.alive)).polls count := by
      rw [← poll_of_stream held]
      rfl
    rw [first]
    generalize stream.poll exchange.run.turn.sent exchange.run.alive = heard at hears
    refine ih (sound.heard held hears) rfl ?_
    rw [hear_delivered, List.length_append]
    change (due exchange.run.turn.sent).length ≤ _
    cases hears with
    | ended closed =>
      rw [TurnStream.eq_due_of_done sound.within closed]
      omega
    | event => exact Nat.le_trans enough (by simp [Poll.event?]; omega)
    | pending goesOn all =>
      rw [all]
      omega

end Use

theorem after_sound (maxImages : Nat) (uses : List Use) : (after maxImages uses).Sound := by
  induction uses using List.reverseRecOn with
  | nil =>
    refine ⟨List.nil_prefix, nofun, nofun, ?_⟩
    rintro _ ⟨⟩
    rfl
  | append_singleton uses last ih =>
    rw [after_snoc]
    exact ih.use last

section Run

variable {maxImages : Nat} {uses before rest : List Use} {step : TurnStep} {event : Event}

theorem after_append (maxImages : Nat) (uses more : List Use) :
    after maxImages (uses ++ more) = more.foldl use (after maxImages uses) := List.foldl_append

theorem use_silent {exchange : Exchange} (ended : exchange.run.turn.finished = true) (use : Use) :
    exchange.run.turn.Silent (exchange.use use).run.turn := by
  cases use with
  | act step =>
    rw [act_turn]
    split
    · exact act_silent ended step
    · exact ⟨ended, rfl⟩
  | poll =>
    rw [Exchange.use, poll_turn]
    exact ⟨ended, rfl⟩

theorem foldl_silent {exchange : Exchange} (ended : exchange.run.turn.finished = true)
    (more : List Use) : exchange.run.turn.Silent (more.foldl use exchange).run.turn := by
  induction more generalizing exchange with
  | nil => exact ⟨ended, rfl⟩
  | cons next more ih =>
    have first := use_silent ended next
    have later := ih first.finished
    exact ⟨later.finished, later.sent.trans first.sent⟩

/-- Finishing, failing or dropping a turn ends it. -/
theorem finished_of_ending (ends : step = .finish ∨ (∃ message, step = .fail message) ∨ step = .drop)
    (maxImages : Nat) (before rest : List Use) :
    (after maxImages (before ++ .act step :: rest)).run.turn.finished = true := by
  have last : ((after maxImages before).use (.act step)).run.turn.finished = true := by
    rw [act_turn]
    split
    · rcases ends with rfl | ⟨message, rfl⟩ | rfl
      · rfl
      · exact (fail_ends _ _).finished
      · exact (fail_ends _ _).finished
    · next dropped => exact (after_sound maxImages before).gone (Bool.eq_false_iff.mpr dropped)
  rw [after_append]
  exact (foldl_silent last rest).finished

theorem mem_outcomes_of_sent (outcome : event.isProgress = false)
    (sent : event ∈ (after maxImages uses).run.turn.sent) :
    ∃ step, .act step ∈ uses ∧ event ∈ step.outcomes := by
  induction uses using List.reverseRecOn with
  | nil => exact absurd sent List.not_mem_nil
  | append_singleton uses last ih =>
    have earlier : event ∈ (after maxImages uses).run.turn.sent →
        ∃ step, .act step ∈ uses ++ [last] ∧ event ∈ step.outcomes := fun sent =>
      have ⟨step, member, asked⟩ := ih sent
      ⟨step, List.mem_append_left _ member, asked⟩
    rw [after_snoc] at sent
    cases last with
    | poll =>
      rw [use, poll_turn] at sent
      exact earlier sent
    | act step =>
      rw [act_turn] at sent
      split at sent
      · rcases mem_act_sent outcome sent with before | asked
        · exact earlier before
        · exact ⟨step, by simp, asked⟩
      · exact earlier sent

theorem foldl_extends (exchange : Exchange) (more : List Use) :
    ∃ added, (more.foldl use exchange).run.turn.sent = exchange.run.turn.sent ++ added := by
  induction more generalizing exchange with
  | nil => exact ⟨[], (List.append_nil _).symm⟩
  | cons next more ih =>
    obtain ⟨later, whole⟩ := ih (exchange.use next)
    have first : ∃ added, (exchange.use next).run.turn.sent = exchange.run.turn.sent ++ added := by
      cases next with
      | poll => exact ⟨[], by rw [use, poll_turn, List.append_nil]⟩
      | act step =>
        rw [act_turn]
        split
        · exact exchange.run.turn.act_extends step
        · exact ⟨[], (List.append_nil _).symm⟩
    obtain ⟨added, sent⟩ := first
    exact ⟨added ++ later, by rw [List.foldl_cons, whole, sent, List.append_assoc]⟩

/-- `done` is sent exactly if some step asks for it. -/
theorem done_sent_iff (maxImages : Nat) (uses : List Use) :
    .done ∈ (after maxImages uses).run.turn.sent ↔ ∃ step, .act step ∈ uses ∧ .done ∈ step.outcomes := by
  constructor
  · exact mem_outcomes_of_sent rfl
  · rintro ⟨step, member, asked⟩
    obtain ⟨before, rest, rfl⟩ := List.append_of_mem member
    have sound := after_sound maxImages before
    have told : .done ∈ ((after maxImages before).use (.act step)).run.turn.sent := by
      rw [act_turn]
      split
      · exact act_done sound.closed asked
      · next dropped => exact sound.closed (sound.gone (Bool.eq_false_iff.mpr dropped))
    obtain ⟨added, sent⟩ := foldl_extends ((after maxImages before).use (.act step)) rest
    rw [after_append, List.foldl_cons, sent]
    exact List.mem_append_left _ told

theorem alive_of_undropped (undropped : .act .drop ∉ uses) :
    (after maxImages uses).run.alive = true := by
  induction uses using List.reverseRecOn with
  | nil => rfl
  | append_singleton uses last ih =>
    rw [List.mem_append, List.mem_singleton, not_or] at undropped
    have still := ih undropped.1
    rw [after_snoc]
    cases last with
    | poll =>
      rw [use, poll]
      split
      · exact still
      · exact still
    | act step =>
      cases step with
      | drop => exact absurd rfl undropped.2
      | _ => exact still

theorem sent_of_drop (undropped : .act .drop ∉ before) (rest : List Use) :
    (after maxImages (before ++ .act .drop :: rest)).run.turn.sent =
      (after maxImages before).run.turn.abandon.sent := by
  have dropped : ((after maxImages before).use (.act .drop)).run.turn =
      (after maxImages before).run.turn.abandon := by
    rw [act_turn, if_pos (alive_of_undropped undropped)]
    rfl
  have ended : ((after maxImages before).use (.act .drop)).run.turn.finished = true := by
    rw [dropped]
    exact (fail_ends _ _).finished
  rw [after_append, List.foldl_cons, (foldl_silent ended rest).sent, dropped]

theorem due_of_drop (maxImages : Nat) (undropped : .act .drop ∉ before) (rest : List Use) :
    let sent := (after maxImages before).run.turn.sent
    let whole := due (after maxImages (before ++ .act .drop :: rest)).run.turn.sent
    (.done ∈ sent ∧ whole = due sent) ∨
      (.done ∉ sent ∧ whole = sent ++ [.error "turn abandoned", .done]) := by
  intro sent whole
  have same : whole = due (after maxImages before).run.turn.abandon.sent := by
    rw [← sent_of_drop undropped rest]
  have sound := after_sound maxImages before
  by_cases closed : .done ∈ sent
  · left
    refine ⟨closed, ?_⟩
    obtain ⟨more, abandoned⟩ := (after maxImages before).run.turn.act_extends .drop
    rw [same]
    change due (TurnRun.act _ .drop).sent = _
    rw [abandoned, TurnStream.due_append_done closed]
  · right
    have unfinished : (after maxImages before).run.turn.finished = false :=
      Bool.eq_false_iff.mpr fun ended => closed (sound.closed ended)
    rw [same, abandon, fail_sent unfinished, TurnStream.due_append_open closed]
    exact ⟨closed, rfl⟩

theorem unclosed_of_abandoned (unsaid : ∀ step, .act step ∈ before →
      .error "turn abandoned" ∉ step.outcomes) :
    ¬ [.error "turn abandoned", .done] <:+ due (after maxImages before).run.turn.sent := by
  intro said
  have sent := (TurnStream.due_prefix _).subset (said.subset List.mem_cons_self)
  obtain ⟨step, member, asked⟩ := mem_outcomes_of_sent rfl sent
  exact unsaid step member asked

end Run

/-- A consumer gets the queued events in order up to the first `done`, and the end of the stream at
    every poll after it. Nothing is queued after a turn has finished or failed. A dropped turn has a
    `done`; the error about being abandoned is sent before it exactly if nothing had ended the turn,
    or if it had failed with that message. -/
theorem delivered_of_uses (maxImages : Nat) (uses : List Use) :
    let exchange := after maxImages uses
    let queued := exchange.run.turn.sent
    exchange.delivered <+: due queued ∧
    (∀ stream, exchange.run.stream = some stream →
      (stream.poll queued exchange.run.alive).1 =
        (if exchange.delivered.any Event.isDone then .ended
        else ((due queued)[exchange.delivered.length]?).elim .pending .event) ∧
      ∀ count, (due queued).length ≤ exchange.delivered.length + count →
        (exchange.polls count).delivered = due queued ∧
        (exchange.polls count).delivered = exchange.delivered ++ (stream.deliver queued).1 ∧
        (exchange.polls count).run.stream = some (stream.deliver queued).2) ∧
    (∀ before step rest, uses = before ++ .act step :: rest →
      step = .finish ∨ (∃ message, step = .fail message) →
      queued = (after maxImages (before ++ [.act step])).run.turn.sent) ∧
    ∀ before rest, uses = before ++ .act .drop :: rest → .act .drop ∉ before →
      let abandoned := [.error "turn abandoned", .done]
      (due queued).getLast? = some .done ∧
      (abandoned <:+ due queued ↔ (∀ step, .act step ∈ before → .done ∉ step.outcomes) ∨
        abandoned <:+ due (after maxImages before).run.turn.sent) ∧
      ((∀ step, .act step ∈ before → .error "turn abandoned" ∉ step.outcomes) →
        (abandoned <:+ due queued ↔ ∀ step, .act step ∈ before → .done ∉ step.outcomes)) := by
  intro exchange queued
  have sound : exchange.Sound := after_sound maxImages uses
  refine ⟨sound.within, ?_, ?_, ?_⟩
  · intro stream held
    refine ⟨sound.poll_answer held, fun count enough => ?_⟩
    obtain ⟨heard, run⟩ := sound.polls_eq held enough
    refine ⟨?_, heard, by rw [run]⟩
    rw [heard, sound.deliver held]
    exact List.prefix_iff_eq_append.mp sound.within
  · rintro before step rest rfl ends
    have ended := finished_of_ending (ends.imp_right .inl) maxImages before []
    have whole : before ++ .act step :: rest = before ++ [.act step] ++ rest := List.append_cons ..
    unfold queued exchange
    rw [whole, after_append]
    exact (foldl_silent ended rest).sent
  · rintro before rest rfl undropped abandoned
    have unended : .done ∉ (after maxImages before).run.turn.sent ↔
        ∀ step, .act step ∈ before → .done ∉ step.outcomes := by
      rw [done_sent_iff]
      exact ⟨fun none step member asked => none ⟨step, member, asked⟩,
        fun none ⟨step, member, asked⟩ => none step member asked⟩
    have closing : abandoned <:+ due queued ↔
        (∀ step, .act step ∈ before → .done ∉ step.outcomes) ∨
          abandoned <:+ due (after maxImages before).run.turn.sent := by
      rw [← unended]
      rcases due_of_drop maxImages undropped rest with ⟨closed, same⟩ | ⟨goesOn, whole⟩
      · rw [show due queued = _ from same]
        exact (or_iff_right fun goesOn => goesOn closed).symm
      · rw [show due queued = _ from whole]
        exact iff_of_true (List.suffix_append _ _) (.inl goesOn)
    refine ⟨TurnStream.due_getLast ?_, closing, fun unsaid => ?_⟩
    · exact (done_sent_iff maxImages _).mpr ⟨.drop, by simp, by simp [TurnStep.outcomes]⟩
    · rw [closing]
      exact or_iff_left (unclosed_of_abandoned unsaid)

end Exchange

end Turn

end AgentHost
