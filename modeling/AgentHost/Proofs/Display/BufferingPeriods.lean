import AgentHost.Proofs.Display.Armings
import AgentHost.Proofs.Display.HeldText
import AgentHost.Proofs.Display.ToolSilence

namespace AgentHost.Display.Scheduler

variable {s s' : Scheduler}

def Step.delay? (settings : DisplaySettings) : Phase → Step → Option Nat
  | .idle, .handle (.textDelta _) => some settings.flushDelayMs
  | .toolActive, .handle .toolEnd => some settings.postToolDelayMs
  | _, _ => none

namespace Change

def rung (change : Change) : Bool := change.step.rings change.before.flush.generation

def hushes (change : Change) : Bool := change.step.hushes

end Change

/-- The flush timer is punctual: it never goes off before it is due, and while it is armed nothing
    happens after it is due. -/
def Punctual (past : List Change) : Prop :=
  ∀ change ∈ past, ∀ due ∈ change.before.flush.deadline?, change.time ≤ due ∧
    (change.rung = true → due ≤ change.time)

instance (past : List Change) : Decidable (Punctual past) :=
  inferInstanceAs (Decidable (∀ change ∈ past, ∀ due ∈ change.before.flush.deadline?,
    change.time ≤ due ∧ (change.rung = true → due ≤ change.time)))

def streamOf (text : String) : List Action := if text.isEmpty then [] else [.streamText text]

section Period

variable {due now : Nat} {action : Step} {since : List Change}

structure Buffering (due : Nat) (s : Scheduler) (since : List Change) : Prop where
  live : s.disposed = false
  phase : s.phase = .bufferingText
  buffer : s.buffer = String.join (since.map Change.received)
  due : s.flush.deadline? = some due
  silent : since.flatMap Change.shown = []

theorem Buffering.begins {settings : DisplaySettings} {delay : Nat} (sound : s.flush.Sound)
    (settled : s.settings = settings) (drained : s.phase = .idle → s.buffer = "")
    (live : s.disposed = false) (begins : action.delay? settings s.phase = some delay) :
    Buffering (now + delay) (s.step (now, action)) [⟨(now, action), s, s.step (now, action)⟩] := by
  unfold Step.delay? at begins
  split at begins
  · next text idle =>
    obtain rfl := Option.some.inj begins
    have same : s.step (now, .handle (.textDelta text)) = { s with
        buffer := s.buffer ++ text
        phase := .bufferingText
        flush := s.flush.arm now s.settings.flushDelayMs } := by
      simp [step, handle, live, react, onText, idle]
    rw [same, settled]
    exact ⟨live, rfl, by simp [drained idle, Change.received, receives, live, Change.step, Step.text],
      Timer.arm_deadline sound _ _, by simp [Change.shown, shownTo]⟩
  · next working =>
    obtain rfl := Option.some.inj begins
    have same : s.step (now, .handle .toolEnd) = { s with
        buffer := ""
        phase := .bufferingText
        flush := s.flush.arm now s.settings.postToolDelayMs } := by
      simp [step, handle, live, react, onToolEnd, working]
    rw [same, settled]
    exact ⟨live, rfl, by simp [Change.received, receives, Change.step, Step.text],
      Timer.arm_deadline sound _ _, by simp [Change.shown, shownTo]⟩
  · contradiction

/-- Until its end a buffering period only collects text. -/
theorem Buffering.step (buffering : Buffering due s since) (now : Nat) (goesOn : action.hushes = false)
    (early : action.rings s.flush.generation = false) :
    s.step (now, action) = { s with buffer := s.buffer ++ s.receives action } := by
  have ⟨live, phase, _, _, _⟩ := buffering
  cases action with
  | handle event =>
    cases event with
    | textDelta text => simp [Scheduler.step, handle, live, react, onText, phase, receives, Step.text]
    | toolEnd | imageData | logLine =>
      rw [receives_textless rfl, String.append_empty]
      change s.handle now _ = s
      simp [handle, live, react, onToolEnd, phase]
    | textFinal | toolStart | error | done => contradiction
  | flushRings generation =>
    have stale : s.flush.isCurrent generation = false := by
      simp only [Step.rings, beq_eq_false_iff_ne] at early
      simp [Timer.isCurrent, Ne.symm early]
    rw [receives_textless rfl, String.append_empty]
    exact onFlush_of_stale stale
  | dispose => contradiction

theorem Buffering.kept (buffering : Buffering due s since) (goesOn : action.hushes = false)
    (early : action.rings s.flush.generation = false) :
    Buffering due (s.step (now, action)) (since ++ [⟨(now, action), s, s.step (now, action)⟩]) := by
  have same := buffering.step now goesOn early
  have ⟨live, phase, buffer, deadline, silent⟩ := buffering
  rw [same]
  refine ⟨live, phase, ?_, deadline, ?_⟩
  · rw [List.map_append, String.join_append, ← buffer]
    simp [Change.received, Change.step]
  · rw [List.flatMap_append, silent, List.flatMap_singleton]
    exact shownTo_same rfl

theorem Buffering.ends (buffering : Buffering due s since) (now : Nat)
    (rings : action.rings s.flush.generation = true) :
    (s.step (now, action)).phase = .streamingFinal ∧ (s.step (now, action)).buffer = "" ∧
      s.shownTo (s.step (now, action)) = streamOf (String.join (since.map Change.received)) := by
  cases action with
  | handle | dispose => contradiction
  | flushRings generation =>
    have held : s.flush.held = true := by
      by_contra free
      have deadline := buffering.due
      rw [Timer.deadline_of_free (Bool.eq_false_iff.mpr free)] at deadline
      contradiction
    have current : s.flush.isCurrent generation = true :=
      Timer.isCurrent_iff.mpr ⟨held, (eq_of_beq rings).symm⟩
    have same : s.step (now, .flushRings generation) =
        { s with flush := { s.flush with held := false } }.release := by
      simp [Scheduler.step, onFlush, buffering.live, buffering.phase, Timer.take, current]
    rw [same, ← buffering.buffer]
    exact ⟨release_phase _, release_buffer _, shownTo_release rfl⟩

end Period

structure Steady (settings : DisplaySettings) (s : Scheduler) : Prop where
  settled : s.settings = settings
  sound : s.flush.Sound
  live : s.flush.held = true → s.disposed = false
  holding : s.flush.held = true → s.phase = .bufferingText
  drained : s.phase = .idle ∨ s.phase = .streamingFinal → s.buffer = ""

theorem Took.holding {now : Nat} {action : Step} (took : s.Took now action s')
    (holding : s.flush.held = true → s.phase = .bufferingText) (held : s'.flush.held = true) :
    s'.phase = .bufferingText := by
  cases took with
  | began | toolEnded => rfl
  | held | streamed => exact holding held
  | concluded | toolStarted =>
    have freed : s.flush.cancel.held = false := s.flush.cancel_released.held
    exact absurd (freed.symm.trans held) Bool.false_ne_true
  | released generation _ current =>
    rw [release_flush] at held
    simp [Timer.take, current] at held
  | quiet _ _ timer =>
    rcases timer with rfl | released
    · exact holding held
    · exact absurd (released.held.symm.trans held) Bool.false_ne_true

theorem Steady.step {settings : DisplaySettings} (steady : s.Steady settings) (action : Nat × Step) :
    (s.step action).Steady settings := by
  have took := s.step_took action.1 action.2
  exact {
    settled := took.settings.trans steady.settled
    sound := took.sound steady.sound
    live := fun held => (held_cases steady.live held).1
    holding := took.holding steady.holding
    drained := took.drained steady.drained }

theorem run_steady (settings : DisplaySettings) (label : String → Json → String)
    (steps : List (Nat × Step)) : ((start settings label).after steps).Steady settings := by
  have begins : (start settings label).Steady settings :=
    ⟨rfl, Timer.sound_new, by simp [start], by simp [start], fun _ => rfl⟩
  exact Transition.run_induction (fun s _ => Steady settings s) begins
    (fun _ _ action steady => steady.step action) steps

section Freshness

variable {settings : DisplaySettings} {now : Nat} {action : Step} {since : List Change}

def Fresh (s : Scheduler) (since : List Change) : Prop :=
  s.flush.held = true → ∃ taken, taken <:+ since ∧ s.buffer = String.join (taken.map Change.received)

theorem unarmed_of_hushes (hushes : action.hushes = true) :
    Timer.armings (s.flushUses (now, action)) = 0 := by
  cases action with
  | flushRings => contradiction
  | dispose => rfl
  | handle event =>
    simp only [flushUses]
    split
    · rfl
    · cases event with
      | textFinal | toolStart | error | done => rfl
      | textDelta | toolEnd | imageData | logLine => contradiction

theorem Steady.hushed (steady : s.Steady settings) (hushes : action.hushes = true) :
    (s.step (now, action)).flush.held = false := by
  by_contra goesOn
  rcases (held_cases steady.live (by simpa using goesOn)).2 with arms | ⟨_, _, quiet⟩
  · rw [unarmed_of_hushes hushes] at arms
    contradiction
  · rw [hushes] at quiet
    contradiction

theorem Fresh.grows (fresh : s.Fresh since) (held : s.flush.held = true) {text : String}
    (whole : text = s.buffer ++ s.receives action) :
    ∃ taken, taken <:+ since ++ [⟨(now, action), s, s'⟩] ∧
      text = String.join (taken.map Change.received) := by
  obtain ⟨taken, ⟨skipped, rfl⟩, buffer⟩ := fresh held
  refine ⟨taken ++ [⟨(now, action), s, s'⟩], ⟨skipped, by rw [List.append_assoc]⟩, ?_⟩
  rw [List.map_append, String.join_append, ← buffer, whole]
  simp [Change.received, Change.step]

theorem Fresh.took (fresh : s.Fresh since) (steady : s.Steady settings)
    (took : s.Took now action s') : s'.Fresh (since ++ [⟨(now, action), s, s'⟩]) := by
  intro held
  cases took with
  | began text live idle =>
    refine ⟨[_], List.suffix_append _ _, ?_⟩
    simp [steady.drained (.inl idle), Change.received, Change.step, receives, live, Step.text]
  | held text live => exact fresh.grows held (by simp [receives, live, Step.text])
  | streamed text live streaming =>
    have phase := steady.holding held
    rw [streaming] at phase
    contradiction
  | concluded | toolStarted =>
    exact absurd (s.flush.cancel_released.held.symm.trans held) Bool.false_ne_true
  | toolEnded => exact ⟨[], List.nil_suffix, rfl⟩
  | released generation _ current =>
    rw [release_flush] at held
    simp [Timer.take, current] at held
  | quiet _ silent timer =>
    rcases timer with rfl | released
    · exact fresh.grows held (by simp [silent])
    · exact absurd (released.held.symm.trans held) Bool.false_ne_true

theorem Fresh.streamed (fresh : s.Fresh since) (took : s.Took now action s') {text : String}
    (streams : text ∈ s.streamedTo s') : ∃ taken, taken <:+ since ++ [⟨(now, action), s, s'⟩] ∧
      text = String.join (taken.map Change.received) := by
  unfold streamedTo at streams
  cases took with
  | streamed body live =>
    rw [shownTo_present (by rfl)] at streams
    obtain rfl : text = body := by simpa [Action.streamed?] using streams
    refine ⟨[_], List.suffix_append _ _, ?_⟩
    simp [Change.received, Change.step, receives, live, Step.text]
  | released generation _ current =>
    rw [shownTo_release (by rfl)] at streams
    split at streams
    · contradiction
    · obtain rfl : text = s.buffer := by simpa [Action.streamed?] using streams
      exact fresh.grows (Timer.held_of_current current) (by simp [receives, Step.text])
  | concluded | toolStarted =>
    rw [shownTo_present (by rfl)] at streams
    simp [Action.streamed?] at streams
  | began | held | toolEnded | quiet =>
    rw [shownTo_same (by rfl)] at streams
    contradiction

theorem Took.hushed (took : s.Took now action s') (hushes : action.hushes = true) :
    s.streamedTo s' = [] := by
  by_contra streams
  unfold streamedTo at streams
  cases took with
  | streamed | released => contradiction
  | concluded | toolStarted => exact streams (congrArg _ (shownTo_present rfl _))
  | began | held | toolEnded | quiet => exact streams (congrArg _ (shownTo_same rfl))

theorem Took.gone (took : s.Took now action s') (disposed : s.disposed = true) :
    s.shownTo s' = [] := by
  cases took with
  | quiet => exact shownTo_same rfl
  | began _ live | held _ live | streamed _ live | concluded _ live | toolStarted _ _ live
  | toolEnded live | released _ live => rw [live] at disposed; contradiction

end Freshness

structure Period (due : Nat) (opening : Change) (later : List Change) : Prop where
  /-- Until it is interrupted or due, the period only collects text. Then all of it is streamed. -/
  until_due : ∀ quiet change rest, later = quiet ++ change :: rest →
    (∀ other ∈ quiet, other.hushes = false ∧ other.rung = false) →
    let text := String.join ((opening :: quiet).map Change.received)
    (opening :: quiet).flatMap Change.shown = [] ∧ change.before.phase = .bufferingText ∧
    change.before.flush.deadline? = some due ∧ change.before.buffer = text ∧ change.time ≤ due ∧
    (change.rung = true → change.time = due ∧ change.after.phase = .streamingFinal ∧
      change.shown = streamOf text)
  /-- A period that is not interrupted has ended when it is due. -/
  ended : ∀ between change rest, later = between ++ change :: rest →
    (∀ other ∈ between, other.hushes = false) → due < change.time →
    ∃ quiet ring after, between = quiet ++ ring :: after ∧ ring.rung = true ∧
      ∀ other ∈ quiet, other.rung = false

def StreamsAnew (later : List Change) : Prop :=
  ∀ between change rest, later = between ++ change :: rest → ∀ text ∈ change.streamed,
    ∃ taken, taken <:+ between ++ [change] ∧ text = String.join (taken.map Change.received)

section Run

variable {settings : DisplaySettings} {label : String → Json → String} {steps : List (Nat × Step)}

theorem buffering_run {due : Nat} {opening : Change} (begins : Buffering due s [opening])
    (goesOn : ∀ other ∈ s.changes steps, other.hushes = false ∧ other.rung = false) :
    Buffering due (s.after steps) (opening :: s.changes steps) := by
  refine Transition.run_induction (fun s (past : List Change) =>
    (∀ other ∈ past, other.hushes = false ∧ other.rung = false) →
      Buffering due s (opening :: past)) (fun _ => begins) ?_ steps goesOn
  rintro s past ⟨now, action⟩ buffering goesOn
  obtain ⟨earlier, latest⟩ := List.forall_mem_append.mp goesOn
  obtain ⟨goesOn, early⟩ := latest _ (List.mem_singleton_self _)
  exact (buffering earlier).kept goesOn early

theorem fresh_run (steady : s.Steady settings) (begins : s.flush.held = false) :
    (s.after steps).Steady settings ∧ (s.after steps).Fresh (s.changes steps) := by
  refine Transition.run_induction (fun (s : Scheduler) past => s.Steady settings ∧ s.Fresh past)
    ⟨steady, fun held => absurd (begins.symm.trans held) Bool.false_ne_true⟩ ?_ steps
  rintro s past ⟨now, action⟩ ⟨steady, fresh⟩
  exact ⟨steady.step _, fresh.took steady (s.step_took now action)⟩

theorem disposed_run (disposed : s.disposed = true) :
    (s.after steps).disposed = true ∧ (s.changes steps).flatMap Change.shown = [] := by
  refine Transition.run_induction (fun (s : Scheduler) past => s.disposed = true ∧
    past.flatMap Change.shown = []) ⟨disposed, rfl⟩ ?_ steps
  rintro s past ⟨now, action⟩ ⟨disposed, silent⟩
  have took := s.step_took now action
  refine ⟨took.disposed disposed, ?_⟩
  rw [List.flatMap_append, silent, List.flatMap_singleton]
  exact took.gone disposed

theorem Buffering.period {due : Nat} {opening : Change} (begins : Buffering due opening.after [opening])
    (punctual : Punctual (opening.after.changes steps)) :
    Period due opening (opening.after.changes steps) := by
  have until_due : ∀ quiet change rest, opening.after.changes steps = quiet ++ change :: rest →
      (∀ other ∈ quiet, other.hushes = false ∧ other.rung = false) →
      Buffering due change.before (opening :: quiet) ∧
        change.after = change.before.step change.action := by
    intro quiet change rest split goesOn
    obtain ⟨taken, _, _, rfl, reached, changed⟩ := Transition.ofRun_split split
    exact ⟨reached ▸ buffering_run begins goesOn, changed⟩
  have on_time {quiet rest : List Change} {change : Change}
      (split : opening.after.changes steps = quiet ++ change :: rest)
      (buffering : Buffering due change.before (opening :: quiet)) :
      change.time ≤ due ∧ (change.rung = true → due ≤ change.time) :=
    punctual change (by rw [split]; simp) due buffering.due
  constructor
  · intro quiet change rest split goesOn text
    obtain ⟨buffering, changed⟩ := until_due quiet change rest split goesOn
    obtain ⟨early, late⟩ := on_time split buffering
    refine ⟨buffering.silent, buffering.phase, buffering.due, buffering.buffer, early, ?_⟩
    intro rung
    obtain ⟨streaming, _, shown⟩ := buffering.ends change.time rung
    refine ⟨Nat.le_antisymm early (late rung), changed ▸ streaming, ?_⟩
    rw [Change.shown, changed]
    exact shown
  · intro between change rest split goesOn late
    cases first : between.find? Change.rung with
    | none =>
      have early := List.find?_eq_none.mp first
      obtain ⟨buffering, _⟩ := until_due between change rest split fun other member =>
        ⟨goesOn other member, Bool.eq_false_iff.mpr (early other member)⟩
      have := (on_time split buffering).1
      omega
    | some ring =>
      obtain ⟨rung, quiet, after, parts, early⟩ := List.find?_eq_some_iff_append.mp first
      exact ⟨quiet, ring, after, parts, rung, fun other member => by simpa using early other member⟩

theorem Steady.streams_anew (steady : s.Steady settings) (silent : s.flush.held = false) :
    StreamsAnew (s.changes steps) := by
  intro between change rest split text streams
  obtain ⟨taken, _, _, rfl, reached, changed⟩ := Transition.ofRun_split split
  have fresh : change.before.Fresh (s.changes taken) := reached ▸ (fresh_run steady silent).2
  have took : change.before.Took change.time change.step change.after :=
    changed ▸ change.before.step_took change.time change.step
  exact fresh.streamed took streams

theorem Took.enters {now : Nat} {action : Step} (took : s.Took now action s')
    (outside : s.phase ≠ .bufferingText) (within : s'.phase = .bufferingText) :
    s.disposed = false ∧ (action.delay? s.settings s.phase).isSome = true := by
  cases took with
  | began _ live idle => exact ⟨live, by rw [idle]; rfl⟩
  | toolEnded live working => exact ⟨live, by rw [working]; rfl⟩
  | held | streamed | quiet => exact absurd within outside
  | concluded | toolStarted => contradiction
  | released => rw [release_phase] at within; contradiction

/-- A buffering period that is not interrupted ends when its delay is over, and all its text is
    streamed then. The text of an interrupted period is never streamed, and a disposed scheduler
    shows nothing. -/
theorem periods_of_run (settings : DisplaySettings) (label : String → Json → String)
    (steps : List (Nat × Step)) (punctual : Punctual ((start settings label).changes steps)) :
    let past := (start settings label).changes steps
    ∀ earlier change later, past = earlier ++ change :: later →
      (change.before.phase ≠ .bufferingText → change.after.phase = .bufferingText →
        change.before.disposed = false ∧
          (change.step.delay? settings change.before.phase).isSome = true) ∧
      (change.before.disposed = false →
        ∀ delay, change.step.delay? settings change.before.phase = some delay →
          Period (change.time + delay) change later) ∧
      (change.hushes = true → change.streamed = [] ∧ StreamsAnew later) ∧
      (change.step = .dispose → change.shown = [] ∧ later.flatMap Change.shown = []) := by
  intro past earlier change later split
  obtain ⟨taken, _, _, _, reached, changed⟩ := Transition.ofRun_split split
  obtain ⟨more, rfl⟩ := Transition.ofRun_rest split
  obtain ⟨⟨now, action⟩, s, after⟩ := change
  change after = s.step (now, action) at changed
  change s = (start settings label).after taken at reached
  subst changed
  have steady : s.Steady settings := reached ▸ run_steady settings label taken
  have took := s.step_took now action
  refine ⟨fun outside within => steady.settled ▸ took.enters outside within, ?_, ?_, ?_⟩
  · intro live delay begins
    have drained (idle : s.phase = .idle) : s.buffer = "" := steady.drained (.inl idle)
    refine (Buffering.begins steady.sound steady.settled drained live begins).period ?_
    intro other member
    have within : other ∈ past := by
      rw [split]
      exact List.mem_append_right _ (List.mem_cons_of_mem _ member)
    exact punctual other within
  · intro hushes
    exact ⟨took.hushed hushes, (steady.step _).streams_anew (steady.hushed hushes)⟩
  · rintro rfl
    exact ⟨shownTo_same rfl, (disposed_run rfl).2⟩

end Run

def textAfterTool : List (Nat × Step) :=
  [(0, .handle (.toolStart "Read" .null)), (10, .handle .toolEnd), (20, .handle (.textDelta "Hel")),
    (30, .handle .toolEnd), (510, .handle (.textDelta "lo")), (510, .flushRings 1)]

theorem text_after_tool_in_time :
    let past := (plain {}).changes textAfterTool
    Punctual past ∧ ∃ earlier opening quiet ring, past = earlier ++ opening :: (quiet ++ [ring]) ∧
      opening.before.disposed = false ∧
      opening.step.delay? {} opening.before.phase = some 500 ∧ opening.time = 10 ∧
      (∀ other ∈ quiet, other.hushes = false ∧ other.rung = false) ∧ ring.rung = true ∧
      ring.time = 510 ∧ ring.shown = [.streamText "Hello"] := by
  intro past
  have punctual : Punctual past := by decide +kernel
  let s := (plain {}).after (textAfterTool.take 2)
  let opening : Change := ⟨(10, .handle .toolEnd), (plain {}).after (textAfterTool.take 1), s⟩
  let quiet := s.changes ((textAfterTool.take 5).drop 2)
  let ring : Change := ⟨(510, .flushRings 1), (plain {}).after (textAfterTool.take 5),
    (plain {}).after textAfterTool⟩
  have split : past = (plain {}).changes (textAfterTool.take 1) ++ opening :: (quiet ++ [ring]) := rfl
  have goesOn : ∀ other ∈ quiet, other.hushes = false ∧ other.rung = false := by decide +kernel
  have begins : opening.step.delay? {} opening.before.phase = some 500 := by decide +kernel
  have rung : ring.rung = true := by decide +kernel
  obtain ⟨_, period, _⟩ := periods_of_run {} _ textAfterTool punctual _ opening _ split
  obtain ⟨_, _, _, _, _, ends⟩ := (period rfl 500 begins).until_due quiet ring [] rfl goesOn
  obtain ⟨due, _, shown⟩ := ends rung
  exact ⟨punctual, _, opening, quiet, ring, split, rfl, begins, rfl, goesOn, rung, due,
    shown.trans (by decide +kernel)⟩

end AgentHost.Display.Scheduler
