import AgentHost.Proofs.Display.Run
import Mathlib.Data.List.Infix

namespace AgentHost.Display.Scheduler

variable {s s' : Scheduler}

def Step.rings (generation : Nat) : Step → Bool
  | .flushRings other => other == generation
  | _ => false

namespace Change

def startsTool (change : Change) : Bool := change.step.startsTool

def endsTool (change : Change) : Bool := change.step.endsTool

def concludes (change : Change) : Bool := change.step.concludes

end Change

def InOrder (past : List Change) : Prop := past.Pairwise fun earlier later => earlier.time ≤ later.time

instance (past : List Change) : Decidable (InOrder past) :=
  inferInstanceAs (Decidable (past.Pairwise fun earlier later => earlier.time ≤ later.time))

def NotEarly (s : Scheduler) (now : Nat) (action : Step) : Prop :=
  ∀ due ∈ s.flush.deadline?, action.rings s.flush.generation = true → due ≤ now

instance (s : Scheduler) (now : Nat) (action : Step) : Decidable (s.NotEarly now action) :=
  inferInstanceAs (Decidable (∀ due ∈ s.flush.deadline?,
    action.rings s.flush.generation = true → due ≤ now))

def Timely (past : List Change) : Prop :=
  ∀ change ∈ past, change.before.NotEarly change.time change.step

instance (past : List Change) : Decidable (Timely past) :=
  inferInstanceAs (Decidable (∀ change ∈ past, change.before.NotEarly change.time change.step))

def toolsStarted (past : List Change) : Nat := past.countP Change.startsTool

def toolsEnded (past : List Change) : Nat := past.countP Change.endsTool

def Bracketed (past : List Change) : Prop :=
  ∀ sofar ∈ past.inits, toolsEnded sofar ≤ toolsStarted sofar

instance (past : List Change) : Decidable (Bracketed past) :=
  inferInstanceAs (Decidable (∀ sofar ∈ past.inits, toolsEnded sofar ≤ toolsStarted sofar))

def OneByOne (past : List Change) : Prop :=
  ∀ sofar ∈ past.inits, toolsStarted sofar ≤ toolsEnded sofar + 1

instance (past : List Change) : Decidable (OneByOne past) :=
  inferInstanceAs (Decidable (∀ sofar ∈ past.inits, toolsStarted sofar ≤ toolsEnded sofar + 1))

inductive Standing (delay : Nat) (s : Scheduler) (since : List Change) : Prop where
  | disposed (gone : s.disposed = true)
  | working (unended : since.find? Change.endsTool = none) (phase : s.phase = .toolActive)
  | holding (ending : Change) (first : since.find? Change.endsTool = some ending)
      (phase : s.phase = .bufferingText)
      (due : s.flush.held = true → s.flush.deadline? = some (ending.time + delay))
  | streaming (ending : Change) (first : since.find? Change.endsTool = some ending)
      (phase : s.phase = .streamingFinal)
      (since : ∃ change ∈ since, ending.time + delay ≤ change.time)

theorem Took.settings {now : Nat} {action : Step} (took : s.Took now action s') :
    s'.settings = s.settings := by
  cases took with
  | released => exact release_settings _
  | _ => rfl

theorem Took.sound {now : Nat} {action : Step} (took : s.Took now action s')
    (sound : s.flush.Sound) : s'.flush.Sound := by
  cases took with
  | began | toolEnded => exact Timer.arm_sound sound _ _
  | held | streamed => exact sound
  | concluded | toolStarted => exact s.flush.cancel_released.sound sound
  | released generation _ current =>
    rw [release_flush]
    rcases s.flush.take_cases generation with ⟨_, _, released⟩ | ⟨stale, _⟩
    · exact released.sound sound
    · rw [current] at stale; contradiction
  | quiet _ _ timer =>
    rcases timer with same | released
    · exact same ▸ sound
    · exact released.sound sound

theorem NotEarly.passed {now generation due : Nat} (timely : s.NotEarly now (.flushRings generation))
    (current : s.flush.isCurrent generation = true)
    (held : s.flush.held = true → s.flush.deadline? = some due) : due ≤ now := by
  have latest : generation = s.flush.generation := Timer.generation_of_current current
  exact timely due (held (Timer.held_of_current current)) (by simp [Step.rings, latest])

theorem find?_snoc_of_some {since : List Change} {ending change : Change}
    (first : since.find? Change.endsTool = some ending) :
    (since ++ [change]).find? Change.endsTool = some ending := by
  rw [List.find?_append, first, Option.some_or]

theorem find?_snoc_of_none {since : List Change} {change : Change}
    (unended : since.find? Change.endsTool = none) (goesOn : change.endsTool = false) :
    (since ++ [change]).find? Change.endsTool = none := by
  rw [List.find?_append, unended, Option.none_or, List.find?_singleton, goesOn]
  rfl

theorem find?_snoc_of_end {since : List Change} {change : Change}
    (unended : since.find? Change.endsTool = none) (ends : change.endsTool = true) :
    (since ++ [change]).find? Change.endsTool = some change := by
  rw [List.find?_append, unended, Option.none_or, List.find?_singleton, ends]
  rfl

theorem Took.disposed {now : Nat} {action : Step} (took : s.Took now action s')
    (disposed : s.disposed = true) : s'.disposed = true := by
  cases took with
  | began _ live | held _ live | streamed _ live | concluded _ live | toolStarted _ _ live
  | toolEnded live | released _ live => rw [live] at disposed; contradiction
  | quiet _ _ _ lasting => exact lasting disposed

theorem Took.while_working {now : Nat} {action : Step} (took : s.Took now action s')
    (live : s.disposed = false) (working : s.phase = .toolActive) (sound : s.flush.Sound)
    (starts : action.startsTool = false) (concludes : action.concludes = false) :
    (action.endsTool = true ∧ s'.phase = .bufferingText ∧
      s'.flush.deadline? = some (now + s.settings.postToolDelayMs)) ∨
    (action.endsTool = false ∧ s'.phase = .toolActive) := by
  cases took with
  | toolEnded => exact .inl ⟨rfl, rfl, Timer.arm_deadline sound _ _⟩
  | held => exact .inr ⟨rfl, working⟩
  | quiet keeps =>
    have goesOn : action.endsTool = false := by
      simpa [discards, live, starts, concludes, working] using keeps
    exact .inr ⟨goesOn, working⟩
  | began _ _ phase | streamed _ _ phase | released _ _ _ phase =>
    rw [working] at phase; contradiction
  | concluded | toolStarted => contradiction

theorem Took.while_holding {now : Nat} {action : Step} (took : s.Took now action s')
    (holding : s.phase = .bufferingText) (starts : action.startsTool = false)
    (concludes : action.concludes = false) :
    (s'.phase = .bufferingText ∧ (s'.flush.held = true → s'.flush = s.flush)) ∨
    (s'.phase = .streamingFinal ∧
      ∃ generation, action = .flushRings generation ∧ s.flush.isCurrent generation = true) := by
  cases took with
  | held => exact .inl ⟨holding, fun _ => rfl⟩
  | released generation _ current => exact .inr ⟨release_phase _, generation, rfl, current⟩
  | quiet _ _ timer =>
    refine .inl ⟨holding, fun held => ?_⟩
    rcases timer with same | released
    · exact same
    · rw [released.held] at held; contradiction
  | began _ _ phase | streamed _ _ phase | toolEnded _ phase =>
    rw [holding] at phase; contradiction
  | concluded | toolStarted => contradiction

theorem Standing.kept {delay now : Nat} {action : Step} {since : List Change}
    (standing : Standing delay s since) (took : s.Took now action s') (sound : s.flush.Sound)
    (delayed : s.settings.postToolDelayMs = delay) (starts : action.startsTool = false)
    (concludes : action.concludes = false) (timely : s.NotEarly now action) :
    Standing delay s' (since ++ [⟨(now, action), s, s'⟩]) := by
  cases live : s.disposed with
  | true => exact .disposed (took.disposed live)
  | false =>
    cases standing with
    | disposed gone => rw [live] at gone; contradiction
    | working unended phase =>
      rcases took.while_working live phase sound starts concludes with
        ⟨ends, holding, due⟩ | ⟨goesOn, still⟩
      · exact .holding _ (find?_snoc_of_end unended ends) holding fun _ => delayed ▸ due
      · exact .working (find?_snoc_of_none unended goesOn) still
    | holding ending first phase due =>
      rcases took.while_holding phase starts concludes with
        ⟨still, kept⟩ | ⟨streaming, generation, rfl, current⟩
      · refine .holding ending (find?_snoc_of_some first) still fun held => ?_
        rw [kept held]
        exact due (kept held ▸ held)
      · exact .streaming ending (find?_snoc_of_some first) streaming
          (Transition.exists_mem_snoc.mpr (.inr (timely.passed current due)))
    | streaming ending first phase passed =>
      have keeps : s.discards action = false := by simp [discards, starts, concludes, phase]
      exact .streaming ending (find?_snoc_of_some first) (took.still_streaming keeps phase)
        (Transition.exists_mem_snoc.mpr (.inl passed))

theorem Took.standing {delay now : Nat} {action : Step} (took : s.Took now action s')
    (starts : action.startsTool = true) : Standing delay s' [] := by
  cases took with
  | toolStarted => exact .working rfl rfl
  | quiet keeps _ _ lasting =>
    refine .disposed (lasting ?_)
    simpa [discards, starts] using keeps
  | _ => contradiction

/-- Text is streamed only after the first end of a tool and the delay that follows it. -/
theorem Standing.streams {delay now : Nat} {action : Step} {since : List Change}
    (standing : Standing delay s since) (took : s.Took now action s') (streams : s.streamedTo s' ≠ [])
    (timely : s.NotEarly now action) :
    ∃ ending, since.find? Change.endsTool = some ending ∧
      ((∃ change ∈ since, ending.time + delay ≤ change.time) ∨ ending.time + delay ≤ now) := by
  obtain ⟨live, _, streaming | ⟨holding, generation, rfl, current⟩⟩ := took.streamed_cases streams
  · cases standing with
    | disposed gone => rw [live] at gone; contradiction
    | working _ phase | holding _ _ phase => rw [streaming] at phase; contradiction
    | streaming ending first _ passed => exact ⟨ending, first, .inl passed⟩
  · cases standing with
    | disposed gone => rw [live] at gone; contradiction
    | working _ phase | streaming _ _ phase => rw [holding] at phase; contradiction
    | holding ending first _ due =>
      exact ⟨ending, first, .inr (timely.passed current due)⟩

structure Paced (delay : Nat) (s : Scheduler) (past : List Change) : Prop where
  sound : s.flush.Sound
  delayed : s.settings.postToolDelayMs = delay
  standing : Timely past → ∀ before opening since, past = before ++ opening :: since →
    opening.startsTool = true →
    (∀ other ∈ since, other.startsTool = false ∧ other.concludes = false) →
      Standing delay s since

theorem Paced.took {delay now : Nat} {action : Step} {past : List Change}
    (paced : Paced delay s past) (took : s.Took now action s') :
    Paced delay s' (past ++ [⟨(now, action), s, s'⟩]) := by
  refine ⟨took.sound paced.sound, took.settings ▸ paced.delayed, ?_⟩
  intro timely before opening since split starts idle
  obtain ⟨pastTimely, nowTimely⟩ := List.forall_mem_append.mp timely
  rcases List.eq_nil_or_concat' since with rfl | ⟨since, last, rfl⟩
  · obtain ⟨_, same⟩ := List.append_inj' split rfl
    obtain rfl := List.singleton_inj.mp same
    exact took.standing starts
  · rw [← List.cons_append, ← List.append_assoc] at split
    obtain ⟨same, latest⟩ := List.append_inj' split rfl
    obtain rfl := List.singleton_inj.mp latest
    obtain ⟨idleSince, idleLast⟩ := List.forall_mem_append.mp idle
    have standing := paced.standing pastTimely before opening since same starts idleSince
    obtain ⟨noStart, noFinal⟩ := idleLast _ (List.mem_singleton_self _)
    exact standing.kept took paced.sound paced.delayed noStart noFinal
      (nowTimely _ (List.mem_singleton_self _))

theorem run_paced (settings : DisplaySettings) (label : String → Json → String)
    (steps : List (Nat × Step)) : Paced settings.postToolDelayMs ((start settings label).after steps)
      ((start settings label).changes steps) := by
  refine Transition.run_induction (fun s past => Paced settings.postToolDelayMs s past) ?_ ?_ steps
  · exact ⟨Timer.sound_new, rfl, by simp⟩
  · rintro s past ⟨now, action⟩ paced
    exact paced.took (s.step_took now action)

theorem exists_latest (holds : Change → Bool) (past : List Change) :
    (∀ change ∈ past, holds change = false) ∨ ∃ before latest since,
      past = before ++ latest :: since ∧ holds latest = true ∧
        ∀ change ∈ since, holds change = false := by
  induction past using List.reverseRecOn with
  | nil => exact .inl (by simp)
  | append_singleton past last ih =>
    cases held : holds last with
    | true => exact .inr ⟨past, last, [], rfl, held, by simp⟩
    | false =>
      rcases ih with none | ⟨before, latest, since, rfl, found, none⟩
      · exact .inl (List.forall_mem_append.mpr ⟨none, by simpa using held⟩)
      · refine .inr ⟨before, latest, since ++ [last], by simp, found, ?_⟩
        exact List.forall_mem_append.mpr ⟨none, by simpa using held⟩

theorem endsTool_of_startsTool {change : Change} (starts : change.startsTool = true) :
    change.endsTool = false := by
  obtain ⟨⟨time, action⟩, before, after⟩ := change
  change action.startsTool = true at starts
  change action.endsTool = false
  cases action with
  | handle event =>
    cases event with
    | toolStart => rfl
    | _ => contradiction
  | _ => contradiction

/-- If tools do not overlap, the first end after the start of the last tool is its own. -/
theorem closed_of_first {before since : List Change} {opening ending : Change}
    (bracketed : Bracketed (before ++ opening :: since))
    (single : OneByOne (before ++ opening :: since)) (starts : opening.startsTool = true)
    (idle : ∀ change ∈ since, change.startsTool = false)
    (first : since.find? Change.endsTool = some ending) :
    toolsStarted (before ++ opening :: since) = toolsEnded (before ++ opening :: since) ∧
      ∀ other ∈ since, other.endsTool = true → other = ending := by
  obtain ⟨ends, unended, rest, rfl, quiet⟩ := List.find?_eq_some_iff_append.mp first
  have unstarted : toolsStarted (unended ++ ending :: rest) = 0 :=
    List.countP_eq_zero.mpr fun change member => by simp [idle change member]
  have noneBefore : toolsEnded unended = 0 :=
    List.countP_eq_zero.mpr fun change member => by simpa using quiet change member
  have before_le := bracketed before ((List.mem_inits _ _).mpr (List.prefix_append _ _))
  have opening_le := single (before ++ [opening]) ((List.mem_inits _ _).mpr (by simp))
  have whole_le := bracketed _ ((List.mem_inits _ _).mpr (List.prefix_refl _))
  have closed := endsTool_of_startsTool starts
  unfold toolsStarted toolsEnded at *
  simp only [List.countP_append, List.countP_cons, List.countP_nil, starts, closed, ends,
    if_true, if_false, Bool.false_eq_true] at *
  have noneAfter : rest.countP Change.endsTool = 0 := by omega
  refine ⟨by omega, fun other member otherEnds => ?_⟩
  rcases List.mem_append.mp member with early | late
  · exact absurd otherEnds (List.countP_eq_zero.mp noneBefore other early)
  · rcases List.mem_cons.mp late with same | late
    · exact same
    · exact absurd otherEnds (List.countP_eq_zero.mp noneAfter other late)

def EndedBefore (delay time : Nat) (earlier : List Change) : Prop :=
  ∀ before opening since, earlier = before ++ opening :: since → opening.startsTool = true →
    (∀ other ∈ since, other.startsTool = false ∧ other.concludes = false) →
    ∃ ending, since.find? Change.endsTool = some ending ∧ ending.time + delay ≤ time

theorem Paced.endedBefore {delay : Nat} {earlier : List Change} {change : Change}
    (paced : Paced delay change.before earlier)
    (took : change.before.Took change.time change.step change.after) (streams : change.streamed ≠ [])
    (timelyEarlier : Timely earlier) (timely : change.before.NotEarly change.time change.step)
    (bound : ∀ other ∈ earlier, other.time ≤ change.time) :
    EndedBefore delay change.time earlier := by
  intro before opening since parts starts idle
  have standing := paced.standing timelyEarlier before opening since parts starts idle
  obtain ⟨ending, first, ⟨later, member, passed⟩ | passed⟩ := standing.streams took streams timely
  · have within : later ∈ earlier := by simp [parts, member]
    exact ⟨ending, first, Nat.le_trans passed (bound later within)⟩
  · exact ⟨ending, first, passed⟩

theorem EndedBefore.closed {delay time : Nat} {earlier : List Change}
    (ended : EndedBefore delay time earlier) (ordered : InOrder earlier)
    (bracketed : Bracketed earlier) (single : OneByOne earlier)
    (unconcluded : ∀ change ∈ earlier, change.concludes = false) :
    toolsStarted earlier = toolsEnded earlier ∧
      ∀ ending ∈ earlier, ending.endsTool = true → ending.time + delay ≤ time := by
  rcases exists_latest Change.startsTool earlier with
    none | ⟨before, opening, since, rfl, starts, none⟩
  · have unstarted : toolsStarted earlier = 0 :=
      List.countP_eq_zero.mpr fun change member => by simp [none change member]
    have unended : toolsEnded earlier = 0 := by
      have := bracketed earlier ((List.mem_inits _ _).mpr (List.prefix_refl _))
      omega
    refine ⟨unstarted.trans unended.symm, fun ending member ends => ?_⟩
    exact absurd ends (List.countP_eq_zero.mp unended ending member)
  · have idle : ∀ change ∈ since, change.startsTool = false ∧ change.concludes = false :=
      fun change member => ⟨none change member, unconcluded change (by simp [member])⟩
    obtain ⟨ending, first, passed⟩ := ended before opening since rfl starts idle
    obtain ⟨closed, last⟩ := closed_of_first bracketed single starts none first
    have final : ending ∈ opening :: since := List.mem_cons_of_mem _ (List.mem_of_find?_eq_some first)
    refine ⟨closed, fun other member ends => ?_⟩
    rcases List.mem_append.mp member with early | late
    · have sooner := (List.pairwise_append.mp ordered).2.2 other early ending final
      omega
    · rcases List.mem_cons.mp late with rfl | late
      · rw [endsTool_of_startsTool starts] at ends
        contradiction
      · exact last other late ends ▸ passed

/-- No text is streamed between the start of a tool and the next end of a tool, nor during the delay
    after that end. If tools do not overlap, that end is the one of the last open tool. -/
theorem silence_of_run (settings : DisplaySettings) (label : String → Json → String)
    (steps : List (Nat × Step)) (ordered : InOrder ((start settings label).changes steps))
    (timely : Timely ((start settings label).changes steps)) :
    ∀ earlier change later, (start settings label).changes steps = earlier ++ change :: later →
      change.streamed ≠ [] →
      (∀ before opening since, earlier = before ++ opening :: since → opening.startsTool = true →
        (∀ other ∈ since, other.startsTool = false ∧ other.concludes = false) →
        ∃ ending, since.find? Change.endsTool = some ending ∧
          ending.time + settings.postToolDelayMs ≤ change.time) ∧
      (Bracketed earlier → OneByOne earlier → (∀ other ∈ earlier, other.concludes = false) →
        toolsStarted earlier = toolsEnded earlier ∧
        ∀ ending ∈ earlier, ending.endsTool = true →
          ending.time + settings.postToolDelayMs ≤ change.time) := by
  intro earlier change later split streams
  obtain ⟨taken, _, _, same, reached, changed⟩ := Transition.ofRun_split split
  have paced : Paced settings.postToolDelayMs change.before earlier := by
    rw [reached, same]
    exact run_paced settings label taken
  have took : change.before.Took change.time change.step change.after := by
    rw [changed]
    exact step_took _ _ _
  rw [split] at ordered timely
  obtain ⟨orderedEarlier, _, inOrder⟩ := List.pairwise_append.mp ordered
  obtain ⟨timelyEarlier, timelyLater⟩ := List.forall_mem_append.mp timely
  have ended := paced.endedBefore took streams timelyEarlier (timelyLater change List.mem_cons_self)
    fun other member => inOrder other member change List.mem_cons_self
  exact ⟨ended, ended.closed orderedEarlier⟩

def plain (settings : DisplaySettings) : Scheduler := start settings fun name _ => name

def toolsInTurn : List (Nat × Step) :=
  [(0, .handle (.toolStart "Read" .null)), (10, .handle .toolEnd),
    (20, .handle (.toolStart "Grep" .null)), (30, .handle .toolEnd),
    (40, .handle (.textDelta "hi")), (530, .flushRings 2)]

theorem text_after_tools_in_turn :
    let past := (plain {}).changes toolsInTurn
    InOrder past ∧ Timely past ∧ ∃ earlier change, past = earlier ++ [change] ∧
      change.streamed ≠ [] ∧ Bracketed earlier ∧ OneByOne earlier ∧
      (∀ other ∈ earlier, other.concludes = false) ∧ toolsStarted earlier = toolsEnded earlier ∧
      ∀ ending ∈ earlier, ending.endsTool = true → ending.time + 500 ≤ change.time := by
  intro past
  have ordered : InOrder past := by decide +kernel
  have timely : Timely past := by decide +kernel
  let earlier := (plain {}).changes (toolsInTurn.take 5)
  let change : Change := ⟨(530, .flushRings 2), (plain {}).after (toolsInTurn.take 5),
    (plain {}).after toolsInTurn⟩
  have streams : change.streamed ≠ [] := by decide +kernel
  have bracketed : Bracketed earlier := by decide +kernel
  have single : OneByOne earlier := by decide +kernel
  have unconcluded : ∀ other ∈ earlier, other.concludes = false := by decide +kernel
  obtain ⟨_, closed⟩ := silence_of_run {} _ toolsInTurn ordered timely earlier change [] rfl streams
  exact ⟨ordered, timely, earlier, change, rfl, streams, bracketed, single, unconcluded,
    closed bracketed single unconcluded⟩

def nestedTools : List (Nat × Step) :=
  [(0, .handle (.toolStart "Read" .null)), (0, .handle (.toolStart "Grep" .null)),
    (0, .handle .toolEnd), (0, .handle (.textDelta "hi")), (500, .flushRings 1)]

def concludedTool : List (Nat × Step) :=
  [(0, .handle (.toolStart "Read" .null)), (0, .handle (.textFinal "done")),
    (0, .handle (.textDelta "hi"))]

def StreamsDuringTool (past : List Change) : Prop :=
  InOrder past ∧ Timely past ∧ Bracketed past ∧ ∃ change ∈ past.getLast?, change.streamed ≠ [] ∧
    toolsEnded past.dropLast < toolsStarted past.dropLast

/-- With overlapping tools, the first end counts as the end of all of them, and a final text does
    too. -/
theorem text_during_open_tool : StreamsDuringTool ((plain {}).changes nestedTools) ∧
    StreamsDuringTool ((plain {}).changes concludedTool) := by
  unfold StreamsDuringTool
  decide +kernel

end AgentHost.Display.Scheduler
