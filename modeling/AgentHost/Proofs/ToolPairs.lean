import AgentHost.Proofs.Transition
import AgentHost.Proofs.TurnResult
import AgentHost.Rehearsal.TurnRun

namespace AgentHost

open Rehearsal (TurnStep TurnRun)

inductive ToolMark where
  | opened
  | closed
deriving DecidableEq

namespace ToolMark

variable {marks : List ToolMark} {mark : ToolMark}

def Alternating (marks : List ToolMark) : Prop :=
  marks.IsChain (· ≠ ·) ∧ marks.head? ≠ some .closed

instance (marks : List ToolMark) : Decidable (Alternating marks) :=
  inferInstanceAs (Decidable (marks.IsChain (· ≠ ·) ∧ marks.head? ≠ some .closed))

def Bracketed (marks : List ToolMark) : Prop :=
  ∀ sofar, sofar <+: marks → sofar.count .closed ≤ sofar.count .opened

def last (marks : List ToolMark) : ToolMark := marks.getLast?.getD .closed

theorem last_snoc : last (marks ++ [mark]) = mark := by
  rw [last, List.getLast?_concat, Option.getD_some]

theorem alternating_snoc (alternating : Alternating marks) :
    Alternating (marks ++ [mark]) ↔ last marks ≠ mark := by
  obtain ⟨chain, begins⟩ := alternating
  unfold Alternating last
  rcases List.eq_nil_or_concat' marks with rfl | ⟨before, final, rfl⟩
  · simp [eq_comm]
  · rw [List.isChain_append, List.head?_append_of_ne_nil _ (by simp)]
    simp only [chain, begins, ne_eq, not_false_eq_true, and_true, true_and]
    simp

theorem Bracketed.snoc (bracketed : Bracketed marks)
    (enough : (marks ++ [mark]).count .closed ≤ (marks ++ [mark]).count .opened) :
    Bracketed (marks ++ [mark]) := by
  intro sofar within
  rcases List.prefix_concat_iff.mp within with rfl | earlier
  · exact enough
  · exact bracketed sofar earlier

end ToolMark

namespace Event

def toolMark? : Event → Option ToolMark
  | .toolStart _ _ => some .opened
  | .toolEnd => some .closed
  | _ => none

theorem toolMark?_of_other {event : Event} (other : event.kind ≠ .tool) :
    event.toolMark? = none := by
  cases event with
  | toolStart | toolEnd => exact absurd rfl other
  | _ => rfl

end Event

def toolMarks (events : List Event) : List ToolMark := events.filterMap Event.toolMark?

theorem toolMarks_append (events more : List Event) :
    toolMarks (events ++ more) = toolMarks events ++ toolMarks more := List.filterMap_append

def Rehearsal.TurnStep.tool? : TurnStep → Option (String × Event)
  | .startTool tool => some (tool.id, .toolStart tool.name tool.input)
  | .endTool id => some (id, .toolEnd)
  | _ => none

namespace Turn

open ToolMark (Alternating Bracketed last)

abbrev Change := Transition Turn TurnStep

namespace Change

def told (change : Change) : List Event := change.after.sent.drop change.before.sent.length

def id? (change : Change) : Option String := change.action.tool?.map (·.1)

theorem told_of_sent {change : Change} {more : List Event}
    (sent : change.after.sent = change.before.sent ++ more) : change.told = more := by
  rw [told, sent, List.drop_left]

end Change

def marksOf (id : String) (past : List Change) : List ToolMark :=
  (past.filter fun change => change.id? = some id).flatMap fun change => toolMarks change.told

def InTime (past : List Change) : Prop :=
  ∀ change ∈ past, change.id?.isSome → change.before.finished = false

theorem marksOf_snoc (id : String) (past : List Change) (change : Change) :
    marksOf id (past ++ [change]) =
      marksOf id past ++ if change.id? = some id then toolMarks change.told else [] := by
  unfold marksOf
  rw [List.filter_append, List.flatMap_append]
  congr 1
  by_cases own : change.id? = some id <;> simp [own]

structure Aside (before after : Turn) : Prop where
  openTools : after.openTools = before.openTools
  sent : ∃ more, after.sent = before.sent ++ more ∧ ∀ event ∈ more, event.kind ≠ .tool

section Aside

variable {turn : Turn}

theorem Aside.refl (turn : Turn) : turn.Aside turn := ⟨rfl, [], by simp⟩

theorem Aside.trans {a b c : Turn} (first : a.Aside b) (second : b.Aside c) : a.Aside c := by
  obtain ⟨more, sent, aside⟩ := first.sent
  obtain ⟨next, sentNext, asideNext⟩ := second.sent
  refine ⟨second.openTools.trans first.openTools, more ++ next, ?_, ?_⟩
  · rw [sentNext, sent, List.append_assoc]
  · intro event member
    exact (List.mem_append.mp member).elim (aside event) (asideNext event)

theorem Aside.of_same {before same after : Turn} (aside : same.Aside after)
    (openTools : same.openTools = before.openTools) (sent : same.sent = before.sent) :
    before.Aside after := .trans ⟨openTools, [], by simp [sent]⟩ aside

theorem emit_aside (turn : Turn) {event : Event} (other : event.kind ≠ .tool) :
    turn.Aside (turn.emit event) := by
  unfold emit
  split
  · exact .refl turn
  · exact ⟨rfl, [event], rfl, by simpa using other⟩

theorem emitText_aside (turn : Turn) (text : String) : turn.Aside (turn.emitText text) := by
  unfold emitText
  split
  · exact .refl turn
  · exact turn.emit_aside nofun

theorem pushImage_aside (turn : Turn) (image : Image) : turn.Aside (turn.pushImage image) := by
  unfold pushImage
  dsimp only
  split
  · exact .of_same (emit_aside _ nofun) rfl rfl
  · exact .of_same (.refl _) rfl rfl

theorem finish_aside (turn : Turn) : turn.Aside turn.finish :=
  have ended : turn.Aside (turn.emit .done) := turn.emit_aside nofun
  ⟨ended.openTools, ended.sent⟩

theorem fail_aside (turn : Turn) (message : String) : turn.Aside (turn.fail message) := by
  unfold fail
  split
  · exact .refl turn
  · have told : turn.Aside (turn.emit (.error message)) := turn.emit_aside nofun
    exact told.trans (finish_aside _)

theorem act_aside {action : TurnStep} (other : action.tool? = none)
    (indirect : ∀ event, .emit event = action → event.kind ≠ .tool) :
    turn.Aside (TurnRun.act turn action) := by
  cases action with
  | pushText text => exact .of_same (emitText_aside _ _) rfl rfl
  | flushText => exact .of_same (emitText_aside _ _) rfl rfl
  | startTool | endTool => simp [TurnStep.tool?] at other
  | pushImage image => exact turn.pushImage_aside image
  | emit event => exact turn.emit_aside (indirect event rfl)
  | finish => exact turn.finish_aside
  | fail message => exact turn.fail_aside message
  | drop => exact turn.fail_aside _
  | dropStream => exact .refl turn

end Aside

inductive Took (turn : Turn) (action : TurnStep) (after : Turn) : Prop where
  | opened {id : String} {event : Event} (asked : action.tool? = some (id, event))
      (marked : event.toolMark? = some .opened) (fresh : id ∉ turn.openTools)
      (openTools : after.openTools = id :: turn.openTools)
      (sent : turn.finished = false → after.sent = turn.sent ++ [event])
  | closed {id : String} {event : Event} (asked : action.tool? = some (id, event))
      (marked : event.toolMark? = some .closed) (held : id ∈ turn.openTools)
      (openTools : after.openTools = turn.openTools.erase id)
      (sent : turn.finished = false → after.sent = turn.sent ++ [event])
  | aside (aside : turn.Aside after)

theorem emit_openTools (turn : Turn) (event : Event) :
    (turn.emit event).openTools = turn.openTools := by
  unfold emit
  split <;> rfl

theorem act_took (turn : Turn) {action : TurnStep}
    (indirect : ∀ event, .emit event = action → event.kind ≠ .tool) :
    turn.Took action (TurnRun.act turn action) := by
  cases action with
  | startTool tool =>
    dsimp only [TurnRun.act]
    unfold startTool
    split
    · exact .aside (.refl turn)
    · next fresh =>
      exact .opened rfl rfl (by simpa using fresh) (emit_openTools _ _) fun unfinished =>
        emit_sent (by exact unfinished) _
  | endTool id =>
    dsimp only [TurnRun.act]
    unfold endTool
    split
    · next held =>
      exact .closed rfl rfl (by simpa using held) (emit_openTools _ _) fun unfinished =>
        emit_sent (by exact unfinished) _
    · exact .aside (.refl turn)
  | _ => exact .aside (act_aside rfl indirect)

structure Silent (before after : Turn) : Prop where
  finished : after.finished = true
  sent : after.sent = before.sent

section Silent

variable {turn same : Turn}

theorem emit_silent {event : Event} (finished : same.finished = true)
    (sent : same.sent = turn.sent) : turn.Silent (same.emit event) := by
  rw [emit, if_pos finished]
  exact ⟨finished, sent⟩

theorem emitText_silent {text : String} (finished : same.finished = true)
    (sent : same.sent = turn.sent) : turn.Silent (same.emitText text) := by
  unfold emitText
  split
  · exact ⟨finished, sent⟩
  · exact emit_silent finished sent

/-- An ended turn sends nothing. -/
theorem act_silent (finished : turn.finished = true) (action : TurnStep) :
    turn.Silent (TurnRun.act turn action) := by
  cases action with
  | pushText | flushText => exact emitText_silent finished rfl
  | startTool tool =>
    dsimp only [TurnRun.act, startTool]
    split
    · exact ⟨finished, rfl⟩
    · exact emit_silent finished rfl
  | endTool id =>
    dsimp only [TurnRun.act, endTool]
    split
    · exact emit_silent finished rfl
    · exact ⟨finished, rfl⟩
  | pushImage image =>
    dsimp only [TurnRun.act, pushImage]
    split
    · exact emit_silent finished rfl
    · exact ⟨finished, rfl⟩
  | emit event => exact emit_silent finished rfl
  | finish => exact ⟨rfl, (emit_silent finished rfl).sent⟩
  | fail | drop =>
    dsimp only [TurnRun.act, abandon, fail]
    rw [if_pos finished]
    exact ⟨finished, rfl⟩
  | dropStream => exact ⟨finished, rfl⟩

end Silent

section Pairing

variable {turn after : Turn} {past : List Change} {action : TurnStep} {change : Change}
variable {id : String} {event : Event} {mark : ToolMark} {more : List Event}

theorem toolMarks_aside (aside : ∀ event ∈ more, event.kind ≠ .tool) : toolMarks more = [] :=
  List.filterMap_eq_nil_iff.mpr fun event told => Event.toolMark?_of_other (aside event told)

theorem toolMarks_singleton (marked : event.toolMark? = some mark) : toolMarks [event] = [mark] :=
  List.filterMap_cons_some marked

theorem marksOf_quiet (quiet : toolMarks change.told = []) (id : String) :
    marksOf id (past ++ [change]) = marksOf id past := by
  rw [marksOf_snoc, quiet, ite_self, List.append_nil]

theorem marksOf_told (asked : change.action.tool? = some (id, event))
    (marked : event.toolMark? = some mark) (told : change.told = [event]) (other : String) :
    marksOf other (past ++ [change]) = marksOf other past ++ if other = id then [mark] else [] := by
  rw [marksOf_snoc, told, Change.id?, asked, toolMarks_singleton marked]
  simp [eq_comm]

structure Mirrors (turn : Turn) (past : List Change) : Prop where
  distinct : turn.openTools.Nodup
  open_iff : ∀ id, id ∈ turn.openTools ↔ last (marksOf id past) = .opened
  balance : (toolMarks turn.sent).count .closed + turn.openTools.length =
    (toolMarks turn.sent).count .opened

theorem Mirrors.aside (mirrors : turn.Mirrors past) (openTools : after.openTools = turn.openTools)
    (quiet : toolMarks change.told = []) (marks : toolMarks after.sent = toolMarks turn.sent) :
    after.Mirrors (past ++ [change]) where
  distinct := openTools ▸ mirrors.distinct
  open_iff id := by
    rw [openTools, marksOf_quiet quiet]
    exact mirrors.open_iff id
  balance := by
    rw [openTools, marks]
    exact mirrors.balance

theorem Mirrors.opened (mirrors : turn.Mirrors past) (asked : change.action.tool? = some (id, event))
    (marked : event.toolMark? = some .opened) (told : change.told = [event])
    (fresh : id ∉ turn.openTools) (openTools : after.openTools = id :: turn.openTools)
    (sent : after.sent = turn.sent ++ [event]) : after.Mirrors (past ++ [change]) where
  distinct := openTools ▸ List.nodup_cons.mpr ⟨fresh, mirrors.distinct⟩
  open_iff other := by
    rw [openTools, marksOf_told asked marked told, List.mem_cons]
    by_cases own : other = id
    · simp [own, ToolMark.last_snoc]
    · simp [own, mirrors.open_iff]
  balance := by
    have balance := mirrors.balance
    rw [openTools, sent, toolMarks_append, toolMarks_singleton marked, List.length_cons]
    simp only [List.count_append, List.count_singleton]
    grind

theorem Mirrors.closed (mirrors : turn.Mirrors past) (asked : change.action.tool? = some (id, event))
    (marked : event.toolMark? = some .closed) (told : change.told = [event])
    (held : id ∈ turn.openTools) (openTools : after.openTools = turn.openTools.erase id)
    (sent : after.sent = turn.sent ++ [event]) : after.Mirrors (past ++ [change]) where
  distinct := openTools ▸ mirrors.distinct.erase id
  open_iff other := by
    rw [openTools, marksOf_told asked marked told, mirrors.distinct.mem_erase_iff]
    by_cases own : other = id
    · simp [own, ToolMark.last_snoc]
    · simp [own, mirrors.open_iff]
  balance := by
    have balance := mirrors.balance
    have some := List.length_pos_of_mem held
    rw [openTools, sent, toolMarks_append, toolMarks_singleton marked,
      List.length_erase_of_mem held]
    simp only [List.count_append, List.count_singleton]
    grind

structure Traced (turn : Turn) (past : List Change) : Prop where
  sent : turn.sent = past.flatMap Change.told
  own : ∀ change ∈ past, ∀ event ∈ change.told, event.kind = .tool →
    ∃ id, change.action.tool? = some (id, event) ∧ change.told = [event]

theorem Traced.snoc (traced : turn.Traced past) (sent : after.sent = turn.sent ++ more)
    (own : ∀ event ∈ more, event.kind = .tool →
      ∃ id, action.tool? = some (id, event) ∧ more = [event]) :
    after.Traced (past ++ [⟨action, turn, after⟩]) := by
  have told : Change.told ⟨action, turn, after⟩ = more := Change.told_of_sent sent
  constructor
  · rw [List.flatMap_append, ← traced.sent, List.flatMap_singleton, told]
    exact sent
  · intro change member event tells tool
    rcases List.mem_append.mp member with earlier | newest
    · exact traced.own change earlier event tells tool
    · obtain rfl := List.mem_singleton.mp newest
      rw [told] at tells ⊢
      exact own event tells tool

structure Paired (turn : Turn) (past : List Change) : Prop where
  traced : turn.Traced past
  alternating : ∀ id, Alternating (marksOf id past)
  bracketed : Bracketed (toolMarks turn.sent)
  early : turn.finished = false → InTime past
  mirrors : InTime past → turn.Mirrors past

theorem Paired.started (maxImages : Nat) : (start maxImages).Paired [] where
  traced := ⟨rfl, fun _ member => absurd member List.not_mem_nil⟩
  alternating _ := ⟨.nil, nofun⟩
  bracketed := by simp [Bracketed, start, toolMarks]
  early _ _ member := absurd member List.not_mem_nil
  mirrors _ := ⟨.nil, fun _ => by simp [marksOf, last, start], rfl⟩

theorem InTime.init (inTime : InTime (past ++ [change])) : InTime past :=
  fun earlier member => inTime earlier (List.mem_append_left _ member)

theorem Paired.early_snoc (paired : turn.Paired past) (unfinished : turn.finished = false) :
    InTime (past ++ [⟨action, turn, after⟩]) := by
  intro change member asked
  rcases List.mem_append.mp member with earlier | newest
  · exact paired.early unfinished change earlier asked
  · rw [List.mem_singleton.mp newest]
    exact unfinished

theorem Paired.aside (paired : turn.Paired past) (sent : after.sent = turn.sent ++ more)
    (aside : ∀ event ∈ more, event.kind ≠ .tool)
    (openTools : InTime (past ++ [⟨action, turn, after⟩]) → after.openTools = turn.openTools)
    (early : after.finished = false → InTime (past ++ [⟨action, turn, after⟩])) :
    after.Paired (past ++ [⟨action, turn, after⟩]) := by
  have told : Change.told ⟨action, turn, after⟩ = more := Change.told_of_sent sent
  have quiet : toolMarks (Change.told ⟨action, turn, after⟩) = [] := told ▸ toolMarks_aside aside
  have marks : toolMarks after.sent = toolMarks turn.sent := by
    rw [sent, toolMarks_append, toolMarks_aside aside, List.append_nil]
  exact {
    traced := paired.traced.snoc sent fun event tells tool => absurd tool (aside event tells)
    alternating := fun id => by
      rw [marksOf_quiet quiet]
      exact paired.alternating id
    bracketed := marks ▸ paired.bracketed
    early
    mirrors := fun inTime =>
      (paired.mirrors inTime.init).aside (openTools inTime) quiet marks }

theorem Paired.told (paired : turn.Paired past) (unfinished : turn.finished = false)
    (asked : action.tool? = some (id, event)) (marked : event.toolMark? = some mark)
    (sent : after.sent = turn.sent ++ [event]) (next : last (marksOf id past) ≠ mark)
    (mirrors : after.Mirrors (past ++ [⟨action, turn, after⟩])) :
    after.Paired (past ++ [⟨action, turn, after⟩]) := by
  let change : Change := ⟨action, turn, after⟩
  have own : change.action.tool? = some (id, event) := asked
  have told : change.told = [event] := change.told_of_sent sent
  exact {
    traced := paired.traced.snoc sent fun other tells _ => by
      obtain rfl := List.mem_singleton.mp tells
      exact ⟨id, asked, rfl⟩
    alternating := fun other => by
      rw [marksOf_told own marked told]
      split
      · next same => exact (ToolMark.alternating_snoc (paired.alternating other)).mpr (same ▸ next)
      · rw [List.append_nil]
        exact paired.alternating other
    bracketed := by
      have balance := mirrors.balance
      rw [sent, toolMarks_append, toolMarks_singleton marked] at balance ⊢
      exact paired.bracketed.snoc (by omega)
    early := fun _ => paired.early_snoc unfinished
    mirrors := fun _ => mirrors }

theorem Paired.took (paired : turn.Paired past) (took : turn.Took action after)
    (silent : turn.finished = true → turn.Silent after) :
    after.Paired (past ++ [⟨action, turn, after⟩]) := by
  cases ended : turn.finished with
  | true =>
    have ⟨finished, same⟩ := silent ended
    have nothing : after.sent = turn.sent ++ [] := by rw [same, List.append_nil]
    refine paired.aside nothing (by simp) (fun inTime => ?_)
      (fun unfinished => by rw [finished] at unfinished; contradiction)
    cases took with
    | opened asked | closed asked =>
      -- the call comes after the end of the turn, which the assumption excludes
      have unfinished := inTime ⟨action, turn, after⟩ (by simp) (by simp [Change.id?, asked])
      exact absurd (ended.symm.trans unfinished) nofun
    | aside aside => exact aside.openTools
  | false =>
    have mirrors := paired.mirrors (paired.early ended)
    cases took with
    | opened asked marked fresh openTools sent =>
      refine paired.told ended asked marked (sent ended) ?_ (mirrors.opened asked marked
        (Change.told_of_sent (sent ended)) fresh openTools (sent ended))
      rwa [ne_eq, ← mirrors.open_iff]
    | closed asked marked held openTools sent =>
      refine paired.told ended asked marked (sent ended) ?_ (mirrors.closed asked marked
        (Change.told_of_sent (sent ended)) held openTools (sent ended))
      rw [(mirrors.open_iff _).mp held]
      exact nofun
    | aside aside =>
      obtain ⟨more, sent, other⟩ := aside.sent
      exact paired.aside sent other (fun _ => aside.openTools) fun _ => paired.early_snoc ended

/-- A tool call is reported unless the tool is in the requested state already. -/
theorem act_sent (unfinished : turn.finished = false) (asked : action.tool? = some (id, event))
    (marked : event.toolMark? = some mark) : (TurnRun.act turn action).sent =
      turn.sent ++ if id ∈ turn.openTools ↔ mark = .opened then [] else [event] := by
  cases action with
  | startTool tool =>
    obtain ⟨rfl, rfl⟩ := Prod.mk.inj (Option.some.inj asked)
    obtain rfl := Option.some.inj marked
    by_cases held : tool.id ∈ turn.openTools <;>
      simp [TurnRun.act, startTool, held, emit, unfinished]
  | endTool other =>
    obtain ⟨rfl, rfl⟩ := Prod.mk.inj (Option.some.inj asked)
    obtain rfl := Option.some.inj marked
    by_cases held : other ∈ turn.openTools <;>
      simp [TurnRun.act, endTool, held, emit, unfinished]
  | _ => simp [TurnStep.tool?] at asked

theorem tool?_marked (asked : action.tool? = some (id, event)) :
    ∃ mark, event.toolMark? = some mark := by
  cases action with
  | startTool | endTool =>
    obtain ⟨rfl, rfl⟩ := Prod.mk.inj (Option.some.inj asked)
    exact ⟨_, rfl⟩
  | _ => simp [TurnStep.tool?] at asked

theorem Paired.call_sent (paired : turn.Paired past) (unfinished : turn.finished = false)
    (asked : action.tool? = some (id, event)) : (TurnRun.act turn action).sent =
      turn.sent ++ if Alternating (marksOf id past ++ toolMarks [event]) then [event] else [] := by
  obtain ⟨mark, marked⟩ := tool?_marked asked
  have held := (paired.mirrors (paired.early unfinished)).open_iff id
  have keeps : Alternating (marksOf id past ++ toolMarks [event]) ↔
      ¬ (id ∈ turn.openTools ↔ mark = .opened) := by
    rw [toolMarks_singleton marked, ToolMark.alternating_snoc (paired.alternating id), held]
    cases mark <;> cases last (marksOf id past) <;> simp
  rw [act_sent unfinished asked marked]
  simp only [keeps, ite_not]

theorem run_paired {maxImages : Nat} {steps : List TurnStep}
    (indirect : ∀ event, .emit event ∈ steps → event.kind ≠ .tool) :
    (steps.foldl TurnRun.act (.start maxImages)).Paired
      (Transition.ofRun TurnRun.act (.start maxImages) steps) := by
  induction steps using List.reverseRecOn with
  | nil => exact .started maxImages
  | append_singleton steps action ih =>
    rw [List.foldl_concat, Transition.ofRun_snoc]
    have before := ih fun event member => indirect event (List.mem_append_left _ member)
    let turn := steps.foldl TurnRun.act (.start maxImages)
    have took : turn.Took action (TurnRun.act turn action) :=
      act_took turn fun event same => indirect event (by simp [same])
    exact before.took took fun ended => act_silent ended action

/-- The starts and ends of each tool alternate, and the open tools are those whose last event is a
    start. A call is reported exactly if that keeps the alternation. -/
theorem tools_alternate {maxImages : Nat} {steps : List TurnStep}
    (indirect : ∀ event, .emit event ∈ steps → event.kind ≠ .tool) :
    let past : List Change := Transition.ofRun TurnRun.act (.start maxImages) steps
    let turn := steps.foldl TurnRun.act (.start maxImages)
    turn.sent = past.flatMap Change.told ∧
    (∀ change ∈ past, ∀ event ∈ change.told, event.kind = .tool →
      ∃ id, change.action.tool? = some (id, event) ∧ change.told = [event]) ∧
    (∀ id, Alternating (marksOf id past)) ∧
    (InTime past → ∀ id, id ∈ turn.openTools ↔ last (marksOf id past) = .opened) ∧
    (∀ sofar, sofar <+: turn.sent →
      (toolMarks sofar).count .closed ≤ (toolMarks sofar).count .opened) ∧
    (turn.finished = false → ∀ call id event, TurnStep.tool? call = some (id, event) →
      (TurnRun.act turn call).sent = turn.sent ++
        if Alternating (marksOf id past ++ toolMarks [event]) then [event] else []) := by
  intro past turn
  have paired : turn.Paired past := run_paired indirect
  exact ⟨paired.traced.sent, paired.traced.own, paired.alternating,
    fun inTime => (paired.mirrors inTime).open_iff,
    fun sofar within => paired.bracketed _ (within.filterMap _),
    fun unfinished call id event asked => paired.call_sent unfinished asked⟩

/-- A tool that is started twice, one that was never started, and one that is used again. -/
theorem repeated_tools_alternate :
    let tool : ToolUse := ⟨"t", "Read", .null⟩
    let steps : List TurnStep := [.startTool tool, .emit (.logLine .stderr "slow"), .startTool tool,
      .endTool "u", .endTool "t", .startTool tool]
    let past : List Change := Transition.ofRun TurnRun.act (.start 8) steps
    (∀ event, .emit event ∈ steps → event.kind ≠ .tool) ∧ marksOf "t" past = [.opened, .closed, .opened] ∧
      Alternating (marksOf "t" past) ∧ (steps.foldl TurnRun.act (.start 8)).openTools = ["t"] := by
  intro tool steps past
  have indirect : ∀ event, .emit event ∈ steps → event.kind ≠ .tool := by
    intro event member
    obtain rfl : event = .logLine .stderr "slow" := by simpa [steps] using member
    exact nofun
  exact ⟨indirect, by decide +kernel, (tools_alternate indirect).2.2.1 "t", by decide +kernel⟩

end Pairing

end Turn

end AgentHost
