import AgentHost.Proofs.Supervisor.ReadCuts
import AgentHost.Proofs.Supervisor.Shutdown

namespace AgentHost.Supervisor

structure OutputSide where
  outputOpen : Bool
  lines : Text.LineBuffer

def outputSide (s : Supervisor) : OutputSide := ⟨s.outputOpen, s.lines⟩

section Frame

variable (s : Supervisor) (now : Nat)

theorem handleLines_outputSide (texts : List String) :
    (s.handleLines now texts).outputSide = s.outputSide := by
  have same : s.handleLines now texts = (s.handleLines now texts).withReader s.outputOpen s.lines :=
    s.handleLines_withReader now texts s.outputOpen s.lines
  rw [same]
  rfl

theorem logLines_outputSide (texts : List String) :
    (s.logLines now texts).outputSide = s.outputSide := by
  have heard : (s.heard now).outputSide = s.outputSide := by
    unfold Supervisor.heard
    split <;> rfl
  rw [← heard]
  unfold logLines
  generalize s.heard now = reading
  induction texts generalizing reading with
  | nil => rfl
  | cons text rest ih =>
    rw [List.foldl_cons, ih]
    unfold logLine
    split <;> rfl

theorem terminate_outputSide (cause : Cause) (urgency : Urgency) :
    (s.terminate now cause urgency).2.outputSide = s.outputSide := by
  unfold terminate
  split
  · rfl
  · dsimp only
    rw [shutDown_eq]
    unfold askToEnd
    split
    · cases urgency <;> rfl
    · rfl

theorem onExit_outputSide (status : ExitStatus) : (s.onExit status).outputSide = s.outputSide := by
  unfold onExit
  dsimp only
  rw [shutDown_eq]
  split <;> rfl

def nextOutput : Step → OutputSide
  | .spawn (.ok _) => if s.state = .starting then ⟨true, s.lines⟩ else s.outputSide
  | .readOutput chunk =>
    if s.outputOpen && !chunk.isEmpty then ⟨true, (s.lines.push chunk).2⟩ else s.outputSide
  | .closeOutput | .failOutput _ =>
    if s.outputOpen then ⟨false, s.lines.takeRemainder.2⟩ else s.outputSide
  | _ => s.outputSide

theorem spawn_outputSide (outcome : Except ProcessFault Nat) :
    (s.spawn now outcome).2.outputSide = s.nextOutput (.spawn outcome) := by
  unfold spawn
  by_cases starting : s.state = .starting
  · cases outcome <;> simp [nextOutput, starting, outputSide, armIdle, note]
  · cases outcome <;> simp [nextOutput, starting, outputSide, note]

theorem readOutput_outputSide (chunk : List UInt8) :
    (s.readOutput now chunk).outputSide = s.nextOutput (.readOutput chunk) := by
  unfold readOutput
  dsimp only [nextOutput]
  split
  · next reads =>
    have opened : s.outputOpen = true := by simp_all
    have heard : (s.heard now).outputOpen = true := by
      unfold Supervisor.heard
      split <;> exact opened
    rw [handleLines_outputSide, outputSide, heard, heard_lines]
  · rfl

theorem closeOutput_outputSide :
    (s.closeOutput now).outputSide = s.nextOutput .closeOutput := by
  unfold closeOutput
  dsimp only [nextOutput]
  split
  · exact handleLines_outputSide _ now _
  · rfl

theorem step_outputSide (action : Step) : (s.step now action).outputSide = s.nextOutput action := by
  cases action with
  | spawn outcome => exact s.spawn_outputSide now outcome
  | sendTurn prompt =>
    dsimp only [step, nextOutput]
    unfold sendTurn
    cases s.state with
    | idle => cases s.inputHeld <;> rfl
    | starting | busy | dead => rfl
  | kill | forceKill | drop => exact s.terminate_outputSide now _ _
  | acceptInput count =>
    dsimp only [step, nextOutput]
    unfold acceptInput
    split <;> rfl
  | finishWrite =>
    dsimp only [step, nextOutput]
    unfold finishWrite
    split <;> rfl
  | failWrite error =>
    dsimp only [step, nextOutput]
    unfold failWrite
    split
    · rfl
    · exact terminate_outputSide _ now _ _
  | readOutput chunk => exact s.readOutput_outputSide now chunk
  | closeOutput => exact s.closeOutput_outputSide now
  | failOutput error =>
    dsimp only [step]
    unfold failOutput
    split
    · exact closeOutput_outputSide _ now
    · next closed => exact (if_neg closed).symm
  | readLog chunk =>
    dsimp only [step, nextOutput]
    unfold readLog
    split
    · exact logLines_outputSide _ now _
    · rfl
  | closeLog =>
    dsimp only [step, nextOutput]
    unfold closeLog
    split
    · exact logLines_outputSide _ now _
    · rfl
  | hangRings generation =>
    dsimp only [step, nextOutput]
    unfold onHang
    dsimp only
    split
    · exact terminate_outputSide _ now _ _
    · rfl
  | idleRings generation =>
    dsimp only [step, nextOutput]
    unfold onIdle
    dsimp only
    split
    · exact terminate_outputSide _ now _ _
    · rfl
  | killDue =>
    dsimp only [step, nextOutput]
    unfold onKillDue
    split
    · split <;> rfl
    · rfl
  | obey =>
    dsimp only [step, nextOutput]
    unfold obey
    split <;> rfl
  | processExits status =>
    dsimp only [step, nextOutput]
    unfold processExits
    split <;> rfl
  | finishDraining =>
    dsimp only [step, nextOutput]
    unfold finishDraining
    split
    · split
      · exact s.onExit_outputSide _
      · rfl
    · rfl

end Frame

namespace Moment

def bytes (moment : Moment) : List UInt8 :=
  match moment.action with
  | .readOutput chunk => if moment.before.outputOpen then chunk else []
  | _ => []

def lines (moment : Moment) : List String := moment.before.linesRead moment.action

def endsOutput (moment : Moment) : Bool :=
  match moment.action with
  | .closeOutput | .failOutput _ => moment.before.outputOpen
  | _ => false

end Moment

def outputBytes (past : List Moment) : List UInt8 := past.flatMap Moment.bytes

def outputLines (past : List Moment) : List String := past.flatMap Moment.lines

theorem outputLines_append (past more : List Moment) :
    outputLines (past ++ more) = outputLines past ++ outputLines more := List.flatMap_append

theorem outputLines_cons (moment : Moment) (later : List Moment) :
    outputLines (moment :: later) = moment.lines ++ outputLines later := List.flatMap_cons

def outputEnded (past : List Moment) : Bool := past.any Moment.endsOutput

/-- The lines of an output. Once the output has ended, the last one needs no terminator. -/
def linesOf (bytes : List UInt8) (ended : Bool) : List String :=
  let (lines, rest) := Text.cutLines bytes
  (if ended && !rest.isEmpty then lines ++ [rest] else lines).map Text.Utf8.decodeLossy

structure Heard (s : Supervisor) (past : List Moment) : Prop where
  opened : s.outputOpen = (past.any Moment.launches && !outputEnded past)
  unlaunched : past.any Moment.launches = false → outputEnded past = false
  pending : s.lines.pending =
    if outputEnded past then [] else (Text.cutLines (outputBytes past)).2
  lines : outputLines past = linesOf (outputBytes past) (outputEnded past)

section Step

variable {s s' : Supervisor} {past : List Moment} {now : Nat} {action : Step}

theorem Heard.open_ended (heard : Heard s past) (opened : s.outputOpen = true) :
    outputEnded past = false := by
  have running := heard.opened.symm.trans opened
  simp only [Bool.and_eq_true, Bool.not_eq_true'] at running
  exact running.2

theorem Heard.still (heard : Heard s past)
    (launches : Moment.launches ⟨now, action, s, s'⟩ = false)
    (bytes : Moment.bytes ⟨now, action, s, s'⟩ = []) (lines : s.linesRead action = [])
    (ends : Moment.endsOutput ⟨now, action, s, s'⟩ = false) (same : s'.outputSide = s.outputSide) :
    Heard s' (past ++ [⟨now, action, s, s'⟩]) := by
  obtain ⟨sameOpen, sameLines⟩ := OutputSide.mk.inj same
  constructor
  · rw [sameOpen, heard.opened]
    simp [outputEnded, launches, ends]
  · intro unlaunched
    have before := heard.unlaunched (by simpa [launches] using unlaunched)
    simp only [outputEnded] at before
    simp [outputEnded, ends, before]
  · rw [sameLines, heard.pending]
    simp [outputEnded, outputBytes, ends, bytes]
  · have before := heard.lines
    simpa [outputLines, outputBytes, outputEnded, ends, bytes, Moment.lines, lines] using before

theorem Heard.launch (heard : Heard s past) {pid : Nat}
    (fresh : past.any Moment.launches = false) (starting : s.state = .starting)
    (next : s'.outputSide = ⟨true, s.lines⟩) :
    Heard s' (past ++ [⟨now, .spawn (.ok pid), s, s'⟩]) := by
  obtain ⟨nextOpen, sameLines⟩ := OutputSide.mk.inj next
  have unended := heard.unlaunched fresh
  have before := heard.lines
  have pending := heard.pending
  simp only [outputEnded, outputLines, outputBytes] at unended before pending
  constructor
  · rw [nextOpen]
    simp [outputEnded, Moment.launches, Moment.endsOutput, starting, unended]
  · intro unlaunched
    simp [Moment.launches, starting] at unlaunched
  · rw [sameLines, pending]
    simp [outputEnded, outputBytes, Moment.endsOutput, Moment.bytes]
  · simpa [outputLines, outputBytes, outputEnded, Moment.lines, linesRead, Moment.bytes,
      Moment.endsOutput] using before

theorem Heard.read (heard : Heard s past) {chunk : List UInt8}
    (reads : (s.outputOpen && !chunk.isEmpty) = true)
    (next : s'.outputSide = ⟨true, (s.lines.push chunk).2⟩) :
    Heard s' (past ++ [⟨now, .readOutput chunk, s, s'⟩]) := by
  have opened : s.outputOpen = true := by simp_all
  have unended := heard.open_ended opened
  have launched : past.any Moment.launches = true := by
    have running := heard.opened.symm.trans opened
    simp_all
  obtain ⟨nextOpen, nextLines⟩ := OutputSide.mk.inj next
  have pending := heard.pending
  have before := heard.lines
  rw [unended] at pending before
  have ended : outputEnded (past ++ [⟨now, .readOutput chunk, s, s'⟩]) = false := by
    simp only [outputEnded] at unended
    simp [outputEnded, Moment.endsOutput, unended]
  have bytes : outputBytes (past ++ [⟨now, .readOutput chunk, s, s'⟩]) =
      outputBytes past ++ chunk := by
    simp [outputBytes, Moment.bytes, opened]
  have cuts := Text.cutLines_append (outputBytes past) chunk
  constructor
  · rw [nextOpen, ended]
    simp [launched]
  · intro unlaunched
    simp [launched] at unlaunched
  · rw [nextLines, ended, bytes, cuts]
    simp [Text.LineBuffer.push, pending]
  · have more : outputLines (past ++ [⟨now, .readOutput chunk, s, s'⟩]) =
        outputLines past ++ (s.lines.push chunk).1 := by
      simp [outputLines, Moment.lines, linesRead, reads]
    rw [more, ended, bytes, before, linesOf, linesOf, cuts]
    simp [Text.LineBuffer.push, pending]

theorem Heard.finish (heard : Heard s past) (opened : s.outputOpen = true)
    (ends : Moment.endsOutput ⟨now, action, s, s'⟩ = true)
    (reads : s.linesRead action = s.lines.takeRemainder.1.toList)
    (next : s'.outputSide = ⟨false, s.lines.takeRemainder.2⟩) :
    Heard s' (past ++ [⟨now, action, s, s'⟩]) := by
  have unended := heard.open_ended opened
  have launched : past.any Moment.launches = true := by
    have running := heard.opened.symm.trans opened
    simp_all
  obtain ⟨nextOpen, nextLines⟩ := OutputSide.mk.inj next
  have pending := heard.pending
  have before := heard.lines
  rw [unended] at pending before
  have ended : outputEnded (past ++ [⟨now, action, s, s'⟩]) = true := by
    simp [outputEnded, ends]
  have unread : Moment.bytes ⟨now, action, s, s'⟩ = [] := by
    cases action <;> first | rfl | simp [Moment.endsOutput] at ends
  have bytes : outputBytes (past ++ [⟨now, action, s, s'⟩]) = outputBytes past := by
    simp [outputBytes, unread]
  constructor
  · rw [nextOpen, ended]
    simp
  · intro unlaunched
    simp [launched] at unlaunched
  · rw [nextLines, ended]
    unfold Text.LineBuffer.takeRemainder
    split <;> simp_all
  · have more : outputLines (past ++ [⟨now, action, s, s'⟩]) =
        outputLines past ++ s.lines.takeRemainder.1.toList := by
      simp [outputLines, Moment.lines, reads]
    rw [more, ended, bytes, before, linesOf, linesOf]
    unfold Text.LineBuffer.takeRemainder
    rw [pending]
    simp only [Bool.false_eq_true, if_false]
    cases (Text.cutLines (outputBytes past)).2 <;> simp

theorem Heard.step (heard : Heard s past)
    (fresh : s.state = .starting → past.any Moment.launches = false) (now : Nat) (action : Step) :
    Heard (s.step now action) (past ++ [⟨now, action, s, s.step now action⟩]) := by
  have next := s.step_outputSide now action
  cases action with
  | spawn outcome =>
    cases outcome with
    | ok pid =>
      by_cases starting : s.state = .starting
      · simp only [nextOutput, starting, if_true] at next
        exact heard.launch (fresh starting) starting next
      · simp only [nextOutput, starting, if_false] at next
        exact heard.still (by simp [Moment.launches, starting]) rfl rfl rfl next
    | error fault => exact heard.still rfl rfl rfl rfl next
  | readOutput chunk =>
    by_cases reads : (s.outputOpen && !chunk.isEmpty) = true
    · simp only [nextOutput, reads, if_true] at next
      exact heard.read reads next
    · simp only [nextOutput, reads, if_false, Bool.false_eq_true] at next
      have unread : (if s.outputOpen then chunk else []) = [] := by
        cases opened : s.outputOpen
        · rfl
        · simpa [opened] using reads
      exact heard.still rfl unread (if_neg reads) rfl next
  | closeOutput | failOutput =>
    by_cases opened : s.outputOpen = true
    · simp only [nextOutput, opened, if_true] at next
      exact heard.finish opened opened (if_pos opened) next
    · simp only [nextOutput, opened, if_false, Bool.false_eq_true] at next
      exact heard.still rfl rfl (if_neg opened) (Bool.eq_false_iff.mpr opened) next
  | _ => exact heard.still rfl rfl rfl rfl next

end Step

theorem run_launched (settings : AgentSettings) (decoder : Decoder) (hook : Bool)
    (steps : List (Nat × Step)) : ((start settings decoder hook).after steps).isLaunched =
      ((start settings decoder hook).moments steps).any Moment.launches :=
  (run_ended settings decoder hook steps).2.launched

theorem run_heard (settings : AgentSettings) (decoder : Decoder) (hook : Bool)
    (steps : List (Nat × Step)) : Heard ((start settings decoder hook).after steps)
      ((start settings decoder hook).moments steps) := by
  induction steps using List.reverseRecOn with
  | nil => constructor <;> simp [start, after, moments, outputEnded, outputBytes, outputLines, linesOf,
      Text.cutLines]
  | append_singleton steps last ih =>
    obtain ⟨now, action⟩ := last
    rw [after_snoc, moments_snoc]
    refine ih.step (fun starting => ?_) now action
    rw [← run_launched settings decoder hook steps]
    have shaped := (run_coherent settings decoder hook steps).shaped
    simp only [Shaped, starting] at shaped
    exact shaped.2.2.2.2.2

end AgentHost.Supervisor
