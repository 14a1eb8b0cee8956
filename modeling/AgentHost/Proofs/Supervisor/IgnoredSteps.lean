import AgentHost.Proofs.Supervisor.Errors
import AgentHost.Proofs.Supervisor.ReadCuts
import AgentHost.Proofs.Supervisor.Register
import AgentHost.Proofs.Supervisor.Shutdown

namespace AgentHost.Supervisor

namespace Moment

/-- The step is rejected, or brings only complete lines of output outside a turn. -/
def ignored (moment : Moment) : Bool :=
  match moment.action with
  | .sendTurn _ => !moment.begins
  | .spawn _ => moment.before.state != .starting
  | .kill | .forceKill => moment.before.state == .dead
  | .readOutput chunk =>
    moment.before.turn.isNone && moment.before.lines.pending.isEmpty &&
      (Text.cutLines chunk).2.isEmpty
  | _ => false

def anonymous (moment : Moment) : Moment :=
  { moment with before := moment.before.anonymous, after := moment.after.anonymous }

end Moment

def heeded (past : List Moment) : List Moment := past.filter fun moment => !moment.ignored

def stepsOf (past : List Moment) : List (Nat × Step) :=
  past.map fun moment => (moment.time, moment.action)

def callsOf (past : List Moment) : List Nat :=
  (past.filter fun moment => isCall moment.action).map fun moment => moment.before.calls

inductive Ignores (s : Supervisor) : Supervisor → Prop where
  | nothing : Ignores s s
  | noted (notice : Notice) : Ignores s (s.note notice)
  | rejected (message : String) : Ignores s (s.reject message)

structure Paired (s other : Supervisor) (call k : Nat) : Prop where
  current : (∃ turn, other.turn = some (k, turn)) ↔ ∃ turn, s.turn = some (call, turn)
  events : other.events k = s.events call

/-- The second supervisor has had only the named calls, and treats them as the first one does. -/
structure Serves (names : List Nat) (s other : Supervisor) : Prop where
  same : other.anonymous = s.anonymous
  counted : other.calls = names.length
  called : ∀ call ∈ names, call < s.calls
  paired : ∀ (k call : Nat), names[k]? = some call → Paired s other call k

section Step

variable {s s' other : Supervisor} {now : Nat} {action : Step} {names : List Nat}

/-- Whole lines outside a turn change nothing. -/
theorem readOutput_unheard (coherent : s.Coherent) (free : s.turn = none)
    (settled : s.lines.pending = []) {chunk : List UInt8} (whole : (Text.cutLines chunk).2 = []) :
    s.readOutput now chunk = s := by
  have calm : s.state ≠ .busy := by
    intro busy
    obtain ⟨call, turn, current⟩ := coherent.turn_of_busy busy
    rw [free] at current
    contradiction
  have unheard : s.heard now = s := if_neg calm
  have unread : (s.lines.push chunk).2 = s.lines := by
    change (⟨(Text.cutLines (s.lines.pending ++ chunk)).2⟩ : Text.LineBuffer) = s.lines
    rw [settled, List.nil_append, whole, ← settled]
  by_cases reads : s.outputOpen = true ∧ chunk ≠ []
  · rw [readOutput_eq reads.1 reads.2, unheard, unread, handleLines_of_free free]
    rfl
  · exact if_neg (by simpa using reads)

theorem ignores_of_ignored (coherent : s.Coherent)
    (ignored : Moment.ignored ⟨now, action, s, s.step now action⟩ = true) :
    Ignores s (s.step now action) := by
  unfold Moment.ignored at ignored
  cases action with
  | sendTurn prompt =>
    rcases s.sendTurn_cases now prompt with ⟨turn, begun⟩ | ⟨message, _, away⟩
    · simp [Moment.begins, isCall, step, begun] at ignored
    · change Ignores s (s.sendTurn now prompt)
      rw [away]
      exact .rejected message
  | spawn outcome =>
    have again : s.step now (.spawn outcome) = s.note (.spawnedTwice s.state) := by
      change (s.spawn now outcome).2 = _
      unfold spawn
      rw [if_pos (by exact ignored)]
    rw [again]
    exact .noted _
  | kill | forceKill =>
    have dead : s.state = .dead := eq_of_beq ignored
    change Ignores s (s.terminate now _ _).2
    rw [s.terminate_of_dead now dead]
    exact .nothing
  | readOutput chunk =>
    simp only [Bool.and_eq_true, Option.isNone_iff_eq_none, List.isEmpty_iff] at ignored
    obtain ⟨⟨free, settled⟩, whole⟩ := ignored
    change Ignores s (s.readOutput now chunk)
    rw [readOutput_unheard coherent free settled whole]
    exact .nothing
  | _ => simp at ignored

theorem Ignores.anonymous (ignores : Ignores s s') : s'.anonymous = s.anonymous := by
  cases ignores <;> rfl

theorem Ignores.events (ignores : Ignores s s') {call : Nat} (called : call < s.calls) :
    s'.events call = s.events call := by
  cases ignores with
  | nothing | noted => rfl
  | rejected message =>
    have other : ¬ call = s.calls := Nat.ne_of_lt called
    unfold Supervisor.events reject
    dsimp only
    rw [lookup_snoc, if_neg other, Option.or_none]

theorem Serves.ignores (serves : Serves names s other) (ignores : Ignores s s') :
    Serves names s' other := by
  have turn : s'.turn = s.turn := by cases ignores <;> rfl
  have more : s.calls ≤ s'.calls := by
    cases ignores with
    | nothing | noted => exact Nat.le_refl _
    | rejected => exact Nat.le_succ _
  constructor
  · rw [serves.same, ignores.anonymous]
  · exact serves.counted
  · intro call member
    exact Nat.lt_of_lt_of_le (serves.called call member) more
  · intro k call named
    have pair := serves.paired k call named
    constructor
    · rw [turn]
      exact pair.current
    · rw [ignores.events (serves.called call (List.mem_of_getElem? named))]
      exact pair.events

theorem Took.current_iff (took : Took now s action s') (uncalled : isCall action = false)
    {call : Nat} {turn : Turn} (current : s.turn = some (call, turn)) :
    (∃ later, s'.turn = some (call, later)) ↔ s'.turn.isSome = true := by
  constructor
  · rintro ⟨later, under⟩
    rw [under]
    rfl
  · intro goesOn
    obtain ⟨⟨made, later⟩, under⟩ := Option.isSome_iff_exists.mp goesOn
    rcases took.turn_before under with ⟨before, was⟩ | ⟨_, begins⟩
    · rw [current] at was
      obtain ⟨rfl, _⟩ := Prod.mk.inj (Option.some.inj was)
      exact ⟨later, under⟩
    · simp [Moment.begins, uncalled] at begins

theorem isSome_of_anonymous (same : other.anonymous = s.anonymous) :
    other.turn.isSome = s.turn.isSome := by
  have turns := congrArg (·.turn.isSome) same
  simpa [Supervisor.anonymous] using turns

section Pair

variable (serves : Serves names s other) (coherent : s.Coherent) (streams : s.Streams)
  (otherCoherent : other.Coherent) (otherStreams : other.Streams)

include serves coherent streams otherCoherent otherStreams

theorem Serves.paired_over (took : Took now s action s') {other' : Supervisor}
    (otherTook : Took now other action other') {k call : Nat} (named : names[k]? = some call)
    (free : ∀ turn, s.turn ≠ some (call, turn)) : Paired s' other' call k := by
  have called := serves.called call (List.mem_of_getElem? named)
  have otherCalled : k < other.calls := by
    rw [serves.counted]
    exact (List.getElem?_eq_some_iff.mp named).1
  have otherFree : ∀ turn, other.turn ≠ some (k, turn) := by
    intro turn otherCurrent
    obtain ⟨_, current⟩ := (serves.paired k call named).current.mp ⟨turn, otherCurrent⟩
    exact free _ current
  obtain ⟨gone, unchanged⟩ := took.over coherent streams ⟨called, free⟩
  obtain ⟨otherGone, otherUnchanged⟩ :=
    otherTook.over otherCoherent otherStreams ⟨otherCalled, otherFree⟩
  constructor
  · simp [gone.other, otherGone.other]
  · rw [unchanged, otherUnchanged]
    exact (serves.paired k call named).events

theorem Serves.uncalled (now : Nat) (uncalled : isCall action = false) :
    Serves names (s.step now action) (other.step now action) := by
  have took := coherent.took now action
  have otherTook := otherCoherent.took now action
  have same : (other.step now action).anonymous = (s.step now action).anonymous := by
    rw [step_anonymous, serves.same, ← step_anonymous]
  have counted := took.calls
  have otherCounted := otherTook.calls
  rw [uncalled, if_neg (by simp), Nat.add_zero] at counted otherCounted
  have paired (k call : Nat) (named : names[k]? = some call) :
      Paired (s.step now action) (other.step now action) call k := by
    by_cases active : ∃ turn, s.turn = some (call, turn)
    · obtain ⟨otherTurn, otherCurrent⟩ := (serves.paired k call named).current.mpr active
      obtain ⟨turn, current⟩ := active
      constructor
      · rw [took.current_iff uncalled current, otherTook.current_iff uncalled otherCurrent,
          isSome_of_anonymous same]
      · exact told_anonymous serves.same streams otherStreams now uncalled current otherCurrent
    · exact serves.paired_over coherent streams otherCoherent otherStreams took otherTook named
        fun turn current => active ⟨turn, current⟩
  constructor
  · exact same
  · rw [otherCounted]
    exact serves.counted
  · rw [counted]
    exact serves.called
  · exact paired

theorem Serves.accepted (now : Nat) (prompt : Prompt) (idle : s.state = .idle)
    (held : s.inputHeld = true) :
    Serves (names ++ [s.calls]) (s.sendTurn now prompt) (other.sendTurn now prompt) := by
  have took : Took now s (.sendTurn prompt) (s.sendTurn now prompt) := s.sendTurn_took now prompt
  have otherTook := other.sendTurn_took now prompt
  have otherIdle : other.state = .idle := (congrArg (·.state) serves.same).trans idle
  have otherHeld : other.inputHeld = true := (congrArg (·.inputHeld) serves.same).trans held
  have accepts := sendTurn_of_held idle held now prompt
  have otherAccepts := sendTurn_of_held otherIdle otherHeld now prompt
  have free := coherent.no_turn (by simp [idle])
  have counted : (s.sendTurn now prompt).calls = s.calls + 1 := took.calls
  have otherCounted : (other.sendTurn now prompt).calls = other.calls + 1 := otherTook.calls
  have paired (k call : Nat) (named : (names ++ [s.calls])[k]? = some call) :
      Paired (s.sendTurn now prompt) (other.sendTurn now prompt) call k := by
    rcases Nat.lt_or_ge k names.length with earlier | latest
    · rw [List.getElem?_append_left earlier] at named
      exact serves.paired_over coherent streams otherCoherent otherStreams took otherTook named
        (by simp [free])
    · rw [List.getElem?_append_right latest, List.getElem?_singleton] at named
      split at named
      · rename_i last
        obtain rfl := Option.some.inj named
        obtain rfl : k = other.calls := by
          have length := serves.counted
          omega
        constructor
        · exact iff_of_true ⟨_, otherAccepts.turn⟩ ⟨_, accepts.turn⟩
        · rw [otherAccepts.unrejected, accepts.unrejected]
      · contradiction
  constructor
  · rw [other.sendTurn_anonymous, serves.same, ← sendTurn_anonymous]
  · rw [otherCounted, serves.counted, List.length_append, List.length_singleton]
  · intro call member
    rcases List.mem_append.mp member with earlier | last
    · have called := serves.called call earlier
      omega
    · have same := List.mem_singleton.mp last
      omega
  · exact paired

end Pair

/-- A step that is not ignored keeps the two states in step. -/
theorem Serves.heeded (serves : Serves names s other) (coherent : s.Coherent)
    (streams : s.Streams) (otherCoherent : other.Coherent) (otherStreams : other.Streams)
    (heeds : Moment.ignored ⟨now, action, s, s.step now action⟩ = false) :
    Serves (if isCall action then names ++ [s.calls] else names)
      (s.step now action) (other.step now action) := by
  cases calls : isCall action with
  | false => exact serves.uncalled coherent streams otherCoherent otherStreams now calls
  | true =>
    cases action with
    | sendTurn prompt =>
      have took := coherent.took now (.sendTurn prompt)
      obtain ⟨_, _, idle, held⟩ := (took.begins_iff streams).mp
        (by simpa [Moment.ignored] using heeds)
      exact serves.accepted coherent streams otherCoherent otherStreams now prompt idle held
    | _ => simp [isCall] at calls

end Step

structure Follows (first s : Supervisor) (past : List Moment) : Prop where
  streams : s.Streams
  moments : (first.moments (stepsOf (heeded past))).map Moment.anonymous =
    (heeded past).map Moment.anonymous
  serves : Serves (callsOf (heeded past)) s (first.after (stepsOf (heeded past)))

theorem start_follows (settings : AgentSettings) (decoder : Decoder) (hook : Bool) :
    Follows (start settings decoder hook) (start settings decoder hook) [] where
  streams := start_streams settings decoder hook
  moments := rfl
  serves := by constructor <;> simp [callsOf, heeded, stepsOf, after, start]

theorem Follows.step {first s : Supervisor} {past : List Moment} (follows : Follows first s past)
    (coherent : s.Coherent) (starts : first.Coherent) (fresh : first.Streams) (now : Nat)
    (action : Step) :
    Follows first (s.step now action) (past ++ [⟨now, action, s, s.step now action⟩]) := by
  have streams := ((coherent.took now action).keeps coherent follows.streams).streams
  cases ignored : Moment.ignored ⟨now, action, s, s.step now action⟩ with
  | true =>
    have same : heeded (past ++ [⟨now, action, s, s.step now action⟩]) = heeded past := by
      simp [heeded, ignored]
    constructor
    · exact streams
    · rw [same]
      exact follows.moments
    · rw [same]
      exact follows.serves.ignores (ignores_of_ignored coherent ignored)
  | false =>
    have more : heeded (past ++ [⟨now, action, s, s.step now action⟩]) =
        heeded past ++ [⟨now, action, s, s.step now action⟩] := by simp [heeded, ignored]
    have steps (moment : Moment) : stepsOf (heeded past ++ [moment]) =
        stepsOf (heeded past) ++ [(moment.time, moment.action)] := List.map_append
    have others := after_coherent starts (stepsOf (heeded past))
    have otherStreams := (after_keeps starts fresh (stepsOf (heeded past))).streams
    have serves := follows.serves.heeded coherent follows.streams others otherStreams ignored
    constructor
    · exact streams
    · rw [more, steps, moments_snoc, List.map_append, List.map_append, follows.moments]
      simp [Moment.anonymous, follows.serves.same, serves.same]
    · rw [more, steps, after_snoc]
      have calls : callsOf (heeded past ++ [⟨now, action, s, s.step now action⟩]) =
          if isCall action then callsOf (heeded past) ++ [s.calls] else callsOf (heeded past) := by
        unfold callsOf
        cases isCall : isCall action <;> simp [isCall]
      rw [calls]
      exact serves

theorem run_follows (settings : AgentSettings) (decoder : Decoder) (hook : Bool)
    (steps : List (Nat × Step)) :
    let first := start settings decoder hook
    Follows first (first.after steps) (first.moments steps) := by
  have starts := start_coherent settings decoder hook
  have fresh := start_streams settings decoder hook
  refine starts.run (Follows _) (start_follows settings decoder hook) ?_ steps
  rintro current past now action next coherent rfl - follows
  exact follows.step coherent starts fresh now action

/-- Ignored steps have no effect. Without them all other steps do the same, timers and kill requests
    included, and the remaining calls get the same events. -/
theorem ignored_of_run (settings : AgentSettings) (decoder : Decoder) (hook : Bool)
    (steps : List (Nat × Step)) :
    let first := start settings decoder hook
    let past := first.moments steps
    let other := stepsOf (heeded past)
    (first.after other).anonymous = (first.after steps).anonymous ∧
    (first.moments other).map Moment.anonymous = (heeded past).map Moment.anonymous ∧
    (∀ moment ∈ past, moment.ignored = true →
      moment.after.anonymous = moment.before.anonymous) ∧
    (first.after other).calls = (callsOf (heeded past)).length ∧
    ∀ (k call : Nat), (callsOf (heeded past))[k]? = some call →
      (first.after other).events k = (first.after steps).events call := by
  intro first past other
  have follows := run_follows settings decoder hook steps
  refine ⟨follows.serves.same, follows.moments, ?_, follows.serves.counted, ?_⟩
  · intro moment member ignored
    obtain ⟨before, reached, stepped⟩ := mem_moments member
    have coherent : moment.before.Coherent := reached ▸ run_coherent settings decoder hook before
    obtain ⟨now, action, s, s'⟩ := moment
    obtain rfl : s' = s.step now action := stepped
    exact (ignores_of_ignored coherent ignored).anonymous
  · intro k call named
    exact (follows.serves.paired k call named).events

-- Only the first launch, the call that finds the process idle, and the first kill are heeded.
example :
    let past := impatient.moments [(0, .sendTurn ⟨"early", []⟩), (0, .spawn (.ok 1)),
      (1, .spawn (.ok 2)), (1, .readOutput [123, 125, 10]), (2, .sendTurn ⟨"one", []⟩),
      (3, .sendTurn ⟨"two", []⟩), (4, .kill), (5, .forceKill), (6, .sendTurn ⟨"late", []⟩)]
    (heeded past).map Moment.time = [0, 2, 4] ∧ callsOf (heeded past) = [1] := by decide +kernel

end AgentHost.Supervisor
