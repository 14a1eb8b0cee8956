import AgentHost.KeyedQueue

namespace AgentHost.Rehearsal

inductive Outcome where
  | ok
  | err
  | panic
deriving Repr, DecidableEq

inductive QueueStep where
  | run (key label : String) (hold : Nat) (outcome : Outcome) (later : Bool)
  | start (label : String)
  | drop (label : String)
  | advance (time : Nat)

/-- A call of the queue whose operation takes `hold`, and ends at `due` once it has begun. After
    `letGo` it can no longer be dropped. -/
structure Task where
  key : String
  label : String
  hold : Nat
  outcome : Outcome
  due : Option Nat := none
  letGo : Bool := false

inductive QueueNote where
  | began (task : Task) (time : Nat)
  | ended (task : Task) (time : Nat)
  | resulted (task : Task) (time : Nat)

namespace QueueNote

def task : QueueNote → Task
  | .began task _ | .ended task _ | .resulted task _ => task

def stamp (time : Nat) : String := " @" ++ toString time

def text : QueueNote → String
  | .began task time => "start " ++ task.label ++ stamp time
  | .ended task time => "end " ++ task.label ++ stamp time
  | .resulted task time =>
    task.label ++ " -> " ++ (match task.outcome with
      | .ok => "ok " ++ task.label
      | .err => "err " ++ task.label
      | .panic => "panic") ++ stamp time

end QueueNote

structure QueueRun where
  now : Nat := 0
  queue : KeyedQueue String := {}
  tasks : List Task := []
  notes : List QueueNote := []

namespace QueueRun

def find? (run : QueueRun) (label : String) : Option Nat :=
  run.tasks.findIdx? (·.label == label)

def wake (run : QueueRun) : QueueRun :=
  (List.range run.tasks.length).foldl (fun run id =>
    match run.tasks[id]? with
    | none => run
    | some task =>
      if task.due.isNone && run.queue.isRunning id then
        let begun := { task with due := some (run.now + task.hold) }
        { run with tasks := run.tasks.set id begun, notes := run.notes ++ [.began begun run.now] }
      else run) run

def apply (run : QueueRun) : QueueStep → QueueRun
  | .run key label hold outcome later =>
    let id := run.tasks.length
    let queue := run.queue.run key
    { run with
      queue := if later then queue else queue.await id
      tasks := run.tasks ++ [{ key, label, hold, outcome }] }
  | .start label =>
    match run.find? label with
    | some id =>
      if run.queue.stage? id = some .pending then { run with queue := run.queue.await id }
      else { run with tasks := run.tasks.modify id fun task => { task with letGo := true } }
    | none => run
  | .drop label =>
    match run.find? label with
    | some id =>
      if run.tasks[id]?.any (·.letGo) then run else { run with queue := run.queue.drop id }
    | none => run
  | .advance _ => run

def nextEnd? (run : QueueRun) (limit : Nat) : Option (Nat × Nat) :=
  (List.range run.tasks.length).foldl (fun best id =>
    match run.tasks[id]?.bind (·.due) with
    | some due =>
      if due ≤ limit && run.queue.isRunning id && best.all (due < ·.1) then some (due, id) else best
    | none => best) none

def settle : Nat → Nat → QueueRun → QueueRun
  | 0, _, run => run
  | fuel + 1, limit, run =>
    match run.nextEnd? limit with
    | none => run
    | some (due, id) =>
      match run.tasks[id]? with
      | none => run
      | some task =>
        let notes := run.notes ++ [.ended task due, .resulted task due]
        settle fuel limit { run with now := due, queue := run.queue.finish id, notes }.wake

def step (run : QueueRun) (action : QueueStep) : List QueueNote × QueueRun :=
  let limit := match action with
    | .advance time => run.now + time
    | _ => run.now
  let acted := (run.apply action).wake
  let next := { settle (acted.tasks.length + 1) limit acted with now := limit }
  (next.notes.drop run.notes.length, next)

end QueueRun

end AgentHost.Rehearsal
