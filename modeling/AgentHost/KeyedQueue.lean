namespace AgentHost

structure QueueEntry where
  holders : Nat
  tail : List Nat
deriving Repr, DecidableEq

/-- A call is pending until its caller waits for it. It is over once its operation has ended or the
    call has been dropped. -/
inductive CallStage where
  | pending
  | awaited
  | over
deriving Repr, DecidableEq

structure QueueCall (κ : Type) where
  key : κ
  behind : List Nat
  stage : CallStage := .pending
deriving Repr, DecidableEq

/-- Runs operations on the same key one at a time, in the order of the calls. Calls are numbered
    from zero. -/
structure KeyedQueue (κ : Type) where
  entries : List (κ × QueueEntry) := []
  calls : List (QueueCall κ) := []
deriving Repr, DecidableEq

namespace KeyedQueue

variable {κ : Type} [DecidableEq κ]

def entry? (queue : KeyedQueue κ) (key : κ) : Option QueueEntry := queue.entries.lookup key

def stage? (queue : KeyedQueue κ) (id : Nat) : Option CallStage := queue.calls[id]?.map (·.stage)

def isOver (queue : KeyedQueue κ) (id : Nat) : Bool := queue.stage? id == some .over

def isFree (queue : KeyedQueue κ) (call : QueueCall κ) : Bool := call.behind.all queue.isOver

def isRunning (queue : KeyedQueue κ) (id : Nat) : Bool :=
  queue.calls[id]?.any fun call => call.stage == .awaited && queue.isFree call

def isWaiting (queue : KeyedQueue κ) (id : Nat) : Bool :=
  queue.calls[id]?.any fun call => call.stage == .awaited && !queue.isFree call

def setEntry (entries : List (κ × QueueEntry)) (key : κ) (entry : QueueEntry) :
    List (κ × QueueEntry) :=
  match entries with
  | [] => [(key, entry)]
  | (other, old) :: rest =>
    if other = key then (key, entry) :: rest else (other, old) :: setEntry rest key entry

def setStage (queue : KeyedQueue κ) (id : Nat) (stage : CallStage) : KeyedQueue κ :=
  { queue with calls := queue.calls.modify id fun call => { call with stage } }

def run (queue : KeyedQueue κ) (key : κ) : KeyedQueue κ :=
  let ahead := (queue.entry? key).getD ⟨0, []⟩
  let entry : QueueEntry := ⟨ahead.holders + 1, ahead.tail ++ [queue.calls.length]⟩
  { entries := setEntry queue.entries key entry
    calls := queue.calls ++ [{ key, behind := ahead.tail }] }

def release (queue : KeyedQueue κ) (key : κ) : KeyedQueue κ :=
  match queue.entry? key with
  | none => queue
  | some entry =>
    if entry.holders ≤ 1 then
      { queue with entries := queue.entries.filter fun other => !decide (other.1 = key) }
    else
      { queue with
        entries := setEntry queue.entries key { entry with holders := entry.holders - 1 } }

def await (queue : KeyedQueue κ) (id : Nat) : KeyedQueue κ :=
  if queue.stage? id = some .pending then queue.setStage id .awaited else queue

def conclude (queue : KeyedQueue κ) (id : Nat) : KeyedQueue κ :=
  match queue.calls[id]? with
  | none => queue
  | some call => (queue.setStage id .over).release call.key

def finish (queue : KeyedQueue κ) (id : Nat) : KeyedQueue κ :=
  if queue.isRunning id then queue.conclude id else queue

def drop (queue : KeyedQueue κ) (id : Nat) : KeyedQueue κ :=
  if queue.isOver id then queue else queue.conclude id

def size (queue : KeyedQueue κ) : Nat := queue.entries.length

inductive Step (κ : Type) where
  | run (key : κ)
  | await (id : Nat)
  | finish (id : Nat)
  | drop (id : Nat)
deriving Repr, DecidableEq

def step (queue : KeyedQueue κ) : Step κ → KeyedQueue κ
  | .run key => queue.run key
  | .await id => queue.await id
  | .finish id => queue.finish id
  | .drop id => queue.drop id

def after (queue : KeyedQueue κ) (steps : List (Step κ)) : KeyedQueue κ := steps.foldl step queue

end KeyedQueue

end AgentHost
