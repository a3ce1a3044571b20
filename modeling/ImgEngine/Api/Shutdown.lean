import ImgEngine.Runtime.Scheduler

namespace ImgEngine.Api

open ImgEngine.Library.Interleaving
open ImgEngine.Runtime

-- The part of g_engine that the queues and the threads share, with the fields of its
-- workers as maps from the worker's id, and g_task_queue. The workers have a ctx and
-- no scheduler.
structure Engine where
  workerCount : UInt32
  running : UInt32 → Bool
  queue : UInt32 → ImgQueue
  taskQueue : ImgMpmcQueue
  -- what a worker stored in task->status
  status : Ptr → Option Int
  -- whether the worker's thread has returned, which pthread_join waits for
  ended : UInt32 → Bool

-- The engine when the sandbox starts and every allocation finds memory, and none for
-- the result NULL.
def imgApiInit (workers : UInt32) : Option Engine :=
  if workers = 0 ∨ workers > 64 then none
  else
    (imgMpmcInit (fun _ => true) 1024).map fun taskQueue =>
      { workerCount := workers, running := fun _ => true, queue := fun _ => imgQueueCreate 10,
        taskQueue, status := fun _ => none, ended := fun _ => false }

namespace Lifecycle

inductive Op where
  | submit (task : Ptr)
  | shutdown
  deriving DecidableEq

-- Where a thread stands in img_submit_task: before the null check, or in
-- img_mpmc_push.
inductive SubmitPc where
  | check (task : Ptr)
  | push (pc : ImgMpmc.PushPc)
  deriving DecidableEq

-- Where a worker stands in worker_loop: before reading running, in the pop from its
-- own queue, or in possession of a task.
inductive WorkerPc where
  | running (id : UInt32)
  | pop (id : UInt32) (pc : ImgSpsc.PopPc)
  | execute (id : UInt32) (task : Ptr)
  deriving DecidableEq

-- Where img_api_shutdown stands: before stopping worker i, or waiting for its thread.
inductive ShutdownPc where
  | stop (i : UInt32)
  | join (i : UInt32)
  deriving DecidableEq

inductive Pc where
  | submit (pc : SubmitPc)
  | work (pc : WorkerPc)
  | shutdown (pc : ShutdownPc)
  deriving DecidableEq

-- img_submit_task returned 0 from img_mpmc_push or something else, worker_loop
-- returned, and img_api_shutdown returned.
inductive Result where
  | accepted
  | refused
  | stopped
  | shutDown
  deriving DecidableEq

end Lifecycle

open Lifecycle

-- A NULL task gives the result 0 as well, without a push.
def imgSubmitTask (s : Engine) (spurious : Bool) : SubmitPc → Engine × (SubmitPc ⊕ Result)
  | .check task => (s, if task = 0 then .inr .refused else .inl (.push (.loadTail task)))
  | .push pc =>
      let (q, outcome) := imgMpmcPush s.taskQueue spurious pc
      ({ s with taskQueue := q },
        match outcome with
        | .inl pc => .inl (.push pc)
        | .inr .pushed => .inr .accepted
        | .inr _ => .inr .refused)

-- One access of worker_loop. The pipeline of a task works on the task's own buffer.
def workerLoop (s : Engine) : WorkerPc → Engine × (WorkerPc ⊕ Result)
  | .running id =>
      if s.running id then (s, .inl (.pop id .loadHead))
      else ({ s with ended := Function.update s.ended id true }, .inr .stopped)
  | .pop id pc =>
      let (q, outcome) := imgQueuePop (s.queue id) pc
      ({ s with queue := Function.update s.queue id q },
        match outcome with
        | .inl pc => .inl (.pop id pc)
        | .inr result =>
            .inl (if result.task = 0 then .running id else .execute id result.task))
  | .execute id task =>
      ({ s with status := Function.update s.status task (some 0) }, .inl (.running id))

def imgApiShutdown (s : Engine) : ShutdownPc → Engine × (ShutdownPc ⊕ Result)
  | .stop i =>
      if i < s.workerCount then
        ({ s with running := Function.update s.running i false }, .inl (.join i))
      else (s, .inr .shutDown)
  | .join i => (s, .inl (if s.ended i then .stop (i + 1) else .join i))

-- The choice is whether a compare-exchange fails spuriously.
def imgApi : Program Engine Op Pc Result Bool where
  start
    | .submit task => .submit (.check task)
    | .shutdown => .shutdown (.stop 0)
  access s pc spurious :=
    match pc with
    | .submit pc =>
        let (s, outcome) := imgSubmitTask s spurious pc
        (s, outcome.map .submit id)
    | .work pc =>
        let (s, outcome) := workerLoop s pc
        (s, outcome.map .work id)
    | .shutdown pc =>
        let (s, outcome) := imgApiShutdown s pc
        (s, outcome.map .shutdown id)

namespace Lifecycle

-- The threads: one for each worker, any number of clients that submit, and the one
-- that shuts the engine down.
inductive Agent (Client : Type) where
  | worker (id : UInt32)
  | client (client : Client)
  | owner
  deriving DecidableEq

variable {Client : Type}

abbrev State (Client : Type) := Config (Agent Client) Engine Pc

abbrev History (Client : Type) := List (Event (Agent Client) Op Pc Result)

-- img_api_init has returned, and the threads that it created have not run yet.
def started (Client : Type) (s : Engine) : State Client where
  shared := s
  pc
    | .worker id => if id < s.workerCount then some (.work (.running id)) else none
    | .client _ | .owner => none

def Contract (_ : State Client) : Turn (Agent Client) Op Bool → Prop
  | .call (.client _) (.submit _) => True
  | .call .owner .shutdown => True
  | .call _ _ => False
  | .access _ _ => True

instance (config : State Client) : ∀ turn, Decidable (Contract config turn)
  | .call (.client _) (.submit _) => inferInstanceAs (Decidable True)
  | .call (.client _) .shutdown => inferInstanceAs (Decidable False)
  | .call .owner .shutdown => inferInstanceAs (Decidable True)
  | .call .owner (.submit _) => inferInstanceAs (Decidable False)
  | .call (.worker _) _ => inferInstanceAs (Decidable False)
  | .access _ _ => inferInstanceAs (Decidable True)

-- The tasks whose push was accepted, and those that a worker took.

def accept : Event (Agent Client) Op Pc Result → Option Ptr
  | .access _ (.submit (.push pc)) (.inr .accepted) => some pc.data
  | _ => none

def take : Event (Agent Client) Op Pc Result → Option Ptr
  | .access _ _ (.inl (.work (.execute _ task))) => some task
  | _ => none

-- The return of img_api_shutdown.
def returns : Event (Agent Client) Op Pc Result → Bool
  | .access _ _ (.inr .shutDown) => true
  | _ => false

-- What the header promises of the accepted tasks.
structure Drained (s : Engine) (events : History Client) : Prop where
  taskQueue : ∀ task ∈ events.filterMap accept, task ∉ ImgSched.inGlobal s.taskQueue
  queue : ∀ task ∈ events.filterMap accept, ∀ id < s.workerCount,
    task ∉ ImgSpsc.contents 10 (s.queue id)
  taken : ∀ task ∈ events.filterMap accept,
    task ∈ events.filterMap take ∧ (s.status task).isSome

end Lifecycle

end ImgEngine.Api
