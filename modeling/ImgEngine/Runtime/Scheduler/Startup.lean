import ImgEngine.Runtime.Scheduler

namespace ImgEngine.Runtime

open ImgEngine.Library.Interleaving

-- img_worker_t without its id, which is its index. Of the pointers to the scheduler
-- and to the context only whether they are set is kept.
structure ImgWorker where
  running : Bool
  scheduler : Bool
  ctx : Bool
  queue : Option ImgQueue

-- A record that calloc has cleared.
def ImgWorker.zero : ImgWorker where
  running := false
  scheduler := false
  ctx := false
  queue := none

-- img_scheduler_t while img_scheduler_init runs, and the threads created so far.
structure Startup where
  workerCount : UInt32
  workers : UInt32 → ImgWorker
  globalQueue : Option ImgMpmcQueue
  status : Ptr → Option Int
  created : UInt32 → Bool

def Startup.zero : Startup where
  workerCount := 0
  workers _ := .zero
  globalQueue := none
  status _ := none
  created _ := false

namespace ImgStartup

inductive Op where
  | work (id : UInt32)
  deriving DecidableEq

-- Where img_scheduler_init stands: at its start, or in img_worker_init for worker
-- i, before storing the four plain fields, before storing the queue, and before
-- creating the thread. No other thread reads the plain fields before that.
inductive InitPc where
  | enter (workers : UInt32)
  | fields (i : UInt32)
  | queue (i : UInt32)
  | create (i : UInt32)
  deriving DecidableEq

-- Which call of img_queue_pop a worker makes: the one on its own queue, or the one
-- in round i of img_scheduler_steal.
inductive Caller where
  | own
  | steal (i : UInt32)
  deriving DecidableEq

-- Where a worker stands in worker_loop: before reading running, before loading the
-- pointer that it passes to img_queue_pop, in img_queue_pop with the queue of a
-- worker or with NULL, in the pop from the global queue, or in possession of a task.
inductive WorkerPc where
  | running (id : UInt32)
  | call (id : UInt32) (caller : Caller)
  | pop (id : UInt32) (caller : Caller) (queue : Option UInt32) (pc : ImgSpsc.PopPc)
  | global (id : UInt32) (pc : ImgMpmc.PopPc)
  | execute (id : UInt32) (task : Ptr)
  deriving DecidableEq

inductive Pc where
  | init (pc : InitPc)
  | work (pc : WorkerPc)
  deriving DecidableEq

-- The results 0 and -1 of img_scheduler_init, the end of worker_loop, and a read
-- through a null pointer.
inductive Result where
  | initialised
  | failed
  | stopped
  | crashed
  deriving DecidableEq

-- Whether an allocation finds memory, whether aligned_alloc does for the global
-- queue, whether pthread_create succeeds, and whether a compare-exchange fails
-- spuriously.
structure Choice where
  memory : Bool
  cells : Bool
  thread : Bool
  spurious : Bool

end ImgStartup

open ImgStartup

def Startup.setWorker (s : Startup) (i : UInt32) (worker : ImgWorker) : Startup :=
  { s with workers := Function.update s.workers i worker }

-- The loop of img_scheduler_init, before the test for worker i. The result of
-- img_worker_init is ignored.
def initLoop (s : Startup) (i : UInt32) : InitPc ⊕ Result :=
  if i < s.workerCount then .inl (.fields i) else .inr .initialised

def imgSchedulerInitAccess (s : Startup) (choice : Choice) :
    InitPc → Startup × (InitPc ⊕ Result)
  | .enter workers =>
      if workers = 0 ∨ ¬choice.memory then (s, .inr .failed)
      else
        let s := { s with
          workerCount := workers
          workers := fun _ => .zero
          globalQueue := imgMpmcInit (fun _ => choice.cells) 1024 }
        (s, initLoop s 0)
  | .fields i =>
      (s.setWorker i { s.workers i with running := true, scheduler := true, ctx := false },
        .inl (.queue i))
  | .queue i =>
      if choice.memory then
        (s.setWorker i { s.workers i with queue := some (imgQueueCreate 10) }, .inl (.create i))
      else (s.setWorker i { s.workers i with queue := none }, initLoop s (i + 1))
  | .create i =>
      let created := if choice.thread then Function.update s.created i true else s.created
      ({ s with created }, initLoop s (i + 1))

-- The worker whose queue a call of img_queue_pop is about.
def ImgStartup.Caller.victim (s : Startup) (id : UInt32) : Caller → UInt32
  | .own => id
  | .steal i => (id + i + 1) % s.workerCount

-- Round i of img_scheduler_steal, or the pop from the global queue after the last.
def stealLoop (s : Startup) (id i : UInt32) : WorkerPc :=
  if i < s.workerCount then .call id (.steal i) else .global id .loadHead

-- Where a worker goes on after a call of img_queue_pop. It steals if its scheduler
-- is set.
def afterPop (s : Startup) (id : UInt32) (caller : Caller) (task : Ptr) : WorkerPc :=
  if task ≠ 0 then .execute id task
  else
    match caller with
    | .own => if (s.workers id).scheduler then stealLoop s id 0 else .running id
    | .steal i => stealLoop s id (i + 1)

def afterGlobal (id : UInt32) : ImgMpmc.PopPc ⊕ ImgMpmc.Result → WorkerPc
  | .inl pc => .global id pc
  | .inr result => if result.task ≠ 0 then .execute id result.task else .running id

-- One access of worker_loop.
def workerLoopAccess (s : Startup) (choice : Choice) : WorkerPc → Startup × (WorkerPc ⊕ Result)
  | .running id => (s, if (s.workers id).running then .inl (.call id .own) else .inr .stopped)
  | .call id caller =>
      let owner := caller.victim s id
      let queue := if (s.workers owner).queue.isSome then some owner else none
      (s, .inl (.pop id caller queue .loadHead))
  | .pop _ _ none _ => (s, .inr .crashed)
  | .pop id caller (some owner) pc =>
      match (s.workers owner).queue with
      | none => (s, .inr .crashed)
      | some q =>
          let (q, outcome) := imgQueuePop q pc
          (s.setWorker owner { s.workers owner with queue := some q },
            .inl (match outcome with
              | .inl pc => .pop id caller (some owner) pc
              | .inr result => afterPop s id caller result.task))
  | .global id pc =>
      match s.globalQueue with
      | none => (s, .inr .crashed)
      | some q =>
          let (q, outcome) := imgMpmcPop q choice.spurious pc
          ({ s with globalQueue := some q }, .inl (afterGlobal id outcome))
  | .execute id task =>
      ({ s with
          status := Function.update s.status task (some (if (s.workers id).ctx then 0 else -1)) },
        .inl (.running id))

def imgStartup : Program Startup Op Pc Result Choice where
  start
    | .work id => .work (.running id)
  access s pc choice :=
    match pc with
    | .init pc =>
        let (s, outcome) := imgSchedulerInitAccess s choice pc
        (s, outcome.map .init id)
    | .work pc =>
        let (s, outcome) := workerLoopAccess s choice pc
        (s, outcome.map .work id)

namespace ImgStartup

inductive Agent where
  | initialiser
  | worker (id : UInt32)
  deriving DecidableEq

abbrev State := Config Agent Startup Pc

abbrev History := List (Event Agent Op Pc Result)

-- img_scheduler_init has been called and has done nothing yet.
def called (workers : UInt32) : State where
  shared := .zero
  pc
    | .initialiser => some (.init (.enter workers))
    | .worker _ => none

-- A thread runs worker_loop once it has been created.
def Legal (config : State) : Turn Agent Op Choice → Prop
  | .call (.worker id) (.work id') => id' = id ∧ config.shared.created id
  | .call .initialiser _ => False
  | .access _ _ => True

-- A call of img_queue_pop with NULL.
def PopsNull : Event Agent Op Pc Result → Prop
  | .access _ _ (.inl (.work (.pop _ _ none .loadHead))) => True
  | _ => False

end ImgStartup

end ImgEngine.Runtime
