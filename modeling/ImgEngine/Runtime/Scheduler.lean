import ImgEngine.Runtime.QueueMpmc
import ImgEngine.Runtime.QueueSpsc

namespace ImgEngine.Runtime

open ImgEngine.Library.Interleaving

-- img_scheduler_t, with the fields of its workers as maps from the worker's id.
structure ImgScheduler where
  workerCount : UInt32
  queue : UInt32 → ImgQueue
  globalQueue : ImgMpmcQueue
  -- what a worker stored in task->status
  status : Ptr → Option Int

-- The scheduler when every allocation finds memory, and none for the result -1.
-- img_worker_init gives each worker a ring of 2^10 slots.
def imgSchedulerInit (workers : UInt32) : Option ImgScheduler :=
  if workers = 0 then none
  else
    (imgMpmcInit (fun _ => true) 1024).map fun globalQueue =>
      { workerCount := workers, queue := fun _ => imgQueueCreate 10, globalQueue,
        status := fun _ => none }

namespace ImgSched

inductive Op where
  | submit (task : Ptr)
  | work (id : UInt32)
  deriving DecidableEq

-- Where a thread stands in img_scheduler_submit: before choosing the worker, in
-- img_queue_push on that worker's ring, or in img_mpmc_push.
inductive SubmitPc where
  | target (task : Ptr)
  | ring (target : UInt32) (pc : ImgSpsc.PushPc)
  | global (pc : ImgMpmc.PushPc)
  deriving DecidableEq

-- Where a worker stands in worker_loop: before reading running, in the pop from
-- its own ring, in round i of img_scheduler_steal, in the pop from the global
-- queue, or in possession of a task.
inductive WorkerPc where
  | running (id : UInt32)
  | own (id : UInt32) (pc : ImgSpsc.PopPc)
  | steal (id : UInt32) (i : UInt32) (pc : ImgSpsc.PopPc)
  | global (id : UInt32) (pc : ImgMpmc.PopPc)
  | execute (id : UInt32) (task : Ptr)
  deriving DecidableEq

inductive Pc where
  | submit (pc : SubmitPc)
  | work (pc : WorkerPc)
  deriving DecidableEq

-- The results 0 and -1 of img_scheduler_submit, and the end of worker_loop.
inductive Result where
  | submitted
  | rejected
  | stopped
  deriving DecidableEq

-- What is left open: what a worker reads in running and in ctx, and whether a
-- compare-exchange fails spuriously.
structure Choice where
  running : Bool
  ctx : Bool
  spurious : Bool

end ImgSched

open ImgSched

def ImgMpmc.PushPc.data : ImgMpmc.PushPc → Ptr
  | .loadTail data | .loadSeq data _ | .exchange data _ | .writeData data _
  | .storeSeq data _ => data

-- The pointer that a pop returns, NULL when it found nothing.

def ImgSpsc.Result.task : ImgSpsc.Result → Ptr
  | .popped data => data
  | _ => 0

def ImgMpmc.Result.task : ImgMpmc.Result → Ptr
  | .popped data => data
  | _ => 0

def ImgScheduler.setQueue (s : ImgScheduler) (id : UInt32) (q : ImgQueue) : ImgScheduler :=
  { s with queue := Function.update s.queue id q }

-- Where img_scheduler_submit goes on after an access of either push.

def submitRing (target : UInt32) (task : Ptr) :
    ImgSpsc.PushPc ⊕ ImgSpsc.Result → SubmitPc ⊕ Result
  | .inl pc => .inl (.ring target pc)
  | .inr .pushed => .inr .submitted
  | .inr _ => .inl (.global (.loadTail task))

def submitGlobal : ImgMpmc.PushPc ⊕ ImgMpmc.Result → SubmitPc ⊕ Result
  | .inl pc => .inl (.global pc)
  | .inr .pushed => .inr .submitted
  | .inr _ => .inr .rejected

-- One access of img_scheduler_submit.
def imgSchedulerSubmit (s : ImgScheduler) (choice : Choice) :
    SubmitPc → ImgScheduler × (SubmitPc ⊕ Result)
  | .target task =>
      if task = 0 then (s, .inr .rejected)
      else (s, .inl (.ring (task % s.workerCount.toUInt64).toUInt32 (.loadTail task)))
  | .ring target pc =>
      let (q, outcome) := imgQueuePush (s.queue target) pc
      (s.setQueue target q, submitRing target pc.data outcome)
  | .global pc =>
      let (q, outcome) := imgMpmcPush s.globalQueue choice.spurious pc
      ({ s with globalQueue := q }, submitGlobal outcome)

-- Where worker_loop goes on with a task, or with none.
def got (id : UInt32) (task : Ptr) (otherwise : WorkerPc) : WorkerPc :=
  if task = 0 then otherwise else .execute id task

def popRing (id : UInt32) (again : ImgSpsc.PopPc → WorkerPc) (otherwise : WorkerPc) :
    ImgSpsc.PopPc ⊕ ImgSpsc.Result → WorkerPc
  | .inl pc => again pc
  | .inr result => got id result.task otherwise

def popGlobal (id : UInt32) : ImgMpmc.PopPc ⊕ ImgMpmc.Result → WorkerPc
  | .inl pc => .global id pc
  | .inr result => got id result.task (.running id)

def victim (s : ImgScheduler) (id i : UInt32) : UInt32 := (id + i + 1) % s.workerCount

-- One access of worker_loop, with img_scheduler_steal inside it. A worker without
-- a ctx only stores the status -1.
def workerLoop (s : ImgScheduler) (choice : Choice) :
    WorkerPc → ImgScheduler × (WorkerPc ⊕ Result)
  | .running id => (s, if choice.running then .inl (.own id .loadHead) else .inr .stopped)
  | .own id pc =>
      let (q, outcome) := imgQueuePop (s.queue id) pc
      (s.setQueue id q, .inl (popRing id (.own id) (.steal id 0 .loadHead) outcome))
  | .steal id i pc =>
      let (q, outcome) := imgQueuePop (s.queue (victim s id i)) pc
      let otherwise :=
        if i + 1 < s.workerCount then .steal id (i + 1) .loadHead else .global id .loadHead
      (s.setQueue (victim s id i) q, .inl (popRing id (.steal id i) otherwise outcome))
  | .global id pc =>
      let (q, outcome) := imgMpmcPop s.globalQueue choice.spurious pc
      ({ s with globalQueue := q }, .inl (popGlobal id outcome))
  | .execute id task =>
      ({ s with status := Function.update s.status task (some (if choice.ctx then 0 else -1)) },
        .inl (.running id))

def imgScheduler : Program ImgScheduler Op Pc Result Choice where
  start
    | .submit task => .submit (.target task)
    | .work id => .work (.running id)
  access s pc choice :=
    match pc with
    | .submit pc =>
        let (s, outcome) := imgSchedulerSubmit s choice pc
        (s, outcome.map .submit id)
    | .work pc =>
        let (s, outcome) := workerLoop s choice pc
        (s, outcome.map .work id)

namespace ImgSched

-- The threads: one for each worker, and any number of clients that submit.
inductive Agent (Client : Type) where
  | worker (id : UInt32)
  | client (client : Client)
  deriving DecidableEq

variable {Client : Type}

abbrev State (Client : Type) := Config (Agent Client) ImgScheduler Pc

abbrev History (Client : Type) := List (Event (Agent Client) Op Pc Result)

def idle (Client : Type) (s : ImgScheduler) : State Client := { shared := s, pc := fun _ => none }

def Contract (workers : UInt32) : Turn (Agent Client) Op Choice → Prop
  | .call (.worker id) (.work id') => id' = id ∧ id < workers
  | .call (.client _) (.submit _) => True
  | .call _ _ => False
  | .access _ _ => True

-- The tasks passed to img_scheduler_submit, those for which it returned 0, those
-- that a worker took out of a queue, and those that a worker is done with.

def submitCall : Event (Agent Client) Op Pc Result → Option Ptr
  | .call _ (.submit task) => some task
  | _ => none

def submitReturn : Event (Agent Client) Op Pc Result → Option Ptr
  | .access _ (.submit (.ring _ pc)) (.inr .submitted) => some pc.data
  | .access _ (.submit (.global pc)) (.inr .submitted) => some pc.data
  | _ => none

def take : Event (Agent Client) Op Pc Result → Option Ptr
  | .access _ _ (.inl (.work (.execute _ task))) => some task
  | _ => none

def finish : Event (Agent Client) Op Pc Result → Option Ptr
  | .access _ (.work (.execute _ task)) _ => some task
  | _ => none

-- The places a task can be in.

def workerIds (s : ImgScheduler) : List UInt32 :=
  (List.range s.workerCount.toNat).map UInt32.ofNat

-- In the ring of a worker, between head and tail.
def inRings (s : ImgScheduler) : List Ptr :=
  (workerIds s).flatMap fun id => ImgSpsc.contents 10 (s.queue id)

-- In the global queue, in a published cell between head and tail.
def inGlobal (q : ImgMpmcQueue) : List Ptr :=
  (List.range (q.tail - q.head).toNat).filterMap fun j =>
    let pos := q.head + UInt64.ofNat j
    if (q.cell pos).seq = pos + 1 then some (q.cell pos).data else none

-- In the hands of a worker, from the claim of a cell in the global queue on.
def inHands (q : ImgMpmcQueue) : Option Pc → List Ptr
  | some (.work (.execute _ task)) => [task]
  | some (.work (.global _ (.readData pos))) => [(q.cell pos).data]
  | some (.work (.global _ (.storeSeq _ data))) => [data]
  | _ => []

def places (config : State Client) (events : History Client) : List Ptr :=
  inRings config.shared ++ inGlobal config.shared.globalQueue ++
    (workerIds config.shared).flatMap (fun id =>
      inHands config.shared.globalQueue (config.pc (.worker id))) ++
    events.filterMap finish

structure ExactlyOnce (config : State Client) (events : History Client) : Prop where
  onePlace : ∀ task ∈ events.filterMap submitReturn, (places config events).count task = 1
  takenOnce : ∀ task ∈ events.filterMap submitReturn, (events.filterMap take).count task ≤ 1

-- No access to a ring or to the global queue is stale.
def FreshAccess (s : ImgScheduler) : Pc → Prop
  | .submit (.ring target pc) => ImgSpsc.FreshPush (s.queue target) pc
  | .submit (.global pc) => ImgMpmc.FreshExchange s.globalQueue (.push pc)
  | .work (.own id pc) => ImgSpsc.FreshPop (s.queue id) pc
  | .work (.steal id i pc) => ImgSpsc.FreshPop (s.queue (victim s id i)) pc
  | .work (.global _ pc) => ImgMpmc.FreshExchange s.globalQueue (.pop pc)
  | _ => True

def Fresh (config : State Client) : Turn (Agent Client) Op Choice → Prop
  | .call _ _ => True
  | .access agent _ =>
      match config.pc agent with
      | some pc => FreshAccess config.shared pc
      | none => True

instance (workers : UInt32) : ∀ turn : Turn (Agent Client) Op Choice,
    Decidable (Contract workers turn)
  | .call (.worker id) (.work id') => inferInstanceAs (Decidable (id' = id ∧ id < workers))
  | .call (.worker _) (.submit _) => inferInstanceAs (Decidable False)
  | .call (.client _) (.work _) => inferInstanceAs (Decidable False)
  | .call (.client _) (.submit _) => inferInstanceAs (Decidable True)
  | .access _ _ => inferInstanceAs (Decidable True)

instance (s : ImgScheduler) : ∀ pc, Decidable (FreshAccess s pc)
  | .submit (.target _) => inferInstanceAs (Decidable True)
  | .submit (.ring target pc) => inferInstanceAs (Decidable (ImgSpsc.FreshPush (s.queue target) pc))
  | .submit (.global pc) =>
      inferInstanceAs (Decidable (ImgMpmc.FreshExchange s.globalQueue (.push pc)))
  | .work (.running _) => inferInstanceAs (Decidable True)
  | .work (.own id pc) => inferInstanceAs (Decidable (ImgSpsc.FreshPop (s.queue id) pc))
  | .work (.steal id i pc) =>
      inferInstanceAs (Decidable (ImgSpsc.FreshPop (s.queue (victim s id i)) pc))
  | .work (.global _ pc) =>
      inferInstanceAs (Decidable (ImgMpmc.FreshExchange s.globalQueue (.pop pc)))
  | .work (.execute _ _) => inferInstanceAs (Decidable True)

instance (config : State Client) : ∀ turn, Decidable (Fresh config turn)
  | .call _ _ => inferInstanceAs (Decidable True)
  | .access agent _ =>
      match h : config.pc agent with
      | some pc => decidable_of_iff (FreshAccess config.shared pc) (by simp [Fresh, h])
      | none => isTrue (by simp [Fresh, h])

end ImgSched

end ImgEngine.Runtime
