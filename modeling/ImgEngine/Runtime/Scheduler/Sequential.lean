import ImgEngine.Library.Sequential
import ImgEngine.Library.TaskBag
import ImgEngine.Runtime.Scheduler

namespace ImgEngine.Runtime

open ImgEngine.Library.Interleaving
open ImgEngine.Library.TaskBag
open scoped List

namespace ImgSched

-- The calls that move tasks: img_scheduler_submit, img_queue_pop by a worker on its
-- own queue, and img_scheduler_steal.
inductive Call where
  | submit (task : Ptr)
  | pop (id : UInt32)
  | steal (id : UInt32)
  deriving DecidableEq

-- Where a thread stands in img_scheduler_steal: before the test of round i, in the
-- pop from the victim's ring, or in the pop from the global queue.
inductive StealPc where
  | round (id i : UInt32)
  | ring (id i victim : UInt32) (pc : ImgSpsc.PopPc)
  | global (pc : ImgMpmc.PopPc)
  deriving DecidableEq

inductive CallPc where
  | submit (pc : SubmitPc)
  | pop (id : UInt32) (pc : ImgSpsc.PopPc)
  | steal (pc : StealPc)
  deriving DecidableEq

-- What a call returns: the status of img_scheduler_submit, and the pointer of the
-- others, which may be NULL.
inductive Answer where
  | status (result : Result)
  | task (task : Ptr)
  deriving DecidableEq

end ImgSched

open ImgSched

def stealRing (id i victim : UInt32) : ImgSpsc.PopPc ⊕ ImgSpsc.Result → StealPc ⊕ Ptr
  | .inl pc => .inl (.ring id i victim pc)
  | .inr result => if result.task = 0 then .inl (.round id (i + 1)) else .inr result.task

-- One access of img_scheduler_steal.
def imgSchedulerSteal (s : ImgScheduler) (choice : Choice) :
    StealPc → ImgScheduler × (StealPc ⊕ Ptr)
  | .round id i =>
      (s, .inl (if i < s.workerCount then .ring id i (victim s id i) .loadHead
        else .global .loadHead))
  | .ring id i victim pc =>
      let (q, outcome) := imgQueuePop (s.queue victim) pc
      (s.setQueue victim q, stealRing id i victim outcome)
  | .global pc =>
      let (q, outcome) := imgMpmcPop s.globalQueue choice.spurious pc
      ({ s with globalQueue := q }, outcome.map .global ImgMpmc.Result.task)

def imgSchedulerCalls : Program ImgScheduler Call CallPc Answer Choice where
  start
    | .submit task => .submit (.target task)
    | .pop id => .pop id .loadHead
    | .steal id => .steal (.round id 0)
  access s pc choice :=
    match pc with
    | .submit pc =>
        let (s, outcome) := imgSchedulerSubmit s choice pc
        (s, outcome.map .submit .status)
    | .pop id pc =>
        let (q, outcome) := imgQueuePop (s.queue id) pc
        (s.setQueue id q, outcome.map (.pop id) fun result => .task result.task)
    | .steal pc =>
        let (s, outcome) := imgSchedulerSteal s choice pc
        (s, outcome.map .steal .task)

namespace ImgSched

-- What the scheduler holds, by queue.
def bag (s : ImgScheduler) : Bag UInt32 Ptr where
  shelf id := ImgSpsc.contents 10 (s.queue id)
  shared := inGlobal s.globalQueue

-- The worker whose ring img_scheduler_submit tries.
def target (s : ImgScheduler) (task : Ptr) : UInt32 := (task % s.workerCount.toUInt64).toUInt32

-- The workers self + 1, …, self + n modulo n.
def stealOrder (s : ImgScheduler) (self : UInt32) : List UInt32 :=
  (cyclic s.workerCount.toNat self.toNat).map UInt32.ofNat

def Legal (workers : UInt32) : Call → Prop
  | .submit _ => True
  | .pop id => id < workers
  | .steal id => id < workers

-- The tasks that a call put into the scheduler or took out of it.

def accept : Call × Answer → Option Ptr
  | (.submit task, .status .submitted) => some task
  | _ => none

def deliver : Call × Answer → Option Ptr
  | (_, .task task) => if task = 0 then none else some task
  | _ => none

-- A task goes into one queue, for the result 0, unless its ring holds 1023 tasks and
-- the global queue 1024.
def Submits (s : ImgScheduler) (task : Ptr) (next : ImgScheduler) (answer : Answer) : Prop :=
  match (bag s).put 1023 1024 (target s task) task with
  | some bag' => answer = .status .submitted ∧ bag next = bag'
  | none => answer = .status .rejected ∧ next = s

-- A task leaves the scheduler, or NULL is returned and nothing changes.
def Yields (s : ImgScheduler) (taken : Option (Ptr × Bag UInt32 Ptr)) (next : ImgScheduler)
    (answer : Answer) : Prop :=
  match taken with
  | some (task, bag') => task ≠ 0 ∧ answer = .task task ∧ bag next = bag'
  | none => answer = .task 0 ∧ next = s

-- The scheduler as a bag of tasks. The calls made before are any that start from
-- `first`, each legal and alone, and a call meets any spurious failures.
structure ServesBag (first : ImgScheduler) : Prop where
  held : ∀ log s, imgSchedulerCalls.Calls (Legal first.workerCount) first log s →
    log.filterMap accept ~ log.filterMap deliver ++ (inRings s ++ inGlobal s.globalQueue)
  finishes : ∀ log s, imgSchedulerCalls.Calls (Legal first.workerCount) first log s →
    ∀ call, Legal first.workerCount call → ∀ choice, choice.spurious = false →
      imgSchedulerCalls.Finishes choice s (imgSchedulerCalls.start call)
  submit : ∀ log s, imgSchedulerCalls.Calls (Legal first.workerCount) first log s →
    ∀ task ≠ 0, ∀ next answer,
      imgSchedulerCalls.Returns s (imgSchedulerCalls.start (.submit task)) next answer →
        Submits s task next answer
  null : ∀ log s, imgSchedulerCalls.Calls (Legal first.workerCount) first log s →
    ∀ next answer,
      imgSchedulerCalls.Returns s (imgSchedulerCalls.start (.submit 0)) next answer →
        answer = .status .rejected ∧ next = s
  pop : ∀ log s, imgSchedulerCalls.Calls (Legal first.workerCount) first log s →
    ∀ id < first.workerCount, ∀ next answer,
      imgSchedulerCalls.Returns s (imgSchedulerCalls.start (.pop id)) next answer →
        Yields s ((bag s).take id) next answer
  steal : ∀ log s, imgSchedulerCalls.Calls (Legal first.workerCount) first log s →
    ∀ id < first.workerCount, ∀ next answer,
      imgSchedulerCalls.Returns s (imgSchedulerCalls.start (.steal id)) next answer →
        Yields s ((bag s).steal (stealOrder s id)) next answer ∧
          (answer = .task 0 ↔ inRings s ++ inGlobal s.globalQueue = [])

end ImgSched

end ImgEngine.Runtime
