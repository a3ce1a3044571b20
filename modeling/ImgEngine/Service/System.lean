import ImgEngine.Service.Worker.Theorems
import ImgEngine.Library.Tokens

namespace ImgEngine.Service

open ImgEngine.Library.Tokens

deriving instance DecidableEq for JobPatch
deriving instance DecidableEq for EngineResult

-- The API, the broker and any number of workers. Each job has a row in the table of the
-- API, which update_job changes, and a task that a request handler of the API sends to
-- the broker and a worker takes from it.

-- How a PATCH request ends. requests.patch does not raise on an error status. When the
-- connection breaks it raises, and the API may have got the request or still get it.
inductive Answer where
  | answered
  | refused
  | broken (message : String)
deriving DecidableEq

-- Where process_image is: before each of its requests, in run_engine, and in self.retry.
inductive Stage where
  | started
  | working
  | reporting (result : EngineResult)
  | excepting (message : String)
  | retrying
deriving DecidableEq

-- A job whose row is committed and whose task is not sent, a message in the broker, a
-- worker at a task, and a PATCH request whose connection broke.
inductive Place where
  | sending
  | waiting (retries : Nat)
  | running (retries : Nat) (stage : Stage)
  | late (data : JobPatch)
deriving DecidableEq

-- A worker that dies leaves the request that it was making under way. The broker may
-- deliver a message again before it is acknowledged.
inductive Choice where
  | send (sent : Bool)
  | take
  | redeliver
  | patch (answer : Answer)
  | engine (outcome : EngineOutcome)
  | die
  | arrive

-- The bodies of the requests.

def JobPatch.processing : JobPatch := { status := some .processing, error := none, logs := none }

def JobPatch.retrying (message : String) : JobPatch :=
  { status := some .retrying, error := some message, logs := none }

def EngineResult.report (result : EngineResult) : JobPatch :=
  if result.returncode ≠ 0 then
    { status := some .failed, error := some result.stderr, logs := none }
  else
    { status := some .completed, error := none, logs := some result.stdout }

def Stage.request : Stage → Option JobPatch
  | .started => some .processing
  | .working => none
  | .reporting result => some result.report
  | .excepting message => some (.retrying message)
  | .retrying => none

-- Where a worker goes from a stage, and none when the task is over. An exception in the
-- handler goes to self.retry by autoretry_for, as the one at its end does, and self.retry
-- raises the exception when no retries are left.
def Stage.afterPatch (retries : Nat) (raised : Option String) : Stage → List Place
  | .started =>
      match raised with
      | some message => [.running retries (.excepting message)]
      | none => [.running retries .working]
  | .reporting _ =>
      match raised with
      | some message => [.running retries (.excepting message)]
      | none => []
  | .excepting _ => if retries < maxRetries then [.running retries .retrying] else []
  | .working | .retrying => []

def Stage.afterEngine (retries : Nat) : EngineOutcome → List Place
  | .returned result => [.running retries (.reporting result)]
  | .raised message => [.running retries (.excepting message)]

def Place.next : Place → Choice → Option (List Place)
  | .sending, .send sent => some (if sent then [.waiting 0] else [])
  | .waiting retries, .take => some [.running retries .started]
  | .waiting retries, .redeliver => some [.waiting retries, .waiting retries]
  | .running retries .working, .engine outcome => some (Stage.afterEngine retries outcome)
  | .running retries .retrying, .send sent => some (if sent then [.waiting (retries + 1)] else [])
  | .running retries stage, .patch answer =>
      stage.request.map fun data =>
        match answer with
        | .answered | .refused => stage.afterPatch retries none
        | .broken message => .late data :: stage.afterPatch retries (some message)
  | .running _ stage, .die => some (stage.request.map Place.late).toList
  | .late _, .arrive => some []
  | _, _ => none

-- The request of a move that reaches update_job.
def Place.delivers : Place → Choice → Option JobPatch
  | .running _ stage, .patch .answered => stage.request
  | .late data, .arrive => some data
  | _, _ => none

-- update_job loads the row, sets its fields and commits, and the commit writes the columns
-- whose values differ from those loaded. Here the two are one move, as the runs are those in
-- which the requests of one job are served one at a time. Requests of one job could overlap
-- only where a message is delivered again or the request of a broken connection is late.
def Place.act (jobId : String) (place : Place) (choice : Choice) (jobs : Jobs) : Jobs :=
  match place.delivers choice with
  | some data => (updateJob jobs jobId data).1
  | none => jobs

-- The row that a request leaves.
def JobPatch.apply (data : JobPatch) (job : Job) : Job where
  status := data.status.getD job.status
  error := data.error.or job.error
  logs := data.logs.or job.logs

-- The columns that the commit of update_job writes, from the row that it loaded.
def JobPatch.changes (data : JobPatch) (loaded : Job) : JobPatch where
  status := data.status.filter (· ≠ loaded.status)
  error := data.error.filter (some · ≠ loaded.error)
  logs := data.logs.filter (some · ≠ loaded.logs)

theorem JobPatch.apply_changes (data : JobPatch) (job : Job) :
    (data.changes job).apply job = data.apply job := by
  obtain ⟨status, error, logs⟩ := data
  have hstatus : (status.filter (· ≠ job.status)).getD job.status = status.getD job.status := by
    cases status with
    | none => rfl
    | some status => by_cases h : status = job.status <;> simp [Option.filter, h]
  have hcolumn : ∀ (column old : Option String),
      (column.filter (some · ≠ old)).or old = column.or old := by
    intro column old
    cases column with
    | none => rfl
    | some text =>
        by_cases h : some text = old
        · simp [Option.filter, ← h]
        · simp [Option.filter, h]
  simp only [JobPatch.changes, JobPatch.apply, hstatus, hcolumn]

theorem updateJob_row (jobs : Jobs) (jobId : String) (data : JobPatch) :
    (updateJob jobs jobId data).1 jobId = (jobs jobId).map data.apply := by
  cases hjob : jobs jobId with
  | none => simp [updateJob, hjob]
  | some job =>
      obtain ⟨status, error, logs⟩ := data
      cases status <;> cases error <;> cases logs <;> simp [updateJob, hjob, JobPatch.apply]

-- With no other request of the job between the load and the commit, the columns that the
-- commit writes leave the row that update_job has set.
theorem updateJob_commits (jobs : Jobs) (jobId : String) (data : JobPatch) :
    (updateJob jobs jobId data).1 jobId =
      (jobs jobId).map fun loaded => (data.changes loaded).apply loaded := by
  rw [updateJob_row]
  exact congrArg (Option.map · (jobs jobId)) (funext fun job => (data.apply_changes job).symm)

-- With a commit of another request in between, the status of one may stand beside the error
-- of the other.
example :
    let loaded : Job := { status := .processing, error := some "x", logs := none }
    let failed : JobPatch := { status := some .failed, error := some "x", logs := none }
    ((failed.changes loaded).apply ((JobPatch.retrying "e").apply loaded)) =
      { status := .failed, error := some "e", logs := none } := by decide

theorem act_row (jobId : String) (place : Place) (choice : Choice) (jobs : Jobs) :
    place.act jobId choice jobs jobId =
      (jobs jobId).map fun job => ((place.delivers choice).map JobPatch.apply).getD id job := by
  cases hdelivers : place.delivers choice with
  | none => simp [Place.act, hdelivers]
  | some data => simp [Place.act, hdelivers, updateJob_row]

-- The tasks and requests of a job as tokens that work on the row of the job.
def service : Protocol String Job Place Choice where
  firstRow := queuedJob
  firstPlace := .sending
  act := fun jobId place choice jobs => place.act jobId choice jobs
  next := Place.next
  act_other := by
    intro jobId other place choice jobs hother
    cases hdelivers : place.delivers choice with
    | none => simp only [Place.act, hdelivers]
    | some data => simp only [Place.act, hdelivers, updateJob_other data hother]
  act_own := by
    intro jobId place choice jobs jobs' hjobs
    rw [act_row, act_row, hjobs]
  act_isSome := by
    intro jobId place choice jobs hsome
    rw [act_row, Option.isSome_map]
    exact hsome

end ImgEngine.Service
