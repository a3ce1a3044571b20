import Mathlib.Logic.Function.Basic

namespace ImgEngine.Service

inductive JobStatus where
  | queued
  | processing
  | retrying
  | completed
  | failed
deriving DecidableEq, Repr

structure Job where
  status : JobStatus
  error : Option String
  logs : Option String
deriving DecidableEq

-- The body of a PATCH request. A key that is not in it is none.
structure JobPatch where
  status : Option JobStatus
  error : Option String
  logs : Option String

-- The table of jobs by their id.
abbrev Jobs := String → Option Job

-- The table after the request and the key and value of the answer.
def updateJob (jobs : Jobs) (jobId : String) (data : JobPatch) : Jobs × String × String :=
  match jobs jobId with
  | none => (jobs, "error", "Job not found")
  | some job =>
      let job := match data.status with
        | some status => { job with status }
        | none => job
      let job := match data.logs with
        | some logs => { job with logs := some logs }
        | none => job
      let job := match data.error with
        | some error => { job with error := some error }
        | none => job
      (Function.update jobs jobId (some job), "message", "updated")

-- What run_engine returns, or the text of the exception it raises.

structure EngineResult where
  returncode : Int
  stdout : String
  stderr : String

inductive EngineOutcome where
  | returned (result : EngineResult)
  | raised (message : String)

-- An attempt ends normally or raises self.retry.
inductive AttemptEnd where
  | returned
  | retry (message : String)
deriving DecidableEq

def processImage (jobs : Jobs) (jobId : String) (runEngine : EngineOutcome) : Jobs × AttemptEnd :=
  let jobs := (updateJob jobs jobId { status := some .processing, error := none, logs := none }).1
  match runEngine with
  | .raised e =>
      ((updateJob jobs jobId { status := some .retrying, error := some e, logs := none }).1,
        .retry e)
  | .returned result =>
      if result.returncode ≠ 0 then
        ((updateJob jobs jobId
          { status := some .failed, error := some result.stderr, logs := none }).1, .returned)
      else
        ((updateJob jobs jobId
          { status := some .completed, error := none, logs := some result.stdout }).1, .returned)

def maxRetries : Nat := 3

-- The attempts from the given one on, after which `left` more may follow: a task
-- that raised is run again as long as retries are left.
def runTask (jobId : String) (runEngine : Nat → EngineOutcome) : Nat → Nat → Jobs → Jobs
  | 0, attempt, jobs => (processImage jobs jobId (runEngine attempt)).1
  | left + 1, attempt, jobs =>
      match processImage jobs jobId (runEngine attempt) with
      | (jobs, .returned) => jobs
      | (jobs, .retry _) => runTask jobId runEngine left (attempt + 1) jobs

def JobStatus.Final (status : JobStatus) : Prop := status = .completed ∨ status = .failed

instance (status : JobStatus) : Decidable status.Final :=
  inferInstanceAs (Decidable (_ ∨ _))

end ImgEngine.Service
