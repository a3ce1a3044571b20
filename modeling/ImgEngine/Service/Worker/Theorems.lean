import ImgEngine.Service.Worker
import Mathlib.Tactic.SplitIfs

namespace ImgEngine.Service

variable {jobs : Jobs} {jobId : String} {job : Job}

theorem updateJob_other {other : String} (data : JobPatch) (h : other ≠ jobId) :
    (updateJob jobs jobId data).1 other = jobs other := by
  unfold updateJob
  cases jobs jobId with
  | none => rfl
  | some job => exact Function.update_of_ne h _ _

-- A request with a status sets it.
theorem updateJob_status (h : jobs jobId = some job) (status : JobStatus)
    (error logs : Option String) :
    ∃ job', (updateJob jobs jobId { status := some status, error, logs }).1 jobId = some job' ∧
      job'.status = status := by
  rw [updateJob, h]
  refine ⟨_, Function.update_self _ _ _, ?_⟩
  cases logs <;> cases error <;> rfl

-- The status after an attempt says how the attempt ended.

def EngineOutcome.status : EngineOutcome → JobStatus
  | .raised _ => .retrying
  | .returned result => if result.returncode ≠ 0 then .failed else .completed

def EngineOutcome.Returned (outcome : EngineOutcome) : Prop := ∃ result, outcome = .returned result

theorem EngineOutcome.final_iff (outcome : EngineOutcome) :
    outcome.status.Final ↔ outcome.Returned := by
  cases outcome with
  | raised e => simp [EngineOutcome.status, JobStatus.Final, EngineOutcome.Returned]
  | returned result =>
      by_cases h : result.returncode = 0
      · simp [EngineOutcome.status, JobStatus.Final, EngineOutcome.Returned, h]
      · simp [EngineOutcome.status, JobStatus.Final, EngineOutcome.Returned, h]

theorem processImage_status (h : jobs jobId = some job) (outcome : EngineOutcome) :
    ∃ job', (processImage jobs jobId outcome).1 jobId = some job' ∧
      job'.status = outcome.status := by
  obtain ⟨processing, hprocessing, -⟩ := updateJob_status h .processing none none
  cases outcome with
  | raised e => exact updateJob_status hprocessing .retrying (some e) none
  | returned result =>
      rw [processImage]
      by_cases hcode : result.returncode = 0
      · have hcompleted := updateJob_status hprocessing .completed none (some result.stdout)
        simpa [EngineOutcome.status, hcode] using hcompleted
      · have hfailed := updateJob_status hprocessing .failed (some result.stderr) none
        simpa [EngineOutcome.status, hcode] using hfailed

theorem processImage_end (jobs : Jobs) (jobId : String) (outcome : EngineOutcome) :
    (processImage jobs jobId outcome).2 = .returned ↔ outcome.Returned := by
  cases outcome with
  | raised e => simp [processImage, EngineOutcome.Returned]
  | returned result =>
      rw [processImage]
      split_ifs <;> simp [EngineOutcome.Returned]

-- One round of the task: it stops when the attempt returned, else it is retried.

variable {runEngine : Nat → EngineOutcome} {attempt left : Nat}

theorem runTask_returned (h : (runEngine attempt).Returned) :
    runTask jobId runEngine (left + 1) attempt jobs =
      (processImage jobs jobId (runEngine attempt)).1 := by
  rw [← processImage_end jobs jobId] at h
  rw [runTask]
  cases hrun : processImage jobs jobId (runEngine attempt) with
  | mk jobs' stop =>
      obtain rfl : stop = .returned := by rwa [hrun] at h
      rfl

theorem runTask_retry (h : ¬(runEngine attempt).Returned) :
    runTask jobId runEngine (left + 1) attempt jobs =
      runTask jobId runEngine left (attempt + 1)
        (processImage jobs jobId (runEngine attempt)).1 := by
  rw [← processImage_end jobs jobId] at h
  rw [runTask]
  cases hrun : processImage jobs jobId (runEngine attempt) with
  | mk jobs' stop =>
      cases stop with
      | returned => exact absurd (by rw [hrun]) h
      | retry e => rfl

-- The task leaves the status of the first attempt that returns, or of the last one.
theorem runTask_final (runEngine : Nat → EngineOutcome) (left : Nat) :
    ∀ (attempt : Nat) {jobs : Jobs} {job : Job}, jobs jobId = some job →
      ∃ job', runTask jobId runEngine left attempt jobs jobId = some job' ∧
        (job'.status.Final ↔ ∃ i ≤ left, (runEngine (attempt + i)).Returned) := by
  induction left with
  | zero =>
      intro attempt jobs job h
      obtain ⟨job', hjob', hstatus⟩ := processImage_status h (runEngine attempt)
      refine ⟨job', by rw [runTask, hjob'], ?_⟩
      rw [hstatus, EngineOutcome.final_iff]
      simp
  | succ left ih =>
      intro attempt jobs job h
      obtain ⟨job', hjob', hstatus⟩ := processImage_status h (runEngine attempt)
      by_cases hreturned : (runEngine attempt).Returned
      · refine ⟨job', by rw [runTask_returned hreturned, hjob'], ?_⟩
        rw [hstatus, EngineOutcome.final_iff]
        exact ⟨fun _ => ⟨0, Nat.zero_le _, hreturned⟩, fun _ => hreturned⟩
      · obtain ⟨last, hlast, hfinal⟩ := ih (attempt + 1) hjob'
        refine ⟨last, by rw [runTask_retry hreturned, hlast], hfinal.trans ?_⟩
        constructor
        · intro ⟨i, hi, hat⟩
          exact ⟨i + 1, by omega, by rwa [Nat.add_right_comm, Nat.add_assoc] at hat⟩
        · intro ⟨i, hi, hat⟩
          cases i with
          | zero => exact absurd hat hreturned
          | succ i => exact ⟨i, by omega, by rwa [Nat.add_assoc, Nat.add_comm 1]⟩

-- A task leaves the records of all other jobs alone.
theorem runTask_other {other : String} (h : other ≠ jobId) (left : Nat) :
    ∀ {attempt : Nat} {jobs : Jobs},
      runTask jobId runEngine left attempt jobs other = jobs other := by
  have hattempt : ∀ (jobs : Jobs) (outcome : EngineOutcome),
      (processImage jobs jobId outcome).1 other = jobs other := by
    intro jobs outcome
    cases outcome with
    | raised e => exact (updateJob_other _ h).trans (updateJob_other _ h)
    | returned result =>
        rw [processImage]
        split_ifs <;> exact (updateJob_other _ h).trans (updateJob_other _ h)
  induction left with
  | zero =>
      intro attempt jobs
      rw [runTask, hattempt]
  | succ left ih =>
      intro attempt jobs
      by_cases hreturned : (runEngine attempt).Returned
      · rw [runTask_returned hreturned, hattempt]
      · rw [runTask_retry hreturned, ih, hattempt]

-- The stored status is final exactly when one of the four attempts returns.
theorem runTask_final_iff (runEngine : Nat → EngineOutcome) (jobs : Jobs) (jobId : String)
    (job : Job) (h : jobs jobId = some job) :
    (∃ job', runTask jobId runEngine maxRetries 0 jobs jobId = some job' ∧
      (job'.status = .completed ∨ job'.status = .failed)) ↔
      ∃ i ≤ maxRetries, ∃ result, runEngine i = .returned result := by
  obtain ⟨job', hjob', hfinal⟩ := runTask_final runEngine maxRetries 0 h
  simp only [Nat.zero_add] at hfinal
  simp only [hjob', Option.some.injEq, exists_eq_left']
  exact hfinal

-- A job whose engine is missing fails in every attempt.

def queuedJob : Job where
  status := .queued
  error := none
  logs := none

def oneJob : Jobs := fun jobId => if jobId = "job" then some queuedJob else none

def missingEngine : Nat → EngineOutcome := fun _ => .raised "No such file or directory"

theorem runTask_final_second :
    ∃ job', runTask "job" (fun i => if i = 1 then .returned ⟨0, "", ""⟩ else .raised "") maxRetries 0
        oneJob "job" = some job' ∧ (job'.status = .completed ∨ job'.status = .failed) :=
  (runTask_final_iff _ oneJob "job" queuedJob rfl).mpr ⟨1, by decide, ⟨0, "", ""⟩, rfl⟩

theorem runTask_staysRetrying :
    runTask "job" missingEngine maxRetries 0 oneJob "job" =
      some ⟨.retrying, some "No such file or directory", none⟩ := by
  decide

end ImgEngine.Service
