import ImgEngine.Service.System.Steps

namespace ImgEngine.Service

open ImgEngine.Library.Tokens

variable {moves : List (String × Move Place Choice)} {state : State String Job Place}
  {jobId : String} {place : Place} {choice : Choice} {new : List Place}
  {outcomes : Nat → EngineOutcome} {retries : Nat}

-- The last request of an attempt.
def EngineOutcome.last : EngineOutcome → JobPatch
  | .returned result => result.report
  | .raised message => .retrying message

-- It sets the status, so the record does not remember that the job was processing.
@[simp] theorem last_apply_processing (outcome : EngineOutcome) (job : Job) :
    outcome.last.apply (JobPatch.processing.apply job) = outcome.last.apply job := by
  cases outcome with
  | raised message => rfl
  | returned result =>
      by_cases hcode : result.returncode = 0 <;>
        simp [EngineOutcome.last, EngineResult.report, hcode, JobPatch.apply, JobPatch.processing]

theorem processImage_row (jobs : Jobs) (jobId : String) (outcome : EngineOutcome) :
    (processImage jobs jobId outcome).1 jobId = (jobs jobId).map outcome.last.apply := by
  have hprocessing := updateJob_row jobs jobId JobPatch.processing
  have hlast := updateJob_row (updateJob jobs jobId JobPatch.processing).1 jobId outcome.last
  rw [hprocessing, Option.map_map] at hlast
  have happly : outcome.last.apply ∘ JobPatch.processing.apply = outcome.last.apply :=
    funext fun job => last_apply_processing outcome job
  rw [happly] at hlast
  rw [← hlast]
  cases outcome with
  | raised message => rfl
  | returned result =>
      by_cases hcode : result.returncode = 0 <;>
        simp [processImage, EngineOutcome.last, EngineResult.report, hcode, JobPatch.processing]

-- The record that the attempts from the given one on leave.
def taskRow (outcomes : Nat → EngineOutcome) : Nat → Nat → Job → Job
  | 0, attempt, job => (outcomes attempt).last.apply job
  | left + 1, attempt, job =>
      match outcomes attempt with
      | .returned result => result.report.apply job
      | .raised message =>
          taskRow outcomes left (attempt + 1) ((JobPatch.retrying message).apply job)

theorem runTask_row (outcomes : Nat → EngineOutcome) (left : Nat) :
    ∀ (attempt : Nat) (jobs : Jobs), runTask jobId outcomes left attempt jobs jobId =
      (jobs jobId).map (taskRow outcomes left attempt) := by
  induction left with
  | zero => exact fun attempt jobs => processImage_row jobs jobId (outcomes attempt)
  | succ left ih =>
      intro attempt jobs
      have hrow := processImage_row jobs jobId (outcomes attempt)
      cases houtcome : outcomes attempt with
      | returned result =>
          rw [runTask_returned ⟨result, houtcome⟩, hrow, houtcome]
          congr 1
          funext job
          rw [taskRow, houtcome]
          rfl
      | raised message =>
          rw [runTask_retry (by rw [houtcome]; exact nofun), ih, hrow, houtcome, Option.map_map]
          congr 1
          funext job
          rw [taskRow, houtcome]
          rfl

theorem taskRow_processing (outcomes : Nat → EngineOutcome) (left attempt : Nat) (job : Job) :
    taskRow outcomes left attempt (JobPatch.processing.apply job) =
      taskRow outcomes left attempt job := by
  have hlast := last_apply_processing (outcomes attempt) job
  cases left with
  | zero => exact hlast
  | succ left =>
      rw [taskRow, taskRow]
      cases houtcome : outcomes attempt with
      | returned result =>
          rw [houtcome] at hlast
          exact hlast
      | raised message =>
          rw [houtcome] at hlast
          exact congrArg (taskRow outcomes left (attempt + 1)) hlast

-- The record that a job ends with when its task goes on undisturbed.
def Place.finish (outcomes : Nat → EngineOutcome) (job : Job) : Place → Job
  | .sending => taskRow outcomes maxRetries 0 job
  | .waiting retries | .running retries .started | .running retries .working =>
      taskRow outcomes (maxRetries - retries) retries job
  | .running _ (.reporting result) => result.report.apply job
  | .running retries (.excepting message) =>
      if retries < maxRetries then
        taskRow outcomes (maxRetries - (retries + 1)) (retries + 1)
          ((JobPatch.retrying message).apply job)
      else (JobPatch.retrying message).apply job
  | .running retries .retrying =>
      taskRow outcomes (maxRetries - (retries + 1)) (retries + 1) job
  | .late _ => job

-- Every message is sent and delivered once, every request is answered, no worker dies,
-- and the engine does in each attempt what `outcomes` says.
def Served (outcomes : Nat → EngineOutcome) : Place → Choice → Prop
  | _, .send sent => sent = true
  | _, .patch answer => answer = .answered
  | .running retries _, .engine outcome => outcome = outcomes retries
  | _, .redeliver | _, .die => False
  | _, _ => True

-- The one thing under way, and the record that it leads to.
inductive Leads (outcomes : Nat → EngineOutcome) (last job : Job) : List Place → Prop where
  | closed (hjob : job = last) : Leads outcomes last job []
  | pending (place : Place) (hlate : ∀ data, place ≠ .late data) (hlimited : place.Limited)
      (hfinish : place.finish outcomes job = last) : Leads outcomes last job [place]

theorem sending_ne_late (data : JobPatch) : Place.sending ≠ .late data := by
  intro h
  cases h

theorem waiting_ne_late (retries : Nat) (data : JobPatch) : Place.waiting retries ≠ .late data := by
  intro h
  cases h

theorem running_ne_late (retries : Nat) (stage : Stage) (data : JobPatch) :
    Place.running retries stage ≠ .late data := by
  intro h
  cases h

theorem leads_engine (hlimited : retries ≤ maxRetries) {last job : Job}
    (hfinish : taskRow outcomes (maxRetries - retries) retries job = last) :
    Leads outcomes last job (Stage.afterEngine retries (outcomes retries)) := by
  cases houtcome : outcomes retries with
  | returned result =>
      refine .pending _ (running_ne_late _ _) hlimited ?_
      rw [← hfinish, Place.finish]
      cases maxRetries - retries <;> simp [taskRow, houtcome, EngineOutcome.last]
  | raised message =>
      refine .pending _ (running_ne_late _ _) hlimited ?_
      rw [← hfinish, Place.finish]
      by_cases hleft : retries < maxRetries
      · obtain ⟨left, hsucc⟩ : ∃ left, maxRetries - retries = left + 1 :=
          ⟨maxRetries - retries - 1, by omega⟩
        have hnext : maxRetries - (retries + 1) = left := by omega
        rw [if_pos hleft, hsucc, hnext, taskRow, houtcome]
      · rw [if_neg hleft, Nat.sub_eq_zero_of_le (Nat.le_of_not_lt hleft), taskRow, houtcome]
        rfl

theorem leads_answered {stage : Stage} {data : JobPatch} {last job : Job}
    (hrequest : stage.request = some data) (hlimited : (Place.running retries stage).Limited)
    (hfinish : (Place.running retries stage).finish outcomes job = last) :
    Leads outcomes last (data.apply job) (stage.afterPatch retries none) := by
  cases stage with
  | started =>
      cases hrequest
      refine .pending _ (running_ne_late _ _) hlimited ?_
      rw [← hfinish]
      exact taskRow_processing outcomes (maxRetries - retries) retries job
  | reporting result =>
      cases hrequest
      exact .closed hfinish
  | excepting message =>
      cases hrequest
      rw [Place.finish] at hfinish
      rw [Stage.afterPatch]
      by_cases hleft : retries < maxRetries
      · rw [if_pos hleft] at hfinish ⊢
        exact .pending _ (running_ne_late _ _) hleft hfinish
      · rw [if_neg hleft] at hfinish ⊢
        exact .closed hfinish
  | working | retrying => cases hrequest

theorem leads_step {last job job' : Job} {places : List Place}
    (h : Leads outcomes last job places) (hmem : place ∈ places)
    (hserved : Served outcomes place choice) (hgoes : Goes place choice new)
    (hact : place.act jobId choice (fun _ => some job) jobId = some job') :
    Leads outcomes last job' (new ++ places.erase place) := by
  cases h with
  | closed hjob => exact absurd hmem List.not_mem_nil
  | pending place hlate hlimited hfinish =>
      cases List.mem_singleton.mp hmem
      rw [List.erase_cons_head, List.append_nil]
      rw [act_row] at hact
      cases hgoes with
      | sent ok =>
          cases hact
          obtain rfl : ok = true := hserved
          exact .pending _ (waiting_ne_late _) (Nat.zero_le _) hfinish
      | taken retries =>
          cases hact
          exact .pending _ (running_ne_late _ _) hlimited hfinish
      | redelivered retries => exact absurd hserved id
      | ran retries outcome =>
          cases hact
          obtain rfl : outcome = outcomes retries := hserved
          exact leads_engine hlimited hfinish
      | retried retries ok =>
          cases hact
          obtain rfl : ok = true := hserved
          exact .pending _ (waiting_ne_late _) (Nat.succ_le_of_lt hlimited) hfinish
      | @patched stage data hrequest retries answer hanswer =>
          obtain rfl : answer = .answered := hserved
          simp only [Place.delivers, hrequest, Option.map_some, Option.getD_some,
            Option.some.injEq] at hact
          rw [← hact]
          exact leads_answered hrequest hlimited hfinish
      | broke hrequest retries message => exact absurd hserved nofun
      | died retries stage => exact absurd hserved id
      | arrived data => exact absurd rfl (hlate data)

-- In any order of the moves of all jobs, with any number of workers, an undisturbed job
-- ends with the record of the attempts made one after the other.
theorem service_refines (hrun : service.run .empty moves = some state)
    (outcomes : Nat → EngineOutcome) (jobs : Jobs) (hqueued : jobs jobId = some queuedJob)
    (hserved : ∀ place choice, (jobId, .go place choice) ∈ moves → Served outcomes place choice)
    (hentered : (state.rows jobId).isSome) (hover : ∀ place, (jobId, place) ∉ state.tokens) :
    state.rows jobId = runTask jobId outcomes maxRetries 0 jobs jobId := by
  have hholds : (state.solo jobId).Holds (fun _ job places =>
      Leads outcomes (taskRow outcomes maxRetries 0 queuedJob) job places)
      (ofKey jobId moves) := by
    refine run_invariant_of jobId (.pending .sending sending_ne_late trivial rfl) ?_ hrun hserved
    intro done job places place choice new job' hleads hmem hchoice hnext hact
    exact leads_step hleads hmem hchoice (next_goes hnext) hact
  obtain ⟨job, hrow⟩ := Option.isSome_iff_exists.mp hentered
  have hnone : ofKey jobId state.tokens = [] :=
    List.eq_nil_iff_forall_not_mem.mpr fun place hplace => hover place (mem_ofKey.mp hplace)
  simp only [Solo.Holds, State.solo, hrow, hnone] at hholds
  rw [runTask_row, hqueued, hrow]
  cases hholds with
  | closed hjob => exact congrArg some hjob

theorem service_refines_twoJobs :
    afterTwoJobs.rows "a" = runTask "a"
      (fun attempt => if attempt = 0 then .raised "no memory" else .returned ⟨0, "done", ""⟩)
      maxRetries 0 (fun _ => some queuedJob) "a" := by
  refine service_refines run_twoJobs_eq _ _ rfl (fun place choice hmove => ?_) (by decide)
    fun place hplace => ?_
  · simp [twoJobs] at hmove
    obtain ⟨rfl, rfl⟩ | ⟨rfl, rfl⟩ | ⟨rfl, rfl⟩ | ⟨rfl, rfl⟩ | ⟨rfl, rfl⟩ | ⟨rfl, rfl⟩ |
      ⟨rfl, rfl⟩ | ⟨rfl, rfl⟩ | ⟨rfl, rfl⟩ | ⟨rfl, rfl⟩ := hmove <;> simp [Served]
  · have hnone : ofKey "a" afterTwoJobs.tokens = [] := by decide
    exact List.not_mem_nil (hnone ▸ mem_ofKey.mpr hplace)

end ImgEngine.Service
