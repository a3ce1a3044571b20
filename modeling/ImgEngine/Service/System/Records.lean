import ImgEngine.Service.System.Steps

namespace ImgEngine.Service

open ImgEngine.Library.Tokens

variable {moves : List (String × Move Place Choice)} {state : State String Job Place}
  {jobId : String} {job : Job} {place : Place} {choice : Choice} {new : List Place}
  {done : List (Move Place Choice)} {data : JobPatch} {result : EngineResult}

-- A run of the engine of a job that returned.
def Ran (done : List (Move Place Choice)) (result : EngineResult) : Prop :=
  ∃ retries, .go (.running retries .working) (.engine (.returned result)) ∈ done

-- A final status comes with the output of a run of the engine that ended that way.
structure Job.Truthful (job : Job) (done : List (Move Place Choice)) : Prop where
  completed : job.status = .completed →
    ∃ result, Ran done result ∧ result.returncode = 0 ∧ job.logs = some result.stdout
  failed : job.status = .failed →
    ∃ result, Ran done result ∧ result.returncode ≠ 0 ∧ job.error = some result.stderr

-- A request that leaves such a record whatever the record was before.
def JobPatch.Truthful (data : JobPatch) (done : List (Move Place Choice)) : Prop :=
  ∀ job, (data.apply job).Truthful done

theorem Ran.append (h : Ran done result) (more : List (Move Place Choice)) :
    Ran (done ++ more) result := by
  obtain ⟨retries, hran⟩ := h
  exact ⟨retries, List.mem_append_left _ hran⟩

theorem Job.Truthful.append (h : job.Truthful done) (more : List (Move Place Choice)) :
    job.Truthful (done ++ more) where
  completed hstatus := by
    obtain ⟨result, hran, hrest⟩ := h.completed hstatus
    exact ⟨result, hran.append more, hrest⟩
  failed hstatus := by
    obtain ⟨result, hran, hrest⟩ := h.failed hstatus
    exact ⟨result, hran.append more, hrest⟩

theorem JobPatch.Truthful.append (h : data.Truthful done) (more : List (Move Place Choice)) :
    data.Truthful (done ++ more) := fun job => (h job).append more

-- Only the report of a run sets a final status.

theorem truthful_of_status {status : JobStatus} (hstatus : data.status = some status)
    (hfinal : ¬status.Final) (done : List (Move Place Choice)) : data.Truthful done := by
  intro job
  have hleft : (data.apply job).status = status := by simp [JobPatch.apply, hstatus]
  refine ⟨fun h => ?_, fun h => ?_⟩
  · exact absurd (.inl (hleft.symm.trans h)) hfinal
  · exact absurd (.inr (hleft.symm.trans h)) hfinal

theorem report_truthful (h : Ran done result) : result.report.Truthful done := by
  intro job
  by_cases hcode : result.returncode = 0
  · refine ⟨fun _ => ⟨result, h, hcode, ?_⟩, fun hfailed => ?_⟩
    · simp [EngineResult.report, hcode, JobPatch.apply]
    · simp [EngineResult.report, hcode, JobPatch.apply] at hfailed
  · refine ⟨fun hcompleted => ?_, fun _ => ⟨result, h, hcode, ?_⟩⟩
    · simp [EngineResult.report, hcode, JobPatch.apply] at hcompleted
    · simp [EngineResult.report, hcode, JobPatch.apply]

-- A worker that is about to report has seen the run, and so has a late request.
def Place.Truthful (done : List (Move Place Choice)) : Place → Prop
  | .running _ (.reporting result) => Ran done result
  | .late data => data.Truthful done
  | _ => True

theorem Place.Truthful.append (h : place.Truthful done) (more : List (Move Place Choice)) :
    place.Truthful (done ++ more) := by
  cases place with
  | running retries stage =>
      cases stage with
      | reporting result => exact Ran.append h more
      | started | working | excepting | retrying => trivial
  | late data => exact JobPatch.Truthful.append h more
  | sending | waiting => trivial

theorem request_truthful {retries : Nat} {stage : Stage} (hrequest : stage.request = some data)
    (h : (Place.running retries stage).Truthful done) : data.Truthful done := by
  cases stage with
  | started =>
      cases hrequest
      exact truthful_of_status rfl (by decide) done
  | reporting result =>
      cases hrequest
      exact report_truthful h
  | excepting message =>
      cases hrequest
      exact truthful_of_status rfl (by decide) done
  | working | retrying => cases hrequest

theorem afterPatch_truthful {retries : Nat} {stage : Stage} {raised : Option String} :
    ∀ next ∈ stage.afterPatch retries raised, next.Truthful done := by
  cases stage with
  | started => cases raised <;> simp [Stage.afterPatch, Place.Truthful]
  | reporting result => cases raised <;> simp [Stage.afterPatch, Place.Truthful]
  | excepting message =>
      by_cases hleft : retries < maxRetries <;> simp [Stage.afterPatch, hleft, Place.Truthful]
  | working | retrying => simp [Stage.afterPatch]

theorem goes_truthful (h : Goes place choice new) (htruthful : place.Truthful done) :
    ∀ next ∈ new, next.Truthful (done ++ [.go place choice]) := by
  cases h with
  | sent ok => cases ok <;> simp [Place.Truthful]
  | taken retries => simp [Place.Truthful]
  | redelivered retries => simp [Place.Truthful]
  | ran retries outcome =>
      cases outcome with
      | returned result =>
          intro next hnext
          cases List.mem_singleton.mp hnext
          exact ⟨retries, List.mem_append_right _ (List.mem_singleton.mpr rfl)⟩
      | raised message => simp [Stage.afterEngine, Place.Truthful]
  | retried retries ok => cases ok <;> simp [Place.Truthful]
  | patched hrequest retries hanswer => exact afterPatch_truthful
  | broke hrequest retries message =>
      exact List.forall_mem_cons.mpr
        ⟨(request_truthful hrequest htruthful).append _, afterPatch_truthful⟩
  | died retries stage =>
      intro next hnext
      obtain ⟨data, hrequest, rfl⟩ :
          ∃ data, stage.request = some data ∧ Place.late data = next := by
        simpa using hnext
      exact (request_truthful hrequest htruthful).append _
  | arrived data => exact fun _ hnext => absurd hnext List.not_mem_nil

theorem delivers_truthful (h : place.Truthful done)
    (hdelivers : place.delivers choice = some data) : data.Truthful done := by
  cases place with
  | running retries stage =>
      cases choice with
      | patch answer =>
          cases answer with
          | answered => exact request_truthful hdelivers h
          | refused | broken => cases hdelivers
      | send | take | redeliver | engine | die | arrive => cases hdelivers
  | late late =>
      cases choice with
      | arrive =>
          cases hdelivers
          exact h
      | send | take | redeliver | engine | die | patch => cases hdelivers
  | sending | waiting => cases choice <;> cases hdelivers

-- In every run, with requests lost, late or made twice, a job that is marked completed
-- or failed holds the output of a run of its own engine that ended that way.
theorem service_truthful (hrun : service.run .empty moves = some state)
    (hrow : state.rows jobId = some job) : job.Truthful (ofKey jobId moves) := by
  have hholds : (state.solo jobId).Holds (fun done job places =>
      job.Truthful done ∧ ∀ place ∈ places, place.Truthful done) (ofKey jobId moves) := by
    have hqueued : queuedJob.Truthful [.enter] :=
      ⟨fun h => absurd h (by decide), fun h => absurd h (by decide)⟩
    refine run_invariant jobId ⟨hqueued, by simp [service, Place.Truthful]⟩ ?_ hrun
    intro done job places place choice new job' hbefore hmem hnext hact
    obtain ⟨hjob, hplaces⟩ := hbefore
    have hplace := hplaces place hmem
    refine ⟨?_, fun next hnew => ?_⟩
    · rw [show service.act jobId place choice = place.act jobId choice from rfl, act_row] at hact
      cases hdelivers : place.delivers choice with
      | none =>
          rw [hdelivers] at hact
          cases hact
          exact hjob.append _
      | some data =>
          rw [hdelivers] at hact
          cases hact
          exact (delivers_truthful hplace hdelivers).append _ job
    · cases List.mem_append.mp hnew with
      | inl hnew => exact goes_truthful (next_goes hnext) hplace next hnew
      | inr hold => exact (hplaces next (List.mem_of_mem_erase hold)).append _
  simp only [Solo.Holds, State.solo, hrow] at hholds
  exact hholds.1

theorem service_truthful_twoJobs :
    Job.Truthful ⟨.completed, some "no memory", some "done"⟩ (ofKey "a" twoJobs) :=
  service_truthful run_twoJobs_eq (by decide)

-- A job that no connection breaks for and whose messages are delivered once has one thing
-- under way at most, and nothing when its status is final.

def Smooth (choice : Choice) : Prop :=
  choice ≠ .redeliver ∧ ∀ message, choice ≠ .patch (.broken message)

theorem afterPatch_length {retries : Nat} {stage : Stage} {raised : Option String} :
    (stage.afterPatch retries raised).length ≤ 1 := by
  cases stage with
  | started => cases raised <;> simp [Stage.afterPatch]
  | reporting result => cases raised <;> simp [Stage.afterPatch]
  | excepting message =>
      by_cases hleft : retries < maxRetries <;> simp [Stage.afterPatch, hleft]
  | working | retrying => simp [Stage.afterPatch]

theorem goes_length (h : Goes place choice new) (hsmooth : Smooth choice) : new.length ≤ 1 := by
  cases h with
  | sent ok => cases ok <;> simp
  | taken retries => simp
  | redelivered retries => exact absurd rfl hsmooth.1
  | ran retries outcome => cases outcome <;> simp [Stage.afterEngine]
  | retried retries ok => cases ok <;> simp
  | patched hrequest retries hanswer => exact afterPatch_length
  | broke hrequest retries message => exact absurd rfl (hsmooth.2 message)
  | died retries stage => cases stage <;> simp [Stage.request]
  | arrived data => simp

-- A request that arrives ends the task or sets a status that is not final.
theorem delivers_cases (h : Goes place choice new) (hdelivers : place.delivers choice = some data) :
    new = [] ∨ ∃ status, data.status = some status ∧ ¬status.Final := by
  cases h with
  | @patched stage _ hrequest retries answer hanswer =>
      cases answer with
      | answered =>
          cases stage with
          | started =>
              cases hdelivers
              exact .inr ⟨.processing, rfl, by decide⟩
          | reporting result => exact .inl rfl
          | excepting message =>
              cases hdelivers
              exact .inr ⟨.retrying, rfl, by decide⟩
          | working | retrying => cases hrequest
      | refused | broken => cases hdelivers
  | arrived data => exact .inl rfl
  | sent | taken | redelivered | ran | retried | broke | died => cases hdelivers

theorem run_quiet (hrun : service.run .empty moves = some state)
    (hrow : state.rows jobId = some job) (hfinal : job.status.Final)
    (hsmooth : ∀ place choice, (jobId, .go place choice) ∈ moves → Smooth choice) :
    ofKey jobId state.tokens = [] := by
  have hholds : (state.solo jobId).Holds (fun _ job places =>
      places.length ≤ 1 ∧ (job.status.Final → places = [])) (ofKey jobId moves) := by
    refine run_invariant_of jobId ⟨Nat.le_refl 1, by decide⟩ ?_ hrun hsmooth
    intro done job places place choice new job' ⟨hlength, hquiet⟩ hmem hchoice hnext hact
    have hgoes := next_goes hnext
    obtain rfl : places = [place] := by
      obtain ⟨only, honly⟩ := List.length_eq_one_iff.mp
        (Nat.le_antisymm hlength (List.length_pos_of_mem hmem))
      rw [honly, List.mem_singleton] at hmem
      rw [honly, hmem]
    have hnot : ¬job.status.Final := fun h => absurd (hquiet h) (List.cons_ne_nil _ _)
    rw [List.erase_cons_head, List.append_nil]
    refine ⟨goes_length hgoes hchoice, fun hfinal => ?_⟩
    rw [show service.act jobId place choice = place.act jobId choice from rfl, act_row] at hact
    cases hdelivers : place.delivers choice with
    | none =>
        rw [hdelivers] at hact
        cases hact
        exact absurd hfinal hnot
    | some data =>
        rw [hdelivers] at hact
        cases hact
        refine (delivers_cases hgoes hdelivers).resolve_right ?_
        rintro ⟨status, hstatus, hstays⟩
        simp only [Option.map_some, Option.getD_some, JobPatch.apply, hstatus] at hfinal
        exact hstays hfinal
  simp only [Solo.Holds, State.solo, hrow] at hholds
  exact hholds.2 hfinal

-- Then a final record stays as it is for ever.
theorem service_final {later : List (String × Move Place Choice)} {state' : State String Job Place}
    (hrun : service.run .empty moves = some state)
    (hlater : service.run state later = some state') (hrow : state.rows jobId = some job)
    (hfinal : job.status = .completed ∨ job.status = .failed)
    (honce : ∀ place, (jobId, .go place .redeliver) ∉ moves)
    (hwhole : ∀ place message, (jobId, .go place (.patch (.broken message))) ∉ moves) :
    state'.rows jobId = some job ∧ ∀ move, (jobId, move) ∉ later := by
  have hquiet := run_quiet hrun hrow hfinal fun place choice hmove => by
    refine ⟨?_, fun message => ?_⟩
    · rintro rfl
      exact honce place hmove
    · rintro rfl
      exact hwhole place message hmove
  obtain ⟨hnone, hsame⟩ := soloRun_through (run_solo hlater jobId) hrow hquiet
  refine ⟨?_, fun move hmove => ?_⟩
  · rw [← hrow]
    exact congrArg Solo.row hsame
  · have hown := mem_ofKey.mpr hmove
    rw [hnone] at hown
    exact absurd hown List.not_mem_nil

theorem service_final_lateRequest :
    ((service.run afterTwoJobs lateRequest).get (by decide)).rows "a" =
        some ⟨.completed, some "no memory", some "done"⟩ ∧
      ∀ move, ("a", move) ∉ lateRequest :=
  service_final run_twoJobs_eq (Option.some_get _).symm (by decide) (.inl rfl) (by simp [twoJobs])
    (by simp [twoJobs])

end ImgEngine.Service
