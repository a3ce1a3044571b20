import ImgEngine.Service.System.Steps

namespace ImgEngine.Service

open ImgEngine.Library.Tokens

variable {moves : List (String × Move Place Choice)} {state : State String Job Place}
  {jobId : String} {place : Place} {choice : Choice} {new : List Place}

-- What each place may still spend: tasks, runs of the engine, moves of any kind.

def Place.tasks : Place → Nat
  | .sending | .waiting _ | .running _ _ => 1
  | .late _ => 0

def Place.engineRuns : Place → Nat
  | .sending => maxRetries + 1
  | .waiting retries | .running retries .started | .running retries .working =>
      maxRetries + 1 - retries
  | .running retries _ => maxRetries - retries
  | .late _ => 0

def Place.movesLeft : Place → Nat
  | .sending => 8 * (maxRetries + 1)
  | .waiting retries => 7 + 8 * (maxRetries - retries)
  | .running retries .started => 6 + 8 * (maxRetries - retries)
  | .running retries .working => 5 + 8 * (maxRetries - retries)
  | .running retries (.reporting _) => 4 + 8 * (maxRetries - retries)
  | .running retries (.excepting _) => 2 + 8 * (maxRetries - retries)
  | .running retries .retrying => 8 * (maxRetries - retries)
  | .late _ => 1

def Choice.isEngine : Choice → Bool
  | .engine _ => true
  | _ => false

variable {retries : Nat} {stage : Stage} {raised : Option String}

theorem afterPatch_tasks : ((stage.afterPatch retries raised).map Place.tasks).sum ≤ 1 := by
  cases stage with
  | started => cases raised <;> simp [Stage.afterPatch, Place.tasks]
  | reporting result => cases raised <;> simp [Stage.afterPatch, Place.tasks]
  | excepting message => by_cases hleft : retries < maxRetries <;>
      simp [Stage.afterPatch, hleft, Place.tasks]
  | working | retrying => simp [Stage.afterPatch]

theorem goes_tasks (h : Goes place choice new) (honce : choice ≠ .redeliver) :
    (new.map Place.tasks).sum ≤ place.tasks := by
  cases h with
  | sent ok => cases ok <;> simp [Place.tasks]
  | taken retries => simp [Place.tasks]
  | redelivered retries => exact absurd rfl honce
  | ran retries outcome => cases outcome <;> simp [Stage.afterEngine, Place.tasks]
  | retried retries ok => cases ok <;> simp [Place.tasks]
  | patched hrequest retries hanswer => exact afterPatch_tasks
  | broke hrequest retries message =>
      simpa [Place.tasks] using afterPatch_tasks
  | died retries stage => cases stage <;> simp [Stage.request, Place.tasks]
  | arrived data => simp [Place.tasks]

theorem afterPatch_engineRuns :
    ((stage.afterPatch retries raised).map Place.engineRuns).sum ≤
      (Place.running retries stage).engineRuns := by
  cases stage with
  | started =>
      cases raised with
      | none => simp [Stage.afterPatch, Place.engineRuns]
      | some message =>
          simp [Stage.afterPatch, Place.engineRuns]
          omega
  | reporting result => cases raised <;> simp [Stage.afterPatch, Place.engineRuns]
  | excepting message =>
      by_cases hleft : retries < maxRetries <;> simp [Stage.afterPatch, hleft, Place.engineRuns]
  | working | retrying => simp [Stage.afterPatch]

theorem goes_engineRuns (h : Goes place choice new) (hlimited : place.Limited)
    (honce : choice ≠ .redeliver) :
    choice.isEngine.toNat + (new.map Place.engineRuns).sum ≤ place.engineRuns := by
  cases h with
  | sent ok => cases ok <;> simp [Place.engineRuns, Choice.isEngine]
  | taken retries => simp [Place.engineRuns, Choice.isEngine]
  | redelivered retries => exact absurd rfl honce
  | ran retries outcome =>
      have hle : retries ≤ maxRetries := hlimited
      cases outcome <;> simp [Stage.afterEngine, Place.engineRuns, Choice.isEngine] <;> omega
  | retried retries ok => cases ok <;> simp [Place.engineRuns, Choice.isEngine]
  | patched hrequest retries hanswer => simpa [Choice.isEngine] using afterPatch_engineRuns
  | broke hrequest retries message =>
      simpa [Choice.isEngine, Place.engineRuns] using afterPatch_engineRuns
  | died retries stage => cases stage <;> simp [Stage.request, Place.engineRuns, Choice.isEngine]
  | arrived data => simp [Place.engineRuns, Choice.isEngine]

theorem afterPatch_movesLeft {data : JobPatch} (retries : Nat) (raised : Option String)
    (hrequest : stage.request = some data) :
    1 + raised.isSome.toNat + ((stage.afterPatch retries raised).map Place.movesLeft).sum ≤
      (Place.running retries stage).movesLeft := by
  cases stage with
  | started => cases raised <;> simp [Stage.afterPatch, Place.movesLeft] <;> omega
  | reporting result => cases raised <;> simp [Stage.afterPatch, Place.movesLeft] <;> omega
  | excepting message =>
      by_cases hleft : retries < maxRetries
      · cases raised <;> simp [Stage.afterPatch, hleft, Place.movesLeft]
      · cases raised <;> simp [Stage.afterPatch, hleft, Place.movesLeft]
        omega
  | working | retrying => cases hrequest

theorem goes_movesLeft (h : Goes place choice new) (hlimited : place.Limited)
    (honce : choice ≠ .redeliver) : 1 + (new.map Place.movesLeft).sum ≤ place.movesLeft := by
  cases h with
  | sent ok => cases ok <;> simp [Place.movesLeft, maxRetries]
  | taken retries =>
      simp [Place.movesLeft]
      omega
  | redelivered retries => exact absurd rfl honce
  | ran retries outcome => cases outcome <;> simp [Stage.afterEngine, Place.movesLeft] <;> omega
  | retried retries ok =>
      have hleft : retries < maxRetries := hlimited
      cases ok <;> simp [Place.movesLeft] <;> omega
  | patched hrequest retries hanswer =>
      simpa using afterPatch_movesLeft retries none hrequest
  | broke hrequest retries message =>
      have hspent := afterPatch_movesLeft retries (some message) hrequest
      simp [Place.movesLeft] at hspent ⊢
      omega
  | died retries stage =>
      cases stage with
      | retrying =>
          have hleft : retries < maxRetries := hlimited
          simp [Stage.request, Place.movesLeft]
          omega
      | working | started | reporting | excepting =>
          simp [Stage.request, Place.movesLeft] <;> omega
  | arrived data => simp [Place.movesLeft]

def Place.isTask (place : Place) : Bool := place.tasks == 1

theorem sum_tasks (places : List Place) :
    (places.map Place.tasks).sum = places.countP Place.isTask := by
  induction places with
  | nil => rfl
  | cons place places ih =>
      rw [List.map_cons, List.sum_cons, ih]
      cases place <;> simp [Place.tasks, Place.isTask, Nat.add_comm]

-- While its messages are delivered once, a job is in the hands of one party at most, its
-- engine runs at most four times, and it is over after a bounded number of moves, in any
-- order of the moves of all jobs.
theorem service_bounds (hrun : service.run .empty moves = some state)
    (honce : ∀ place, (jobId, .go place .redeliver) ∉ moves) :
    (ofKey jobId state.tokens).countP Place.isTask ≤ 1 ∧
      (ofKey jobId moves).countP (Move.is fun _ choice => choice.isEngine) ≤ 4 ∧
      (ofKey jobId moves).countP (Move.is fun _ _ => true) ≤ 32 := by
  have hallowed : ∀ place choice, (jobId, .go place choice) ∈ moves →
      place.Limited ∧ choice ≠ .redeliver := by
    intro place choice hmove
    refine ⟨run_limited hrun hmove, ?_⟩
    rintro rfl
    exact honce place hmove
  refine ⟨?_, ?_, ?_⟩
  · rw [← sum_tasks]
    exact run_budget_le Place.tasks jobId
      (fun hallowed hnext => goes_tasks (next_goes hnext) hallowed.2) hrun hallowed
  · exact Nat.le_of_add_right_le (run_countP_le _ Place.engineRuns jobId
      (fun hallowed hnext => goes_engineRuns (next_goes hnext) hallowed.1 hallowed.2) hrun hallowed)
  · exact Nat.le_of_add_right_le (run_countP_le (fun _ _ => true) Place.movesLeft jobId
      (fun hallowed hnext => goes_movesLeft (next_goes hnext) hallowed.1 hallowed.2) hrun hallowed)

theorem service_bounds_twoJobs :
    (ofKey "b" afterTwoJobs.tokens).countP Place.isTask ≤ 1 ∧
      (ofKey "b" twoJobs).countP (Move.is fun _ choice => choice.isEngine) ≤ 4 ∧
      (ofKey "b" twoJobs).countP (Move.is fun _ _ => true) ≤ 32 :=
  service_bounds run_twoJobs_eq (by simp [twoJobs])

end ImgEngine.Service
