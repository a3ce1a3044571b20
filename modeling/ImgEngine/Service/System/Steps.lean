import ImgEngine.Service.System

namespace ImgEngine.Service

open ImgEngine.Library.Tokens

-- What each kind of move does, once for all proofs.
inductive Goes : Place → Choice → List Place → Prop where
  | sent (ok : Bool) : Goes .sending (.send ok) (if ok then [.waiting 0] else [])
  | taken (retries : Nat) : Goes (.waiting retries) .take [.running retries .started]
  | redelivered (retries : Nat) :
      Goes (.waiting retries) .redeliver [.waiting retries, .waiting retries]
  | ran (retries : Nat) (outcome : EngineOutcome) :
      Goes (.running retries .working) (.engine outcome) (Stage.afterEngine retries outcome)
  | retried (retries : Nat) (ok : Bool) :
      Goes (.running retries .retrying) (.send ok) (if ok then [.waiting (retries + 1)] else [])
  | patched {stage : Stage} {data : JobPatch} (hrequest : stage.request = some data)
      (retries : Nat) {answer : Answer} (hanswer : ∀ message, answer ≠ .broken message) :
      Goes (.running retries stage) (.patch answer) (stage.afterPatch retries none)
  | broke {stage : Stage} {data : JobPatch} (hrequest : stage.request = some data)
      (retries : Nat) (message : String) :
      Goes (.running retries stage) (.patch (.broken message))
        (.late data :: stage.afterPatch retries (some message))
  | died (retries : Nat) (stage : Stage) :
      Goes (.running retries stage) .die (stage.request.map Place.late).toList
  | arrived (data : JobPatch) : Goes (.late data) .arrive []

theorem next_patch (retries : Nat) (stage : Stage) (answer : Answer) :
    (Place.running retries stage).next (.patch answer) = stage.request.map fun data =>
      match answer with
      | .answered | .refused => stage.afterPatch retries none
      | .broken message => .late data :: stage.afterPatch retries (some message) := by
  cases stage <;> cases answer <;> rfl

theorem next_goes {place : Place} {choice : Choice} {new : List Place}
    (h : place.next choice = some new) : Goes place choice new := by
  cases place with
  | sending =>
      cases choice with
      | send ok =>
          cases h
          exact .sent ok
      | take | redeliver | patch | engine | die | arrive => cases h
  | waiting retries =>
      cases choice with
      | take =>
          cases h
          exact .taken retries
      | redeliver =>
          cases h
          exact .redelivered retries
      | send | patch | engine | die | arrive => cases h
  | running retries stage =>
      cases choice with
      | send ok =>
          cases stage with
          | retrying =>
              cases h
              exact .retried retries ok
          | started | working | reporting | excepting => cases h
      | patch answer =>
          rw [next_patch, Option.map_eq_some_iff] at h
          obtain ⟨data, hrequest, rfl⟩ := h
          cases answer with
          | answered => exact .patched hrequest retries nofun
          | refused => exact .patched hrequest retries nofun
          | broken message => exact .broke hrequest retries message
      | engine outcome =>
          cases stage with
          | working =>
              cases h
              exact .ran retries outcome
          | started | retrying | reporting | excepting => cases h
      | die =>
          have hnext : (stage.request.map Place.late).toList = new := by
            cases stage <;> exact Option.some.inj h
          rw [← hnext]
          exact .died retries stage
      | take | redeliver | arrive => cases stage <;> cases h
  | late data =>
      cases choice with
      | arrive =>
          cases h
          exact .arrived data
      | send | take | redeliver | patch | engine | die => cases h

variable {moves : List (String × Move Place Choice)} {state : State String Job Place}
  {jobId : String} {place : Place} {choice : Choice} {new : List Place}

-- The retries of a task never pass the limit.

def Place.Limited : Place → Prop
  | .sending | .late _ => True
  | .running retries .retrying => retries < maxRetries
  | .waiting retries | .running retries _ => retries ≤ maxRetries

theorem afterPatch_limited {retries : Nat} {stage : Stage} {raised : Option String}
    (h : (Place.running retries stage).Limited) :
    ∀ next ∈ stage.afterPatch retries raised, next.Limited := by
  cases stage with
  | started => cases raised <;> simpa [Stage.afterPatch, Place.Limited] using h
  | reporting result =>
      cases raised with
      | none => simp [Stage.afterPatch]
      | some message => simpa [Stage.afterPatch, Place.Limited] using h
  | excepting message =>
      by_cases hleft : retries < maxRetries
      · simp [Stage.afterPatch, hleft, Place.Limited]
      · simp [Stage.afterPatch, hleft]
  | working | retrying => simp [Stage.afterPatch]

theorem goes_limited (h : Goes place choice new) (hlimited : place.Limited) :
    ∀ next ∈ new, next.Limited := by
  cases h with
  | sent ok => cases ok <;> simp [Place.Limited]
  | taken retries => simpa [Place.Limited] using hlimited
  | redelivered retries => simpa [Place.Limited] using hlimited
  | ran retries outcome =>
      cases outcome <;> simpa [Stage.afterEngine, Place.Limited] using hlimited
  | retried retries ok =>
      have hleft : retries < maxRetries := hlimited
      cases ok <;> simp [Place.Limited, Nat.succ_le_of_lt hleft]
  | patched hrequest retries hanswer => exact afterPatch_limited hlimited
  | broke hrequest retries message =>
      intro next hnext
      cases List.mem_cons.mp hnext with
      | inl hlate =>
          rw [hlate]
          trivial
      | inr hnext => exact afterPatch_limited hlimited next hnext
  | died retries stage =>
      intro next hnext
      obtain ⟨data, -, rfl⟩ : ∃ data, stage.request = some data ∧ Place.late data = next := by
        simpa using hnext
      trivial
  | arrived data => exact fun _ hnext => absurd hnext List.not_mem_nil

theorem run_limited (hrun : service.run .empty moves = some state)
    (hmove : (jobId, .go place choice) ∈ moves) : place.Limited := by
  have hholds : (state.solo jobId).Holds (fun moves _ places =>
      (∀ place choice, .go place choice ∈ moves → place.Limited) ∧
        ∀ place ∈ places, place.Limited) (ofKey jobId moves) := by
    refine run_invariant jobId ⟨by simp, by simp [service, Place.Limited]⟩ ?_ hrun
    intro moves row places place choice new row' ⟨hmoves, hplaces⟩ hmem hnext _
    have hlimited := hplaces place hmem
    refine ⟨fun other choice' hmove => ?_, fun other hother => ?_⟩
    · cases List.mem_append.mp hmove with
      | inl hmove => exact hmoves other choice' hmove
      | inr hmove =>
          cases List.mem_singleton.mp hmove
          exact hlimited
    · cases List.mem_append.mp hother with
      | inl hother => exact goes_limited (next_goes hnext) hlimited other hother
      | inr hother => exact hplaces other (List.mem_of_mem_erase hother)
  have hown := mem_ofKey.mpr hmove
  simp only [Solo.Holds] at hholds
  split at hholds
  · rw [hholds.1] at hown
    exact absurd hown List.not_mem_nil
  · exact hholds.1 place choice hown

-- The task of "a" is tried twice, and the connection breaks for the first request of "b".

def twoJobs : List (String × Move Place Choice) :=
  [("a", .enter),
    ("b", .enter),
    ("b", .go .sending (.send true)),
    ("a", .go .sending (.send true)),
    ("b", .go (.waiting 0) .take),
    ("a", .go (.waiting 0) .take),
    ("a", .go (.running 0 .started) (.patch .answered)),
    ("b", .go (.running 0 .started) (.patch (.broken "reset"))),
    ("a", .go (.running 0 .working) (.engine (.raised "no memory"))),
    ("a", .go (.running 0 (.excepting "no memory")) (.patch .answered)),
    ("a", .go (.running 0 .retrying) (.send true)),
    ("a", .go (.waiting 1) .take),
    ("a", .go (.running 1 .started) (.patch .answered)),
    ("a", .go (.running 1 .working) (.engine (.returned ⟨0, "done", ""⟩))),
    ("a", .go (.running 1 (.reporting ⟨0, "done", ""⟩)) (.patch .answered))]

theorem run_twoJobs : (service.run .empty twoJobs).isSome = true := by decide

def afterTwoJobs : State String Job Place := (service.run .empty twoJobs).get run_twoJobs

theorem run_twoJobs_eq : service.run .empty twoJobs = some afterTwoJobs :=
  (Option.some_get run_twoJobs).symm

def lateRequest : List (String × Move Place Choice) :=
  [("b", .go (.running 0 (.excepting "reset")) (.patch .refused)),
    ("b", .go (.late .processing) .arrive)]

end ImgEngine.Service
