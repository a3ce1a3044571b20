import ImgEngine.Api.Shutdown

namespace ImgEngine.Api.Lifecycle

open ImgEngine.Library.Interleaving
open ImgEngine.Runtime

variable {Client : Type} [DecidableEq Client] {s : Engine} {config : State Client}
  {events : History Client}

-- Where a thread can stand while every worker's queue is empty.
def FindsNothing : Pc → Prop
  | .work (.pop _ (.loadTail h)) => h = 0
  | .work (.pop _ (.readSlot _)) | .work (.pop _ (.storeHead _ _)) | .work (.execute _ _) => False
  | _ => True

-- Nothing ever pushes to a worker's queue.
structure Starved (s : Engine) (pc : Agent Client → Option Pc) : Prop where
  queue : ∀ id, s.queue id = imgQueueCreate 10
  pc : ∀ agent p, pc agent = some p → FindsNothing p

omit [DecidableEq Client] in
theorem starved_started {workers : UInt32} (hinit : imgApiInit workers = some s) :
    Starved (started Client s).shared (started Client s).pc := by
  constructor
  · intro id
    rw [imgApiInit] at hinit
    split_ifs at hinit
    obtain ⟨taskQueue, -, rfl⟩ := Option.map_eq_some_iff.mp hinit
    rfl
  · intro agent p hp
    cases agent with
    | worker id =>
        simp only [started] at hp
        split_ifs at hp
        cases hp
        trivial
    | client client => cases hp
    | owner => cases hp

theorem findsNothing_start (op : Op) : FindsNothing (imgApi.start op) := by
  cases op <;> trivial

theorem Starved.call {pc : Agent Client → Option Pc} (h : Starved s pc) {agent : Agent Client}
    (op : Op) : Starved s (Function.update pc agent (some (imgApi.start op))) := by
  refine ⟨h.queue, forall_pc_call (findsNothing_start op) ?_⟩
  intro other p _ hp
  exact h.pc other p hp

-- One access keeps the queues as they are and takes no task.

theorem imgSubmitTask_queue (s : Engine) (spurious : Bool) (p : SubmitPc) :
    (imgSubmitTask s spurious p).1.queue = s.queue := by
  cases p <;> rfl

theorem imgApiShutdown_queue (s : Engine) (p : ShutdownPc) :
    (imgApiShutdown s p).1.queue = s.queue := by
  cases p with
  | stop i =>
      rw [imgApiShutdown]
      split_ifs <;> rfl
  | join i => rfl

theorem workerLoop_starved (hqueue : ∀ id, s.queue id = imgQueueCreate 10) {p : WorkerPc}
    (hp : FindsNothing (.work p)) :
    (∀ id, (workerLoop s p).1.queue id = imgQueueCreate 10) ∧
      ∀ p', (workerLoop s p).2 = .inl p' → FindsNothing (.work p') := by
  cases p with
  | running id =>
      rw [workerLoop]
      split_ifs
      · refine ⟨hqueue, fun p' hp' => ?_⟩
        cases hp'
        trivial
      · exact ⟨hqueue, fun p' hp' => by cases hp'⟩
  | execute id task => exact absurd hp not_false
  | pop id pc =>
      cases pc with
      | loadHead =>
          refine ⟨fun id' => ?_, fun p' hp' => ?_⟩
          · change Function.update s.queue id (s.queue id) id' = _
            rw [Function.update_eq_self, hqueue]
          · cases hp'
            change (s.queue id).head = 0
            rw [hqueue]
            rfl
      | loadTail h =>
          obtain rfl : h = 0 := hp
          have hempty : imgQueuePop (s.queue id) (.loadTail 0) = (s.queue id, .inr .empty) := by
            rw [hqueue]
            rfl
          rw [workerLoop, hempty]
          refine ⟨fun id' => ?_, fun p' hp' => ?_⟩
          · change Function.update s.queue id (s.queue id) id' = _
            rw [Function.update_eq_self, hqueue]
          · cases hp'
            trivial
      | readSlot h => exact absurd hp not_false
      | storeHead h data => exact absurd hp not_false

theorem Starved.access {pc : Agent Client → Option Pc} (h : Starved s pc) {agent : Agent Client}
    {p : Pc} (spurious : Bool) (hp : pc agent = some p) :
    Starved (imgApi.access s p spurious).1
      (Function.update pc agent (imgApi.access s p spurious).2.getLeft?) ∧
    ∀ p', (imgApi.access s p spurious).2 = .inl p' → FindsNothing p' := by
  have hstep : (∀ id, (imgApi.access s p spurious).1.queue id = imgQueueCreate 10) ∧
      ∀ p', (imgApi.access s p spurious).2 = .inl p' → FindsNothing p' := by
    cases p with
    | submit p =>
        refine ⟨fun id => ?_, fun p' hp' => ?_⟩
        · exact (congrFun (imgSubmitTask_queue s spurious p) id).trans (h.queue id)
        · change (imgSubmitTask s spurious p).2.map Pc.submit _ = .inl p' at hp'
          obtain ⟨next, -, rfl⟩ := map_eq_inl hp'
          trivial
    | work p =>
        obtain ⟨hqueue, hnext⟩ := workerLoop_starved h.queue (h.pc agent _ hp)
        refine ⟨hqueue, fun p' hp' => ?_⟩
        change (workerLoop s p).2.map Pc.work _ = .inl p' at hp'
        obtain ⟨next, hout, rfl⟩ := map_eq_inl hp'
        exact hnext next hout
    | shutdown p =>
        refine ⟨fun id => ?_, fun p' hp' => ?_⟩
        · exact (congrFun (imgApiShutdown_queue s p) id).trans (h.queue id)
        · change (imgApiShutdown s p).2.map Pc.shutdown _ = .inl p' at hp'
          obtain ⟨next, -, rfl⟩ := map_eq_inl hp'
          trivial
  refine ⟨⟨hstep.1, forall_pc_access hstep.2 ?_⟩, hstep.2⟩
  intro other p' _ hp'
  exact h.pc other p' hp'

-- In every run, no worker ever gets a task.
theorem taken_nil {workers : UInt32} (hinit : imgApiInit workers = some s)
    (run : imgApi.Run Contract (started Client s) events config) :
    Starved config.shared config.pc ∧ events.filterMap take = [] := by
  induction run with
  | start => exact ⟨starved_started hinit, rfl⟩
  | turn turn run hlegal hplay ih =>
      obtain ⟨hstarved, htaken⟩ := ih
      obtain ⟨agent, op, rfl, hpc, rfl, rfl⟩ | ⟨agent, spurious, p, rfl, hpc, rfl, rfl⟩ :=
        Program.play_cases hplay
      · refine ⟨hstarved.call op, ?_⟩
        rw [List.filterMap_append, htaken]
        rfl
      · obtain ⟨hnext, hfinds⟩ := hstarved.access spurious hpc
        refine ⟨hnext, ?_⟩
        rw [List.filterMap_append, htaken, List.nil_append]
        cases hout : (imgApi.access _ p spurious).2 with
        | inr result => rfl
        | inl p' =>
            have hp' := hfinds p' hout
            cases p' with
            | submit p' => rfl
            | shutdown p' => rfl
            | work p' =>
                cases p' with
                | running id => rfl
                | pop id pc => rfl
                | execute id task => exact absurd hp' not_false

-- At every moment of every run, so also once img_api_shutdown has returned, nothing
-- is left of the accepted tasks exactly if there are none.
theorem imgApiShutdown_drains_iff {workers : UInt32} (hinit : imgApiInit workers = some s)
    (run : imgApi.Run Contract (started Client s) events config) :
    Drained config.shared events ↔ events.filterMap accept = [] := by
  constructor
  · intro hdrained
    apply List.eq_nil_iff_forall_not_mem.mpr
    intro task hmem
    have htake := (hdrained.taken task hmem).1
    rw [(taken_nil hinit run).2] at htake
    cases htake
  · intro hnone
    constructor <;> simp [hnone]

-- Schedules for one worker and one client. The worker goes once around its loop and
-- ends after img_api_shutdown has stopped it.

section Schedules

def oneWorker : Engine where
  workerCount := 1
  running _ := true
  queue _ := imgQueueCreate 10
  taskQueue := { size := 1024, mask := 1023, cells := initCells 1024, head := 0, tail := 0 }
  status _ := none
  ended _ := false

def steps (agent : Agent Unit) (count : Nat) : List (Turn (Agent Unit) Op Bool) :=
  List.replicate count (.access agent false)

def shutdownTurns : List (Turn (Agent Unit) Op Bool) :=
  steps (.worker 0) 3 ++ .call .owner .shutdown :: steps .owner 1 ++ steps (.worker 0) 1 ++
    steps .owner 2

theorem imgApiShutdown_drains_iff_unused : ∃ events, ∃ config : State Unit,
    (imgApi.Run Contract (started Unit oneWorker) events config ∧
      events.any returns = true ∧ events.filterMap accept = []) ∧
    (Drained config.shared events ↔ events.filterMap accept = []) := by
  have hplay : (imgApi.playAll Contract shutdownTurns [] (started Unit oneWorker)).map
      (fun r => (r.1.any returns, r.1.filterMap accept)) = some (true, []) := by
    decide +kernel
  obtain ⟨⟨events, config⟩, hplay, hresult⟩ := Option.map_eq_some_iff.mp hplay
  obtain ⟨hreturns, haccept⟩ := Prod.mk.inj hresult
  have run := Program.Run.start.playAll hplay
  have hinit : imgApiInit 1 = some oneWorker := rfl
  exact ⟨events, config, ⟨run, hreturns, haccept⟩, imgApiShutdown_drains_iff hinit run⟩

-- The client's task stays in the global queue.
theorem imgApiShutdown_leaves_one : ∃ events, ∃ config : State Unit,
    imgApiInit 1 = some oneWorker ∧
    imgApi.Run Contract (started Unit oneWorker) events config ∧
    events.any returns = true ∧ events.filterMap accept = [64] ∧
    ImgSched.inGlobal config.shared.taskQueue = [64] ∧ ¬Drained config.shared events := by
  let turns := .call (.client ()) (.submit 64) :: steps (.client ()) 6 ++ shutdownTurns
  have hplay : (imgApi.playAll Contract turns [] (started Unit oneWorker)).map
      (fun r => (r.1.any returns, r.1.filterMap accept, ImgSched.inGlobal r.2.shared.taskQueue)) =
        some (true, [64], [64]) := by
    decide +kernel
  obtain ⟨⟨events, config⟩, hplay, hresult⟩ := Option.map_eq_some_iff.mp hplay
  simp only [Prod.mk.injEq] at hresult
  obtain ⟨hreturns, haccept, hglobal⟩ := hresult
  refine ⟨events, config, rfl, Program.Run.start.playAll hplay, hreturns, haccept, hglobal, ?_⟩
  intro hdrained
  apply hdrained.taskQueue 64
  · simp [haccept]
  · simp [hglobal]

end Schedules

end ImgEngine.Api.Lifecycle
