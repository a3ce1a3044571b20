import ImgEngine.Runtime.Scheduler.Steps
import Mathlib.Algebra.Order.BigOperators.Group.Finset
import Mathlib.Data.List.Nodup

namespace ImgEngine.Runtime.ImgSched

open ImgEngine.Library.Interleaving
open ImgEngine.Library.TicketRing
open ImgEngine.Runtime.ImgMpmc (represents_init storedCount)

variable {Client : Type} [DecidableEq Client] {k : Nat} {s : ImgScheduler}
  {config : State Client} {events : History Client} {ring : Ring (Agent Client) Ptr}
  {legal : State Client → Turn (Agent Client) Op Choice → Prop}

-- The points of img_scheduler_submit from which it can still return 0.
def pending (task : Ptr) : Pc → Bool
  | .submit (.target task') => task' == task
  | .submit (.ring _ pc) => pc.data == task
  | .submit (.global pc) => pc.data == task
  | .work _ => false

omit [DecidableEq Client] in
-- A call of img_scheduler_submit keeps its task.
theorem pending_of_submit {shared : ImgScheduler} {choice : Choice} {p p' : SubmitPc} {task : Ptr}
    (hout : (imgSchedulerSubmit shared choice p).2 = .inl p')
    (hpending : pending task (.submit p') = true) : pending task (.submit p) = true := by
  cases p with
  | target task' =>
      simp only [imgSchedulerSubmit] at hout
      split_ifs at hout
      cases hout
      exact hpending
  | ring target pc =>
      simp only [imgSchedulerSubmit] at hout
      cases pc <;> simp only [imgQueuePush] at hout <;> (try split_ifs at hout) <;>
        cases hout <;> exact hpending
  | global pc =>
      simp only [imgSchedulerSubmit] at hout
      cases pc <;> simp only [imgMpmcPush] at hout <;> (try split_ifs at hout) <;>
        cases hout <;> exact hpending

-- A task is accepted at most as often as it is submitted.
theorem accepted_le_submitted (run : imgScheduler.Run legal (idle Client s) events config)
    (task : Ptr) :
    (events.filterMap submitReturn).count task ≤ (events.filterMap submitCall).count task := by
  have hcalls : (events.filterMap submitCall).count task =
      events.countP (Event.calls fun op => op == .submit task) := by
    rw [List.count_filterMap]
    congr 1
    funext event
    cases event with
    | call agent op => cases op <;> simp [submitCall, Event.calls]
    | access agent p outcome => rfl
  rw [hcalls, List.count_filterMap]
  refine run.countP_le_calls (pending task) _ ?_ (fun _ _ => rfl) ?_ ?_ (fun _ => rfl)
  · intro op hop
    cases op with
    | submit task' => simpa [imgScheduler, pending] using hop
    | work id => cases hop
  · intro shared agent p choice hreturn
    cases p with
    | submit p =>
        cases p with
        | target task' =>
            simp only [imgScheduler, imgSchedulerSubmit] at hreturn
            split_ifs at hreturn <;> cases hreturn
        | ring target pc =>
            simp only [submitReturn] at hreturn
            split at hreturn <;> simp_all [pending]
        | global pc =>
            simp only [submitReturn] at hreturn
            split at hreturn <;> simp_all [pending]
    | work p => cases hreturn
  · intro shared agent p choice p' hout hpending
    refine ⟨?_, by cases p with
      | submit p => cases p <;> rfl
      | work p => rfl⟩
    cases p with
    | submit p =>
        obtain ⟨place, hplace, rfl⟩ := map_eq_inl hout
        exact pending_of_submit hplace hpending
    | work p =>
        obtain ⟨place, -, rfl⟩ := map_eq_inl hout
        cases hpending

theorem imgSchedulerSubmit_workerCount (s : ImgScheduler) (choice : Choice) (p : SubmitPc) :
    (imgSchedulerSubmit s choice p).1.workerCount = s.workerCount := by
  cases p with
  | target task =>
      simp only [imgSchedulerSubmit]
      split_ifs <;> rfl
  | _ => rfl

theorem workerLoop_workerCount (s : ImgScheduler) (choice : Choice) (p : WorkerPc) :
    (workerLoop s choice p).1.workerCount = s.workerCount := by
  cases p <;> rfl

omit [DecidableEq Client] in
theorem Inv.init {workers : UInt32} (hinit : imgSchedulerInit workers = some s) :
    s.workerCount = workers ∧ Inv 10 (idle Client s) [] Ring.empty := by
  simp only [imgSchedulerInit] at hinit
  split_ifs at hinit with hworkers
  have hqueue : ∃ q, imgMpmcInit (fun _ => true) 1024 = some q ∧ q.size = 1024 := ⟨_, rfl, rfl⟩
  obtain ⟨q, hq, hsize⟩ := hqueue
  rw [hq] at hinit
  cases hinit
  obtain ⟨k, hk, hpow, hrep⟩ := represents_init (Agent Client) hq
  obtain rfl : k = 10 := by
    rw [hsize] at hpow
    exact Nat.pow_right_injective (Nat.le_refl 2) hpow.symm
  obtain ⟨hready, hempty⟩ := ImgSpsc.ready_create 10 (by decide)
  refine ⟨rfl, UInt32.pos_iff_ne_zero.mpr hworkers, fun _ => hready, hrep, by simp [idle], ?_, ?_⟩
  · intro task
    have hrings : ImgSpsc.contents 10 (imgQueueCreate 10) = [] := hempty
    simp [ringCount, storedCount, handCount, hrings, idle, Ring.empty, ImgMpmc.stored]
  · intro task
    simp [executeCount, idle, executing]

theorem Inv.of_run {workers : UInt32} (hinv : Inv k (idle Client s) [] ring)
    (hworkers : s.workerCount = workers) (hk1 : 1 ≤ k) (hk : k ≤ 63)
    (run : imgScheduler.Run (fun config turn => Contract workers turn ∧ Fresh config turn)
      (idle Client s) events config)
    (hnonnull : 0 ∉ events.filterMap submitCall) :
    config.shared.workerCount = workers ∧ ∃ ring, Inv k config events ring := by
  induction run with
  | start => exact ⟨hworkers, ring, hinv⟩
  | @turn events config event next turn run hlegal hplay ih =>
      rw [List.filterMap_append, List.mem_append, not_or] at hnonnull
      obtain ⟨hcount, ring, hinv⟩ := ih hnonnull.1
      have hnull : 0 ∉ events.filterMap submitReturn := by
        intro hmem
        have hle := accepted_le_submitted run 0
        rw [List.count_eq_zero_of_not_mem hnonnull.1] at hle
        exact List.count_pos_iff.mpr hmem |>.not_ge hle
      obtain ⟨agent, op, rfl, hpc, rfl, rfl⟩ | ⟨agent, choice, p, rfl, hpc, rfl, rfl⟩ :=
        Program.play_cases hplay
      · exact ⟨hcount, ring, hinv.call hpc (hcount ▸ hlegal.1)⟩
      · have hfresh : FreshAccess config.shared p := by
          have := hlegal.2
          rwa [Fresh, hpc] at this
        have hplaced := hinv.placed agent p hpc
        cases p with
        | submit p =>
            cases agent with
            | client client =>
                exact ⟨(imgSchedulerSubmit_workerCount _ choice p).trans hcount,
                  hinv.submit hk1 hk hpc choice hfresh⟩
            | worker id => cases p <;> cases hplaced
        | work p =>
            cases agent with
            | client client => cases p <;> cases hplaced
            | worker id =>
                exact ⟨(workerLoop_workerCount _ choice p).trans hcount,
                  hinv.work hnull hk1 hk hpc choice hfresh⟩

-- The lists of the places hold exactly what the invariant counts.
theorem workerIds_nodup (s : ImgScheduler) : (workerIds s).Nodup := by
  refine List.Nodup.map_on ?_ List.nodup_range
  intro a ha b hb he
  have := s.workerCount.toNat_lt
  have ha := List.mem_range.mp ha
  have hb := List.mem_range.mp hb
  have he := congrArg UInt32.toNat he
  rwa [UInt32.toNat_ofNat', UInt32.toNat_ofNat', Nat.mod_eq_of_lt (by omega),
    Nat.mod_eq_of_lt (by omega)] at he

omit [DecidableEq Client] in
theorem Inv.places_count (hinv : Inv k config events ring) (hk : k ≤ 63) (task : Ptr) :
    (places config events).count task = (events.filterMap submitReturn).count task := by
  have hflat : ∀ f : UInt32 → List Ptr, ((workerIds config.shared).flatMap f).count task =
      ∑ id ∈ (workerIds config.shared).toFinset, (f id).count task := by
    intro f
    rw [List.count_flatMap, List.sum_toFinset _ (workerIds_nodup _)]
    rfl
  rw [places, List.count_append, List.count_append, List.count_append, hflat, inRings, hflat,
    hinv.global.inGlobal_count hk, hinv.balance task]
  rfl

omit [DecidableEq Client] in
theorem Inv.taken_le (hinv : Inv k config events ring) (task : Ptr) :
    (events.filterMap take).count task ≤ (events.filterMap submitReturn).count task := by
  have hhands : executeCount config.shared config.pc task ≤
      handCount config.shared config.pc task := by
    refine Finset.sum_le_sum fun id _ => ?_
    cases config.pc (.worker id) with
    | none => exact Nat.le_refl _
    | some p =>
        cases p with
        | submit p => exact Nat.le_refl _
        | work p => cases p <;> first | exact Nat.le_refl _ | exact Nat.zero_le _
  rw [hinv.taken, hinv.balance]
  omega

-- As long as no access is stale, every accepted task is in one place and is
-- taken at most once.
theorem imgScheduler_exactlyOnce_of_fresh {workers : UInt32}
    (hinit : imgSchedulerInit workers = some s)
    (run : imgScheduler.Run (fun config turn => Contract workers turn ∧ Fresh config turn)
      (idle Client s) events config)
    (hdistinct : (events.filterMap submitCall).Nodup)
    (hnonnull : 0 ∉ events.filterMap submitCall) : ExactlyOnce config events := by
  obtain ⟨hworkers, hstart⟩ := Inv.init hinit
  obtain ⟨-, ring, hinv⟩ := Inv.of_run hstart hworkers (by omega) (by omega) run hnonnull
  have hone : ∀ task ∈ events.filterMap submitReturn,
      (events.filterMap submitReturn).count task = 1 := by
    intro task hmem
    have hpos := List.count_pos_iff.mpr hmem
    have hle := accepted_le_submitted run task
    have := List.nodup_iff_count_le_one.mp hdistinct task
    omega
  constructor
  · intro task hmem
    rw [hinv.places_count (by omega), hone task hmem]
  · intro task hmem
    rw [← hone task hmem]
    exact hinv.taken_le task

-- Schedules for two workers and one client, who submits the task 64 to worker 0.

section Schedules

def twoWorkers : ImgScheduler :=
  let globalQueue := { size := 1024, mask := 1023, cells := initCells 1024, head := 0, tail := 0 }
  { workerCount := 2, queue := fun _ => imgQueueCreate 10, globalQueue, status := fun _ => none }

def steps (agent : Agent Unit) (count : Nat) : List (Turn (Agent Unit) Op Choice) :=
  List.replicate count (.access agent { running := true, ctx := true, spurious := false })

-- Worker 0 takes the task out of its own ring and executes it.
theorem imgScheduler_exactlyOnce_of_fresh_own :
    ∃ events, ∃ config : State Unit,
      (imgScheduler.Run (fun config turn => Contract 2 turn ∧ Fresh config turn)
        (idle Unit twoWorkers) events config ∧ events.filterMap finish = [64]) ∧
      ExactlyOnce config events := by
  let turns := .call (.client ()) (.submit 64) :: steps (.client ()) 5 ++
    .call (.worker 0) (.work 0) :: steps (.worker 0) 6
  have hplay : (imgScheduler.playAll (fun config turn => Contract 2 turn ∧ Fresh config turn)
      turns [] (idle Unit twoWorkers)).map
        (fun r => (r.1.filterMap submitCall, r.1.filterMap finish)) = some ([64], [64]) := by
    decide +kernel
  obtain ⟨⟨events, config⟩, hplay, hresult⟩ := Option.map_eq_some_iff.mp hplay
  obtain ⟨hcall, hfinish⟩ := Prod.mk.inj hresult
  have run := Program.Run.start.playAll hplay
  have hinit : imgSchedulerInit 2 = some twoWorkers := rfl
  refine ⟨events, config, ⟨run, hfinish⟩,
    imgScheduler_exactlyOnce_of_fresh hinit run ?_ ?_⟩
  · rw [hcall]
    exact List.nodup_singleton _
  · rw [hcall]
    decide

-- Worker 0 reads the task in its own ring. Before it stores head, worker 1 steals
-- the same task, and both execute it.
theorem imgScheduler_takes_twice :
    ∃ events, ∃ config : State Unit, imgSchedulerInit 2 = some twoWorkers ∧
      imgScheduler.Run (fun _ turn => Contract 2 turn) (idle Unit twoWorkers) events config ∧
      events.filterMap submitCall = [64] ∧ events.filterMap take = [64, 64] ∧
      ¬ExactlyOnce config events := by
  let turns := .call (.client ()) (.submit 64) :: steps (.client ()) 5 ++
    .call (.worker 0) (.work 0) :: steps (.worker 0) 4 ++
    .call (.worker 1) (.work 1) :: steps (.worker 1) 7 ++ steps (.worker 0) 1
  have hplay : (imgScheduler.playAll (fun _ turn => Contract 2 turn)
      turns [] (idle Unit twoWorkers)).map
        (fun r => (r.1.filterMap submitCall, r.1.filterMap submitReturn, r.1.filterMap take)) =
          some ([64], [64], [64, 64]) := by
    decide +kernel
  obtain ⟨⟨events, config⟩, hplay, hresult⟩ := Option.map_eq_some_iff.mp hplay
  simp only [Prod.mk.injEq] at hresult
  obtain ⟨hcall, hreturn, htake⟩ := hresult
  refine ⟨events, config, rfl, Program.Run.start.playAll hplay, hcall, htake, ?_⟩
  intro honce
  have hle := honce.takenOnce 64 (by simp [hreturn])
  rw [htake] at hle
  exact absurd hle (by decide)

end Schedules

end ImgEngine.Runtime.ImgSched
