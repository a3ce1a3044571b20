import ImgEngine.Library.Interleaving
import ImgEngine.Security.Sandbox

namespace ImgEngine.Security.Sandbox

open ImgEngine.Library.ClassicBpf ImgEngine.Library.Interleaving

theorem filter_eq : filter =
    membership 0 SECCOMP_RET_ALLOW SECCOMP_RET_KILL (allowedSyscalls.map Sys.nr) := by
  rw [filter, membership, List.flatMap_map]
  rfl

theorem run_filter (data : SeccompData) :
    run filter data.packet =
      some (if Allowed data.nr then SECCOMP_RET_ALLOW else SECCOMP_RET_KILL) := by
  rw [filter_eq, run_membership]
  rfl

-- The filter is one that the kernel takes, and it looks at nothing but the number of the
-- call. So a number means the call that it has on x86-64, on whatever architecture the
-- call is made.
theorem sandboxFilter_decides (data : SeccompData) :
    Checked filter ∧ progLen.toNat = filter.length ∧
      run filter data.packet =
        some (if Allowed data.nr then SECCOMP_RET_ALLOW else SECCOMP_RET_KILL) := by
  refine ⟨?_, by decide, run_filter data⟩
  rw [filter_eq]
  exact membership_checked (by decide)

-- socket, which img_rpc_send starts with, is refused. 11 is munmap here, and execve for a
-- call in the style of i386.
example : ¬Allowed 41 ∧ Allowed 11 := by decide

-- The filter is stacked when the sandbox is entered again.
structure Confines (task : Task) : Prop where
  nonempty : task.filters ≠ []
  own : ∀ program ∈ task.filters, program = filter

theorem stricter_self (result : UInt32) : stricter result result = result := by
  rw [stricter, if_neg (by simp)]

theorem foldl_stricter (filters : List Program) (data : SeccompData) (result : UInt32)
    (hown : ∀ program ∈ filters, program = filter)
    (hresult : some result = run filter data.packet) :
    filters.foldl (fun result program =>
      stricter result ((run program data.packet).getD SECCOMP_RET_KILL)) result = result := by
  induction filters with
  | nil => rfl
  | cons program filters ih =>
      rw [List.foldl_cons, hown program List.mem_cons_self, ← hresult, Option.getD_some,
        stricter_self]
      exact ih fun program hmem => hown program (List.mem_cons_of_mem _ hmem)

theorem Confines.verdict {task : Task} (h : Confines task) (data : SeccompData) :
    some (Sandbox.verdict task.filters data) = run filter data.packet := by
  obtain ⟨program, filters, hfilters⟩ := List.exists_cons_of_ne_nil h.nonempty
  have hown := h.own
  rw [hfilters] at hown ⊢
  have hfirst : some (stricter SECCOMP_RET_ALLOW ((run filter data.packet).getD SECCOMP_RET_KILL)) =
      run filter data.packet := by
    rw [run_filter]
    split_ifs <;> decide
  rw [Sandbox.verdict, List.foldl_cons, hown program List.mem_cons_self,
    foldl_stricter filters data _ (fun program hmem => hown program (List.mem_cons_of_mem _ hmem))
      hfirst]
  exact hfirst

theorem Confines.passes_iff {task : Task} (h : Confines task) (data : SeccompData) :
    Passes (Sandbox.verdict task.filters data) ↔ Allowed data.nr := by
  have hverdict := (h.verdict data).trans (run_filter data)
  rw [Option.some.inj hverdict]
  split_ifs with hallowed
  · exact iff_of_true rfl hallowed
  · exact iff_of_false (by decide) hallowed

theorem Confines.push {task : Task} (h : Confines task) :
    Confines { task with filters := filter :: task.filters } := by
  refine ⟨List.cons_ne_nil _ _, fun program hmem => ?_⟩
  exact (List.mem_cons.mp hmem).elim id (h.own program)

section Process

variable {Tid : Type} [DecidableEq Tid] {process : Process Tid}

def AllConfined (process : Process Tid) : Prop :=
  ∀ thread task, process.task thread = some task → Confines task

-- A call that is made leaves every task confined.
theorem AllConfined.affect (h : AllConfined process) {thread : Tid} {task : Task}
    (htask : process.task thread = some task) (effect : Effect Tid) :
    ∀ other task', Sandbox.affect process.task thread task effect other = some task' →
      Confines task' := by
  have hself := h thread task htask
  cases effect with
  | plain => exact h
  | spawn child =>
      exact forall_pc_update (fun _ hp => Option.some.inj hp ▸ hself) fun other p _ hp =>
        h other p hp
  | setNoNewPrivs =>
      exact forall_pc_update (fun _ hp => Option.some.inj hp ▸ ⟨hself.nonempty, hself.own⟩)
        fun other p _ hp => h other p hp
  | setSeccomp =>
      rw [Sandbox.affect]
      split_ifs
      · exact forall_pc_update (fun _ hp => Option.some.inj hp ▸ hself.push) fun other p _ hp =>
          h other p hp
      · exact h

-- Only the creation of a thread changes which threads are running.
theorem isSome_affect {tasks : Tid → Option Task} {thread : Tid} {task : Task}
    (htask : tasks thread = some task) (effect : Effect Tid) :
    (fun other => (affect tasks thread task effect other).isSome) =
      match effect with
      | .spawn child => Function.update (fun other => (tasks other).isSome) child true
      | .plain | .setNoNewPrivs | .setSeccomp => fun other => (tasks other).isSome := by
  have hkeep : ∀ task', (fun other => (Function.update tasks thread (some task') other).isSome) =
      fun other => (tasks other).isSome := by
    intro task'
    funext other
    by_cases hother : other = thread
    · rw [hother, Function.update_self, htask]
      rfl
    · rw [Function.update_of_ne hother]
  cases effect with
  | plain => rfl
  | spawn child =>
      funext other
      by_cases hother : other = child
      · simp [affect, hother]
      · simp [affect, hother]
  | setNoNewPrivs => exact hkeep _
  | setSeccomp =>
      cases hprivs : task.noNewPrivs with
      | true => simpa only [affect, hprivs, if_true] using hkeep _
      | false => simp only [affect, hprivs, Bool.false_eq_true, if_false]

-- One attempt does what the policy says.
theorem AllConfined.attempt (h : AllConfined process) (attempt : Attempt Tid) :
    AllConfined (process.attempt attempt) ∧
      (process.attempt attempt).confined = process.confined.attempt attempt := by
  cases htask : process.task attempt.thread with
  | none => simp [Process.attempt, Confined.attempt, Process.confined, htask, h]
  | some task =>
      have hrunning : process.confined.running attempt.thread = true := by
        simp [Process.confined, htask]
      have hpasses := (h _ _ htask).passes_iff attempt.data
      simp only [Process.attempt, htask, Confined.attempt, hrunning, Bool.true_eq_false, if_false]
      by_cases hallowed : Allowed attempt.data.nr
      · rw [if_pos (hpasses.mpr hallowed), if_pos hallowed]
        exact ⟨h.affect htask attempt.effect,
          congrArg (Confined.mk · _) (isSome_affect htask attempt.effect)⟩
      · rw [if_neg (fun hp => hallowed (hpasses.mp hp)), if_neg hallowed]
        refine ⟨forall_pc_update nofun fun other p _ hp => h other p hp, ?_⟩
        simp only [Process.confined, Confined.mk.injEq, and_true]
        funext other
        by_cases hother : other = attempt.thread
        · simp [hother]
        · simp [hother]

theorem AllConfined.run (h : AllConfined process) (attempts : List (Attempt Tid)) :
    (process.run attempts).confined = process.confined.run attempts := by
  induction attempts generalizing process with
  | nil => rfl
  | cons attempt attempts ih =>
      obtain ⟨hnext, hconfined⟩ := h.attempt attempt
      have hrest := ih hnext
      rwa [hconfined] at hrest

-- The sandbox is entered by the only thread, before it creates others.
theorem entered (main : Tid) (calls : PrctlCalls) :
    (Process.start main).run (imgSecurityEnterSandbox main calls) =
      { task := Function.update (fun _ => none) main (some ⟨[filter], true⟩)
        made := [(main, Sys.prctl.nr), (main, Sys.prctl.nr)] } := by
  have hpasses : ∀ data, Passes (verdict [] data) := fun _ => rfl
  simp [Process.run, imgSecurityEnterSandbox, Process.attempt, Process.start, hpasses, affect,
    calls.noNewPrivs_nr, calls.seccomp_nr]

theorem Confined.run_made (confined : Confined Tid) (attempts : List (Attempt Tid))
    (h : ∀ call ∈ confined.made, Allowed call.2) :
    ∀ call ∈ (confined.run attempts).made, Allowed call.2 := by
  induction attempts generalizing confined with
  | nil => exact h
  | cons attempt attempts ih =>
      refine ih (confined.attempt attempt) fun call hcall => ?_
      unfold Confined.attempt at hcall
      split_ifs at hcall with hrunning hallowed
      · exact h call hcall
      · obtain hcall | rfl := List.mem_append.mp hcall |>.imp_right List.mem_singleton.mp
        · exact h call hcall
        · exact hallowed
      · exact h call hcall

-- From then on the threads of the process, however many there come to be and in whatever
-- order they run, make the calls of the policy and are ended by any other. Entering again
-- changes nothing.
theorem sandbox_refines_policy (main : Tid) (calls : PrctlCalls) (attempts : List (Attempt Tid)) :
    (((Process.start main).run (imgSecurityEnterSandbox main calls)).run attempts).confined =
        (Confined.entered main).run attempts ∧
      ∀ call ∈ (((Process.start main).run (imgSecurityEnterSandbox main calls)).run attempts).made,
        Allowed call.2 := by
  have hall : AllConfined ((Process.start main).run (imgSecurityEnterSandbox main calls)) := by
    rw [entered]
    refine forall_pc_update (fun _ hp => ?_) nofun
    exact Option.some.inj hp ▸ ⟨List.cons_ne_nil _ _, fun _ => List.mem_singleton.mp⟩
  have hentered : ((Process.start main).run (imgSecurityEnterSandbox main calls)).confined =
      Confined.entered main := by
    rw [entered]
    simp only [Process.confined, Confined.entered, Confined.mk.injEq, and_true]
    funext other
    by_cases hother : other = main
    · simp [hother]
    · simp [hother]
  have hrun := hall.run attempts
  rw [hentered] at hrun
  refine ⟨hrun, ?_⟩
  rw [show (((Process.start main).run (imgSecurityEnterSandbox main calls)).run attempts).made =
    ((Confined.entered main).run attempts).made from congrArg Confined.made hrun]
  refine (Confined.entered main).run_made attempts fun call hcall => ?_
  simp only [Confined.entered, List.mem_cons, List.not_mem_nil, or_false, or_self] at hcall
  rw [hcall]
  exact show Allowed Sys.prctl.nr by decide

end Process

end ImgEngine.Security.Sandbox
