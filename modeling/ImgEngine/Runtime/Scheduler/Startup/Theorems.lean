import ImgEngine.Runtime.Scheduler.Startup

namespace ImgEngine.Runtime.ImgStartup

open ImgEngine.Library.Interleaving

-- With two workers or more, the first thread finds the second record without a queue.

section Race

variable {n : UInt32}

-- What the initialiser and the first thread have come to in some run.
def Reached (n : UInt32) (s : Startup) (init worker : Option Pc) : Prop :=
  ∃ events config, imgStartup.Run Legal (called n) events config ∧ config.shared = s ∧
    config.pc .initialiser = init ∧ config.pc (.worker 0) = worker

theorem Reached.init {s s' : Startup} {p : Pc} {worker : Option Pc} {outcome : Pc ⊕ Result}
    (h : Reached n s (some p) worker) (choice : Choice)
    (haccess : imgStartup.access s p choice = (s', outcome)) :
    Reached n s' outcome.getLeft? worker := by
  obtain ⟨events, config, run, rfl, hinit, hworker⟩ := h
  have hplay := Program.play_access hinit haccess
  refine ⟨_, _, .turn (.access .initialiser choice) run trivial hplay, rfl, ?_, ?_⟩
  · simp
  · rw [← hworker]
    simp

theorem Reached.worker {s s' : Startup} {p : Pc} {init : Option Pc} {outcome : Pc ⊕ Result}
    (h : Reached n s init (some p)) (choice : Choice)
    (haccess : imgStartup.access s p choice = (s', outcome)) :
    Reached n s' init outcome.getLeft? := by
  obtain ⟨events, config, run, rfl, hinit, hworker⟩ := h
  have hplay := Program.play_access hworker haccess
  refine ⟨_, _, .turn (.access (.worker 0) choice) run trivial hplay, rfl, ?_, ?_⟩
  · rw [← hinit]
    simp
  · simp

theorem Reached.start {s : Startup} {init : Option Pc} (h : Reached n s init none)
    (hcreated : s.created 0 = true) : Reached n s init (some (.work (.running 0))) := by
  obtain ⟨events, config, run, rfl, hinit, hworker⟩ := h
  have hplay := imgStartup.play_call (Op.work 0) hworker
  refine ⟨_, _, .turn (.call (.worker 0) (.work 0)) run ⟨rfl, hcreated⟩ hplay, rfl, ?_, ?_⟩
  · rw [← hinit]
    simp
  · simp [imgStartup]

-- Every allocation and pthread_create succeeds.
def smooth : Choice where
  memory := true
  cells := true
  thread := true
  spurious := false

def allocated (n : UInt32) : Startup :=
  { Startup.zero with workerCount := n, globalQueue := imgMpmcInit (fun _ => true) 1024 }

def firstWorker : ImgWorker where
  running := true
  scheduler := true
  ctx := false
  queue := some (imgQueueCreate 10)

def firstCreated (n : UInt32) : Startup :=
  { (allocated n).setWorker 0 firstWorker with created := Function.update (fun _ => false) 0 true }

theorem one_lt (hn : 2 ≤ n) : n ≠ 0 ∧ 0 < n ∧ 1 < n := by
  have h := UInt32.le_iff_toNat_le.mp hn
  change 2 ≤ n.toNat at h
  refine ⟨fun he => ?_, UInt32.lt_iff_toNat_lt.mpr ?_, UInt32.lt_iff_toNat_lt.mpr ?_⟩
  · rw [he] at h
    exact absurd h (by decide)
  · change 0 < n.toNat
    omega
  · change 1 < n.toNat
    omega

theorem reached_firstCreated (hn : 2 ≤ n) :
    Reached n (firstCreated n) (some (.init (.fields 1))) none := by
  obtain ⟨hne, hpos, hone⟩ := one_lt hn
  have h : Reached n .zero (some (.init (.enter n))) none := ⟨[], called n, .start, rfl, rfl, rfl⟩
  have henter : imgStartup.access .zero (.init (.enter n)) smooth =
      (allocated n, .inl (.init (.fields 0))) := by
    simp [imgStartup, imgSchedulerInitAccess, initLoop, smooth, allocated, Startup.zero, hne, hpos]
  have hfields : imgStartup.access (allocated n) (.init (.fields 0)) smooth =
      ((allocated n).setWorker 0 { firstWorker with queue := none }, .inl (.init (.queue 0))) := rfl
  have hqueue : imgStartup.access ((allocated n).setWorker 0 { firstWorker with queue := none })
      (.init (.queue 0)) smooth =
      ((allocated n).setWorker 0 firstWorker, .inl (.init (.create 0))) := by
    simp [imgStartup, imgSchedulerInitAccess, smooth, Startup.setWorker, firstWorker]
  have hcreate : imgStartup.access ((allocated n).setWorker 0 firstWorker)
      (.init (.create 0)) smooth = (firstCreated n, .inl (.init (.fields 1))) := by
    simp [imgStartup, imgSchedulerInitAccess, initLoop, smooth, firstCreated, allocated,
      Startup.setWorker, Startup.zero, hone]
  exact (((h.init smooth henter).init smooth hfields).init smooth hqueue).init smooth hcreate

-- The first thread finds its own queue empty and turns to the second record.

theorem firstCreated_setWorker (n : UInt32) :
    (firstCreated n).setWorker 0 firstWorker = firstCreated n := by
  simp [firstCreated, Startup.setWorker]

theorem reached_steal (hn : 2 ≤ n) :
    Reached n (firstCreated n) (some (.init (.fields 1))) (some (.work (.call 0 (.steal 0)))) := by
  obtain ⟨-, hpos, -⟩ := one_lt hn
  have h := (reached_firstCreated hn).start rfl
  have hrunning : imgStartup.access (firstCreated n) (.work (.running 0)) smooth =
      (firstCreated n, .inl (.work (.call 0 .own))) := rfl
  have hcall : imgStartup.access (firstCreated n) (.work (.call 0 .own)) smooth =
      (firstCreated n, .inl (.work (.pop 0 .own (some 0) .loadHead))) := rfl
  have hhead : imgStartup.access (firstCreated n) (.work (.pop 0 .own (some 0) .loadHead)) smooth =
      ((firstCreated n).setWorker 0 firstWorker,
        .inl (.work (.pop 0 .own (some 0) (.loadTail 0)))) := rfl
  have hempty : imgStartup.access (firstCreated n) (.work (.pop 0 .own (some 0) (.loadTail 0)))
      smooth = ((firstCreated n).setWorker 0 firstWorker,
        .inl (.work (stealLoop (firstCreated n) 0 0))) := rfl
  have hsteal : stealLoop (firstCreated n) 0 0 = .call 0 (.steal 0) := if_pos hpos
  rw [firstCreated_setWorker] at hhead hempty
  rw [hsteal] at hempty
  exact (((h.worker smooth hrunning).worker smooth hcall).worker smooth hhead).worker smooth hempty

theorem exists_popsNull (hn : 2 ≤ n) : ∃ events config,
    imgStartup.Run Legal (called n) events config ∧ ∃ event ∈ events, PopsNull event := by
  obtain ⟨-, -, hone⟩ := one_lt hn
  obtain ⟨events, config, run, hshared, -, hworker⟩ := reached_steal hn
  have hvictim : 1 % n = 1 := by
    apply UInt32.toNat_inj.mp
    rw [UInt32.toNat_mod]
    exact Nat.mod_eq_of_lt (UInt32.lt_iff_toNat_lt.mp hone)
  have haccess : imgStartup.access config.shared (.work (.call 0 (.steal 0))) smooth =
      (config.shared, .inl (.work (.pop 0 (.steal 0) none .loadHead))) := by
    rw [hshared]
    simp [imgStartup, workerLoopAccess, Caller.victim, firstCreated, allocated, Startup.setWorker,
      hvictim, Startup.zero, ImgWorker.zero]
  have hplay := Program.play_access hworker haccess
  exact ⟨_, _, .turn (.access (.worker 0) smooth) run trivial hplay, _,
    List.mem_append_right _ List.mem_cons_self, trivial⟩

end Race

-- With one worker at most, there is no other record to look at.

section Alone

variable {s : Startup} {config : State}

def WorkerPc.id : WorkerPc → UInt32
  | .running id | .call id _ | .pop id _ _ _ | .global id _ | .execute id _ => id

-- A worker leaves the number of workers and of threads alone and gives no queue up.
structure Keeps (s s' : Startup) : Prop where
  workerCount : s'.workerCount = s.workerCount
  created : s'.created = s.created
  queue : ∀ i, (s.workers i).queue.isSome → (s'.workers i).queue.isSome

theorem setWorker_queue {i owner : UInt32} (worker : ImgWorker)
    (hworker : (s.workers owner).queue.isSome → worker.queue.isSome)
    (h : (s.workers i).queue.isSome) : ((s.setWorker owner worker).workers i).queue.isSome := by
  by_cases hi : i = owner
  · subst hi
    simpa [Startup.setWorker] using hworker h
  · simpa [Startup.setWorker, hi] using h

-- A place of the same worker that is not behind the load of a null queue.
structure GoesOn (id : UInt32) (p : WorkerPc) : Prop where
  id : p.id = id
  queue : ∀ id caller, p ≠ .pop id caller none .loadHead

theorem stealLoop_goesOn (s : Startup) (id i : UInt32) : GoesOn id (stealLoop s id i) := by
  unfold stealLoop
  split_ifs
  · exact ⟨rfl, nofun⟩
  · exact ⟨rfl, nofun⟩

theorem afterPop_goesOn (s : Startup) (id : UInt32) (caller : Caller) (task : Ptr) :
    GoesOn id (afterPop s id caller task) := by
  cases caller with
  | own =>
      simp only [afterPop]
      split_ifs
      · exact ⟨rfl, nofun⟩
      · exact stealLoop_goesOn s id 0
      · exact ⟨rfl, nofun⟩
  | steal i =>
      simp only [afterPop]
      split_ifs
      · exact ⟨rfl, nofun⟩
      · exact stealLoop_goesOn s id (i + 1)

theorem afterGlobal_goesOn (id : UInt32) (outcome : ImgMpmc.PopPc ⊕ ImgMpmc.Result) :
    GoesOn id (afterGlobal id outcome) := by
  cases outcome with
  | inl pc => exact ⟨rfl, nofun⟩
  | inr result =>
      unfold afterGlobal
      simp only
      split_ifs
      · exact ⟨rfl, nofun⟩
      · exact ⟨rfl, nofun⟩

-- What an access of worker_loop can do.
inductive WorkerStep (s : Startup) : WorkerPc → Startup × (WorkerPc ⊕ Result) → Prop where
  | ends (p : WorkerPc) (result : Result) : WorkerStep s p (s, .inr result)
  | load (id : UInt32) (caller : Caller) (queue : Option UInt32)
      (hqueue : queue = none → (s.workers (caller.victim s id)).queue.isSome = false) :
      WorkerStep s (.call id caller) (s, .inl (.pop id caller queue .loadHead))
  | goes (p : WorkerPc) {s' : Startup} {p' : WorkerPc} (hkeeps : Keeps s s')
      (hgoes : GoesOn p.id p') : WorkerStep s p (s', .inl p')

theorem workerLoopAccess_step (s : Startup) (choice : Choice) (p : WorkerPc) :
    WorkerStep s p (workerLoopAccess s choice p) := by
  cases p with
  | running id =>
      rw [workerLoopAccess]
      split_ifs
      · exact .goes _ ⟨rfl, rfl, fun _ h => h⟩ ⟨rfl, nofun⟩
      · exact .ends _ _
  | call id caller =>
      refine .load id caller _ fun h => ?_
      split_ifs at h with hqueue
      simpa using hqueue
  | pop id caller queue pc =>
      cases queue with
      | none => exact .ends _ _
      | some owner =>
          rw [workerLoopAccess]
          cases hqueue : (s.workers owner).queue with
          | none => exact .ends _ _
          | some q =>
              simp only
              generalize imgQueuePop q pc = popped
              obtain ⟨q', outcome⟩ := popped
              refine .goes _ ⟨rfl, rfl, fun _ h => setWorker_queue _ (fun _ => rfl) h⟩ ?_
              cases outcome with
              | inl pc => exact ⟨rfl, nofun⟩
              | inr result => exact afterPop_goesOn s id caller result.task
  | global id pc =>
      rw [workerLoopAccess]
      cases s.globalQueue with
      | none => exact .ends _ _
      | some q => exact .goes _ ⟨rfl, rfl, fun _ h => h⟩ (afterGlobal_goesOn id _)
  | execute id task => exact .goes _ ⟨rfl, rfl, fun _ h => h⟩ ⟨rfl, nofun⟩

theorem workerLoopAccess_keeps (s : Startup) (choice : Choice) (p : WorkerPc) :
    Keeps s (workerLoopAccess s choice p).1 := by
  have hstep := workerLoopAccess_step s choice p
  generalize workerLoopAccess s choice p = r at hstep ⊢
  cases hstep with
  | ends _ result => exact ⟨rfl, rfl, fun _ h => h⟩
  | load id caller queue hqueue => exact ⟨rfl, rfl, fun _ h => h⟩
  | goes _ hkeeps hgoes => exact hkeeps

theorem workerLoopAccess_id {choice : Choice} {p p' : WorkerPc}
    (h : (workerLoopAccess s choice p).2 = .inl p') : p'.id = p.id := by
  have hstep := workerLoopAccess_step s choice p
  generalize workerLoopAccess s choice p = r at hstep h
  cases hstep with
  | ends _ result => cases h
  | load id caller queue hqueue =>
      cases h
      rfl
  | goes _ hkeeps hgoes =>
      cases h
      exact hgoes.id

-- What img_scheduler_init has come to.
def InitOk (n : UInt32) (s : Startup) : InitPc → Prop
  | .enter workers => workers = n ∧ ∀ i, s.created i = false
  | .fields i | .queue i => i < s.workerCount ∧ ∀ i, s.created i = false
  | .create i =>
      i < s.workerCount ∧ (s.workers i).queue.isSome ∧ ∀ i, s.created i = false

structure Safe (n : UInt32) (s : Startup) (pc : Agent → Option Pc) : Prop where
  workerCount : s.workerCount ≤ 1
  created : ∀ i, s.created i = true → i = 0 ∧ s.workerCount = 1 ∧ (s.workers 0).queue.isSome
  init : ∀ p, pc .initialiser = some p → ∃ p', p = .init p' ∧ InitOk n s p'
  worker : ∀ id p, pc (.worker id) = some p →
    s.created id = true ∧ ∃ p', p = .work p' ∧ p'.id = id

theorem safe_called (n : UInt32) : Safe n (called n).shared (called n).pc where
  workerCount := (by decide : (0 : UInt32) ≤ 1)
  created := by
    intro i hi
    cases hi
  init := by
    intro p hp
    exact ⟨.enter n, (Option.some.inj hp).symm, rfl, fun _ => rfl⟩
  worker := by
    intro id p hp
    cases hp

-- The record of the only worker that there is.
theorem victim_eq_zero (hcount : s.workerCount = 1) (caller : Caller) :
    caller.victim s 0 = 0 := by
  cases caller with
  | own => rfl
  | steal i =>
      rw [Caller.victim, hcount]
      apply UInt32.toNat_inj.mp
      rw [UInt32.toNat_mod]
      exact Nat.mod_one _

-- Only the load of a queue pointer leads to a call with NULL.

theorem popsNull_iff {agent : Agent} {p : Pc} {outcome : Pc ⊕ Result} :
    PopsNull (.access agent p outcome) ↔
      ∃ id caller, outcome = .inl (.work (.pop id caller none .loadHead)) := by
  constructor
  · intro h
    unfold PopsNull at h
    split at h
    · next heq =>
        cases heq
        exact ⟨_, _, rfl⟩
    · exact h.elim
  · intro h
    obtain ⟨id, caller, rfl⟩ := h
    trivial

theorem popsNull_call {agent : Agent} {p : Pc} {choice : Choice}
    (h : PopsNull (.access agent p (imgStartup.access s p choice).2)) :
    ∃ id caller, p = .work (.call id caller) ∧
      (s.workers (caller.victim s id)).queue.isSome = false := by
  obtain ⟨id, caller, hpop⟩ := popsNull_iff.mp h
  cases p with
  | init p =>
      change (imgSchedulerInitAccess s choice p).2.map Pc.init (fun r => r) = _ at hpop
      obtain ⟨place, -, hplace⟩ := map_eq_inl hpop
      cases hplace
  | work p =>
      change (workerLoopAccess s choice p).2.map Pc.work (fun r => r) = _ at hpop
      obtain ⟨place, hout, hplace⟩ := map_eq_inl hpop
      cases hplace
      have hstep := workerLoopAccess_step s choice p
      generalize workerLoopAccess s choice p = r at hstep hout
      cases hstep with
      | ends _ result => cases hout
      | load id caller queue hqueue =>
          cases hout
          exact ⟨id, caller, rfl, hqueue rfl⟩
      | goes _ hkeeps hgoes =>
          cases hout
          exact absurd rfl (hgoes.queue id caller)

variable {pc : Agent → Option Pc} {n : UInt32}

theorem Safe.not_popsNull (h : Safe n s pc) {agent : Agent} {p : Pc} (choice : Choice)
    (hp : pc agent = some p) : ¬PopsNull (.access agent p (imgStartup.access s p choice).2) := by
  intro hnull
  obtain ⟨id, caller, rfl, hqueue⟩ := popsNull_call hnull
  cases agent with
  | initialiser =>
      obtain ⟨p', hp', -⟩ := h.init _ hp
      cases hp'
  | worker id' =>
      obtain ⟨hcreated, p', hp', hid⟩ := h.worker id' _ hp
      cases hp'
      obtain rfl : id = id' := hid
      obtain ⟨rfl, hcount, hsome⟩ := h.created id hcreated
      rw [victim_eq_zero hcount] at hqueue
      rw [hqueue] at hsome
      cases hsome

theorem Safe.start (h : Safe n s pc) {id : UInt32} (hcreated : s.created id = true) :
    Safe n s (Function.update pc (.worker id) (some (.work (.running id)))) := by
  refine ⟨h.workerCount, h.created, ?_, ?_⟩
  · intro p hp
    rw [Function.update_of_ne (by simp)] at hp
    exact h.init p hp
  · intro id' p hp
    by_cases he : id' = id
    · subst he
      rw [Function.update_self] at hp
      exact ⟨hcreated, .running id', (Option.some.inj hp).symm, rfl⟩
    · rw [Function.update_of_ne (by simpa using he)] at hp
      exact h.worker id' p hp

theorem Safe.worker_access (h : Safe n s pc) {id : UInt32} {p : Pc} (choice : Choice)
    (hp : pc (.worker id) = some p) :
    Safe n (imgStartup.access s p choice).1
      (Function.update pc (.worker id) (imgStartup.access s p choice).2.getLeft?) := by
  obtain ⟨hcreated, p, rfl, hid⟩ := h.worker id p hp
  have hkeeps : Keeps s (imgStartup.access s (.work p) choice).1 := workerLoopAccess_keeps s choice p
  refine ⟨hkeeps.workerCount ▸ h.workerCount, ?_, ?_, ?_⟩
  · intro i hi
    obtain ⟨hzero, hcount, hsome⟩ := h.created i (hkeeps.created ▸ hi)
    exact ⟨hzero, hkeeps.workerCount.trans hcount, hkeeps.queue 0 hsome⟩
  · intro p' hp'
    rw [Function.update_of_ne (by simp)] at hp'
    obtain ⟨p', rfl, hok⟩ := h.init p' hp'
    refine ⟨p', rfl, ?_⟩
    cases p' with
    | enter workers => exact ⟨hok.1, hkeeps.created ▸ hok.2⟩
    | fields i => exact ⟨hkeeps.workerCount ▸ hok.1, hkeeps.created ▸ hok.2⟩
    | queue i => exact ⟨hkeeps.workerCount ▸ hok.1, hkeeps.created ▸ hok.2⟩
    | create i =>
        exact ⟨hkeeps.workerCount ▸ hok.1, hkeeps.queue i hok.2.1, hkeeps.created ▸ hok.2.2⟩
  · intro id' p' hp'
    by_cases he : id' = id
    · subst he
      rw [Function.update_self] at hp'
      refine ⟨hkeeps.created ▸ hcreated, ?_⟩
      change ((workerLoopAccess s choice p).2.map Pc.work (fun r => r)).getLeft? = some p' at hp'
      obtain ⟨next, hout, rfl⟩ := map_eq_inl (Sum.getLeft?_eq_some_iff.mp hp')
      exact ⟨next, rfl, (workerLoopAccess_id hout).trans hid⟩
    · rw [Function.update_of_ne (by simpa using he)] at hp'
      rw [hkeeps.created]
      exact h.worker id' p' hp'

theorem InitOk.none_created {p : InitPc} (h : InitOk n s p) : ∀ i, s.created i = false := by
  cases p with
  | enter workers => exact h.2
  | fields i => exact h.2
  | queue i => exact h.2
  | create i => exact h.2.2

-- What img_scheduler_init does before it has created a thread.
theorem Safe.of_init {s' : Startup} {outcome : InitPc ⊕ Result} (hcount : s'.workerCount ≤ 1)
    (hcreated : ∀ i, s'.created i = true →
      i = 0 ∧ s'.workerCount = 1 ∧ (s'.workers 0).queue.isSome)
    (hworker : ∀ id, pc (.worker id) = none) (hinit : ∀ p, outcome = .inl p → InitOk n s' p) :
    Safe n s' (Function.update pc .initialiser (outcome.map Pc.init (fun r => r)).getLeft?) := by
  refine ⟨hcount, hcreated, ?_, ?_⟩
  · intro p hp
    rw [Function.update_self] at hp
    cases outcome with
    | inl p' => exact ⟨p', (Option.some.inj hp).symm, hinit p' rfl⟩
    | inr result => cases hp
  · intro id p hp
    rw [Function.update_of_ne (by simp), hworker id] at hp
    cases hp

theorem initLoop_inl {i : UInt32} {p : InitPc} (h : initLoop s i = .inl p) :
    i < s.workerCount ∧ p = .fields i := by
  rw [initLoop] at h
  split_ifs at h with hi
  exact ⟨hi, (Sum.inl.inj h).symm⟩

theorem one_worker {i : UInt32} (hcount : s.workerCount ≤ 1) (hi : i < s.workerCount) :
    i = 0 ∧ s.workerCount = 1 := by
  have hle : s.workerCount.toNat ≤ 1 := UInt32.le_iff_toNat_le.mp hcount
  have hlt := UInt32.lt_iff_toNat_lt.mp hi
  refine ⟨UInt32.toNat_inj.mp ?_, UInt32.toNat_inj.mp ?_⟩
  · change i.toNat = 0
    omega
  · change s.workerCount.toNat = 1
    omega

theorem Safe.init_access (h : Safe n s pc) (hn : n ≤ 1) {p : Pc} (choice : Choice)
    (hp : pc .initialiser = some p) :
    Safe n (imgStartup.access s p choice).1
      (Function.update pc .initialiser (imgStartup.access s p choice).2.getLeft?) := by
  obtain ⟨p, rfl, hok⟩ := h.init p hp
  have hnone := hok.none_created
  have hworker : ∀ id, pc (.worker id) = none := by
    intro id
    by_contra hsome
    obtain ⟨p', hp'⟩ := Option.ne_none_iff_exists'.mp hsome
    exact absurd (h.worker id p' hp').1 (by simp [hnone])
  change Safe n (imgSchedulerInitAccess s choice p).1 (Function.update pc .initialiser
    ((imgSchedulerInitAccess s choice p).2.map Pc.init (fun r => r)).getLeft?)
  have hcreated : ∀ {s' : Startup}, s'.created = s.created → ∀ i, s'.created i = true →
      i = 0 ∧ s'.workerCount = 1 ∧ (s'.workers 0).queue.isSome := by
    intro s' he i hi
    rw [he, hnone] at hi
    cases hi
  cases p with
  | enter workers =>
      rw [imgSchedulerInitAccess]
      split_ifs
      · exact .of_init h.workerCount (hcreated rfl) hworker (fun p hp => by cases hp)
      · obtain rfl : workers = n := hok.1
        refine .of_init hn (hcreated rfl) hworker (fun p hp => ?_)
        obtain ⟨hi, rfl⟩ := initLoop_inl hp
        exact ⟨hi, hnone⟩
  | fields i =>
      refine .of_init h.workerCount (hcreated rfl) hworker (fun p hp => ?_)
      cases hp
      exact ⟨hok.1, hnone⟩
  | queue i =>
      rw [imgSchedulerInitAccess]
      split_ifs
      · refine .of_init h.workerCount (hcreated rfl) hworker (fun p hp => ?_)
        cases hp
        exact ⟨hok.1, by simp [Startup.setWorker], hnone⟩
      · refine .of_init h.workerCount (hcreated rfl) hworker (fun p hp => ?_)
        obtain ⟨hi, rfl⟩ := initLoop_inl hp
        exact ⟨hi, hnone⟩
  | create i =>
      obtain ⟨hi, hqueue, -⟩ := hok
      obtain ⟨rfl, hone⟩ := one_worker h.workerCount hi
      -- the only thread has its queue, and the loop is over
      have hlast : ∀ created, initLoop { s with created } (0 + 1) = .inr .initialised := by
        intro created
        rw [initLoop, if_neg]
        change ¬(0 + 1 < s.workerCount)
        rw [hone]
        decide
      rw [imgSchedulerInitAccess, hlast]
      refine .of_init h.workerCount (fun i hi => ?_) hworker (fun p hp => by cases hp)
      refine ⟨?_, hone, hqueue⟩
      by_contra hne
      change (if choice.thread then Function.update s.created 0 true else s.created) i = true at hi
      split_ifs at hi
      · rw [Function.update_of_ne hne, hnone] at hi
        cases hi
      · rw [hnone] at hi
        cases hi

theorem Safe.of_run (hn : n ≤ 1) {events : History} {config : State}
    (run : imgStartup.Run Legal (called n) events config) :
    Safe n config.shared config.pc ∧ ∀ event ∈ events, ¬PopsNull event := by
  induction run with
  | start => exact ⟨safe_called n, by simp⟩
  | turn turn run hlegal hplay ih =>
      obtain ⟨hsafe, hevents⟩ := ih
      obtain ⟨agent, op, rfl, hpc, rfl, rfl⟩ | ⟨agent, choice, p, rfl, hpc, rfl, rfl⟩ :=
        Program.play_cases hplay
      · cases agent with
        | initialiser => cases hlegal
        | worker id =>
            cases op with
            | work id' =>
                obtain ⟨rfl, hcreated⟩ := hlegal
                refine ⟨hsafe.start hcreated, List.forall_mem_append.mpr ⟨hevents, ?_⟩⟩
                exact List.forall_mem_singleton.mpr not_false
      · refine ⟨?_, ?_⟩
        · cases agent with
          | initialiser => exact hsafe.init_access hn choice hpc
          | worker id => exact hsafe.worker_access choice hpc
        · apply List.forall_mem_append.mpr ⟨hevents, ?_⟩
          exact List.forall_mem_singleton.mpr (hsafe.not_popsNull choice hpc)

end Alone

-- No call of img_queue_pop with NULL in any interleaving: exactly with one worker at
-- most.
theorem imgStartup_safe_iff (n : UInt32) :
    (∀ events config, imgStartup.Run Legal (called n) events config →
      ∀ event ∈ events, ¬PopsNull event) ↔ n ≤ 1 := by
  constructor
  · intro hsafe
    by_contra hn
    have htwo : 2 ≤ n := by
      rw [UInt32.le_iff_toNat_le] at hn ⊢
      change ¬n.toNat ≤ 1 at hn
      change 2 ≤ n.toNat
      omega
    obtain ⟨events, config, run, event, hmem, hnull⟩ := exists_popsNull htwo
    exact hsafe events config run event hmem hnull
  · intro hn events config run
    exact (Safe.of_run hn run).2

theorem imgStartup_popsNull_two : ∃ events config,
    imgStartup.Run Legal (called 2) events config ∧ ∃ event ∈ events, PopsNull event :=
  exists_popsNull (by decide)

end ImgEngine.Runtime.ImgStartup
