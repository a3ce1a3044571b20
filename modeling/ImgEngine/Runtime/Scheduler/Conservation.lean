import ImgEngine.Runtime.QueueSpsc.Theorems
import ImgEngine.Runtime.Scheduler.Accounting

namespace ImgEngine.Runtime.ImgSched

open ImgEngine.Library.Interleaving
open ImgEngine.Library.TicketRing
open ImgEngine.Runtime.ImgMpmc (Represents storedCount sum_update)

variable {Client : Type} [DecidableEq Client]

-- What a thread does in the global queue.
def globalPc : Pc → Option ImgMpmc.Pc
  | .submit (.global pc) => some (.push pc)
  | .work (.global _ pc) => some (.pop pc)
  | _ => none

def WorkerPc.id : WorkerPc → UInt32
  | .running id | .own id _ | .steal id _ _ | .global id _ | .execute id _ => id

-- Workers run their own loop, and clients push to rings that exist.
def Placed (workers : UInt32) : Agent Client → Pc → Prop
  | .worker id, .work p => p.id = id ∧ id < workers
  | .client _, .submit (.ring target _) => target < workers
  | .client _, .submit _ => True
  | _, _ => False

-- The task that a worker is executing.
def executing : Option Pc → List Ptr
  | some (.work (.execute _ task)) => [task]
  | _ => []

@[simp] theorem inHands_none (q : ImgMpmcQueue) : inHands q none = [] := rfl

-- How often a task occurs in the rings, in the hands of the workers, and in
-- execution.

def ringCount (s : ImgScheduler) (task : Ptr) : Nat :=
  ∑ id ∈ (workerIds s).toFinset, (ImgSpsc.contents 10 (s.queue id)).count task

def handCount (s : ImgScheduler) (pc : Agent Client → Option Pc) (task : Ptr) : Nat :=
  ∑ id ∈ (workerIds s).toFinset, (inHands s.globalQueue (pc (.worker id))).count task

def executeCount (s : ImgScheduler) (pc : Agent Client → Option Pc) (task : Ptr) : Nat :=
  ∑ id ∈ (workerIds s).toFinset, (executing (pc (.worker id))).count task

-- Every accepted task is accounted for, and every taken one is still in execution
-- or finished.
structure Inv (k : Nat) (config : State Client) (events : History Client)
    (ring : Ring (Agent Client) Ptr) : Prop where
  workers : 0 < config.shared.workerCount
  rings : ∀ id, ImgSpsc.Ready 10 (config.shared.queue id)
  global : Represents k config.shared.globalQueue
    (fun agent => (config.pc agent).bind globalPc) ring
  placed : ∀ agent p, config.pc agent = some p → Placed config.shared.workerCount agent p
  balance : ∀ task, (events.filterMap submitReturn).count task =
    ringCount config.shared task + storedCount k ring task +
      handCount config.shared config.pc task + (events.filterMap finish).count task
  taken : ∀ task, (events.filterMap take).count task =
    executeCount config.shared config.pc task + (events.filterMap finish).count task

section Tallies

variable {s s' : ImgScheduler} {pc : Agent Client → Option Pc}

theorem mem_workerIds {id : UInt32} : id ∈ (workerIds s).toFinset ↔ id < s.workerCount := by
  simp only [workerIds, List.mem_toFinset, List.mem_map, List.mem_range]
  constructor
  · rintro ⟨n, hn, rfl⟩
    have := s.workerCount.toNat_lt
    rw [UInt32.lt_iff_toNat_lt, UInt32.toNat_ofNat', Nat.mod_eq_of_lt (by omega)]
    exact hn
  · intro hid
    exact ⟨id.toNat, UInt32.lt_iff_toNat_lt.mp hid, UInt32.ofNat_toNat⟩

omit [DecidableEq Client] in
theorem workerIds_congr (hcount : s'.workerCount = s.workerCount) : workerIds s' = workerIds s := by
  rw [workerIds, workerIds, hcount]

omit [DecidableEq Client] in
theorem ringCount_setQueue {target : UInt32} (htarget : target < s.workerCount) (q : ImgQueue)
    (task : Ptr) :
    ringCount (s.setQueue target q) task + (ImgSpsc.contents 10 (s.queue target)).count task =
      ringCount s task + (ImgSpsc.contents 10 q).count task :=
  sum_update (mem_workerIds.mpr htarget) (fun q => (ImgSpsc.contents 10 q).count task) s.queue q

theorem handCount_client (hcount : s'.workerCount = s.workerCount)
    (hframe : ∀ agent, inHands s'.globalQueue (pc agent) = inHands s.globalQueue (pc agent))
    (client : Client) (p : Option Pc) (task : Ptr) :
    handCount s' (Function.update pc (.client client) p) task = handCount s pc task := by
  rw [handCount, handCount, workerIds_congr hcount]
  refine Finset.sum_congr rfl fun id _ => ?_
  rw [Function.update_of_ne (by simp), hframe]

theorem handCount_worker (s : ImgScheduler) (pc : Agent Client → Option Pc)
    (hcount : s'.workerCount = s.workerCount)
    (hframe : ∀ agent, inHands s'.globalQueue (pc agent) = inHands s.globalQueue (pc agent))
    {id : UInt32} (hid : id < s.workerCount) (p : Option Pc) (task : Ptr) :
    handCount s' (Function.update pc (.worker id) p) task +
        (inHands s.globalQueue (pc (.worker id))).count task =
      handCount s pc task + (inHands s'.globalQueue p).count task := by
  have hupdate : (fun other => inHands s'.globalQueue
      (Function.update pc (.worker id) p (.worker other))) =
        Function.update (fun other => inHands s.globalQueue (pc (.worker other))) id
          (inHands s'.globalQueue p) := by
    funext other
    by_cases he : other = id
    · simp [he]
    · rw [Function.update_of_ne (by simp [he]), Function.update_of_ne he, hframe]
  rw [handCount, handCount, workerIds_congr hcount]
  have hsum := sum_update (mem_workerIds.mpr hid) (fun held : List Ptr => held.count task)
    (fun other => inHands s.globalQueue (pc (.worker other))) (inHands s'.globalQueue p)
  rw [← hupdate] at hsum
  exact hsum

theorem executeCount_client (hcount : s'.workerCount = s.workerCount) (client : Client)
    (p : Option Pc) (task : Ptr) :
    executeCount s' (Function.update pc (.client client) p) task = executeCount s pc task := by
  rw [executeCount, executeCount, workerIds_congr hcount]
  refine Finset.sum_congr rfl fun id _ => ?_
  rw [Function.update_of_ne (by simp)]

theorem executeCount_worker (s : ImgScheduler) (pc : Agent Client → Option Pc)
    (hcount : s'.workerCount = s.workerCount) {id : UInt32} (hid : id < s.workerCount)
    (p : Option Pc) (task : Ptr) :
    executeCount s' (Function.update pc (.worker id) p) task +
        (executing (pc (.worker id))).count task =
      executeCount s pc task + (executing p).count task := by
  have hupdate : (fun other => executing (Function.update pc (.worker id) p (.worker other))) =
      Function.update (fun other => executing (pc (.worker other))) id (executing p) := by
    funext other
    by_cases he : other = id
    · simp [he]
    · rw [Function.update_of_ne (by simp [he]), Function.update_of_ne he]
  rw [executeCount, executeCount, workerIds_congr hcount]
  have hsum := sum_update (mem_workerIds.mpr hid) (fun held : List Ptr => held.count task)
    (fun other => executing (pc (.worker other))) (executing p)
  rw [← hupdate] at hsum
  exact hsum

theorem project_update (agent : Agent Client) (p : Option Pc) :
    (fun other => (Function.update pc agent p other).bind globalPc) =
      Function.update (fun other => (pc other).bind globalPc) agent (p.bind globalPc) := by
  funext other
  by_cases he : other = agent
  · simp [he]
  · simp [he]

end Tallies

section Steps

variable {k : Nat} {config : State Client} {events : History Client}
  {ring next : Ring (Agent Client) Ptr} {s' : ImgScheduler}

omit [DecidableEq Client] in
theorem count_snoc (f : Event (Agent Client) Op Pc Result → Option Ptr)
    (event : Event (Agent Client) Op Pc Result) (task : Ptr) :
    ((events ++ [event]).filterMap f).count task =
      (events.filterMap f).count task + ([event].filterMap f).count task := by
  rw [List.filterMap_append, List.count_append]

-- A thread enters an operation with empty hands.
theorem Inv.call (hinv : Inv k config events ring) {agent : Agent Client} {op : Op}
    (hpc : config.pc agent = none)
    (hlegal : Contract config.shared.workerCount (.call agent op)) :
    Inv k { config with pc := Function.update config.pc agent (some (imgScheduler.start op)) }
      (events ++ [.call agent op]) ring := by
  have hquiet : globalPc (imgScheduler.start op) = none := by cases op <;> rfl
  have hrep := hinv.global.local agent none (by simp)
  refine ⟨hinv.workers, hinv.rings, ?_, ?_, ?_, ?_⟩
  · rw [project_update, Option.bind_some, hquiet]
    exact hrep
  · intro other p hp
    by_cases he : other = agent
    · subst he
      obtain rfl : imgScheduler.start op = p := by simpa using hp
      cases other with
      | worker id =>
          cases op with
          | submit task => cases hlegal
          | work id' => exact hlegal
      | client client =>
          cases op with
          | submit task => trivial
          | work id' => cases hlegal
    · exact hinv.placed other p (by simpa [he] using hp)
  · intro task
    have hbalance := hinv.balance task
    have hhands : handCount config.shared
        (Function.update config.pc agent (some (imgScheduler.start op))) task =
          handCount config.shared config.pc task := by
      cases agent with
      | worker id =>
          have hsum := handCount_worker config.shared config.pc rfl (fun _ => rfl)
            (by cases op <;> [cases hlegal; exact hlegal.2])
            (some (imgScheduler.start op)) task
          have hempty : inHands config.shared.globalQueue (some (imgScheduler.start op)) = [] := by
            cases op <;> rfl
          rw [hpc, hempty] at hsum
          exact hsum
      | client client => exact handCount_client rfl (fun _ => rfl) client _ task
    simp only [count_snoc, hhands, hbalance]
    rfl
  · intro task
    have htaken := hinv.taken task
    have hhands : executeCount config.shared
        (Function.update config.pc agent (some (imgScheduler.start op))) task =
          executeCount config.shared config.pc task := by
      cases agent with
      | worker id =>
          have hsum := executeCount_worker config.shared config.pc rfl
            (by cases op <;> [cases hlegal; exact hlegal.2])
            (some (imgScheduler.start op)) task
          have hempty : executing (some (imgScheduler.start op)) = [] := by cases op <;> rfl
          rw [hpc, hempty] at hsum
          exact hsum
      | client client => exact executeCount_client rfl client _ task
    simp only [count_snoc, hhands, htaken]
    rfl

-- What an access has to account for: a client adds what it submits to a place.
theorem Inv.advanceClient (hinv : Inv k config events ring) {client : Client} {p : SubmitPc}
    {outcome : SubmitPc ⊕ Result} (hrings : ∀ id, ImgSpsc.Ready 10 (s'.queue id))
    (hcount : s'.workerCount = config.shared.workerCount)
    (hglobal : Represents k s'.globalQueue
      (Function.update (fun agent => (config.pc agent).bind globalPc) (.client client)
        ((outcome.map Pc.submit id).getLeft?.bind globalPc)) next)
    (hplaced : ∀ p', outcome = .inl p' →
      Placed config.shared.workerCount (.client client) (.submit p'))
    (hframe : ∀ agent, inHands s'.globalQueue (config.pc agent) =
      inHands config.shared.globalQueue (config.pc agent))
    (hbalance : ∀ task,
      ringCount s' task + storedCount k next task =
        ringCount config.shared task + storedCount k ring task +
          ([Event.access (Agent.client client) (Pc.submit p)
            (outcome.map Pc.submit id)].filterMap submitReturn).count task) :
    Inv k { shared := s',
            pc := Function.update config.pc (.client client) ((outcome.map Pc.submit id).getLeft?) }
      (events ++ [.access (.client client) (.submit p) (outcome.map .submit id)]) next := by
  refine ⟨hcount ▸ hinv.workers, hrings, ?_, ?_, ?_, ?_⟩
  · rw [project_update]
    exact hglobal
  · intro other p' hp'
    rw [hcount]
    by_cases he : other = .client client
    · subst he
      simp only [Function.update_self, Sum.getLeft?_map, Option.map_eq_some_iff,
        Sum.getLeft?_eq_some_iff] at hp'
      obtain ⟨p', hout, rfl⟩ := hp'
      exact hplaced p' hout
    · exact hinv.placed other p' (by simpa [he] using hp')
  · intro task
    have hold := hinv.balance task
    have hnew := hbalance task
    have hfinish : [Event.access (Agent.client client) (Pc.submit p)
        (outcome.map Pc.submit id)].filterMap finish = [] := rfl
    simp only [count_snoc, handCount_client hcount hframe, hfinish, List.count_nil]
    omega
  · intro task
    have hold := hinv.taken task
    have hfinish : [Event.access (Agent.client client) (Pc.submit p)
        (outcome.map Pc.submit id)].filterMap finish = [] := rfl
    have htake : [Event.access (Agent.client client) (Pc.submit p)
        (outcome.map Pc.submit id)].filterMap take = [] := by cases outcome <;> rfl
    simp only [count_snoc, executeCount_client hcount, hfinish, htake, List.count_nil]
    omega

-- A worker moves what it takes from a queue into its hands, and what it has
-- executed out of them.
theorem Inv.advanceWorker (hinv : Inv k config events ring) {worker : UInt32} {p : WorkerPc}
    (outcome : WorkerPc ⊕ Result) (hpc : config.pc (.worker worker) = some (.work p))
    (hrings : ∀ id, ImgSpsc.Ready 10 (s'.queue id))
    (hcount : s'.workerCount = config.shared.workerCount)
    (hglobal : Represents k s'.globalQueue
      (Function.update (fun agent => (config.pc agent).bind globalPc) (.worker worker)
        ((outcome.map Pc.work id).getLeft?.bind globalPc)) next)
    (hid : ∀ p', outcome = .inl p' → p'.id = worker)
    (hframe : ∀ agent, inHands s'.globalQueue (config.pc agent) =
      inHands config.shared.globalQueue (config.pc agent))
    (hbalance : ∀ task,
      ringCount s' task + storedCount k next task +
          (inHands s'.globalQueue (outcome.map Pc.work id).getLeft?).count task +
          ([Event.access (Agent.worker worker : Agent Client) (Pc.work p)
            (outcome.map Pc.work id)].filterMap finish).count task =
        ringCount config.shared task + storedCount k ring task +
          (inHands config.shared.globalQueue (some (.work p))).count task)
    (htaken : ∀ task,
      (executing (outcome.map Pc.work id).getLeft?).count task +
          ([Event.access (Agent.worker worker : Agent Client) (Pc.work p)
            (outcome.map Pc.work id)].filterMap finish).count task =
        (executing (some (.work p))).count task +
          ([Event.access (Agent.worker worker : Agent Client) (Pc.work p)
            (outcome.map Pc.work id)].filterMap take).count task) :
    Inv k { shared := s',
            pc := Function.update config.pc (.worker worker) ((outcome.map Pc.work id).getLeft?) }
      (events ++ [.access (.worker worker) (.work p) (outcome.map .work id)]) next := by
  have hworker := (hinv.placed _ _ hpc).2
  refine ⟨hcount ▸ hinv.workers, hrings, ?_, ?_, ?_, ?_⟩
  · rw [project_update]
    exact hglobal
  · intro other p' hp'
    rw [hcount]
    by_cases he : other = .worker worker
    · subst he
      simp only [Function.update_self, Sum.getLeft?_map, Option.map_eq_some_iff,
        Sum.getLeft?_eq_some_iff] at hp'
      obtain ⟨p', hout, rfl⟩ := hp'
      exact ⟨hid p' hout, hworker⟩
    · exact hinv.placed other p' (by simpa [he] using hp')
  · intro task
    have hold := hinv.balance task
    have hnew := hbalance task
    have hhands := handCount_worker config.shared config.pc hcount hframe hworker
      (outcome.map Pc.work id).getLeft? task
    rw [hpc] at hhands
    have hreturn : [Event.access (Agent.worker worker : Agent Client) (Pc.work p)
        (outcome.map Pc.work id)].filterMap submitReturn = [] := rfl
    simp only [count_snoc, hreturn, List.count_nil]
    omega
  · intro task
    have hold := hinv.taken task
    have hnew := htaken task
    have hhands := executeCount_worker config.shared config.pc hcount hworker
      (outcome.map Pc.work id).getLeft? task
    rw [hpc] at hhands
    simp only [count_snoc]
    omega

theorem ready_setQueue {s : ImgScheduler} (hrings : ∀ id, ImgSpsc.Ready 10 (s.queue id))
    (target : UInt32) {q : ImgQueue} (hq : ImgSpsc.Ready 10 q) :
    ∀ id, ImgSpsc.Ready 10 ((s.setQueue target q).queue id) := by
  intro id
  by_cases he : id = target
  · subst he
    simpa [ImgScheduler.setQueue] using hq
  · simpa [ImgScheduler.setQueue, he] using hrings id

omit [DecidableEq Client] in
theorem Inv.inHands_frame (hinv : Inv k config events ring) (hk : k ≤ 63) {agent : Agent Client}
    {p : Pc} (p' : ImgMpmc.Pc) (hpc : config.pc agent = some p) (hp : globalPc p = some p')
    (spurious : Bool) (other : Agent Client) :
    inHands (imgMpmc.access config.shared.globalQueue p' spurious).1 (config.pc other) =
      inHands config.shared.globalQueue (config.pc other) := by
  cases hother : config.pc other with
  | none => rfl
  | some p'' =>
      cases p'' with
      | submit p'' => rfl
      | work p'' =>
          cases p'' with
          | global id p'' =>
              have hframe := hinv.global.claimedItem_frame hk
                (show (config.pc agent).bind globalPc = some p' by simp [hpc, hp]) spurious
                (show (config.pc other).bind globalPc = some (.pop p'') by simp [hother, globalPc])
              cases p'' <;> exact hframe
          | _ => rfl

end Steps

end ImgEngine.Runtime.ImgSched
