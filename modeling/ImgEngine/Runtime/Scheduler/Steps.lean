import ImgEngine.Runtime.Scheduler.Conservation

namespace ImgEngine.Runtime.ImgSched

open ImgEngine.Library.Interleaving
open ImgEngine.Library.TicketRing
open ImgEngine.Runtime.ImgMpmc (Represents storedCount)

variable {Client : Type} [DecidableEq Client] {k : Nat} {config : State Client}
  {events : History Client} {ring : Ring (Agent Client) Ptr}

theorem uint32_mod_lt {x n : UInt32} (hn : 0 < n) : x % n < n := by
  rw [UInt32.lt_iff_toNat_lt] at hn ⊢
  rw [UInt32.toNat_mod]
  exact Nat.mod_lt _ hn

theorem target_lt {task : Ptr} {n : UInt32} (hn : 0 < n) :
    (task % n.toUInt64).toUInt32 < n := by
  rw [UInt32.lt_iff_toNat_lt] at hn ⊢
  have hlt := Nat.mod_lt task.toNat hn
  have := n.toNat_lt
  rw [UInt64.toNat_toUInt32, UInt64.toNat_mod, UInt32.toNat_toUInt64,
    Nat.mod_eq_of_lt (by exact lt_trans hlt this)]
  exact hlt

-- A call that finds task null returns, and another goes on with the ring it has chosen.
theorem Inv.chooseTarget (hinv : Inv k config events ring) (client : Client) (task : Ptr)
    (choice : Choice) :
    Inv k
      { shared := (imgSchedulerSubmit config.shared choice (.target task)).1,
        pc := Function.update config.pc (.client client)
          (((imgSchedulerSubmit config.shared choice (.target task)).2.map Pc.submit id).getLeft?) }
      (events ++ [.access (.client client) (.submit (.target task))
        ((imgSchedulerSubmit config.shared choice (.target task)).2.map .submit id)]) ring := by
  simp only [imgSchedulerSubmit]
  split_ifs with hnull
  · refine hinv.advanceClient hinv.rings rfl ?_ ?_ (fun _ => rfl) (fun _ => rfl)
    · exact hinv.global.local _ _ (by simp)
    · simp
  · refine hinv.advanceClient hinv.rings rfl ?_ ?_ (fun _ => rfl) (fun _ => rfl)
    · exact hinv.global.local _ _ (by simp [globalPc])
    · rintro p' ⟨⟩
      exact target_lt hinv.workers

-- A push to a ring, which leaves the global queue alone.
theorem Inv.pushRing (hinv : Inv k config events ring) {client : Client} {target : UInt32}
    {pc : ImgSpsc.PushPc} (hpc : config.pc (.client client) = some (.submit (.ring target pc)))
    (choice : Choice) (hfresh : ImgSpsc.FreshPush (config.shared.queue target) pc) :
    Inv k
      { shared := (imgSchedulerSubmit config.shared choice (.ring target pc)).1,
        pc := Function.update config.pc (.client client)
          (((imgSchedulerSubmit config.shared choice (.ring target pc)).2.map Pc.submit id).getLeft?) }
      (events ++ [.access (.client client) (.submit (.ring target pc))
        ((imgSchedulerSubmit config.shared choice (.ring target pc)).2.map .submit id)]) ring := by
  have htarget : target < config.shared.workerCount := hinv.placed _ _ hpc
  have hready := ImgSpsc.imgQueuePush_ready (hinv.rings target) pc
  have hcontents := ImgSpsc.imgQueuePush_contents (hinv.rings target) pc hfresh
  simp only [imgSchedulerSubmit]
  generalize imgQueuePush (config.shared.queue target) pc = result at hready hcontents ⊢
  obtain ⟨q, outcome⟩ := result
  simp only at hready hcontents ⊢
  have hsum := ringCount_setQueue htarget q
  simp only [hcontents, List.count_append] at hsum
  refine hinv.advanceClient (ready_setQueue hinv.rings target hready) rfl ?_ ?_ (fun _ => rfl) ?_
  · refine hinv.global.local _ _ ?_
    intro p' hp'
    cases outcome with
    | inl pc' => cases hp'
    | inr result =>
        cases result with
        | pushed => cases hp'
        | _ =>
            cases hp'
            trivial
  · intro p' hp'
    cases outcome with
    | inl pc' =>
        cases hp'
        exact htarget
    | inr result =>
        cases result with
        | pushed => cases hp'
        | _ =>
            cases hp'
            trivial
  · intro task
    have hsum := hsum task
    have hreturn : [Event.access (Agent.client client) (Pc.submit (.ring target pc))
        ((submitRing target pc.data outcome).map Pc.submit id)].filterMap submitReturn =
          ImgSpsc.pushed pc outcome := by
      cases outcome with
      | inl pc' => rfl
      | inr result => cases result <;> rfl
    rw [hreturn]
    omega

-- A push to the global queue, which leaves the rings alone.
theorem Inv.pushGlobal (hinv : Inv k config events ring) (hk1 : 1 ≤ k) (hk : k ≤ 63)
    {client : Client} {pc : ImgMpmc.PushPc}
    (hpc : config.pc (.client client) = some (.submit (.global pc))) (choice : Choice)
    (hfresh : ImgMpmc.FreshExchange config.shared.globalQueue (.push pc)) :
    ∃ next, Inv k
      { shared := (imgSchedulerSubmit config.shared choice (.global pc)).1,
        pc := Function.update config.pc (.client client)
          (((imgSchedulerSubmit config.shared choice (.global pc)).2.map Pc.submit id).getLeft?) }
      (events ++ [.access (.client client) (.submit (.global pc))
        ((imgSchedulerSubmit config.shared choice (.global pc)).2.map .submit id)]) next := by
  have hproject : (config.pc (.client client)).bind globalPc = some (.push pc) := by
    simp [hpc, globalPc]
  obtain ⟨next, hnext, hmove⟩ := hinv.global.access hk1 hk (.client client) (.push pc) hproject
    choice.spurious hfresh
  have hframe := hinv.inHands_frame hk (.push pc) hpc rfl choice.spurious
  have hpublished := ImgMpmc.publishedBy_eq config.shared.globalQueue choice.spurious pc
  have hcount := hmove.push_count
  simp only [imgSchedulerSubmit]
  simp only [imgMpmc] at hnext hframe
  generalize imgMpmcPush config.shared.globalQueue choice.spurious pc = result at *
  obtain ⟨q, outcome⟩ := result
  simp only at hnext hframe hpublished ⊢
  refine ⟨next, hinv.advanceClient hinv.rings rfl ?_ ?_ hframe ?_⟩
  · have hbind : ((submitGlobal outcome).map Pc.submit id).getLeft?.bind globalPc =
        (outcome.map ImgMpmc.Pc.push id).getLeft? := by
      cases outcome with
      | inl pc' => rfl
      | inr result => cases result <;> rfl
    rw [hbind]
    exact hnext
  · intro p' hp'
    cases outcome with
    | inl pc' =>
        cases hp'
        trivial
    | inr result => cases result <;> cases hp'
  · intro task
    have hreturn : [Event.access (Agent.client client) (Pc.submit (.global pc))
        ((submitGlobal outcome).map Pc.submit id)].filterMap submitReturn =
          ImgMpmc.acceptedBy pc outcome := by
      cases outcome with
      | inl pc' => rfl
      | inr result => cases result <;> rfl
    rw [hcount task, hpublished, hreturn, Nat.add_assoc]
    rfl

theorem Inv.submit (hinv : Inv k config events ring) (hk1 : 1 ≤ k) (hk : k ≤ 63)
    {client : Client} {p : SubmitPc} (hpc : config.pc (.client client) = some (.submit p))
    (choice : Choice) (hfresh : FreshAccess config.shared (.submit p)) :
    ∃ next, Inv k
      { shared := (imgSchedulerSubmit config.shared choice p).1,
        pc := Function.update config.pc (.client client)
          (((imgSchedulerSubmit config.shared choice p).2.map Pc.submit id).getLeft?) }
      (events ++ [.access (.client client) (.submit p)
        ((imgSchedulerSubmit config.shared choice p).2.map .submit id)]) next := by
  cases p with
  | target task => exact ⟨ring, hinv.chooseTarget client task choice⟩
  | ring target pc => exact ⟨ring, hinv.pushRing hpc choice hfresh⟩
  | global pc => exact hinv.pushGlobal hk1 hk hpc choice hfresh

-- A worker that has taken nothing yet.
def Quiet : WorkerPc → Prop
  | .running _ | .own _ _ | .steal _ _ _ | .global _ .loadHead => True
  | _ => False

theorem Quiet.inHands {p : WorkerPc} (h : Quiet p) (q : ImgMpmcQueue) :
    inHands q (some (.work p)) = [] := by
  cases p with
  | global id pc => cases pc <;> first | rfl | cases h
  | execute id task => cases h
  | _ => rfl

theorem Quiet.executing {p : WorkerPc} (h : Quiet p) : executing (some (.work p)) = [] := by
  cases p with
  | execute id task => cases h
  | _ => rfl

omit [DecidableEq Client] in
theorem Quiet.agrees {p : WorkerPc} (h : Quiet p) (q : ImgMpmcQueue) (agent : Agent Client)
    {p' : ImgMpmc.Pc} (hp' : globalPc (.work p) = some p') : ImgMpmc.Agrees k q ring agent p' := by
  cases p with
  | global id pc =>
      cases pc with
      | loadHead =>
          cases hp'
          trivial
      | _ => cases h
  | _ => cases hp'

omit [DecidableEq Client] in
theorem Quiet.finish {p : WorkerPc} (h : Quiet p) (agent : Agent Client) (outcome : Pc ⊕ Result) :
    [Event.access agent (.work p) outcome].filterMap finish = [] := by
  cases p with
  | execute id task => cases h
  | _ => rfl

omit [DecidableEq Client] in
theorem Quiet.take {p : WorkerPc} (h : Quiet p) (agent : Agent Client) (pc : Pc) :
    [Event.access agent pc (.inl (.work p))].filterMap take = [] := by
  cases p with
  | execute id task => cases h
  | _ => rfl

-- Where no null pointer was accepted, none is stored or in a worker's hands.
omit [DecidableEq Client] in
theorem Inv.holds_nonnull (hinv : Inv k config events ring)
    (hnonnull : 0 ∉ events.filterMap submitReturn) :
    ringCount config.shared 0 = 0 ∧ storedCount k ring 0 = 0 ∧
      handCount config.shared config.pc 0 = 0 := by
  have hbalance := hinv.balance 0
  rw [List.count_eq_zero_of_not_mem hnonnull] at hbalance
  omega

-- What a worker does next after an access of a pop from a ring.
theorem popRing_cases {worker : UInt32} {again : ImgSpsc.PopPc → WorkerPc} {otherwise : WorkerPc}
    (hagain : ∀ pc, Quiet (again pc) ∧ (again pc).id = worker)
    (hother : Quiet otherwise ∧ otherwise.id = worker) {outcome : ImgSpsc.PopPc ⊕ ImgSpsc.Result}
    (hnull : outcome ≠ .inr (.popped 0)) :
    (ImgSpsc.popped outcome = [] ∧ Quiet (popRing worker again otherwise outcome) ∧
      (popRing worker again otherwise outcome).id = worker) ∨
    ∃ task, ImgSpsc.popped outcome = [task] ∧
      popRing worker again otherwise outcome = .execute worker task := by
  cases outcome with
  | inl pc => exact .inl ⟨rfl, hagain pc⟩
  | inr result =>
      cases result with
      | popped task =>
          refine .inr ⟨task, rfl, if_neg ?_⟩
          rintro rfl
          exact hnull rfl
      | _ => exact .inl ⟨rfl, hother⟩

-- And after an access of a pop from the global queue.
theorem popGlobal_cases (worker : UInt32) (q : ImgMpmcQueue)
    {outcome : ImgMpmc.PopPc ⊕ ImgMpmc.Result} (hnull : outcome ≠ .inr (.popped 0)) :
    (∃ pc, outcome = .inl pc ∧ popGlobal worker outcome = .global worker pc) ∨
    (ImgMpmc.handedOn q outcome = [] ∧ outcome.getLeft? = none ∧
      popGlobal worker outcome = .running worker) ∨
    ∃ task, ImgMpmc.handedOn q outcome = [task] ∧ outcome.getLeft? = none ∧
      popGlobal worker outcome = .execute worker task := by
  cases outcome with
  | inl pc => exact .inl ⟨pc, rfl, rfl⟩
  | inr result =>
      cases result with
      | popped task =>
          refine .inr (.inr ⟨task, rfl, rfl, if_neg ?_⟩)
          rintro rfl
          exact hnull rfl
      | _ => exact .inr (.inl ⟨rfl, rfl, rfl⟩)

-- A pop from a ring, by its owner or by a thief. The pointer it takes was
-- accepted, so it is not null and the worker executes it.
theorem Inv.takeRing (hinv : Inv k config events ring)
    (hnonnull : 0 ∉ events.filterMap submitReturn) {worker : UInt32} {p : WorkerPc}
    (hpc : config.pc (.worker worker) = some (.work p)) (hquiet : Quiet p) {target : UInt32}
    (htarget : target < config.shared.workerCount) (pc : ImgSpsc.PopPc)
    (hfresh : ImgSpsc.FreshPop (config.shared.queue target) pc)
    {again : ImgSpsc.PopPc → WorkerPc} {otherwise : WorkerPc}
    (hagain : ∀ pc, Quiet (again pc) ∧ (again pc).id = worker)
    (hother : Quiet otherwise ∧ otherwise.id = worker) :
    Inv k
      { shared := config.shared.setQueue target (imgQueuePop (config.shared.queue target) pc).1,
        pc := Function.update config.pc (.worker worker) (some (.work
          (popRing worker again otherwise (imgQueuePop (config.shared.queue target) pc).2))) }
      (events ++ [.access (.worker worker) (.work p) (.inl (.work
        (popRing worker again otherwise (imgQueuePop (config.shared.queue target) pc).2)))]) ring := by
  have hready := ImgSpsc.imgQueuePop_ready (hinv.rings target) pc
  have hcontents := ImgSpsc.imgQueuePop_contents (hinv.rings target) pc hfresh
  generalize imgQueuePop (config.shared.queue target) pc = result at hready hcontents ⊢
  obtain ⟨q, outcome⟩ := result
  simp only at hready hcontents ⊢
  have hsum := ringCount_setQueue htarget q
  simp only [hcontents, List.count_append] at hsum
  have hnull : outcome ≠ .inr (.popped 0) := by
    rintro rfl
    have hcount := hsum 0
    have hheld := hinv.holds_nonnull hnonnull
    simp [ImgSpsc.popped] at hcount
    omega
  have hnext := popRing_cases hagain hother hnull
  generalize popRing worker again otherwise outcome = p' at hnext ⊢
  refine hinv.advanceWorker (.inl p') hpc (ready_setQueue hinv.rings target hready) rfl
    ?_ ?_ (fun _ => rfl) ?_ ?_
  · refine hinv.global.local _ _ ?_
    intro p'' hp''
    rcases hnext with ⟨-, hquiet', -⟩ | ⟨task, -, rfl⟩
    · exact hquiet'.agrees _ _ hp''
    · cases hp''
  · rintro _ ⟨⟩
    rcases hnext with ⟨-, -, hid⟩ | ⟨task, -, rfl⟩
    · exact hid
    · rfl
  · intro task
    have hcount := hsum task
    rw [hquiet.finish, hquiet.inHands]
    rcases hnext with ⟨hnone, hquiet', -⟩ | ⟨taken, hsome, rfl⟩
    · change _ + (inHands _ (some (.work p'))).count task + _ = _
      rw [hquiet'.inHands]
      simp only [hnone, List.count_nil] at hcount ⊢
      omega
    · change _ + [taken].count task + _ = _
      simp only [hsome, List.count_nil] at hcount ⊢
      omega
  · intro task
    rw [hquiet.finish, hquiet.executing]
    rcases hnext with ⟨-, hquiet', -⟩ | ⟨taken, -, rfl⟩
    · change (executing (some (.work p'))).count task + _ = _ +
        ([Event.access _ _ (.inl (.work p'))].filterMap take).count task
      rw [hquiet'.executing, hquiet'.take]
    · exact Nat.add_comm _ _

theorem inHands_global (q : ImgMpmcQueue) (id : UInt32) (pc : ImgMpmc.PopPc) :
    inHands q (some (.work (.global id pc))) = ImgMpmc.claimedItem q pc := by
  cases pc <;> rfl

-- A pop from the global queue. The worker has the item in its hands from its
-- claim on, and executes it when the pop returns.
theorem Inv.takeGlobal (hinv : Inv k config events ring)
    (hnonnull : 0 ∉ events.filterMap submitReturn) (hk1 : 1 ≤ k) (hk : k ≤ 63) {worker : UInt32}
    {pc : ImgMpmc.PopPc} (hpc : config.pc (.worker worker) = some (.work (.global worker pc)))
    (spurious : Bool)
    (hfresh : ImgMpmc.FreshExchange config.shared.globalQueue (.pop pc)) :
    ∃ next, Inv k
      { shared := { config.shared with
          globalQueue := (imgMpmcPop config.shared.globalQueue spurious pc).1 },
        pc := Function.update config.pc (.worker worker) (some (.work
          (popGlobal worker (imgMpmcPop config.shared.globalQueue spurious pc).2))) }
      (events ++ [.access (.worker worker) (.work (.global worker pc)) (.inl (.work
        (popGlobal worker (imgMpmcPop config.shared.globalQueue spurious pc).2)))]) next := by
  have hproject : (config.pc (.worker worker)).bind globalPc = some (.pop pc) := by
    simp [hpc, globalPc]
  obtain ⟨next, hnext, hmove⟩ := hinv.global.access hk1 hk (.worker worker) (.pop pc) hproject
    spurious hfresh
  have hframe := hinv.inHands_frame hk (.pop pc) hpc rfl spurious
  have hcount := hnext.pop_count hk hmove
  simp only [imgMpmc] at hnext hframe
  generalize imgMpmcPop config.shared.globalQueue spurious pc = result at hnext hframe hcount ⊢
  obtain ⟨q, outcome⟩ := result
  simp only at hnext hframe hcount ⊢
  have hworker := (hinv.placed _ _ hpc).2
  obtain ⟨-, hstored, hhand⟩ := hinv.holds_nonnull hnonnull
  have hheld : (ImgMpmc.claimedItem config.shared.globalQueue pc).count 0 = 0 := by
    have hhands := handCount_worker config.shared config.pc rfl (fun _ => rfl)
      hworker none 0
    rw [hpc, inHands_global, inHands_none, List.count_nil] at hhands
    omega
  have hnull : outcome ≠ .inr (.popped 0) := by
    rintro rfl
    have hcount := hcount 0
    simp [ImgMpmc.handedOn] at hcount
    omega
  have hnext' := popGlobal_cases worker q hnull
  generalize popGlobal worker outcome = p' at hnext' ⊢
  refine ⟨next, hinv.advanceWorker (.inl p') hpc hinv.rings rfl ?_ ?_ hframe ?_ ?_⟩
  · obtain ⟨pc', rfl, rfl⟩ | ⟨-, hleft, rfl⟩ | ⟨task, -, hleft, rfl⟩ := hnext'
    · exact hnext
    · simpa [hleft, globalPc] using hnext
    · simpa [hleft, globalPc] using hnext
  · rintro _ ⟨⟩
    obtain ⟨pc', -, rfl⟩ | ⟨-, -, rfl⟩ | ⟨task, -, -, rfl⟩ := hnext' <;> rfl
  · intro task
    have hcount := hcount task
    rw [inHands_global]
    change _ + _ + (inHands q (some (.work p'))).count task + List.count task [] = _
    obtain ⟨pc', rfl, rfl⟩ | ⟨hnone, -, rfl⟩ | ⟨taken, hsome, -, rfl⟩ := hnext'
    · rw [inHands_global, List.count_nil]
      change ringCount config.shared task + _ + (ImgMpmc.claimedItem q pc').count task + 0 = _
      simp only [ImgMpmc.handedOn] at hcount
      omega
    · change ringCount config.shared task + _ + 0 + 0 = _
      rw [hnone, List.count_nil] at hcount
      omega
    · change ringCount config.shared task + _ + [taken].count task + 0 = _
      rw [hsome] at hcount
      omega
  · intro task
    obtain ⟨pc', -, rfl⟩ | ⟨-, -, rfl⟩ | ⟨taken, -, -, rfl⟩ := hnext'
    · rfl
    · rfl
    · exact Nat.add_comm _ _

theorem Inv.work (hinv : Inv k config events ring)
    (hnonnull : 0 ∉ events.filterMap submitReturn) (hk1 : 1 ≤ k) (hk : k ≤ 63) {worker : UInt32}
    {p : WorkerPc} (hpc : config.pc (.worker worker) = some (.work p)) (choice : Choice)
    (hfresh : FreshAccess config.shared (.work p)) :
    ∃ next, Inv k
      { shared := (workerLoop config.shared choice p).1,
        pc := Function.update config.pc (.worker worker)
          (((workerLoop config.shared choice p).2.map Pc.work id).getLeft?) }
      (events ++ [.access (.worker worker) (.work p)
        ((workerLoop config.shared choice p).2.map .work id)]) next := by
  obtain ⟨hid, hworker⟩ := hinv.placed _ _ hpc
  cases p with
  | running id =>
      obtain rfl : id = worker := hid
      refine ⟨ring, ?_⟩
      simp only [workerLoop]
      split_ifs
      · refine hinv.advanceWorker _ hpc hinv.rings rfl (hinv.global.local _ _ (by simp [globalPc]))
          ?_ (fun _ => rfl) (fun _ => rfl) (fun _ => rfl)
        rintro _ ⟨⟩
        rfl
      · exact hinv.advanceWorker _ hpc hinv.rings rfl (hinv.global.local _ _ (by simp)) (by simp)
          (fun _ => rfl) (fun _ => rfl) (fun _ => rfl)
  | own id pc =>
      obtain rfl : id = worker := hid
      exact ⟨ring, hinv.takeRing hnonnull hpc trivial hworker pc hfresh
        (fun _ => ⟨trivial, rfl⟩) ⟨trivial, rfl⟩⟩
  | steal id i pc =>
      obtain rfl : id = worker := hid
      refine ⟨ring, hinv.takeRing hnonnull hpc trivial (uint32_mod_lt hinv.workers) pc hfresh
        (fun _ => ⟨trivial, rfl⟩) ?_⟩
      split_ifs
      · exact ⟨trivial, rfl⟩
      · exact ⟨trivial, rfl⟩
  | global id pc =>
      obtain rfl : id = worker := hid
      exact hinv.takeGlobal hnonnull hk1 hk hpc choice.spurious hfresh
  | execute id task =>
      obtain rfl : id = worker := hid
      refine ⟨ring, hinv.advanceWorker (.inl (.running id)) hpc hinv.rings rfl ?_ ?_
        (fun _ => rfl) ?_ ?_⟩
      · exact hinv.global.local _ _ (by simp [globalPc])
      · rintro _ ⟨⟩
        rfl
      · exact fun _ => rfl
      · exact fun _ => Nat.add_comm _ _

end ImgEngine.Runtime.ImgSched
