import ImgEngine.Runtime.QueueMpmc.Sequential
import ImgEngine.Runtime.QueueSpsc.Sequential
import ImgEngine.Runtime.Scheduler.Sequential
import ImgEngine.Runtime.Scheduler.Theorems

namespace ImgEngine.Runtime.ImgSched

open ImgEngine.Library.Interleaving
open ImgEngine.Library.TaskBag
open scoped List

variable {s next : ImgScheduler} {answer : Answer}

-- Where the calls of the two queues stand inside the calls of the scheduler.

def atRing (id : UInt32) : ImgSpsc.Pc → CallPc
  | .push pc => .submit (.ring id pc)
  | .pop pc => .pop id pc

def atVictim (id i victim : UInt32) : ImgSpsc.Pc → CallPc
  | .push pc => .submit (.ring victim pc)
  | .pop pc => .steal (.ring id i victim pc)

def atGlobal : ImgMpmc.Pc → CallPc
  | .push pc => .submit (.global pc)
  | .pop pc => .steal (.global pc)

-- And how the scheduler goes on with their results.

def afterPush (task : Ptr) : ImgSpsc.Result → CallPc ⊕ Answer
  | .pushed => .inr (.status .submitted)
  | _ => .inl (.submit (.global (.loadTail task)))

def afterSteal (id i : UInt32) (result : ImgSpsc.Result) : CallPc ⊕ Answer :=
  if result.task = 0 then .inl (.steal (.round id (i + 1))) else .inr (.task result.task)

def pushStatus : ImgMpmc.Result → Answer
  | .pushed => .status .submitted
  | _ => .status .rejected

def setGlobal (s : ImgScheduler) (q : ImgMpmcQueue) : ImgScheduler :=
  { s with globalQueue := q }

section Embeddings

theorem setQueue_queue (s : ImgScheduler) (id : UInt32) (q : ImgQueue) :
    (s.setQueue id q).queue id = q := Function.update_self ..

theorem setQueue_setQueue (s : ImgScheduler) (id : UInt32) (q q' : ImgQueue) :
    (s.setQueue id q).setQueue id q' = s.setQueue id q' := by
  simp only [ImgScheduler.setQueue, Function.update_idem]

theorem setQueue_self (s : ImgScheduler) (id : UInt32) : s.setQueue id (s.queue id) = s := by
  simp only [ImgScheduler.setQueue, Function.update_eq_self]

theorem ringPush_embeds (id : UInt32) (task : Ptr) :
    imgSchedulerCalls.Embeds imgSpsc (fun pc => ∃ p, pc = .push p ∧ p.data = task) (atRing id)
      (fun s => s.queue id) (fun s q => s.setQueue id q) (fun _ => ()) (afterPush task) := by
  refine ⟨fun s q => setQueue_queue s id q, fun s q q' => setQueue_setQueue s id q q', ?_, ?_⟩
  · rintro s _ choice ⟨p, rfl, rfl⟩
    simp only [imgSpsc_push, imgSchedulerCalls, imgSchedulerSubmit, atRing]
    generalize imgQueuePush (s.queue id) p = result
    obtain ⟨q, outcome⟩ := result
    cases outcome with
    | inl pc => rfl
    | inr result => cases result <;> rfl
  · rintro q _ choice p' ⟨p, rfl, rfl⟩ hout
    obtain ⟨place, hplace, rfl⟩ := map_eq_inl hout
    refine ⟨place, rfl, ?_⟩
    cases p with
    | loadTail data =>
        cases hplace
        rfl
    | loadHead data t =>
        simp only at hplace
        split_ifs at hplace
        cases hplace
        rfl
    | writeSlot data t =>
        cases hplace
        rfl
    | storeTail data t => cases hplace

theorem ringPop_embeds (id : UInt32) :
    imgSchedulerCalls.Embeds imgSpsc (fun pc => ∃ p, pc = .pop p) (atRing id)
      (fun s => s.queue id) (fun s q => s.setQueue id q) (fun _ => ())
      (fun result => .inr (.task result.task)) := by
  refine ⟨fun s q => setQueue_queue s id q, fun s q q' => setQueue_setQueue s id q q', ?_, ?_⟩
  · rintro s _ choice ⟨p, rfl⟩
    simp only [imgSpsc_pop, imgSchedulerCalls, atRing]
    cases (imgQueuePop (s.queue id) p).2 <;> rfl
  · rintro q _ choice p' ⟨p, rfl⟩ hout
    obtain ⟨place, -, rfl⟩ := map_eq_inl hout
    exact ⟨place, rfl⟩

theorem stealPop_embeds (id i victim : UInt32) :
    imgSchedulerCalls.Embeds imgSpsc (fun pc => ∃ p, pc = .pop p) (atVictim id i victim)
      (fun s => s.queue victim) (fun s q => s.setQueue victim q) (fun _ => ())
      (afterSteal id i) := by
  refine ⟨fun s q => setQueue_queue s victim q, fun s q q' => setQueue_setQueue s victim q q',
    ?_, ?_⟩
  · rintro s _ choice ⟨p, rfl⟩
    simp only [imgSpsc_pop, imgSchedulerCalls, imgSchedulerSteal, atVictim]
    cases (imgQueuePop (s.queue victim) p).2 with
    | inl pc => rfl
    | inr result =>
        simp only [stealRing, Sum.map_inr, Sum.elim_inr, afterSteal, id_eq]
        split_ifs <;> rfl
  · rintro q _ choice p' ⟨p, rfl⟩ hout
    obtain ⟨place, -, rfl⟩ := map_eq_inl hout
    exact ⟨place, rfl⟩

theorem globalPush_embeds :
    imgSchedulerCalls.Embeds imgMpmc (fun pc => ∃ p, pc = .push p) atGlobal
      (fun s => s.globalQueue) setGlobal (fun choice => choice.spurious)
      (fun result => .inr (pushStatus result)) := by
  refine ⟨fun _ _ => rfl, fun _ _ _ => rfl, ?_, ?_⟩
  · rintro s _ choice ⟨p, rfl⟩
    simp only [imgMpmc, imgSchedulerCalls, imgSchedulerSubmit, atGlobal]
    cases (imgMpmcPush s.globalQueue choice.spurious p).2 with
    | inl pc => rfl
    | inr result => cases result <;> rfl
  · rintro q _ choice p' ⟨p, rfl⟩ hout
    obtain ⟨place, -, rfl⟩ := map_eq_inl hout
    exact ⟨place, rfl⟩

theorem globalPop_embeds :
    imgSchedulerCalls.Embeds imgMpmc (fun pc => ∃ p, pc = .pop p) atGlobal
      (fun s => s.globalQueue) setGlobal (fun choice => choice.spurious)
      (fun result => .inr (.task result.task)) := by
  refine ⟨fun _ _ => rfl, fun _ _ _ => rfl, ?_, ?_⟩
  · rintro s _ choice ⟨p, rfl⟩
    simp only [imgMpmc, imgSchedulerCalls, imgSchedulerSteal, atGlobal]
    cases (imgMpmcPop s.globalQueue choice.spurious p).2 <;> rfl
  · rintro q _ choice p' ⟨p, rfl⟩ hout
    obtain ⟨place, -, rfl⟩ := map_eq_inl hout
    exact ⟨place, rfl⟩

end Embeddings

theorem inGlobal_of_holds {k first : Nat} {items : List Ptr} {q : ImgMpmcQueue}
    (h : ImgMpmc.Holds k first items q) (hk : k ≤ 62) : inGlobal q = items := by
  have hlength : items.length < 2 ^ 64 :=
    lt_of_le_of_lt h.length (Nat.pow_lt_pow_right (by decide) (by omega))
  have hused : (q.tail - q.head).toNat = items.length := by
    rw [h.tail, h.head, UInt64.ofNat_add, UInt64.add_comm, UInt64.add_sub_cancel, UInt64.toNat_ofNat',
      Nat.mod_eq_of_lt hlength]
  have hcell : ∀ j ∈ List.range items.length,
      (if (q.cell (q.head + UInt64.ofNat j)).seq = q.head + UInt64.ofNat j + 1 then
        some (q.cell (q.head + UInt64.ofNat j)).data else none) = some (items.getD j 0) := by
    intro j hj
    have hj := List.mem_range.mp hj
    have hnext : UInt64.ofNat (first + j) + 1 = UInt64.ofNat (first + j + 1) :=
      (UInt64.ofNat_add _ 1).symm
    rw [h.head, ← UInt64.ofNat_add, h.full j hj, if_pos hnext.symm,
      List.getD_eq_getElem?_getD, List.getElem?_eq_getElem hj]
    rfl
  rw [inGlobal, hused, List.filterMap_congr hcell, List.filterMap_eq_map']
  exact List.ext_getElem (by simp) fun j _ hj => by simp [hj]

-- The scheduler between two calls.
structure Settled (s : ImgScheduler) : Prop where
  workers : 0 < s.workerCount
  rings : ∀ id, ImgSpsc.Ready 10 (s.queue id)
  global : ∃ first, ImgMpmc.Holds 10 first (bag s).shared s.globalQueue
  nonnull : ∀ id, 0 ∉ (bag s).shelf id
  nonnullShared : 0 ∉ (bag s).shared

theorem bag_setQueue (s : ImgScheduler) (id : UInt32) (q : ImgQueue) :
    bag (s.setQueue id q) = (bag s).setShelf id (ImgSpsc.contents 10 q) := by
  have hshelf : (fun other => ImgSpsc.contents 10 (Function.update s.queue id q other)) =
      Function.update (bag s).shelf id (ImgSpsc.contents 10 q) := by
    funext other
    by_cases he : other = id
    · subst he
      rw [Function.update_self, Function.update_self]
    · rw [Function.update_of_ne he, Function.update_of_ne he]
      rfl
  rw [bag, Bag.setShelf]
  exact congrArg (Bag.mk · _) hshelf

theorem Settled.setQueue (h : Settled s) (id : UInt32) {q : ImgQueue} {tasks : List Ptr}
    (hready : ImgSpsc.Ready 10 q) (hcontents : ImgSpsc.contents 10 q = tasks)
    (hnonnull : 0 ∉ tasks) :
    Settled (s.setQueue id q) ∧ bag (s.setQueue id q) = (bag s).setShelf id tasks := by
  have hbag := bag_setQueue s id q
  rw [hcontents] at hbag
  refine ⟨⟨h.workers, ready_setQueue h.rings id hready, h.global, fun other => ?_,
    h.nonnullShared⟩, hbag⟩
  rw [hbag]
  by_cases he : other = id
  · subst he
    rw [Bag.setShelf_shelf_self]
    exact hnonnull
  · rw [Bag.setShelf_shelf_of_ne he]
    exact h.nonnull other

theorem Settled.setGlobal (h : Settled s) {first : Nat} {tasks : List Ptr} {q : ImgMpmcQueue}
    (hholds : ImgMpmc.Holds 10 first tasks q) (hnonnull : 0 ∉ tasks) :
    Settled (setGlobal s q) ∧ bag (setGlobal s q) = { bag s with shared := tasks } := by
  have htasks : inGlobal q = tasks := inGlobal_of_holds hholds (by decide)
  have hbag : bag (ImgSched.setGlobal s q) = { bag s with shared := tasks } :=
    congrArg (Bag.mk _) htasks
  refine ⟨⟨h.workers, h.rings, ⟨first, ?_⟩, h.nonnull, ?_⟩, hbag⟩
  · rw [hbag]
    exact hholds
  · rw [hbag]
    exact hnonnull

section Submit

variable {task : Ptr}

theorem submit_null (hreturn : imgSchedulerCalls.Returns s
    (imgSchedulerCalls.start (.submit 0)) next answer) :
    answer = .status .rejected ∧ next = s := by
  have hstop : ∀ choice, imgSchedulerCalls.access s (imgSchedulerCalls.start (.submit 0)) choice =
      (s, .inr (.status .rejected)) := fun _ => rfl
  obtain ⟨rfl, rfl⟩ := hreturn.stop hstop
  exact ⟨rfl, rfl⟩

theorem submit_target (s : ImgScheduler) (htask : task ≠ 0) (choice : Choice) :
    imgSchedulerCalls.access s (imgSchedulerCalls.start (.submit task)) choice =
      (s, .inl (.submit (.ring (target s task) (.loadTail task)))) := by
  simp only [imgSchedulerCalls, imgSchedulerSubmit, if_neg htask]
  rfl

theorem not_mem_append_singleton {items : List Ptr} (hitems : 0 ∉ items) (htask : task ≠ 0) :
    0 ∉ items ++ [task] := by
  rw [List.mem_append, List.mem_singleton]
  exact not_or.mpr ⟨hitems, htask.symm⟩

-- The last part of a submission, when the ring was full.
theorem Settled.submitGlobal (h : Settled s) (htask : task ≠ 0)
    (hfull : ((bag s).shelf (target s task)).length = 1023)
    (hreturn : imgSchedulerCalls.Returns s (.submit (.global (.loadTail task))) next answer) :
    Submits s task next answer ∧ Settled next ∧ next.workerCount = s.workerCount := by
  obtain ⟨first, hholds⟩ := h.global
  have hwithin : ∃ p, ImgMpmc.Pc.push (.loadTail task) = .push p := ⟨_, rfl⟩
  obtain ⟨global, result, hpush, rfl, rfl⟩ := globalPush_embeds.returns_of_ends hwithin hreturn
  obtain ⟨hsharedFull, rfl, rfl⟩ | ⟨hlt, rfl, rfl⟩ :=
    hholds.push_returns hpush (by decide) (by decide) rfl
  · have hput : (bag s).put 1023 1024 (target s task) task = none :=
      (if_pos hfull).trans (if_pos hsharedFull)
    rw [Submits, hput]
    exact ⟨⟨rfl, rfl⟩, h, rfl⟩
  · have hput : (bag s).put 1023 1024 (target s task) task =
        some { bag s with shared := (bag s).shared ++ [task] } :=
      (if_pos hfull).trans (if_neg (Nat.ne_of_lt hlt))
    obtain ⟨hsettled, hbag⟩ := h.setGlobal (hholds.append (by decide) hlt task)
      (not_mem_append_singleton h.nonnullShared htask)
    rw [Submits, hput]
    exact ⟨⟨rfl, hbag⟩, hsettled, rfl⟩

-- A task goes to its ring if that has room.
theorem Settled.submit (h : Settled s) (htask : task ≠ 0)
    (hreturn : imgSchedulerCalls.Returns s (imgSchedulerCalls.start (.submit task)) next answer) :
    Submits s task next answer ∧ Settled next ∧ next.workerCount = s.workerCount := by
  obtain ⟨ring, result, hpush, hend⟩ := (ringPush_embeds (target s task) task).returns
    (hreturn.step (submit_target s htask)) (.push (.loadTail task)) rfl ⟨_, rfl, rfl⟩
  obtain ⟨hfull, rfl, rfl⟩ | ⟨hroom, rfl, hready, hcontents⟩ :=
    (h.rings (target s task)).push_returns hpush
  · obtain ⟨hstop, -⟩ | ⟨p, hgo, hreturn⟩ := hend
    · cases hstop
    · cases hgo
      rw [setQueue_self] at hreturn
      exact h.submitGlobal htask hfull hreturn
  · obtain ⟨hstop, rfl⟩ | ⟨p, hgo, -⟩ := hend
    · cases hstop
      have hput : (bag s).put 1023 1024 (target s task) task = some
          ((bag s).setShelf (target s task) ((bag s).shelf (target s task) ++ [task])) :=
        if_neg hroom
      obtain ⟨hsettled, hbag⟩ := h.setQueue (target s task) hready hcontents
        (not_mem_append_singleton (h.nonnull _) htask)
      rw [Submits, hput]
      exact ⟨⟨rfl, hbag⟩, hsettled, rfl⟩
    · cases hgo

end Submit

section Pop

-- A pop takes the oldest task of the ring.
theorem Settled.pop (h : Settled s) {id : UInt32}
    (hreturn : imgSchedulerCalls.Returns s (imgSchedulerCalls.start (.pop id)) next answer) :
    Yields s ((bag s).take id) next answer ∧ Settled next ∧ next.workerCount = s.workerCount := by
  have hwithin : ∃ p, ImgSpsc.Pc.pop .loadHead = .pop p := ⟨_, rfl⟩
  obtain ⟨ring, result, hpop, rfl, rfl⟩ := (ringPop_embeds id).returns_of_ends hwithin hreturn
  obtain ⟨hempty, rfl, rfl⟩ | ⟨item, items, hitems, rfl, hready, hcontents⟩ :=
    (h.rings id).pop_returns hpop
  · have hempty : (bag s).shelf id = [] := hempty
    rw [setQueue_self, Bag.take, hempty]
    exact ⟨⟨rfl, rfl⟩, h, rfl⟩
  · have hitems : (bag s).shelf id = item :: items := hitems
    have hnonnull := h.nonnull id
    rw [hitems, List.mem_cons, not_or] at hnonnull
    obtain ⟨hsettled, hbag⟩ := h.setQueue id hready hcontents hnonnull.2
    rw [Bag.take_cons hitems]
    exact ⟨⟨Ne.symm hnonnull.1, rfl, hbag⟩, hsettled, rfl⟩

-- The last part of a theft, when every ring was empty.
theorem Settled.stealGlobal (h : Settled s)
    (hreturn : imgSchedulerCalls.Returns s (.steal (.global .loadHead)) next answer) :
    Yields s (bag s).takeShared next answer ∧ Settled next ∧
      next.workerCount = s.workerCount := by
  obtain ⟨first, hholds⟩ := h.global
  have hwithin : ∃ p, ImgMpmc.Pc.pop .loadHead = .pop p := ⟨_, rfl⟩
  obtain ⟨global, result, hpop, rfl, rfl⟩ := globalPop_embeds.returns_of_ends hwithin hreturn
  obtain ⟨hempty, rfl, rfl⟩ | ⟨item, items, hitems, rfl, rfl⟩ := hholds.pop_returns hpop trivial
  · rw [Bag.takeShared, hempty]
    exact ⟨⟨rfl, rfl⟩, h, rfl⟩
  · have hnonnull := h.nonnullShared
    rw [hitems, List.mem_cons, not_or] at hnonnull
    rw [hitems] at hholds
    obtain ⟨hsettled, hbag⟩ := h.setGlobal (hholds.remove (by decide)) hnonnull.2
    rw [Bag.takeShared_cons hitems]
    exact ⟨⟨Ne.symm hnonnull.1, rfl, hbag⟩, hsettled, rfl⟩

end Pop

section Steal

variable {self i : UInt32}

-- The rings that img_scheduler_steal still visits from round i on.
def victims (s : ImgScheduler) (self i : UInt32) : List UInt32 :=
  (List.range' i.toNat (s.workerCount.toNat - i.toNat)).map fun j =>
    victim s self (UInt32.ofNat j)

theorem toNat_succ (hi : i < s.workerCount) : (i + 1).toNat = i.toNat + 1 := by
  have hlt := UInt32.lt_iff_toNat_lt.mp hi
  have := s.workerCount.toNat_lt
  rw [UInt32.toNat_add, UInt32.toNat_one, Nat.mod_eq_of_lt (by omega)]

theorem victims_eq_cons (hi : i < s.workerCount) :
    victims s self i = victim s self i :: victims s self (i + 1) := by
  have hlt := UInt32.lt_iff_toNat_lt.mp hi
  rw [victims, victims, toNat_succ hi,
    show s.workerCount.toNat - i.toNat = s.workerCount.toNat - (i.toNat + 1) + 1 by omega,
    List.range'_succ, List.map_cons, UInt32.ofNat_toNat]

theorem victims_eq_nil (hi : ¬i < s.workerCount) : victims s self i = [] := by
  have hle := Nat.not_lt.mp (mt UInt32.lt_iff_toNat_lt.mpr hi)
  rw [victims, Nat.sub_eq_zero_of_le hle]
  rfl

theorem steal_visit (self : UInt32) (hi : i < s.workerCount) (choice : Choice) :
    imgSchedulerCalls.access s (.steal (.round self i)) choice =
      (s, .inl (.steal (.ring self i (victim s self i) .loadHead))) := by
  simp only [imgSchedulerCalls, imgSchedulerSteal, if_pos hi]
  rfl

theorem steal_leave (self : UInt32) (hi : ¬i < s.workerCount) (choice : Choice) :
    imgSchedulerCalls.access s (.steal (.round self i)) choice =
      (s, .inl (.steal (.global .loadHead))) := by
  simp only [imgSchedulerCalls, imgSchedulerSteal, if_neg hi]
  rfl

-- The thief gets what a search of the rings it visits would find. The induction is on
-- the rounds that are left.
theorem Settled.stealRounds (h : Settled s) {rounds : Nat} :
    ∀ {i : UInt32}, s.workerCount.toNat - i.toNat = rounds →
      imgSchedulerCalls.Returns s (.steal (.round self i)) next answer →
      Yields s ((bag s).steal (victims s self i)) next answer ∧ Settled next ∧
        next.workerCount = s.workerCount := by
  induction rounds with
  | zero =>
      intro i hrounds hreturn
      have hi : ¬i < s.workerCount := by
        rw [UInt32.lt_iff_toNat_lt]
        omega
      rw [victims_eq_nil hi, Bag.steal_nil]
      exact h.stealGlobal (hreturn.step (steal_leave self hi))
  | succ rounds ih =>
      intro i hrounds hreturn
      have hi : i < s.workerCount := by
        rw [UInt32.lt_iff_toNat_lt]
        omega
      rw [victims_eq_cons hi]
      obtain ⟨ring, result, hpop, hend⟩ := (stealPop_embeds self i (victim s self i)).returns
        (hreturn.step (steal_visit self hi)) (.pop .loadHead) rfl ⟨_, rfl⟩
      obtain ⟨hempty, rfl, rfl⟩ | ⟨item, items, hitems, rfl, hready, hcontents⟩ :=
        (h.rings (victim s self i)).pop_returns hpop
      · obtain ⟨hstop, -⟩ | ⟨p, hgo, hreturn⟩ := hend
        · cases hstop
        · cases hgo
          rw [setQueue_self] at hreturn
          have hempty : (bag s).shelf (victim s self i) = [] := hempty
          rw [Bag.steal_cons_of_empty hempty]
          have hleft : s.workerCount.toNat - (i + 1).toNat = rounds := by
            rw [toNat_succ hi]
            omega
          exact ih hleft hreturn
      · have hitems : (bag s).shelf (victim s self i) = item :: items := hitems
        have hnonnull := h.nonnull (victim s self i)
        rw [hitems, List.mem_cons, not_or] at hnonnull
        have hafter : afterSteal self i (.popped item) = .inr (.task item) :=
          if_neg (Ne.symm hnonnull.1)
        rw [hafter] at hend
        obtain ⟨hstop, rfl⟩ | ⟨p, hgo, -⟩ := hend
        · cases hstop
          obtain ⟨hsettled, hbag⟩ := h.setQueue (victim s self i) hready hcontents hnonnull.2
          rw [Bag.steal_cons_of_cons hitems]
          exact ⟨⟨Ne.symm hnonnull.1, rfl, hbag⟩, hsettled, rfl⟩
        · cases hgo

theorem Settled.steal (h : Settled s)
    (hreturn : imgSchedulerCalls.Returns s (imgSchedulerCalls.start (.steal self)) next answer) :
    Yields s ((bag s).steal (victims s self 0)) next answer ∧ Settled next ∧
      next.workerCount = s.workerCount :=
  h.stealRounds rfl hreturn

end Steal

-- Every call returns when no compare-exchange fails spuriously.

section Finishes

variable {choice : Choice} {first : Nat} {items : List Ptr}

theorem submitGlobal_finishes (hholds : ImgMpmc.Holds 10 first items s.globalQueue)
    (hchoice : choice.spurious = false) (task : Ptr) :
    imgSchedulerCalls.Finishes choice s (.submit (.global (.loadTail task))) := by
  obtain ⟨q, result, halone⟩ := hholds.alone_returns (by decide) (by decide) (.push task)
  rw [← hchoice] at halone
  refine globalPush_embeds.finishes (.push (.loadTail task)) ⟨_, rfl⟩ halone fun p hp => ?_
  cases hp

theorem stealGlobal_finishes (hholds : ImgMpmc.Holds 10 first items s.globalQueue)
    (hchoice : choice.spurious = false) :
    imgSchedulerCalls.Finishes choice s (.steal (.global .loadHead)) := by
  obtain ⟨q, result, halone⟩ := hholds.alone_returns (by decide) (by decide) .pop
  rw [← hchoice] at halone
  refine globalPop_embeds.finishes (.pop .loadHead) ⟨_, rfl⟩ halone fun p hp => ?_
  cases hp

theorem stealRounds_finishes (hchoice : choice.spurious = false) (self : UInt32) {rounds : Nat} :
    ∀ {s : ImgScheduler} {i : UInt32}, ImgMpmc.Holds 10 first items s.globalQueue →
      s.workerCount.toNat - i.toNat = rounds →
        imgSchedulerCalls.Finishes choice s (.steal (.round self i)) := by
  induction rounds with
  | zero =>
      intro s i hholds hrounds
      have hi : ¬i < s.workerCount := by
        rw [UInt32.lt_iff_toNat_lt]
        omega
      exact Program.finishes_step (steal_leave self hi choice)
        (stealGlobal_finishes hholds hchoice)
  | succ rounds ih =>
      intro s i hholds hrounds
      have hi : i < s.workerCount := by
        rw [UInt32.lt_iff_toNat_lt]
        omega
      obtain ⟨q, result, halone⟩ := ImgSpsc.alone_returns (s.queue (victim s self i)) .pop
      refine Program.finishes_step (steal_visit self hi choice)
        ((stealPop_embeds self i (victim s self i)).finishes (.pop .loadHead) ⟨_, rfl⟩ halone ?_)
      intro p hp
      rw [afterSteal] at hp
      split_ifs at hp
      cases hp
      have hleft : s.workerCount.toNat - (i + 1).toNat = rounds := by
        rw [toNat_succ hi]
        omega
      exact ih hholds hleft

theorem Settled.finishes (h : Settled s) (hchoice : choice.spurious = false) (call : Call) :
    imgSchedulerCalls.Finishes choice s (imgSchedulerCalls.start call) := by
  obtain ⟨first, hholds⟩ := h.global
  cases call with
  | submit task =>
      by_cases htask : task = 0
      · subst htask
        exact Program.finishes_stop rfl
      · obtain ⟨q, result, halone⟩ :=
          ImgSpsc.alone_returns (s.queue (target s task)) (.push task)
        refine Program.finishes_step (submit_target s htask choice)
          ((ringPush_embeds (target s task) task).finishes (.push (.loadTail task))
            ⟨_, rfl, rfl⟩ halone fun p hp => ?_)
        cases result with
        | pushed => cases hp
        | _ =>
            cases hp
            have hleft : ImgMpmc.Holds 10 first (bag s).shared
                (s.setQueue (target s task) q).globalQueue := hholds
            exact submitGlobal_finishes hleft hchoice task
  | pop id =>
      obtain ⟨q, result, halone⟩ := ImgSpsc.alone_returns (s.queue id) .pop
      refine (ringPop_embeds id).finishes (.pop .loadHead) ⟨_, rfl⟩ halone fun p hp => ?_
      cases hp
  | steal self => exact stealRounds_finishes hchoice self hholds rfl

end Finishes

end ImgEngine.Runtime.ImgSched
