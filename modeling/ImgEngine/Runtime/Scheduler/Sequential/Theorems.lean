import ImgEngine.Runtime.Scheduler.Sequential.Calls

namespace ImgEngine.Runtime.ImgSched

open ImgEngine.Library.Interleaving
open ImgEngine.Library.TaskBag
open scoped List

variable {s next : ImgScheduler} {answer : Answer}

-- The rounds visit the workers after the thief in their circle, and the thief last,
-- as long as self_id + i + 1 does not wrap around.

section Circle

variable {self : UInt32}

theorem victim_toNat (s : ImgScheduler) (self i : UInt32) :
    (victim s self i).toNat = (self.toNat + i.toNat + 1) % 2 ^ 32 % s.workerCount.toNat := by
  rw [victim, UInt32.toNat_mod, UInt32.toNat_add, UInt32.toNat_add, UInt32.toNat_one,
    Nat.mod_add_mod]

theorem victims_eq_stealOrder (hworkers : s.workerCount.toNat ≤ 2 ^ 31)
    (hself : self < s.workerCount) : victims s self 0 = stealOrder s self := by
  have hself := UInt32.lt_iff_toNat_lt.mp hself
  rw [victims, stealOrder, cyclic, List.map_map, List.range_eq_range']
  refine List.map_congr_left fun j hj => UInt32.toNat_inj.mp ?_
  have hj : j < s.workerCount.toNat := List.mem_range.mp (List.range_eq_range' ▸ hj)
  have hlt : (self.toNat + j + 1) % s.workerCount.toNat < 2 ^ 32 :=
    lt_trans (Nat.mod_lt _ (by omega)) s.workerCount.toNat_lt
  rw [victim_toNat, UInt32.toNat_ofNat', Nat.mod_eq_of_lt (a := j) (by omega),
    Nat.mod_eq_of_lt (a := self.toNat + j + 1) (by omega), Function.comp_apply,
    UInt32.toNat_ofNat', Nat.mod_eq_of_lt hlt]

-- Beyond 2^31 workers the last of them never comes back to its own ring.
theorem last_not_mem_victims (hworkers : 2 ^ 31 < s.workerCount.toNat)
    (hself : self.toNat + 1 = s.workerCount.toNat) : self ∉ victims s self 0 := by
  intro hmem
  obtain ⟨j, hj, hvictim⟩ := List.mem_map.mp hmem
  have hj : j < s.workerCount.toNat := List.mem_range.mp (List.range_eq_range' ▸ hj)
  have := s.workerCount.toNat_lt
  have hself' := congrArg UInt32.toNat hvictim
  rw [victim_toNat, UInt32.toNat_ofNat', Nat.mod_eq_of_lt (a := j) (by omega)] at hself'
  by_cases hwrap : self.toNat + j + 1 < 2 ^ 32
  · rw [Nat.mod_eq_of_lt hwrap, show self.toNat + j + 1 = j + s.workerCount.toNat by omega,
      Nat.add_mod_right, Nat.mod_eq_of_lt hj] at hself'
    omega
  · have hwrapped : (self.toNat + j + 1) % 2 ^ 32 = self.toNat + j + 1 - 2 ^ 32 := by omega
    rw [hwrapped, Nat.mod_eq_of_lt (by omega)] at hself'
    omega

theorem target_toUInt64 {id : UInt32} (hid : id < s.workerCount) :
    target s id.toUInt64 = id := by
  apply UInt32.toNat_inj.mp
  rw [target, UInt64.toNat_toUInt32, UInt64.toNat_mod, UInt32.toNat_toUInt64,
    UInt32.toNat_toUInt64, Nat.mod_eq_of_lt (UInt32.lt_iff_toNat_lt.mp hid)]
  exact Nat.mod_eq_of_lt id.toNat_lt

theorem mem_workers {id : UInt32} : id ∈ workerIds s ↔ id < s.workerCount :=
  List.mem_toFinset.symm.trans mem_workerIds

theorem victims_subset (h : 0 < s.workerCount) (self i : UInt32) :
    victims s self i ⊆ workerIds s := by
  intro id hmem
  obtain ⟨j, -, rfl⟩ := List.mem_map.mp hmem
  exact mem_workers.mpr (uint32_mod_lt h)

theorem mem_stealOrder (hself : self < s.workerCount) {id : UInt32} :
    id ∈ stealOrder s self ↔ id ∈ workerIds s := by
  have hself := UInt32.lt_iff_toNat_lt.mp hself
  rw [stealOrder, workerIds, List.mem_map, List.mem_map]
  simp only [mem_cyclic hself, List.mem_range]

end Circle

-- What the calls have put into the scheduler and not taken out is what it holds.
structure Balanced (workers : UInt32) (log : List (Call × Answer)) (s : ImgScheduler) : Prop where
  count : s.workerCount = workers
  settled : Settled s
  held : log.filterMap accept ~ log.filterMap deliver ++ (bag s).items (workerIds s)

section Balance

variable {workers : UInt32} {log : List (Call × Answer)}

theorem Balanced.rejected (h : Balanced workers log s) (task : Ptr) :
    Balanced workers (log ++ [(.submit task, .status .rejected)]) s := by
  have haccept : (log ++ [(Call.submit task, Answer.status .rejected)]).filterMap accept =
      log.filterMap accept := List.filterMap_append.trans (List.append_nil _)
  have hdeliver : (log ++ [(Call.submit task, Answer.status .rejected)]).filterMap deliver =
      log.filterMap deliver := List.filterMap_append.trans (List.append_nil _)
  refine ⟨h.count, h.settled, ?_⟩
  rw [haccept, hdeliver]
  exact h.held

theorem Balanced.submit (h : Balanced workers log s) {task : Ptr}
    (hreturn : imgSchedulerCalls.Returns s (imgSchedulerCalls.start (.submit task)) next answer) :
    Balanced workers (log ++ [(.submit task, answer)]) next := by
  by_cases htask : task = 0
  · subst htask
    obtain ⟨rfl, rfl⟩ := submit_null hreturn
    exact h.rejected 0
  · obtain ⟨hsubmits, hsettled, hcount⟩ := h.settled.submit htask hreturn
    cases hput : (bag s).put 1023 1024 (target s task) task with
    | none =>
        rw [Submits, hput] at hsubmits
        obtain ⟨rfl, rfl⟩ := hsubmits
        exact h.rejected task
    | some bag' =>
        rw [Submits, hput] at hsubmits
        obtain ⟨rfl, rfl⟩ := hsubmits
        refine ⟨hcount.trans h.count, hsettled, ?_⟩
        rw [workerIds_congr hcount]
        have htarget : target s task ∈ workerIds s :=
          mem_workers.mpr (target_lt h.settled.workers)
        have hput := Bag.items_put (workerIds_nodup s) htarget hput
        have haccept : (log ++ [(Call.submit task, Answer.status .submitted)]).filterMap accept =
            log.filterMap accept ++ [task] := List.filterMap_append
        have hdeliver : (log ++ [(Call.submit task, Answer.status .submitted)]).filterMap deliver =
            log.filterMap deliver := by simp [deliver]
        rw [haccept, hdeliver]
        calc log.filterMap accept ++ [task]
          _ ~ task :: log.filterMap accept := List.perm_append_singleton _ _
          _ ~ task :: (log.filterMap deliver ++ (bag s).items (workerIds s)) := h.held.cons task
          _ ~ log.filterMap deliver ++ task :: (bag s).items (workerIds s) :=
              List.perm_middle.symm
          _ ~ log.filterMap deliver ++ (bag next).items (workerIds s) :=
              hput.symm.append_left _

-- The same for a call that takes a task out, or none.
theorem Balanced.yields (h : Balanced workers log s) {call : Call}
    {taken : Option (Ptr × Bag UInt32 Ptr)} (hcall : accept (call, answer) = none)
    (hyields : Yields s taken next answer ∧ Settled next ∧ next.workerCount = s.workerCount)
    (hitems : ∀ task bag', taken = some (task, bag') →
      task :: bag'.items (workerIds s) ~ (bag s).items (workerIds s)) :
    Balanced workers (log ++ [(call, answer)]) next := by
  obtain ⟨hyields, hsettled, hcount⟩ := hyields
  refine ⟨hcount.trans h.count, hsettled, ?_⟩
  have haccept : (log ++ [(call, answer)]).filterMap accept = log.filterMap accept := by
    simp [hcall]
  rw [workerIds_congr hcount, haccept]
  cases taken with
  | none =>
      obtain ⟨rfl, rfl⟩ := hyields
      simpa [deliver] using h.held
  | some entry =>
      obtain ⟨task, bag'⟩ := entry
      obtain ⟨htask, rfl, rfl⟩ := hyields
      have hdeliver : (log ++ [(call, Answer.task task)]).filterMap deliver =
          log.filterMap deliver ++ [task] := by simp [deliver, htask]
      rw [hdeliver, List.append_assoc]
      exact h.held.trans ((hitems task _ rfl).symm.append_left _)

theorem Balanced.call (h : Balanced workers log s) (call : Call) (hlegal : Legal workers call)
    (hreturn : imgSchedulerCalls.Returns s (imgSchedulerCalls.start call) next answer) :
    Balanced workers (log ++ [(call, answer)]) next := by
  cases call with
  | submit task => exact h.submit hreturn
  | pop id =>
      have hid : id < s.workerCount := h.count ▸ hlegal
      exact h.yields rfl (h.settled.pop hreturn) fun task bag' htaken =>
        Bag.items_take (workerIds_nodup s) (mem_workers.mpr hid) htaken
  | steal self =>
      exact h.yields rfl (h.settled.steal hreturn) fun task bag' htaken =>
        Bag.items_steal (workerIds_nodup s) (victims_subset h.settled.workers self 0) htaken

theorem Balanced.of_calls {first : ImgScheduler} (hfirst : Balanced workers [] first)
    (calls : imgSchedulerCalls.Calls (Legal workers) first log s) : Balanced workers log s :=
  calls.invariant hfirst fun _ _ _ _ _ h hlegal hreturn => h.call _ hlegal hreturn

-- The scheduler that img_scheduler_init leaves.
theorem balanced_init (hinit : imgSchedulerInit workers = some s) :
    Balanced workers [] s ∧ bag s = { shelf := fun _ => [], shared := [] } := by
  simp only [imgSchedulerInit] at hinit
  split_ifs at hinit with hworkers
  obtain ⟨q, hq, hs⟩ := Option.map_eq_some_iff.mp hinit
  have hcount : s.workerCount = workers := by rw [← hs]
  have hqueue : s.queue = fun _ => imgQueueCreate 10 := by rw [← hs]
  have hglobal : s.globalQueue = q := by rw [← hs]
  obtain ⟨hready, hempty⟩ := ImgSpsc.ready_create 10 (by decide)
  have hholds := ImgMpmc.holds_init (by decide) hq
  have hlog : Nat.clog 2 (1024 : UInt64).toNat = 10 := Nat.clog_pow 2 10 (by decide)
  rw [hlog] at hholds
  have hbag : bag s = { shelf := fun _ => [], shared := [] } := by
    rw [bag, hqueue, hglobal, inGlobal_of_holds hholds (by decide)]
    exact congrArg (Bag.mk · _) (funext fun _ => hempty)
  have hsettled : Settled s := by
    constructor
    · rw [hcount]
      exact UInt32.pos_iff_ne_zero.mpr hworkers
    · rw [hqueue]
      exact fun _ => hready
    · rw [hbag, hglobal]
      exact ⟨0, hholds⟩
    · simp [hbag]
    · simp [hbag]
  refine ⟨⟨hcount, hsettled, ?_⟩, hbag⟩
  rw [hbag]
  simp [Bag.items]

end Balance

section Bags

variable {workers : UInt32} {first : ImgScheduler}

theorem Balanced.servesBag (hfirst : Balanced first.workerCount [] first)
    (hworkers : first.workerCount.toNat ≤ 2 ^ 31) : ServesBag first := by
  refine ⟨?_, ?_, ?_, ?_, ?_, ?_⟩
  · intro log s calls
    exact (hfirst.of_calls calls).held
  · intro log s calls call _ choice hchoice
    exact (hfirst.of_calls calls).settled.finishes hchoice call
  · intro log s calls task htask next answer hreturn
    exact ((hfirst.of_calls calls).settled.submit htask hreturn).1
  · intro log s calls next answer hreturn
    exact submit_null hreturn
  · intro log s calls id _ next answer hreturn
    exact ((hfirst.of_calls calls).settled.pop hreturn).1
  · intro log s calls id hid next answer hreturn
    have hs := hfirst.of_calls calls
    have hid : id < s.workerCount := hs.count ▸ hid
    have hyields := (hs.settled.steal hreturn).1
    rw [victims_eq_stealOrder (hs.count ▸ hworkers) hid] at hyields
    refine ⟨hyields, ?_⟩
    have hnone : (bag s).steal (stealOrder s id) = none ↔ (bag s).items (workerIds s) = [] := by
      rw [Bag.steal_eq_none_iff, Bag.items_eq_nil_iff]
      simp only [mem_stealOrder hid]
    refine Iff.trans ?_ hnone
    cases hsteal : (bag s).steal (stealOrder s id) with
    | none =>
        rw [hsteal] at hyields
        exact iff_of_true hyields.1 rfl
    | some entry =>
        rw [hsteal] at hyields
        obtain ⟨htask, rfl, -⟩ := hyields
        simpa using htask

-- A thief who does not visit the only ring with tasks.
theorem steal_missed {self : UInt32} {tasks : List Ptr} {s : ImgScheduler}
    (hempty : bag first = { shelf := fun _ => [], shared := [] })
    (hbag : bag s = (bag first).setShelf self tasks) (hnot : self ∉ victims s self 0) :
    (bag s).steal (victims s self 0) = none := by
  rw [hempty] at hbag
  rw [Bag.steal_eq_none_iff, hbag]
  refine ⟨fun other hother => ?_, rfl⟩
  have hne : other ≠ self := fun he => hnot (he ▸ hother)
  exact Bag.setShelf_shelf_of_ne hne tasks

-- The last of more than 2^31 workers does not find a task in its own ring.
theorem Balanced.not_servesBag (hfirst : Balanced first.workerCount [] first)
    (hempty : bag first = { shelf := fun _ => [], shared := [] })
    (hworkers : 2 ^ 31 < first.workerCount.toNat) : ¬ServesBag first := by
  intro hserves
  let last := first.workerCount - 1
  have hlast : last.toNat + 1 = first.workerCount.toNat := by
    have hone : (1 : UInt32) ≤ first.workerCount := UInt32.le_iff_toNat_le.mpr (by
      rw [UInt32.toNat_one]
      omega)
    rw [UInt32.toNat_sub_of_le _ _ hone, UInt32.toNat_one]
    omega
  have htask : last.toUInt64 ≠ 0 := by
    intro h
    have h := congrArg UInt64.toNat h
    rw [UInt32.toNat_toUInt64] at h
    change last.toNat = 0 at h
    omega
  have hlt : last < first.workerCount := UInt32.lt_iff_toNat_lt.mpr (by omega)
  -- the last worker's ring gets its task
  let quiet : Choice := { running := true, ctx := true, spurious := false }
  have hquiet : quiet.spurious = false := rfl
  have hlegal : Legal first.workerCount (.submit last.toUInt64) := trivial
  obtain ⟨s, answer, hsubmit⟩ :=
    (hfirst.settled.finishes hquiet (.submit last.toUInt64)).returns
  have hs := hfirst.call _ hlegal hsubmit
  have calls := Program.Calls.none.call hlegal hsubmit
  obtain ⟨hsubmits, -, -⟩ := hfirst.settled.submit htask hsubmit
  have hput : (bag first).put 1023 1024 last last.toUInt64 =
      some ((bag first).setShelf last [last.toUInt64]) := by
    simp [Bag.put, hempty]
  rw [Submits, target_toUInt64 hlt, hput] at hsubmits
  obtain ⟨-, hbag⟩ := hsubmits
  -- and no round of its theft visits it
  have hvictims : last ∉ victims s last 0 := by
    apply last_not_mem_victims <;> rw [hs.count]
    · exact hworkers
    · exact hlast
  obtain ⟨next, answer', hsteal⟩ := (hs.settled.finishes hquiet (.steal last)).returns
  obtain ⟨hyields, -, -⟩ := hs.settled.steal hsteal
  rw [steal_missed hempty hbag hvictims] at hyields
  have hitems : (bag s).items (workerIds s) = [] :=
    (hserves.steal _ s calls last hlt next answer' hsteal).2.mp hyields.1
  have hshelf := (Bag.items_eq_nil_iff.mp hitems).1 last (mem_workers.mpr (hs.count ▸ hlt))
  rw [hbag, Bag.setShelf_shelf_self] at hshelf
  cases hshelf

theorem imgScheduler_servesBag_iff (workers : UInt32) (s : ImgScheduler)
    (hinit : imgSchedulerInit workers = some s) : ServesBag s ↔ workers.toNat ≤ 2 ^ 31 := by
  obtain ⟨hbalanced, hempty⟩ := balanced_init hinit
  obtain rfl := hbalanced.count
  constructor
  · intro hserves
    by_contra hworkers
    exact hbalanced.not_servesBag hempty (Nat.lt_of_not_le hworkers) hserves
  · exact hbalanced.servesBag

theorem imgScheduler_servesBag_two :
    imgSchedulerInit 2 = some twoWorkers ∧ ServesBag twoWorkers :=
  ⟨rfl, (imgScheduler_servesBag_iff 2 twoWorkers rfl).mpr (by decide)⟩

-- One worker too many.
def manyWorkers : ImgScheduler := { twoWorkers with workerCount := 2147483649 }

theorem imgScheduler_misses_task :
    imgSchedulerInit 2147483649 = some manyWorkers ∧ ¬ServesBag manyWorkers := by
  have hinit : imgSchedulerInit 2147483649 = some manyWorkers := rfl
  obtain ⟨hbalanced, hempty⟩ := balanced_init hinit
  exact ⟨hinit, hbalanced.not_servesBag hempty (by decide)⟩

end Bags

end ImgEngine.Runtime.ImgSched
