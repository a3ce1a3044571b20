import ImgEngine.Runtime.Backpressure
import ImgEngine.Runtime.QueueMpmc.Answers
import ImgEngine.Runtime.QueueSpsc.Theorems

namespace ImgEngine.Runtime

open ImgEngine.Library.Interleaving ImgEngine.Library.TicketRing
open ImgEngine.Library.RingBuffer (window_length)

theorem nineTenths_toNat {capacity : UInt32} {k : Nat} (hk : k ≤ 30)
    (hcapacity : capacity.toNat = 2 ^ k) : (nineTenths capacity).toNat = 2 ^ k * 9 / 10 := by
  have hall : ∀ k < 31, 2 ^ k * 8106479329266893 / 2 ^ 53 % 2 ^ 32 = 2 ^ k * 9 / 10 := by decide
  rw [nineTenths, UInt32.toNat_ofNat', hcapacity]
  exact hall k (by omega)

namespace ImgMpmc

variable {Thread : Type} [DecidableEq Thread]

-- The words of the queue count the tickets.
structure Counted (k : Nat) (events : History Thread) (q : ImgMpmcQueue) : Prop where
  tail : q.tail.toNat = pushesClaimed events
  head : q.head.toNat = popsClaimed events
  ordered : popsClaimed events ≤ pushesClaimed events
  bounded : pushesClaimed events ≤ popsClaimed events + 2 ^ k

theorem Counted.of_run {k : Nat} (hk1 : 1 ≤ k) (hk : k ≤ 63) {first : ImgMpmcQueue}
    {legal : Config Thread ImgMpmcQueue Pc → Turn Thread Op Bool → Prop} {events : History Thread}
    {config : Config Thread ImgMpmcQueue Pc}
    (hfirst : Represents k first (fun _ : Thread => none) Ring.empty)
    (run : imgMpmc.Run legal (idle Thread first) events config)
    (hops : events.countP Event.isCall < 2 ^ 63) : Counted k events config.shared := by
  obtain ⟨ring, tracks, -⟩ := Tracks.of_run hk1 hk hfirst run hops
  have hrep := tracks.represents
  have hclaims := claims_le_calls run
  have hpushes : pushesClaimed events = ring.pushed.length := by
    have hlength := congrArg List.length tracks.pushes.2
    rwa [List.length_map] at hlength
  have hpops : popsClaimed events = ring.popped := by
    have hlength := congrArg List.length tracks.pops
    rwa [List.length_map, List.length_map, List.length_range] at hlength
  change pushesClaimed events + popsClaimed events ≤ _ at hclaims
  refine ⟨?_, ?_, ?_, ?_⟩
  · rw [hrep.tail, UInt64.toNat_ofNat', ← hpushes, Nat.mod_eq_of_lt (by omega)]
  · rw [hrep.head, UInt64.toNat_ofNat', ← hpops, Nat.mod_eq_of_lt (by omega)]
  · rw [hpushes, hpops]
    exact hrep.inv.ordered
  · rw [hpushes, hpops]
    exact hrep.inv.bounded

theorem access_size (q : ImgMpmcQueue) (p : Pc) (spurious : Bool) :
    (imgMpmc.access q p spurious).1.size = q.size := by
  cases p with
  | push p => cases p <;> simp only [imgMpmc, imgMpmcPush] <;> (try split_ifs) <;> rfl
  | pop p => cases p <;> simp only [imgMpmc, imgMpmcPop] <;> (try split_ifs) <;> rfl

omit [DecidableEq Thread] in
theorem popsClaimed_append (xs ys : History Thread) :
    popsClaimed (xs ++ ys) = popsClaimed xs + popsClaimed ys := by
  rw [popsClaimed, List.filterMap_append, List.length_append, popsClaimed, popsClaimed]

-- The answer counts the pops that get their ticket between the two loads as still to
-- come. So without pressure at most three quarters are in use when the tail is loaded.
theorem imgBackpressureCheckMpmc_answers {alignedAlloc : UInt64 → Bool} {size : UInt64}
    {q : ImgMpmcQueue} (hinit : imgMpmcInit alignedAlloc size = some q)
    (hzero : alignedAlloc 0 = false) (hsize : 2 ≤ q.size)
    {before after : List (Event Thread (Option Op) (Pc ⊕ PairView UInt64) (Result ⊕ Bool))}
    {last : Config Thread ImgMpmcQueue (Pc ⊕ PairView UInt64)} {thread : Thread} {head : UInt64}
    {answer : Bool}
    (run : (imgMpmc.observed imgBackpressureCheckMpmc).Run (Observed fun _ _ => True) (.quiet q)
      (before ++ .access thread (.inr (.second head)) (.inr (.inr answer)) :: after) last)
    (hops : before.countP Event.isCall < 2 ^ 63) :
    ∃ looked between,
      before = looked ++ .access thread (.inr .first) (.inl (.inr (.second head))) :: between ∧
        (∀ event ∈ between, event.thread ≠ thread) ∧
        popsClaimed (bases before) ≤ pushesClaimed (bases before) ∧
        inUse (bases before) ≤ q.size.toNat ∧
        (answer = true ↔
          q.size.toNat * 3 / 4 < inUse (bases before) + popsClaimed (bases between)) := by
  obtain ⟨k, hk, hpow, hfirst⟩ := represents_init Thread hinit
  have hk1 : 1 ≤ k := by
    rw [UInt64.le_iff_toNat_le, hpow] at hsize
    rcases Nat.eq_zero_or_pos k with rfl | hpos
    · simp at hsize
    · exact hpos
  obtain ⟨looked, between, source, now, hbefore, hbetween, hsnapshot⟩ := run.pair_answer
  refine ⟨looked, between, hbefore, hbetween, ?_⟩
  have hbases : bases before = bases looked ++ bases between := by
    rw [hbefore, bases, List.filterMap_append, List.filterMap_cons_none rfl]
  have hbasesOps := (countP_isCall_bases before).trans_lt hops
  have hlookedOps : (bases looked).countP Event.isCall < 2 ^ 63 := by
    rw [hbases, List.countP_append] at hbasesOps
    omega
  have hrun := hsnapshot.looked.append hsnapshot.between
  rw [← hbases] at hrun
  have hnow := Counted.of_run hk1 hk hfirst hrun hbasesOps
  have hsource := Counted.of_run hk1 hk hfirst hsnapshot.looked hlookedOps
  have hsizes : now.shared.size = q.size := hrun.keeps access_size
  have hpops := popsClaimed_append (bases looked) (bases between)
  rw [← hbases] at hpops
  have hordered := hnow.ordered
  have hbounded := hnow.bounded
  refine ⟨hordered, by rw [inUse, hpow]; omega, ?_⟩
  have hused : (now.shared.tail - source.shared.head).toNat =
      inUse (bases before) + popsClaimed (bases between) := by
    have htail := hnow.tail
    have hhead := hsource.head
    rw [UInt64.toNat_sub_of_le _ _ (UInt64.le_iff_toNat_le.mpr (by omega)), inUse]
    omega
  have hthreshold : (q.size * 3 / 4).toNat = q.size.toNat * 3 / 4 := by
    have hlarge := imgMpmcInit_size_lt hinit hzero hpow
    have hle : 2 ^ k ≤ 2 ^ 59 := Nat.pow_le_pow_right (by decide) hlarge
    rw [UInt64.toNat_div, UInt64.toNat_mul]
    change q.size.toNat * 3 % 2 ^ 64 / 4 = _
    rw [Nat.mod_eq_of_lt (by omega)]
  rw [hsnapshot.result, decide_eq_true_iff, gt_iff_lt, UInt64.lt_iff_toNat_lt, hsizes, hused,
    hthreshold]

-- A queue of four cells with one item and no pop under way.
theorem imgBackpressureCheckMpmc_answers_one : ∃ q before last looked between,
    imgMpmcInit (fun bytes => bytes != 0) 4 = some q ∧
      (imgMpmc.observed imgBackpressureCheckMpmc).Run (Observed fun _ _ => True) (.quiet q)
        (before ++ [.access true (.inr (.second 0)) (.inr (.inr false))]) last ∧
      before = looked ++ .access true (.inr .first) (.inl (.inr (.second 0))) :: between ∧
      (false = true ↔
        q.size.toNat * 3 / 4 < inUse (bases before) + popsClaimed (bases between)) := by
  let q : ImgMpmcQueue := { size := 4, mask := 3, cells := initCells 4, head := 0, tail := 0 }
  let turns : List (Turn Bool (Option Op) Bool) :=
    .call true (some (.push 7)) :: List.replicate 5 (.access true false) ++
      .call true none :: List.replicate 2 (.access true false)
  have hplay : ((imgMpmc.observed imgBackpressureCheckMpmc).playAll (Observed fun _ _ => True)
      turns [] (.quiet q)).map (fun r => r.1.getLast?) =
        some (some (.access true (.inr (.second 0)) (.inr (.inr false)))) := by
    decide
  obtain ⟨⟨events, last⟩, hplay, hresult⟩ := Option.map_eq_some_iff.mp hplay
  have hops : events.countP Event.isCall = turns.countP Turn.isCall :=
    (Program.countP_isCall_playAll hplay).trans (Nat.zero_add _)
  have hcalls : turns.countP Turn.isCall = 2 := rfl
  have run := Program.Run.start.playAll hplay
  have hend := List.dropLast_append_getLast? _ hresult
  simp only at hend
  rw [← hend] at run hops
  rw [List.countP_append, hcalls] at hops
  have hinit : imgMpmcInit (fun bytes => bytes != 0) 4 = some q := rfl
  obtain ⟨looked, between, hbefore, -, -, -, hanswer⟩ :=
    imgBackpressureCheckMpmc_answers hinit rfl (by decide) run (by omega)
  exact ⟨q, _, last, looked, between, hinit, run, hbefore, hanswer⟩

end ImgMpmc

namespace ImgSpsc

variable {k : Nat} {events more : History} {config next : Config Role ImgQueue Pc}

-- While the producer is not inside the ring, the tail stays and nothing is accepted.
theorem Inv.without_producer (hinv : Inv k events config)
    (run : imgSpsc.Run Contract config more next)
    (hnone : ∀ event ∈ more, event.thread ≠ .producer) :
    Inv k (events ++ more) next ∧ next.shared.tail = config.shared.tail ∧ accepted more = [] := by
  induction run with
  | start => exact ⟨(List.append_nil events).symm ▸ hinv, rfl, rfl⟩
  | @turn more config' event next turn run hlegal hplay ih =>
      obtain ⟨hinv, htail, haccepted⟩ := ih fun e he => hnone e (List.mem_append_left _ he)
      have hthread := hnone event (List.mem_append_right _ List.mem_cons_self)
      rw [← List.append_assoc, accepted_append, haccepted]
      obtain ⟨role, op, rfl, -, rfl, rfl⟩ | ⟨role, choice, p, rfl, hpc, rfl, rfl⟩ :=
        Program.play_cases hplay
      · exact ⟨hinv.call hlegal, htail, rfl⟩
      · refine ⟨hinv.access hpc, ?_⟩
        cases role with
        | producer => exact absurd rfl hthread
        | consumer =>
            obtain ⟨p, rfl, -⟩ := hinv.consumer _ hpc
            rw [imgSpsc_pop]
            refine ⟨?_, rfl⟩
            cases p with
            | loadTail h =>
                simp only [imgQueuePop]
                split_ifs <;> exact htail
            | _ => exact htail

-- The same for the head and the consumer.
theorem Inv.without_consumer (hinv : Inv k events config)
    (run : imgSpsc.Run Contract config more next)
    (hnone : ∀ event ∈ more, event.thread ≠ .consumer) :
    Inv k (events ++ more) next ∧ next.shared.head = config.shared.head := by
  induction run with
  | start => exact ⟨(List.append_nil events).symm ▸ hinv, rfl⟩
  | @turn more config' event next turn run hlegal hplay ih =>
      obtain ⟨hinv, hhead⟩ := ih fun e he => hnone e (List.mem_append_left _ he)
      have hthread := hnone event (List.mem_append_right _ List.mem_cons_self)
      rw [← List.append_assoc]
      obtain ⟨role, op, rfl, -, rfl, rfl⟩ | ⟨role, choice, p, rfl, hpc, rfl, rfl⟩ :=
        Program.play_cases hplay
      · exact ⟨hinv.call hlegal, hhead⟩
      · refine ⟨hinv.access hpc, ?_⟩
        cases role with
        | consumer => exact absurd rfl hthread
        | producer =>
            obtain ⟨p, rfl, -⟩ := hinv.producer _ hpc
            rw [imgSpsc_push]
            cases p with
            | loadHead data t =>
                simp only [imgQueuePush]
                split_ifs <;> exact hhead
            | _ => exact hhead

theorem Inv.distance (hinv : Inv k events config) :
    ((config.shared.tail - config.shared.head) &&& config.shared.mask).toNat = waiting events := by
  rw [hinv.ready.distance, waiting, hinv.fifo, List.length_append, contents, window_length]
  omega

theorem access_capacity (q : ImgQueue) (p : Pc) (choice : Unit) :
    (imgSpsc.access q p choice).1.capacity = q.capacity := by
  cases p with
  | push p =>
      cases p with
      | loadHead data t =>
          simp only [imgSpsc, imgQueuePush]
          split_ifs <;> rfl
      | _ => rfl
  | pop p =>
      cases p with
      | loadTail h =>
          simp only [imgSpsc, imgQueuePop]
          split_ifs <;> rfl
      | _ => rfl

theorem Inv.same_mask {events' : History} {config' : Config Role ImgQueue Pc}
    (hinv : Inv k events config) (hinv' : Inv k events' config') :
    config'.shared.mask = config.shared.mask :=
  UInt32.toNat_inj.mp (hinv'.ready.mask.trans hinv.ready.mask.symm)

section Answers

variable {looked between : History} {answer : Bool} {source now : Config Role ImgQueue Pc}
  {q : ImgQueue} {load : ImgQueue → UInt32} {result : UInt32 → ImgQueue → Bool}

-- The state of which the answer holds: when the producer asks it is the one at the first
-- load, when the consumer asks the one at the second.

def askedAt (role : Role) (looked between : History) : History :=
  match role with
  | .producer => looked
  | .consumer => looked ++ between

theorem usage_eq (hready : Ready k q) (hempty : contents k q = [])
    (hsnapshot : Snapshot imgSpsc Contract load result q looked between answer source now)
    {role : Role} (hnone : ∀ event ∈ between, event.thread ≠ role) :
    ((now.shared.tail - source.shared.head) &&& now.shared.mask).toNat =
      waiting (askedAt role looked between) := by
  have hsource := Inv.of_run hready hempty hsnapshot.looked
  cases role with
  | producer =>
      obtain ⟨hnow, htail, -⟩ := hsource.without_producer hsnapshot.between hnone
      rw [htail, hsource.same_mask hnow]
      exact hsource.distance
  | consumer =>
      obtain ⟨hnow, hhead⟩ := hsource.without_consumer hsnapshot.between hnone
      rw [← hhead]
      exact hnow.distance

end Answers

-- Whoever of the two asks, the answer is the truth at one of the loads. After the producer
-- has heard that there is no pressure, a tenth of the ring, less one slot, is still to be
-- filled before a push finds it full. A ring of at most eight slots never reports pressure.
theorem imgBackpressureCheckSpsc_answers {power : UInt32} (hpower : power ≤ 30)
    {before after : List (Event Role (Option Op) (Pc ⊕ PairView UInt32) (Result ⊕ Bool))}
    {last : Config Role ImgQueue (Pc ⊕ PairView UInt32)} {role : Role} {head : UInt32}
    {answer : Bool}
    (run : (imgSpsc.observed imgBackpressureCheckSpsc).Run (Observed Contract)
      (.quiet (imgQueueCreate power))
      (before ++ .access role (.inr (.second head)) (.inr (.inr answer)) :: after) last) :
    (∃ looked between,
      before = looked ++ .access role (.inr .first) (.inl (.inr (.second head))) :: between ∧
        (answer = true ↔
          2 ^ power.toNat * 9 / 10 < waiting (askedAt role (bases looked) (bases between)))) ∧
      (answer = false → role = .producer → ∀ middle data t later,
        after = middle ++ .access .producer (.inl (.push (.loadHead data t))) (.inr (.inl .full)) ::
            later →
          2 ^ power.toNat - 1 ≤ 2 ^ power.toNat * 9 / 10 + (accepted (bases middle)).length) ∧
      (power ≤ 3 → answer = false) := by
  obtain ⟨hready, hempty⟩ := ready_create power hpower
  have hk : power.toNat ≤ 30 := UInt32.le_iff_toNat_le.mp hpower
  obtain ⟨looked, between, source, now, hbefore, hbetween, hsnapshot⟩ := run.pair_answer
  have hnone : ∀ event ∈ bases between, event.thread ≠ role := by
    intro event hevent
    obtain ⟨event', hmem, hbase⟩ := List.mem_filterMap.mp hevent
    rw [Event.thread_of_base hbase]
    exact hbetween event' hmem
  have husage := usage_eq hready hempty hsnapshot hnone
  have hrun := hsnapshot.looked.append hsnapshot.between
  have hcapacity : now.shared.capacity.toNat = 2 ^ power.toNat := by
    rw [hrun.keeps access_capacity]
    exact uint32_one_shiftLeft (by omega)
  have hanswer : answer = true ↔
      2 ^ power.toNat * 9 / 10 < waiting (askedAt role (bases looked) (bases between)) := by
    rw [hsnapshot.result, decide_eq_true_iff, gt_iff_lt, UInt32.lt_iff_toNat_lt, husage,
      nineTenths_toNat hk hcapacity]
  have hbases : bases before = bases looked ++ bases between := by
    rw [hbefore, bases, List.filterMap_append, List.filterMap_cons_none rfl]
  refine ⟨⟨looked, between, hbefore, hanswer⟩, ?_, fun hsmall => ?_⟩
  · rintro rfl rfl middle data t later rfl
    have hquiet : waiting (bases looked) ≤ 2 ^ power.toNat * 9 / 10 :=
      Nat.not_lt.mp fun hlt => Bool.false_ne_true (hanswer.mpr hlt)
    have hall := run.base
    simp only [bases, List.filterMap_append, List.filterMap_cons, Event.base] at hall
    rw [← List.append_assoc] at hall
    obtain ⟨source', target, turn, hsource', -, hplay⟩ := hall.split
    have hinv := Inv.of_run hready hempty hsource'
    have hfull := hinv.findsFull hplay trivial
    have hfifo := congrArg List.length hinv.fifo
    have hlooked := Inv.of_run hready hempty hsnapshot.looked
    obtain ⟨-, -, haccepted⟩ := hlooked.without_producer hsnapshot.between hnone
    change (accepted (bases before ++ bases middle)).length =
      (delivered (bases before ++ bases middle) ++ _).length at hfifo
    rw [hbases] at hfifo
    simp only [accepted_append, delivered_append, haccepted, List.length_append,
      List.length_nil] at hfifo
    rw [hfull] at hfifo
    rw [waiting] at hquiet
    omega
  · rw [← Bool.not_eq_true, hanswer, ← husage]
    have hmask : now.shared.mask.toNat = 2 ^ power.toNat - 1 :=
      (Inv.of_run hready hempty hrun).ready.mask
    have hle : ((now.shared.tail - source.shared.head) &&& now.shared.mask).toNat ≤
        2 ^ power.toNat - 1 := by
      rw [UInt32.toNat_and, ← hmask]
      exact Nat.and_le_right
    have hthree : power.toNat ≤ 3 := UInt32.le_iff_toNat_le.mp hsmall
    have hall : ∀ k < 4, 2 ^ k - 1 ≤ 2 ^ k * 9 / 10 := by decide
    exact Nat.not_lt.mpr (hle.trans (hall _ (by omega)))

-- In a ring of 16 slots the producer asks when 14 are in use, pushes once more, and finds
-- the ring full at its next push.
theorem imgBackpressureCheckSpsc_answers_full : ∃ before middle last,
    (imgSpsc.observed imgBackpressureCheckSpsc).Run (Observed Contract)
        (.quiet (imgQueueCreate 4))
        (before ++ .access .producer (.inr (.second 0)) (.inr (.inr false)) ::
          (middle ++ [.access .producer (.inl (.push (.loadHead 7 15))) (.inr (.inl .full))])) last ∧
      (∃ looked between,
        before = looked ++ .access .producer (.inr .first) (.inl (.inr (.second 0))) :: between ∧
          (false = true ↔
            2 ^ 4 * 9 / 10 < waiting (askedAt .producer (bases looked) (bases between)))) ∧
      2 ^ 4 - 1 ≤ 2 ^ 4 * 9 / 10 + (accepted (bases middle)).length := by
  let push : List (Turn Role (Option Op) Unit) :=
    .call .producer (some (.push 7)) :: List.replicate 4 (.access .producer ())
  let ask : List (Turn Role (Option Op) Unit) :=
    .call .producer none :: List.replicate 2 (.access .producer ())
  let turns := (List.replicate 14 push).flatten ++ ask ++ push ++ push.take 3
  let played := (imgSpsc.observed imgBackpressureCheckSpsc).playAll (Observed Contract) turns []
    (.quiet (imgQueueCreate 4))
  have hask : played.map (fun r => r.1[72]?) =
      some (some (.access .producer (.inr (.second 0)) (.inr (.inr false)))) := by
    decide +kernel
  have hfull : played.map (fun r => (r.1.drop 73).getLast?) =
      some (some (.access .producer (.inl (.push (.loadHead 7 15))) (.inr (.inl .full)))) := by
    decide +kernel
  obtain ⟨⟨events, last⟩, hplay, hask⟩ := Option.map_eq_some_iff.mp hask
  rw [hplay, Option.map_some, Option.some_inj] at hfull
  have run := Program.Run.start.playAll hplay
  obtain ⟨hlt, hask⟩ := List.getElem?_eq_some_iff.mp hask
  have hend := List.dropLast_append_getLast? _ hfull
  have hsplit := (List.take_append_drop 72 events).symm
  rw [List.drop_eq_getElem_cons hlt, hask, ← hend] at hsplit
  rw [hsplit] at run
  obtain ⟨hanswer, hroom, -⟩ := imgBackpressureCheckSpsc_answers (by decide) run
  exact ⟨_, _, last, run, hanswer, hroom rfl rfl _ _ _ [] rfl⟩

end ImgSpsc

end ImgEngine.Runtime
