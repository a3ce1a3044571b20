import ImgEngine.Runtime.QueueSpsc

namespace ImgEngine.Runtime.ImgSpsc

open ImgEngine.Library.Interleaving
open ImgEngine.Library.RingBuffer
open scoped List

section Contents

variable {k : Nat} {q : ImgQueue}

theorem Ready.next_toNat (h : Ready k q) (i : UInt32) :
    (q.next i).toNat = next (2 ^ k) i.toNat :=
  uint32_add_and_mask i 1 q.mask (h.small.trans (by decide)) h.mask

theorem Ready.next_lt (h : Ready k q) (i : UInt32) : (q.next i).toNat < 2 ^ k := by
  rw [h.next_toNat]
  exact Nat.mod_lt _ (Nat.two_pow_pos k)

theorem Ready.full_iff (h : Ready k q) :
    q.next q.tail = q.head ↔ (contents k q).length = 2 ^ k - 1 := by
  rw [← UInt32.toNat_inj, h.next_toNat, next_eq_iff_used h.head h.tail, contents, window_length]

theorem Ready.empty_iff (h : Ready k q) : q.head = q.tail ↔ contents k q = [] := by
  rw [← UInt32.toNat_inj, ← used_eq_zero_iff h.head h.tail, contents, ← List.length_eq_zero_iff,
    window_length]

theorem Ready.length_le (h : Ready k q) : (contents k q).length ≤ 2 ^ k - 1 := by
  have := used_lt h.head q.tail.toNat
  rw [contents, window_length]
  omega

-- The three stores that change the ring.

-- Distances from the head decide which slots are in use.
theorem Ready.distance (h : Ready k q) (i : UInt32) :
    ((i - q.head) &&& q.mask).toNat = used (2 ^ k) q.head.toNat i.toNat :=
  uint32_sub_and_mask (h.small.trans (by decide)) h.mask h.head

theorem Ready.writeSlot (h : Ready k q) (data : Ptr) {t : UInt32}
    (hfresh : FreshPush q (.writeSlot data t)) :
    contents k { q with buffer := Function.update q.buffer t data } = contents k q := by
  have hword : 2 ^ k < 2 ^ 32 := Nat.pow_lt_pow_right (by omega) (by have := h.small; omega)
  apply window_congr
  intro j hj
  have hj : j < used (2 ^ k) q.head.toNat q.tail.toNat := hj
  have hlt : (q.head.toNat + j) % 2 ^ k < 2 ^ k := Nat.mod_lt _ (Nat.two_pow_pos k)
  refine Function.update_of_ne (fun he => ?_) _ _
  have ht := congrArg UInt32.toNat he
  rw [UInt32.toNat_ofNat', Nat.mod_eq_of_lt (by exact lt_trans hlt hword)] at ht
  have hdistance := UInt32.le_iff_toNat_le.mp hfresh
  have hused := used_lt h.head q.tail.toNat
  rw [h.distance, h.distance, ← ht, used_head_add (by omega) h.head] at hdistance
  omega

theorem Ready.storeTail (h : Ready k q) (hroom : q.next q.tail ≠ q.head) :
    contents k { q with tail := q.next q.tail } = contents k q ++ [q.buffer q.tail] := by
  have hne : next (2 ^ k) q.tail.toNat ≠ q.head.toNat := by
    rw [← h.next_toNat]
    exact fun he => hroom (UInt32.toNat_inj.mp he)
  have hpush := window_push h.head h.tail hne fun i => q.buffer (UInt32.ofNat i)
  simpa only [contents, h.next_toNat, UInt32.ofNat_toNat] using hpush

theorem Ready.storeHead (h : Ready k q) (hne : q.head ≠ q.tail) :
    contents k q = q.buffer q.head :: contents k { q with head := q.next q.head } := by
  have hne : q.head.toNat ≠ q.tail.toNat := fun he => hne (UInt32.toNat_inj.mp he)
  have hpop := window_pop h.head h.tail hne fun i => q.buffer (UInt32.ofNat i)
  simpa only [contents, h.next_toNat, UInt32.ofNat_toNat] using hpop

-- A store of either end leaves room, or something to read, for the other.

theorem Ready.room_after_pop (h : Ready k q) (hne : q.head ≠ q.tail) :
    q.next q.tail ≠ q.next q.head := by
  intro he
  have hready : Ready k { q with head := q.next q.head } := { h with head := h.next_lt _ }
  have hfull := hready.full_iff.mp he
  have hle := h.length_le
  rw [h.storeHead hne, List.length_cons] at hle
  omega

theorem Ready.item_after_push (h : Ready k q) (hroom : q.next q.tail ≠ q.head) :
    q.head ≠ q.next q.tail := by
  intro he
  have hready : Ready k { q with tail := q.next q.tail } := { h with tail := h.next_lt _ }
  have hempty := hready.empty_iff.mp he
  rw [h.storeTail hroom] at hempty
  simp at hempty

end Contents

-- What the producer knows about the ring in the middle of a push.
def AgreesPush (q : ImgQueue) : PushPc → Prop
  | .loadTail _ => True
  | .loadHead _ t => t = q.tail
  | .writeSlot _ t => t = q.tail ∧ q.next t ≠ q.head
  | .storeTail data t => t = q.tail ∧ q.next t ≠ q.head ∧ q.buffer t = data

-- What the consumer knows in the middle of a pop.
def AgreesPop (q : ImgQueue) : PopPc → Prop
  | .loadHead => True
  | .loadTail h => h = q.head
  | .readSlot h => h = q.head ∧ h ≠ q.tail
  | .storeHead h data => h = q.head ∧ h ≠ q.tail ∧ q.buffer h = data

section Accesses

variable {k : Nat} {q : ImgQueue}

-- One access of the producer: the ring keeps its items or gains the accepted
-- one, and neither thread's knowledge is disturbed.

theorem imgQueuePush_ready (h : Ready k q) (p : PushPc) : Ready k (imgQueuePush q p).1 := by
  cases p with
  | loadHead data t =>
      simp only [imgQueuePush]
      split_ifs <;> exact h
  | storeTail data t => exact { h with tail := h.next_lt t }
  | _ => exact { h with }

theorem AgreesPush.fresh {p : PushPc} (hagrees : AgreesPush q p) : FreshPush q p := by
  cases p with
  | writeSlot data t =>
      obtain ⟨rfl, -⟩ := hagrees
      exact UInt32.le_refl _
  | storeTail data t => exact hagrees
  | _ => trivial

theorem imgQueuePush_contents (h : Ready k q) (p : PushPc) (hfresh : FreshPush q p) :
    contents k (imgQueuePush q p).1 = contents k q ++ pushed p (imgQueuePush q p).2 := by
  cases p with
  | loadTail data => exact (List.append_nil _).symm
  | loadHead data t =>
      simp only [imgQueuePush]
      split_ifs <;> exact (List.append_nil _).symm
  | writeSlot data t => exact (h.writeSlot data hfresh).trans (List.append_nil _).symm
  | storeTail data t =>
      obtain ⟨rfl, hroom, rfl⟩ := hfresh
      exact h.storeTail hroom

theorem imgQueuePush_agrees {p p' : PushPc} (hagrees : AgreesPush q p)
    (hout : (imgQueuePush q p).2 = .inl p') : AgreesPush (imgQueuePush q p).1 p' := by
  cases p with
  | loadTail data =>
      cases hout
      rfl
  | loadHead data t =>
      simp only [imgQueuePush] at hout ⊢
      split_ifs at hout ⊢ with hfull
      cases hout
      exact ⟨hagrees, hfull⟩
  | writeSlot data t =>
      cases hout
      exact ⟨hagrees.1, hagrees.2, Function.update_self ..⟩
  | storeTail data t => cases hout

theorem imgQueuePush_agreesPop (h : Ready k q) {p : PushPc} (hagrees : AgreesPush q p)
    {other : PopPc} (hother : AgreesPop q other) : AgreesPop (imgQueuePush q p).1 other := by
  cases p with
  | loadTail data => exact hother
  | loadHead data t =>
      simp only [imgQueuePush]
      split_ifs <;> exact hother
  | writeSlot data t =>
      obtain ⟨rfl, -⟩ := hagrees
      cases other with
      | storeHead i d =>
          obtain ⟨rfl, hne, hdata⟩ := hother
          exact ⟨rfl, hne, (Function.update_of_ne hne _ _).trans hdata⟩
      | _ => exact hother
  | storeTail data t =>
      obtain ⟨rfl, hroom, -⟩ := hagrees
      cases other with
      | readSlot i =>
          obtain ⟨rfl, -⟩ := hother
          exact ⟨rfl, h.item_after_push hroom⟩
      | storeHead i d =>
          obtain ⟨rfl, -, hdata⟩ := hother
          exact ⟨rfl, h.item_after_push hroom, hdata⟩
      | _ => exact hother

-- The same for one access of the consumer, which takes the delivered item away.

theorem imgQueuePop_ready (h : Ready k q) (p : PopPc) : Ready k (imgQueuePop q p).1 := by
  cases p with
  | loadTail i =>
      simp only [imgQueuePop]
      split_ifs <;> exact h
  | storeHead i data => exact { h with head := h.next_lt i }
  | _ => exact { h with }

theorem AgreesPop.fresh {p : PopPc} (hagrees : AgreesPop q p) : FreshPop q p := by
  cases p with
  | storeHead i data => exact hagrees
  | _ => trivial

theorem imgQueuePop_contents (h : Ready k q) (p : PopPc) (hfresh : FreshPop q p) :
    contents k q = popped (imgQueuePop q p).2 ++ contents k (imgQueuePop q p).1 := by
  cases p with
  | loadTail i =>
      simp only [imgQueuePop]
      split_ifs <;> rfl
  | storeHead i data =>
      obtain ⟨rfl, hne, rfl⟩ := hfresh
      exact h.storeHead hne
  | _ => rfl

theorem imgQueuePop_agrees {p p' : PopPc} (hagrees : AgreesPop q p)
    (hout : (imgQueuePop q p).2 = .inl p') : AgreesPop (imgQueuePop q p).1 p' := by
  cases p with
  | loadHead =>
      cases hout
      rfl
  | loadTail i =>
      simp only [imgQueuePop] at hout ⊢
      split_ifs at hout ⊢ with hempty
      cases hout
      exact ⟨hagrees, hempty⟩
  | readSlot i =>
      cases hout
      exact ⟨hagrees.1, hagrees.2, rfl⟩
  | storeHead i data => cases hout

theorem imgQueuePop_agreesPush (h : Ready k q) {p : PopPc} (hagrees : AgreesPop q p)
    {other : PushPc} (hother : AgreesPush q other) : AgreesPush (imgQueuePop q p).1 other := by
  cases p with
  | loadTail i =>
      simp only [imgQueuePop]
      split_ifs <;> exact hother
  | storeHead i data =>
      obtain ⟨rfl, hne, -⟩ := hagrees
      cases other with
      | writeSlot d t =>
          obtain ⟨rfl, -⟩ := hother
          exact ⟨rfl, h.room_after_pop hne⟩
      | storeTail d t =>
          obtain ⟨rfl, -, hdata⟩ := hother
          exact ⟨rfl, h.room_after_pop hne, hdata⟩
      | _ => exact hother
  | _ => exact hother

end Accesses

-- The invariant of the two threads.
structure Inv (k : Nat) (events : History) (config : Config Role ImgQueue Pc) : Prop where
  ready : Ready k config.shared
  producer : ∀ p, config.pc .producer = some p → ∃ p', p = .push p' ∧ AgreesPush config.shared p'
  consumer : ∀ p, config.pc .consumer = some p → ∃ p', p = .pop p' ∧ AgreesPop config.shared p'
  fifo : accepted events = delivered events ++ contents k config.shared

variable {k : Nat} {events : History} {config next : Config Role ImgQueue Pc}
  {event : Event Role Op Pc Result} {turn : Turn Role Op Unit}

theorem accepted_append (xs ys : History) : accepted (xs ++ ys) = accepted xs ++ accepted ys :=
  List.filterMap_append

theorem delivered_append (xs ys : History) : delivered (xs ++ ys) = delivered xs ++ delivered ys :=
  List.filterMap_append

theorem accepted_push (role : Role) (q : ImgQueue) (p : PushPc) :
    accepted [.access role (.push p) ((imgQueuePush q p).2.map .push id)] =
      pushed p (imgQueuePush q p).2 := by
  cases p <;> simp only [imgQueuePush] <;> (try split_ifs) <;> rfl

theorem delivered_pop (role : Role) (q : ImgQueue) (p : PopPc) :
    delivered [.access role (.pop p) ((imgQueuePop q p).2.map .pop id)] =
      popped (imgQueuePop q p).2 := by
  cases p <;> simp only [imgQueuePop] <;> (try split_ifs) <;> rfl

@[simp] theorem accepted_call (role : Role) (op : Op) : accepted [.call role op] = [] := rfl

@[simp] theorem delivered_call (role : Role) (op : Op) : delivered [.call role op] = [] := rfl

@[simp] theorem accepted_pop (role : Role) (p : PopPc) (outcome : Pc ⊕ Result) :
    accepted [.access role (.pop p) outcome] = [] := rfl

@[simp] theorem delivered_push (role : Role) (p : PushPc) (outcome : Pc ⊕ Result) :
    delivered [.access role (.push p) outcome] = [] := rfl

theorem Inv.call (hinv : Inv k events config) {role : Role} {op : Op}
    (hlegal : Contract config (.call role op)) :
    Inv k (events ++ [.call role op])
      { config with pc := Function.update config.pc role (some (imgSpsc.start op)) } := by
  have hfifo : accepted (events ++ [.call role op]) =
      delivered (events ++ [.call role op]) ++ contents k config.shared := by
    simpa [accepted_append, delivered_append] using hinv.fifo
  cases role with
  | producer =>
      cases op with
      | push data =>
          refine ⟨hinv.ready, ?_, by simpa using hinv.consumer, hfifo⟩
          rintro p ⟨⟩
          exact ⟨_, rfl, trivial⟩
      | pop => cases hlegal
  | consumer =>
      cases op with
      | push data => cases hlegal
      | pop =>
          refine ⟨hinv.ready, by simpa using hinv.producer, ?_, hfifo⟩
          rintro p ⟨⟩
          exact ⟨_, rfl, trivial⟩

theorem Inv.access (hinv : Inv k events config) {role : Role} {p : Pc}
    (hpc : config.pc role = some p) :
    Inv k (events ++ [.access role p (imgSpsc.access config.shared p ()).2])
      { shared := (imgSpsc.access config.shared p ()).1,
        pc := Function.update config.pc role
          (imgSpsc.access config.shared p ()).2.getLeft? } := by
  cases role with
  | producer =>
      obtain ⟨p, rfl, hagrees⟩ := hinv.producer _ hpc
      refine ⟨imgQueuePush_ready hinv.ready p, ?_, ?_, ?_⟩
      · intro p' hp'
        simp only [imgSpsc_push, Function.update_self, Sum.getLeft?_map, Option.map_eq_some_iff,
          Sum.getLeft?_eq_some_iff] at hp'
        obtain ⟨p', hout, rfl⟩ := hp'
        exact ⟨p', rfl, imgQueuePush_agrees hagrees hout⟩
      · intro p' hp'
        obtain ⟨p', rfl, hother⟩ := hinv.consumer p' (by simpa using hp')
        exact ⟨p', rfl, imgQueuePush_agreesPop hinv.ready hagrees hother⟩
      · rw [accepted_append, delivered_append, delivered_push, List.append_nil, hinv.fifo,
          List.append_assoc, imgSpsc_push, accepted_push,
          imgQueuePush_contents hinv.ready p hagrees.fresh]
  | consumer =>
      obtain ⟨p, rfl, hagrees⟩ := hinv.consumer _ hpc
      refine ⟨imgQueuePop_ready hinv.ready p, ?_, ?_, ?_⟩
      · intro p' hp'
        obtain ⟨p', rfl, hother⟩ := hinv.producer p' (by simpa using hp')
        exact ⟨p', rfl, imgQueuePop_agreesPush hinv.ready hagrees hother⟩
      · intro p' hp'
        simp only [imgSpsc_pop, Function.update_self, Sum.getLeft?_map, Option.map_eq_some_iff,
          Sum.getLeft?_eq_some_iff] at hp'
        obtain ⟨p', hout, rfl⟩ := hp'
        exact ⟨p', rfl, imgQueuePop_agrees hagrees hout⟩
      · rw [accepted_append, delivered_append, accepted_pop, List.append_nil, hinv.fifo,
          imgSpsc_pop, delivered_pop, imgQueuePop_contents hinv.ready p hagrees.fresh,
          List.append_assoc]

theorem Inv.of_run {q : ImgQueue} (hready : Ready k q) (hempty : contents k q = [])
    (run : imgSpsc.Run Contract (idle q) events config) : Inv k events config := by
  induction run with
  | start => exact ⟨hready, by simp [idle], by simp [idle], hempty.symm⟩
  | turn turn _ hlegal hplay ih =>
      obtain ⟨role, op, rfl, -, rfl, rfl⟩ | ⟨role, choice, p, rfl, hpc, rfl, rfl⟩ :=
        Program.play_cases hplay
      · exact ih.call hlegal
      · exact ih.access hpc

-- A push that gives up has just seen a full ring, and a pop an empty one.

theorem Inv.findsFull (hinv : Inv k events config) (hplay : imgSpsc.play config turn =
    some (event, next)) (hfull : FindsFull event) :
    (contents k config.shared).length = 2 ^ k - 1 := by
  obtain ⟨role, op, -, -, rfl, -⟩ | ⟨role, choice, p, -, hpc, rfl, -⟩ :=
    Program.play_cases hplay
  · cases hfull
  · cases role with
    | producer =>
        obtain ⟨p, rfl, hagrees⟩ := hinv.producer _ hpc
        cases p with
        | loadHead data t =>
            obtain rfl : t = config.shared.tail := hagrees
            simp only [imgSpsc, imgQueuePush] at hfull
            split_ifs at hfull with hnext
            · exact hinv.ready.full_iff.mp hnext
            · cases hfull
        | _ => cases hfull
    | consumer =>
        obtain ⟨p, rfl, -⟩ := hinv.consumer _ hpc
        cases hfull

theorem Inv.findsEmpty (hinv : Inv k events config) (hplay : imgSpsc.play config turn =
    some (event, next)) (hempty : FindsEmpty event) : contents k config.shared = [] := by
  obtain ⟨role, op, -, -, rfl, -⟩ | ⟨role, choice, p, -, hpc, rfl, -⟩ :=
    Program.play_cases hplay
  · cases hempty
  · cases role with
    | producer =>
        obtain ⟨p, rfl, -⟩ := hinv.producer _ hpc
        cases hempty
    | consumer =>
        obtain ⟨p, rfl, hagrees⟩ := hinv.consumer _ hpc
        cases p with
        | loadTail i =>
            obtain rfl : i = config.shared.head := hagrees
            simp only [imgSpsc, imgQueuePop] at hempty
            split_ifs at hempty with htail
            · exact hinv.ready.empty_iff.mp htail
            · cases hempty
        | _ => cases hempty

theorem ready_create (power : UInt32) (hpower : power ≤ 30) :
    Ready power.toNat (imgQueueCreate power) ∧
      contents power.toNat (imgQueueCreate power) = [] := by
  have hsmall : power.toNat ≤ 30 := UInt32.le_iff_toNat_le.mp hpower
  have hcapacity : ((1 : UInt32) <<< power).toNat = 2 ^ power.toNat :=
    uint32_one_shiftLeft (by omega)
  have hpos := Nat.two_pow_pos power.toNat
  refine ⟨⟨hsmall, ?_, hpos, hpos⟩, window_empty _ hpos⟩
  change ((1 : UInt32) <<< power - 1).toNat = _
  rw [UInt32.toNat_sub_of_le _ _ (UInt32.le_iff_toNat_le.mpr (by rw [hcapacity]; exact hpos)),
    hcapacity]
  rfl

theorem imgQueue_boundedFifo {power : UInt32} (hpower : power ≤ 30)
    (run : imgSpsc.Run Contract (idle (imgQueueCreate power)) events config) :
    BoundedFifo (2 ^ power.toNat - 1) events := by
  obtain ⟨hready, hempty⟩ := ready_create power hpower
  have hinv := Inv.of_run hready hempty run
  have hfifo := hinv.fifo
  refine ⟨⟨_, hfifo.symm⟩, ?_, ?_, ?_⟩
  · rw [hfifo, List.length_append]
    exact Nat.add_le_add_left hinv.ready.length_le _
  · rintro before event after rfl hfull
    obtain ⟨source, target, turn, hsource, -, hplay⟩ := run.split
    have hinv := Inv.of_run hready hempty hsource
    rw [hinv.fifo, List.length_append, hinv.findsFull hplay hfull]
  · rintro before event after rfl hfinds
    obtain ⟨source, target, turn, hsource, -, hplay⟩ := run.split
    have hinv := Inv.of_run hready hempty hsource
    rw [hinv.fifo, hinv.findsEmpty hplay hfinds, List.append_nil]

-- In a ring of two slots the second push finds no room, and then one pop takes
-- the first pointer out.
theorem imgQueue_boundedFifo_handover :
    ∃ events config, imgSpsc.Run Contract (idle (imgQueueCreate 1)) events config ∧
      (delivered events = [5] ∧ events.any (fun event => event matches .access _ _ (.inr .full))) ∧
      BoundedFifo 1 events := by
  let turns : List (Turn Role Op Unit) :=
    .call .producer (.push 5) :: List.replicate 4 (.access .producer ()) ++
      .call .producer (.push 6) :: List.replicate 2 (.access .producer ()) ++
      .call .consumer .pop :: List.replicate 4 (.access .consumer ())
  have hplay : (imgSpsc.playAll Contract turns [] (idle (imgQueueCreate 1))).map
      (fun r => (delivered r.1, r.1.any (fun event => event matches .access _ _ (.inr .full)))) =
        some ([5], true) := by
    decide
  obtain ⟨⟨events, config⟩, hplay, hresult⟩ := Option.map_eq_some_iff.mp hplay
  have run : imgSpsc.Run Contract (idle (imgQueueCreate 1)) events config :=
    Program.Run.start.playAll hplay
  exact ⟨events, config, run, Prod.mk.inj hresult, imgQueue_boundedFifo (by decide) run⟩

end ImgEngine.Runtime.ImgSpsc
