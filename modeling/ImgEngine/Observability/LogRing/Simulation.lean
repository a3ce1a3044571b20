import ImgEngine.Observability.LogRing
import ImgEngine.Runtime.QueueMpmc.Simulation

namespace ImgEngine.Observability.ImgLogger

open ImgEngine.Library.Interleaving
open ImgEngine.Library.TicketRing

variable {Thread : Type}

-- What a thread inside an operation knows. The position that a push has loaded is
-- at most the tail, and if they are still equal the cell is as it was found. The
-- position of a pop is the head, which nobody else moves. During either memcpy the
-- slot belongs to the thread, and the bytes no longer to do are in place.
def Knows (k : Nat) (consumer : Thread) (q : LogRing) (ring : Ring Thread LogMsg)
    (thread : Thread) : Pc → Prop
  | .push (.loadTail _) => True
  | .push (.loadSeq _ pos) => pos.toNat ≤ ring.pushed.length
  | .push (.exchange _ pos) => pos.toNat ≤ ring.pushed.length ∧
      (pos.toNat = ring.pushed.length →
        ring.slot (ring.pushed.length % 2 ^ k) = .free ring.pushed.length)
  | .push (.copy msg pos todo) => ∃ n, pos = UInt64.ofNat n ∧
      ring.slot (n % 2 ^ k) = .claimed n thread msg ∧ ∀ i, i ∉ todo → (q.cell pos).msg i = msg i
  | .pop (.loadHead _) => thread = consumer
  | .pop (.loadSeq _ pos) => thread = consumer ∧ pos = UInt64.ofNat ring.popped
  | .pop (.exchange _ pos) => thread = consumer ∧ pos = UInt64.ofNat ring.popped ∧
      ∃ msg, ring.slot (ring.popped % 2 ^ k) = .full ring.popped msg
  | .pop (.copy out pos todo) => thread = consumer ∧ ∃ n msg, pos = UInt64.ofNat n ∧
      n + 1 = ring.popped ∧ ring.slot (n % 2 ^ k) = .draining n thread msg ∧
        ∀ i, i ∉ todo → out i = msg i

-- The slot stages in which the cell's message is whole.
def Holds (msg : LogMsg) : Slot Thread LogMsg → Prop
  | .full _ msg' | .draining _ _ msg' => msg' = msg
  | _ => False

-- The log ring represents the ticket ring, with all counters reduced to words.
structure Represents (k : Nat) (consumer : Thread) (q : LogRing) (pc : Thread → Option Pc)
    (ring : Ring Thread LogMsg) : Prop where
  inv : ring.Inv (2 ^ k)
  mask : q.mask.toNat = 2 ^ k - 1
  tail : q.tail = UInt64.ofNat ring.pushed.length
  head : q.head = UInt64.ofNat ring.popped
  seq : ∀ i < 2 ^ k, (q.cells (UInt64.ofNat i)).seq = UInt64.ofNat (ring.slot i).seq
  holds : ∀ i < 2 ^ k, ∀ msg, Holds msg (ring.slot i) → (q.cells (UInt64.ofNat i)).msg = msg
  knows : ∀ thread p, pc thread = some p → Knows k consumer q ring thread p

-- One when a claimed message is not copied out yet.
def inHand : Option Pc → Nat
  | some (.pop (.copy _ _ _)) => 1
  | _ => 0

-- The move of the ticket ring that an access stands for.
inductive Move (k : Nat) (consumer : Thread) (ring : Ring Thread LogMsg) :
    Event Thread Op Pc Result → Ring Thread LogMsg → Prop
  | still {thread p outcome} (hclaim : pushClaim (.access thread p outcome) = none)
      (hreturn : popReturn (.access thread p outcome) = none)
      (hhand : inHand outcome.getLeft? = inHand (some p)) :
      Move k consumer ring (.access thread p outcome) ring
  | claimPush (thread : Thread) (msg : LogMsg) (todo : List (Fin logMsgSize)) :
      Move k consumer ring
        (.access thread (.push (.exchange msg (UInt64.ofNat ring.pushed.length)))
          (.inl (.push (.copy msg (UInt64.ofNat ring.pushed.length) todo))))
        (ring.claimPush (2 ^ k) thread msg)
  | publish (thread : Thread) (msg : LogMsg) (n : Nat) :
      Move k consumer ring (.access thread (.push (.copy msg (UInt64.ofNat n) [])) (.inr .pushed))
        (ring.setSlot (n % 2 ^ k) (.full n msg))
  | claimPop (msg out : LogMsg) (todo : List (Fin logMsgSize)) :
      Move k consumer ring
        (.access consumer (.pop (.exchange out (UInt64.ofNat ring.popped)))
          (.inl (.pop (.copy out (UInt64.ofNat ring.popped) todo))))
        (ring.claimPop (2 ^ k) consumer msg)
  | release (msg : LogMsg) (n : Nat) (hpopped : n + 1 = ring.popped)
      (hslot : ring.slot (n % 2 ^ k) = .draining n consumer msg) :
      Move k consumer ring
        (.access consumer (.pop (.copy msg (UInt64.ofNat n) [])) (.inr (.popped msg)))
        (ring.setSlot (n % 2 ^ k) (.free (n + 2 ^ k)))

theorem Choice.mem_bytes (choice : Choice) (i : Fin logMsgSize) : i ∈ choice.bytes :=
  List.mem_map.mpr ⟨choice.order.symm i, List.mem_finRange _, choice.order.apply_symm_apply i⟩

section Cells

variable {k : Nat} {q : LogRing}

@[simp] theorem cell_setCell (q : LogRing) (pos : UInt64) (cell : LogCell) :
    (q.setCell pos cell).cell pos = cell := by
  simp [LogRing.cell, LogRing.setCell]

theorem cell_ofNat (hk : k ≤ 63) (hmask : q.mask.toNat = 2 ^ k - 1) (n : Nat) :
    q.cell (UInt64.ofNat n) = q.cells (UInt64.ofNat (n % 2 ^ k)) := by
  rw [LogRing.cell, uint64_ofNat_and_mask n q.mask (by omega) hmask]

theorem setCell_ofNat (hk : k ≤ 63) (hmask : q.mask.toNat = 2 ^ k - 1) (n : Nat) (cell : LogCell)
    {i : Nat} (hi : i < 2 ^ k) :
    (q.setCell (UInt64.ofNat n) cell).cells (UInt64.ofNat i) =
      if i = n % 2 ^ k then cell else q.cells (UInt64.ofNat i) :=
  update_and_mask hk hmask q.cells n cell hi

end Cells

variable {k : Nat} {consumer : Thread} {q q' : LogRing} {pc : Thread → Option Pc}
  {ring next : Ring Thread LogMsg}

-- One thread changes slot i, which no other thread holds. Only a push may take a
-- free slot, with the next ticket, and only the consumer a full one.
structure Touches (k : Nat) (consumer thread : Thread) (i : Nat) (q q' : LogRing)
    (ring next : Ring Thread LogMsg) : Prop where
  mask : q'.mask = q.mask
  own : ∀ other, other ≠ thread → ∀ n msg,
    ring.slot i ≠ .claimed n other msg ∧ ring.slot i ≠ .draining n other msg
  pushed : ring.pushed.length < next.pushed.length ∨
    next.pushed = ring.pushed ∧ ∀ n, ring.slot i ≠ .free n
  popped : thread = consumer ∨ next.popped = ring.popped ∧ ∀ n msg, ring.slot i ≠ .full n msg
  slot : ∀ j, j ≠ i → next.slot j = ring.slot j
  cells : ∀ j < 2 ^ k, j ≠ i → q'.cells (UInt64.ofNat j) = q.cells (UInt64.ofNat j)

-- The four moves, and the writes to the cell of a claimed slot, touch one slot each.

theorem Touches.claimPush {thread : Thread} {msg : LogMsg}
    (hfree : ring.slot (ring.pushed.length % 2 ^ k) = .free ring.pushed.length) (tail : UInt64) :
    Touches k consumer thread (ring.pushed.length % 2 ^ k) q { q with tail } ring
      (ring.claimPush (2 ^ k) thread msg) where
  mask := rfl
  own := by simp [hfree]
  pushed := .inl (by simp [Ring.claimPush])
  popped := .inr ⟨rfl, by simp [hfree]⟩
  slot := fun j hj => by simp [Ring.claimPush, Ring.setSlot, hj]
  cells := fun _ _ _ => rfl

theorem Touches.claimed {thread : Thread} {msg : LogMsg} {n : Nat} (hk : k ≤ 63)
    (hmask : q.mask.toNat = 2 ^ k - 1) (hslot : ring.slot (n % 2 ^ k) = .claimed n thread msg)
    (cell : LogCell) (hpushed : next.pushed = ring.pushed) (hpopped : next.popped = ring.popped)
    (hothers : ∀ j, j ≠ n % 2 ^ k → next.slot j = ring.slot j) :
    Touches k consumer thread (n % 2 ^ k) q (q.setCell (UInt64.ofNat n) cell) ring next where
  mask := rfl
  own := fun other hne m d => by simp [hslot, Ne.symm hne]
  pushed := .inr ⟨hpushed, by simp [hslot]⟩
  popped := .inr ⟨hpopped, by simp [hslot]⟩
  slot := hothers
  cells := fun j hj hne => by rw [setCell_ofNat hk hmask _ _ hj, if_neg hne]

theorem Touches.claimPop {msg : LogMsg}
    (hfull : ring.slot (ring.popped % 2 ^ k) = .full ring.popped msg) (head : UInt64) :
    Touches k consumer consumer (ring.popped % 2 ^ k) q { q with head } ring
      (ring.claimPop (2 ^ k) consumer msg) where
  mask := rfl
  own := by simp [hfull]
  pushed := .inr ⟨rfl, by simp [hfull]⟩
  popped := .inl rfl
  slot := fun j hj => by simp [Ring.claimPop, Ring.setSlot, hj]
  cells := fun _ _ _ => rfl

theorem Touches.release {msg : LogMsg} {n : Nat} (hk : k ≤ 63) (hmask : q.mask.toNat = 2 ^ k - 1)
    (hslot : ring.slot (n % 2 ^ k) = .draining n consumer msg) (cell : LogCell) :
    Touches k consumer consumer (n % 2 ^ k) q (q.setCell (UInt64.ofNat n) cell) ring
      (ring.setSlot (n % 2 ^ k) (.free (n + 2 ^ k))) where
  mask := rfl
  own := fun other hne m d => by simp [hslot, Ne.symm hne]
  pushed := .inr ⟨rfl, by simp [hslot]⟩
  popped := .inl rfl
  slot := fun j hj => by simp [Ring.setSlot, hj]
  cells := fun j hj hne => by rw [setCell_ofNat hk hmask _ _ hj, if_neg hne]

-- What the other threads know outlasts it.
theorem Touches.knows {thread other : Thread} {i : Nat} {p : Pc}
    (touches : Touches k consumer thread i q q' ring next) (hne : other ≠ thread) (hk : k ≤ 63)
    (hmask : q.mask.toNat = 2 ^ k - 1) (h : Knows k consumer q ring other p) :
    Knows k consumer q' next other p := by
  have hpushed : ring.pushed.length ≤ next.pushed.length := by
    rcases touches.pushed with hlt | ⟨heq, -⟩
    · exact hlt.le
    · rw [heq]
  have hown := touches.own other hne
  have hclaimed : ∀ n msg, ring.slot (n % 2 ^ k) = .claimed n other msg → n % 2 ^ k ≠ i :=
    fun n msg hs hi => (hown n msg).1 (hi ▸ hs)
  have hconsumer : other = consumer →
      next.popped = ring.popped ∧ ∀ n msg, ring.slot i ≠ .full n msg :=
    fun he => touches.popped.resolve_left fun he' => hne (he.trans he'.symm)
  cases p with
  | push p =>
      cases p with
      | loadTail msg => trivial
      | loadSeq msg pos => exact Nat.le_trans h hpushed
      | exchange msg pos =>
          refine ⟨Nat.le_trans h.1 hpushed, fun hpos => ?_⟩
          have hle := h.1
          rcases touches.pushed with hlt | ⟨heq, hfree⟩
          · omega
          · rw [heq] at hpos ⊢
            have hslot := h.2 hpos
            rw [touches.slot _ fun hi => hfree _ (hi ▸ hslot)]
            exact hslot
      | copy msg pos todo =>
          obtain ⟨n, rfl, hslot, hmsg⟩ := h
          have hi := hclaimed n msg hslot
          have hlt : n % 2 ^ k < 2 ^ k := Nat.mod_lt _ (Nat.two_pow_pos k)
          refine ⟨n, rfl, (touches.slot _ hi).trans hslot, ?_⟩
          rw [cell_ofNat hk (touches.mask ▸ hmask), touches.cells _ hlt hi, ← cell_ofNat hk hmask]
          exact hmsg
  | pop p =>
      cases p with
      | loadHead out => exact h
      | loadSeq out pos =>
          obtain ⟨he, hpos⟩ := h
          exact ⟨he, by rw [(hconsumer he).1, hpos]⟩
      | exchange out pos =>
          obtain ⟨he, hpos, msg, hfull⟩ := h
          obtain ⟨hpopped, hnot⟩ := hconsumer he
          refine ⟨he, by rw [hpopped, hpos], msg, ?_⟩
          rw [hpopped, touches.slot _ fun hi => hnot _ _ (hi ▸ hfull)]
          exact hfull
      | copy out pos todo =>
          obtain ⟨he, n, msg, hpos, hpopped, hslot, hout⟩ := h
          have hi : n % 2 ^ k ≠ i := fun hi => (hown n msg).2 (hi ▸ hslot)
          exact ⟨he, n, msg, hpos, by rw [(hconsumer he).1, hpopped],
            (touches.slot _ hi).trans hslot, hout⟩

namespace Represents

-- The sequence number of the cell of a ticket.
theorem cell_seq (h : Represents k consumer q pc ring) (hk : k ≤ 63) (n : Nat) :
    (q.cell (UInt64.ofNat n)).seq = UInt64.ofNat (ring.slot (n % 2 ^ k)).seq := by
  rw [cell_ofNat hk h.mask, h.seq _ (Nat.mod_lt _ (Nat.two_pow_pos k))]

theorem slot_free (h : Represents k consumer q pc ring) (hk1 : 1 ≤ k) (hk : k ≤ 63)
    (hseq : (q.cell (UInt64.ofNat ring.pushed.length)).seq = UInt64.ofNat ring.pushed.length) :
    ring.slot (ring.pushed.length % 2 ^ k) = .free ring.pushed.length := by
  have hword : 2 ^ k < 2 ^ 64 := Nat.pow_lt_pow_right (by omega) (by omega)
  rw [h.cell_seq hk, uint64_ofNat_eq_iff] at hseq
  exact Ring.slot_eq_free h.inv (Nat.le_self_pow (by omega) 2) hword hseq

-- The difference that the consumer computes does not wrap.
theorem pop_diff (h : Represents k consumer q pc ring) (hk1 : 1 ≤ k) (hk : k ≤ 63)
    (hsmall : ring.pushed.length < 2 ^ 63) :
    ((q.cell (UInt64.ofNat ring.popped)).seq.toInt64 -
        (UInt64.ofNat ring.popped + 1).toInt64).toInt =
      ((ring.slot (ring.popped % 2 ^ k)).seq : Int) - (ring.popped + 1 : Nat) := by
  have hle := Ring.seq_le_popped h.inv (Nat.le_self_pow (by omega) 2)
  have hordered := h.inv.ordered
  have hsucc : UInt64.ofNat ring.popped + 1 = UInt64.ofNat (ring.popped + 1) :=
    (UInt64.ofNat_add _ 1).symm
  rw [h.cell_seq hk, hsucc, toInt64_sub_toInt (by omega) (by omega)]

-- The sequence number at the head is at most the next one, so what is not behind
-- it is equal.
theorem slot_full (h : Represents k consumer q pc ring) (hk1 : 1 ≤ k) (hk : k ≤ 63)
    (hsmall : ring.pushed.length < 2 ^ 63)
    (hdiff : ¬(q.cell (UInt64.ofNat ring.popped)).seq.toInt64 -
      (UInt64.ofNat ring.popped + 1).toInt64 < 0) :
    ∃ msg, ring.slot (ring.popped % 2 ^ k) = .full ring.popped msg := by
  have hsize : 2 ≤ 2 ^ k := Nat.le_self_pow (by omega) 2
  have hword : 2 ^ k < 2 ^ 64 := Nat.pow_lt_pow_right (by omega) (by omega)
  have hle := Ring.seq_le_popped h.inv hsize
  rw [Int64.lt_iff_toInt_lt, h.pop_diff hk1 hk hsmall, Int64.toInt_zero] at hdiff
  have hseq : (ring.slot (ring.popped % 2 ^ k)).seq = ring.popped + 1 := by omega
  exact Ring.slot_eq_full h.inv hsize hword (by rw [hseq])

variable [DecidableEq Thread]

-- A thread that changes neither the ring nor a slot only has to know its own part.
theorem still (h : Represents k consumer q pc ring) (thread : Thread) {place : Option Pc}
    (hself : ∀ p, place = some p → Knows k consumer q ring thread p) :
    Represents k consumer q (Function.update pc thread place) ring :=
  { h with knows := forall_pc_update hself fun other p _ hp => h.knows other p hp }

theorem touch (h : Represents k consumer q pc ring) (hk : k ≤ 63) {thread : Thread} {i : Nat}
    (touches : Touches k consumer thread i q q' ring next) (hinv : next.Inv (2 ^ k))
    (htail : q'.tail = UInt64.ofNat next.pushed.length)
    (hhead : q'.head = UInt64.ofNat next.popped)
    (hseq : (q'.cells (UInt64.ofNat i)).seq = UInt64.ofNat (next.slot i).seq)
    (hholds : ∀ msg, Holds msg (next.slot i) → (q'.cells (UInt64.ofNat i)).msg = msg)
    {place : Option Pc} (hself : ∀ p, place = some p → Knows k consumer q' next thread p) :
    Represents k consumer q' (Function.update pc thread place) next := by
  refine ⟨hinv, touches.mask ▸ h.mask, htail, hhead, ?_, ?_, ?_⟩
  · intro j hj
    by_cases he : j = i
    · subst he
      exact hseq
    · rw [touches.cells j hj he, touches.slot j he, h.seq j hj]
  · intro j hj msg hmsg
    by_cases he : j = i
    · subst he
      exact hholds msg hmsg
    · rw [touches.cells j hj he]
      exact h.holds j hj msg (touches.slot j he ▸ hmsg)
  · refine forall_pc_update hself ?_
    intro other p he hp
    exact touches.knows he hk h.mask (h.knows other p hp)

-- The accesses that move a slot or write to its cell, one by one.

theorem claimPush (h : Represents k consumer q pc ring) (hk : k ≤ 63) (thread : Thread)
    (msg : LogMsg) (choice : Choice)
    (hfree : ring.slot (ring.pushed.length % 2 ^ k) = .free ring.pushed.length)
    (hsize : 2 ≤ 2 ^ k) :
    Represents k consumer { q with tail := UInt64.ofNat ring.pushed.length + 1 }
      (Function.update pc thread
        (some (.push (.copy msg (UInt64.ofNat ring.pushed.length) choice.bytes))))
      (ring.claimPush (2 ^ k) thread msg) := by
  have hi : ring.pushed.length % 2 ^ k < 2 ^ k := Nat.mod_lt _ (Nat.two_pow_pos k)
  have hs := h.seq _ hi
  rw [hfree] at hs
  refine h.touch hk (.claimPush hfree (UInt64.ofNat ring.pushed.length + 1))
    (Ring.inv_claimPush h.inv hsize hfree thread msg) ?_ h.head ?_ ?_ ?_
  · simp [Ring.claimPush, UInt64.ofNat_add]
  · simpa [Ring.claimPush, Ring.setSlot, Slot.seq] using hs
  · simp [Ring.claimPush, Ring.setSlot, Holds]
  · rintro p ⟨⟩
    exact ⟨_, rfl, by simp [Ring.claimPush, Ring.setSlot],
      fun i hi => absurd (choice.mem_bytes i) hi⟩

theorem copyIn (h : Represents k consumer q pc ring) (hk : k ≤ 63) (thread : Thread)
    {msg : LogMsg} {pos : UInt64} {i : Fin logMsgSize} {todo : List (Fin logMsgSize)}
    (hknows : Knows k consumer q ring thread (.push (.copy msg pos (i :: todo)))) :
    Represents k consumer
      (q.setCell pos
        { q.cell pos with msg := Function.update (q.cell pos).msg i (msg i) })
      (Function.update pc thread (some (.push (.copy msg pos todo)))) ring := by
  obtain ⟨n, rfl, hslot, hmsg⟩ := hknows
  have hi : n % 2 ^ k < 2 ^ k := Nat.mod_lt _ (Nat.two_pow_pos k)
  refine h.touch hk (.claimed hk h.mask hslot _ rfl rfl fun _ _ => rfl) h.inv h.tail h.head
    ?_ ?_ ?_
  · rw [setCell_ofNat hk h.mask _ _ hi, if_pos rfl]
    exact h.cell_seq hk n
  · simp [hslot, Holds]
  · rintro p ⟨⟩
    refine ⟨n, rfl, hslot, fun j hj => ?_⟩
    simp only [cell_setCell]
    by_cases he : j = i
    · rw [he, Function.update_self]
    · rw [Function.update_of_ne he]
      exact hmsg j (by simp [he, hj])

theorem publish (h : Represents k consumer q pc ring) (hk : k ≤ 63) {thread : Thread}
    {msg : LogMsg} {n : Nat} (hslot : ring.slot (n % 2 ^ k) = .claimed n thread msg)
    (hmsg : (q.cell (UInt64.ofNat n)).msg = msg) :
    Represents k consumer
      (q.setCell (UInt64.ofNat n) { q.cell (UInt64.ofNat n) with seq := UInt64.ofNat n + 1 })
      (Function.update pc thread none) (ring.setSlot (n % 2 ^ k) (.full n msg)) := by
  have hi : n % 2 ^ k < 2 ^ k := Nat.mod_lt _ (Nat.two_pow_pos k)
  apply h.touch hk (i := n % 2 ^ k)
  · exact .claimed hk h.mask hslot _ rfl rfl fun j hj => by simp [Ring.setSlot, hj]
  · exact Ring.inv_publish h.inv hi hslot
  · exact h.tail
  · exact h.head
  · rw [setCell_ofNat hk h.mask _ _ hi, if_pos rfl]
    simp [Ring.setSlot, Slot.seq, UInt64.ofNat_add]
  · intro msg' hholds
    rw [setCell_ofNat hk h.mask _ _ hi, if_pos rfl]
    simp only [Ring.setSlot, Function.update_self, Holds] at hholds
    exact hmsg.trans hholds
  · simp

theorem claimPop (h : Represents k consumer q pc ring) (hk : k ≤ 63) {msg : LogMsg} (out : LogMsg)
    (choice : Choice) (hfull : ring.slot (ring.popped % 2 ^ k) = .full ring.popped msg)
    (hsize : 2 ≤ 2 ^ k) :
    Represents k consumer { q with head := UInt64.ofNat ring.popped + 1 }
      (Function.update pc consumer
        (some (.pop (.copy out (UInt64.ofNat ring.popped) choice.bytes))))
      (ring.claimPop (2 ^ k) consumer msg) := by
  have hi : ring.popped % 2 ^ k < 2 ^ k := Nat.mod_lt _ (Nat.two_pow_pos k)
  have hs := h.seq _ hi
  rw [hfull] at hs
  refine h.touch hk (.claimPop hfull (UInt64.ofNat ring.popped + 1))
    (Ring.inv_claimPop h.inv hsize hfull consumer) h.tail ?_ ?_ ?_ ?_
  · simp [Ring.claimPop, UInt64.ofNat_add]
  · simpa [Ring.claimPop, Ring.setSlot, Slot.seq] using hs
  · intro msg' hholds
    simp only [Ring.claimPop, Ring.setSlot, Function.update_self, Holds] at hholds
    exact (h.holds _ hi msg (by rw [hfull]; rfl)).trans hholds
  · rintro p ⟨⟩
    exact ⟨rfl, _, msg, rfl, rfl, by simp [Ring.claimPop, Ring.setSlot],
      fun i hi => absurd (choice.mem_bytes i) hi⟩

theorem release (h : Represents k consumer q pc ring) (hk : k ≤ 63) {msg : LogMsg} {n : Nat}
    (hslot : ring.slot (n % 2 ^ k) = .draining n consumer msg) :
    Represents k consumer
      (q.setCell (UInt64.ofNat n)
        { q.cell (UInt64.ofNat n) with seq := UInt64.ofNat n + q.mask + 1 })
      (Function.update pc consumer none) (ring.setSlot (n % 2 ^ k) (.free (n + 2 ^ k))) := by
  have hi : n % 2 ^ k < 2 ^ k := Nat.mod_lt _ (Nat.two_pow_pos k)
  have hmask := uint64_mask_succ hk h.mask
  refine h.touch hk (.release hk h.mask hslot _) (Ring.inv_release h.inv hi hslot)
    h.tail h.head ?_ ?_ ?_
  · rw [setCell_ofNat hk h.mask _ _ hi, if_pos rfl]
    simp only [Ring.setSlot, Function.update_self, Slot.seq, UInt64.ofNat_add, ← hmask]
    rw [UInt64.add_assoc]
  · simp [Ring.setSlot, Holds]
  · simp

-- Every access moves the represented ring as its event says.

theorem access_push (h : Represents k consumer q pc ring) (hk1 : 1 ≤ k) (hk : k ≤ 63)
    (hsmall : ring.pushed.length < 2 ^ 63) (thread : Thread) (p : PushPc)
    (hpc : pc thread = some (.push p)) (choice : Choice) :
    ∃ next, Represents k consumer (logRing.access q (.push p) choice).1
        (Function.update pc thread (logRing.access q (.push p) choice).2.getLeft?) next ∧
      Move k consumer ring (.access thread (.push p) (logRing.access q (.push p) choice).2)
        next := by
  have hknows := h.knows thread _ hpc
  rw [logRing_push]
  cases p with
  | loadTail msg =>
      refine ⟨ring, h.still thread ?_, .still rfl rfl rfl⟩
      rintro p' ⟨⟩
      rw [h.tail]
      exact (word_toNat hsmall).le
  | loadSeq msg pos =>
      simp only [logRingPush, toInt64_sub_eq_zero_iff]
      split_ifs with hseq
      · refine ⟨ring, h.still thread ?_, .still rfl rfl rfl⟩
        rintro p' ⟨⟩
        refine ⟨hknows, fun hpos => h.slot_free hk1 hk ?_⟩
        rw [← hpos, UInt64.ofNat_toNat]
        exact hseq
      · exact ⟨ring, h.still thread (by rintro p' ⟨⟩), .still rfl rfl rfl⟩
      · exact ⟨ring, h.still thread (by rintro p' ⟨⟩; trivial), .still rfl rfl rfl⟩
  | exchange msg pos =>
      simp only [logRingPush]
      split_ifs with hwin
      · obtain rfl : pos = UInt64.ofNat ring.pushed.length := hwin.1.symm.trans h.tail
        have hfree := hknows.2 (word_toNat hsmall)
        exact ⟨_, h.claimPush hk thread msg choice hfree (Nat.le_self_pow (by omega) 2),
          .claimPush thread msg _⟩
      · exact ⟨ring, h.still thread (by rintro p' ⟨⟩; trivial), .still rfl rfl rfl⟩
  | copy msg pos todo =>
      cases todo with
      | cons i todo => exact ⟨ring, h.copyIn hk thread hknows, .still rfl rfl rfl⟩
      | nil =>
          obtain ⟨n, rfl, hslot, hmsg⟩ := hknows
          exact ⟨_, h.publish hk hslot (funext fun i => hmsg i List.not_mem_nil),
            .publish thread msg n⟩

theorem access_pop (h : Represents k consumer q pc ring) (hk1 : 1 ≤ k) (hk : k ≤ 63)
    (hsmall : ring.pushed.length < 2 ^ 63) (thread : Thread) (p : PopPc)
    (hpc : pc thread = some (.pop p)) (choice : Choice) :
    ∃ next, Represents k consumer (logRing.access q (.pop p) choice).1
        (Function.update pc thread (logRing.access q (.pop p) choice).2.getLeft?) next ∧
      Move k consumer ring (.access thread (.pop p) (logRing.access q (.pop p) choice).2)
        next := by
  have hknows := h.knows thread _ hpc
  rw [logRing_pop]
  cases p with
  | loadHead out =>
      refine ⟨ring, h.still thread ?_, .still rfl rfl rfl⟩
      rintro p' ⟨⟩
      exact ⟨hknows, h.head⟩
  | loadSeq out pos =>
      obtain ⟨rfl, rfl⟩ := hknows
      simp only [logRingPop]
      split_ifs with hlt
      · exact ⟨ring, h.still thread (by rintro p' ⟨⟩), .still rfl rfl rfl⟩
      · refine ⟨ring, h.still thread ?_, .still rfl rfl rfl⟩
        rintro p' ⟨⟩
        exact ⟨rfl, rfl, h.slot_full hk1 hk hsmall hlt⟩
  | exchange out pos =>
      obtain ⟨rfl, rfl, msg, hfull⟩ := hknows
      simp only [logRingPop]
      split_ifs with hwin
      · exact ⟨_, h.claimPop hk out choice hfull (Nat.le_self_pow (by omega) 2),
          .claimPop msg out _⟩
      · exact ⟨ring, h.still thread (by rintro p' ⟨⟩), .still rfl rfl rfl⟩
  | copy out pos todo =>
      obtain ⟨rfl, n, msg, rfl, hpopped, hslot, hout⟩ := hknows
      cases todo with
      | cons i todo =>
          refine ⟨ring, h.still thread ?_, .still rfl rfl rfl⟩
          rintro p' ⟨⟩
          refine ⟨rfl, n, msg, rfl, hpopped, hslot, fun j hj => ?_⟩
          by_cases he : j = i
          · -- the cell keeps the message until the release
            have hmsg := h.holds _ (Nat.mod_lt n (Nat.two_pow_pos k)) msg (by rw [hslot]; rfl)
            rw [he, Function.update_self, cell_ofNat hk h.mask, hmsg]
          · rw [Function.update_of_ne he]
            exact hout j (by simp [he, hj])
      | nil =>
          obtain rfl : out = msg := funext fun i => hout i List.not_mem_nil
          exact ⟨_, h.release hk hslot, .release out n hpopped hslot⟩

theorem access (h : Represents k consumer q pc ring) (hk1 : 1 ≤ k) (hk : k ≤ 63)
    (hsmall : ring.pushed.length < 2 ^ 63) (thread : Thread) (p : Pc)
    (hpc : pc thread = some p) (choice : Choice) :
    ∃ next, Represents k consumer (logRing.access q p choice).1
        (Function.update pc thread (logRing.access q p choice).2.getLeft?) next ∧
      Move k consumer ring (.access thread p (logRing.access q p choice).2) next := by
  cases p with
  | push p => exact h.access_push hk1 hk hsmall thread p hpc choice
  | pop p => exact h.access_pop hk1 hk hsmall thread p hpc choice

theorem call (h : Represents k consumer q pc ring) (thread : Thread) (op : Op)
    (hlegal : ∀ out, op = .pop out → thread = consumer) :
    Represents k consumer q (Function.update pc thread (some (logRing.start op))) ring := by
  refine h.still thread ?_
  rintro p ⟨⟩
  cases op with
  | push msg => trivial
  | pop out => exact hlegal out rfl

end Represents

-- What imgLoggerInit returns.

theorem numberCells_eq (memory : UInt64 → LogCell) {count i : Nat} (hcount : count ≤ 2 ^ 64)
    (hi : i < count) :
    numberCells memory count (UInt64.ofNat i) =
      { memory (UInt64.ofNat i) with seq := UInt64.ofNat i } :=
  foldl_update_ofNat (fun i (cell : LogCell) => { cell with seq := UInt64.ofNat i }) memory
    hcount hi

theorem represents_init (consumer : Thread) {alignedAlloc : UInt64 → Option (UInt64 → LogCell)}
    (h : imgLoggerInit alignedAlloc = some q) :
    Represents 10 consumer q (fun _ => none) Ring.empty := by
  have hsize : alignPow2 logRingSize = some 1024 := rfl
  simp only [imgLoggerInit, hsize] at h
  split at h
  · cases h
  · rename_i memory hmemory
    cases h
    refine ⟨Ring.inv_empty _, rfl, rfl, rfl, ?_, ?_, ?_⟩
    · exact fun i hi => congrArg LogCell.seq (numberCells_eq memory (by decide) hi)
    · exact fun _ _ _ hholds => hholds.elim
    · exact fun _ _ hnone => by cases hnone

end ImgEngine.Observability.ImgLogger
