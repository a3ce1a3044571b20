import ImgEngine.Library.TicketRing
import ImgEngine.Runtime.QueueMpmc

namespace ImgEngine.Runtime.ImgMpmc

open ImgEngine.Library.Interleaving
open ImgEngine.Library.TicketRing

variable {Thread : Type} [DecidableEq Thread]

-- What a thread inside an operation knows about the slot of its ticket.
def Agrees (k : Nat) (q : ImgMpmcQueue) (ring : Ring Thread Ptr) (thread : Thread) : Pc → Prop
  | .push (.writeData data pos) =>
      ∃ n, pos = UInt64.ofNat n ∧ ring.slot (n % 2 ^ k) = .claimed n thread data
  | .push (.storeSeq data pos) =>
      (∃ n, pos = UInt64.ofNat n ∧ ring.slot (n % 2 ^ k) = .claimed n thread data) ∧
        (q.cell pos).data = data
  | .pop (.readData pos) =>
      ∃ n data, pos = UInt64.ofNat n ∧ ring.slot (n % 2 ^ k) = .draining n thread data
  | .pop (.storeSeq pos data) =>
      ∃ n, pos = UInt64.ofNat n ∧ ring.slot (n % 2 ^ k) = .draining n thread data
  | _ => True

-- The queue represents the ticket ring, with all counters reduced to words.
structure Represents (k : Nat) (q : ImgMpmcQueue) (pc : Thread → Option Pc)
    (ring : Ring Thread Ptr) : Prop where
  inv : ring.Inv (2 ^ k)
  mask : q.mask.toNat = 2 ^ k - 1
  tail : q.tail = UInt64.ofNat ring.pushed.length
  head : q.head = UInt64.ofNat ring.popped
  seq : ∀ i < 2 ^ k, (q.cells (UInt64.ofNat i)).seq = UInt64.ofNat (ring.slot i).seq
  full : ∀ i < 2 ^ k, ∀ n data, ring.slot i = .full n data →
    (q.cells (UInt64.ofNat i)).data = data
  draining : ∀ i < 2 ^ k, ∀ n thread data, ring.slot i = .draining n thread data →
    (q.cells (UInt64.ofNat i)).data = data
  agrees : ∀ thread p, pc thread = some p → Agrees k q ring thread p

-- The move of the ticket ring that an event stands for.
inductive Move (k : Nat) (ring : Ring Thread Ptr) :
    Event Thread Op Pc Result → Ring Thread Ptr → Prop
  | still {event} (hpush : pushClaim event = none) (hpop : popClaim event = none)
      (hreturn : popReturn event = none) (hpublish : ∀ pos, ¬Publishes pos event) :
      Move k ring event ring
  | claimPush (thread : Thread) (data : Ptr)
      (hslot : ring.slot (ring.pushed.length % 2 ^ k) = .free ring.pushed.length) :
      Move k ring
        (.access thread (.push (.exchange data (UInt64.ofNat ring.pushed.length)))
          (.inl (.push (.writeData data (UInt64.ofNat ring.pushed.length)))))
        (ring.claimPush (2 ^ k) thread data)
  | publish (thread : Thread) (data : Ptr) (n : Nat)
      (hslot : ring.slot (n % 2 ^ k) = .claimed n thread data) :
      Move k ring (.access thread (.push (.storeSeq data (UInt64.ofNat n))) (.inr .pushed))
        (ring.setSlot (n % 2 ^ k) (.full n data))
  | claimPop (thread : Thread) (data : Ptr)
      (hslot : ring.slot (ring.popped % 2 ^ k) = .full ring.popped data) :
      Move k ring
        (.access thread (.pop (.exchange (UInt64.ofNat ring.popped)))
          (.inl (.pop (.readData (UInt64.ofNat ring.popped)))))
        (ring.claimPop (2 ^ k) thread data)
  | release (thread : Thread) (data : Ptr) (n : Nat)
      (hslot : ring.slot (n % 2 ^ k) = .draining n thread data) :
      Move k ring (.access thread (.pop (.storeSeq (UInt64.ofNat n) data)) (.inr (.popped data)))
        (ring.setSlot (n % 2 ^ k) (.free (n + 2 ^ k)))

section Cells

variable {k : Nat} {q : ImgMpmcQueue}

@[simp] theorem cell_setCell (q : ImgMpmcQueue) (pos : UInt64) (cell : Cell) :
    (q.setCell pos cell).cell pos = cell := by
  simp [ImgMpmcQueue.cell, ImgMpmcQueue.setCell]

theorem cell_ofNat (hk : k ≤ 63) (hmask : q.mask.toNat = 2 ^ k - 1) (n : Nat) :
    q.cell (UInt64.ofNat n) = q.cells (UInt64.ofNat (n % 2 ^ k)) := by
  rw [ImgMpmcQueue.cell, uint64_ofNat_and_mask n q.mask (by omega) hmask]

theorem setCell_ofNat (hk : k ≤ 63) (hmask : q.mask.toNat = 2 ^ k - 1) (n : Nat) (cell : Cell)
    {i : Nat} (hi : i < 2 ^ k) :
    (q.setCell (UInt64.ofNat n) cell).cells (UInt64.ofNat i) =
      if i = n % 2 ^ k then cell else q.cells (UInt64.ofNat i) :=
  update_and_mask hk hmask q.cells n cell hi

end Cells

section Preservation

variable {k : Nat} {q : ImgMpmcQueue} {pc : Thread → Option Pc} {ring : Ring Thread Ptr}

-- A thread that changes neither the queue nor a slot only has to agree itself.
theorem Represents.local (h : Represents k q pc ring) (thread : Thread) (p : Option Pc)
    (hp : ∀ p', p = some p' → Agrees k q ring thread p') :
    Represents k q (Function.update pc thread p) ring := by
  refine { h with agrees := forall_pc_update hp ?_ }
  intro other p' _ hother
  exact h.agrees other p' hother

-- A thread that does not hold the slot that moves still agrees.
omit [DecidableEq Thread] in
theorem Agrees.move {thread : Thread} {p : Pc} (h : Agrees k q ring thread p) (hk : k ≤ 63)
    {i : Nat} {next : Ring Thread Ptr} {q' : ImgMpmcQueue} (hmask : q.mask.toNat = 2 ^ k - 1)
    (hmask' : q'.mask = q.mask)
    (hother : ∀ n data,
      ring.slot i ≠ .claimed n thread data ∧ ring.slot i ≠ .draining n thread data)
    (hslot : ∀ j, j ≠ i → next.slot j = ring.slot j)
    (hcells : ∀ j < 2 ^ k, j ≠ i → q'.cells (UInt64.ofNat j) = q.cells (UInt64.ofNat j)) :
    Agrees k q' next thread p := by
  have hclaimed : ∀ n data, ring.slot (n % 2 ^ k) = .claimed n thread data → n % 2 ^ k ≠ i :=
    fun n data hs hi => (hother n data).1 (hi ▸ hs)
  have hdrained : ∀ n data, ring.slot (n % 2 ^ k) = .draining n thread data → n % 2 ^ k ≠ i :=
    fun n data hs hi => (hother n data).2 (hi ▸ hs)
  cases p with
  | push p =>
      cases p with
      | writeData data pos =>
          obtain ⟨n, hpos, hs⟩ := h
          exact ⟨n, hpos, (hslot _ (hclaimed n data hs)).trans hs⟩
      | storeSeq data pos =>
          obtain ⟨⟨n, rfl, hs⟩, hdata⟩ := h
          have hne := hclaimed n data hs
          have hlt : n % 2 ^ k < 2 ^ k := Nat.mod_lt _ (Nat.two_pow_pos k)
          refine ⟨⟨n, rfl, (hslot _ hne).trans hs⟩, ?_⟩
          rw [cell_ofNat hk (hmask' ▸ hmask), hcells _ hlt hne, ← cell_ofNat hk hmask]
          exact hdata
      | _ => trivial
  | pop p =>
      cases p with
      | readData pos =>
          obtain ⟨n, data, hpos, hs⟩ := h
          exact ⟨n, data, hpos, (hslot _ (hdrained n data hs)).trans hs⟩
      | storeSeq pos data =>
          obtain ⟨n, hpos, hs⟩ := h
          exact ⟨n, hpos, (hslot _ (hdrained n data hs)).trans hs⟩
      | _ => trivial

-- A move of one slot that no other thread holds leaves the others in agreement.
theorem Represents.move (h : Represents k q pc ring) (hk : k ≤ 63) (thread : Thread) {i : Nat}
    {next : Ring Thread Ptr} {q' : ImgMpmcQueue} {p : Option Pc}
    (hown : ∀ other, other ≠ thread → ∀ n data,
      ring.slot i ≠ .claimed n other data ∧ ring.slot i ≠ .draining n other data)
    (hinv : next.Inv (2 ^ k)) (hmask : q'.mask = q.mask)
    (htail : q'.tail = UInt64.ofNat next.pushed.length)
    (hhead : q'.head = UInt64.ofNat next.popped)
    (hslot : ∀ j, j ≠ i → next.slot j = ring.slot j)
    (hcells : ∀ j < 2 ^ k, j ≠ i → q'.cells (UInt64.ofNat j) = q.cells (UInt64.ofNat j))
    (hseq : (q'.cells (UInt64.ofNat i)).seq = UInt64.ofNat (next.slot i).seq)
    (hfull : ∀ n data, next.slot i = .full n data → (q'.cells (UInt64.ofNat i)).data = data)
    (hdraining : ∀ n other data, next.slot i = .draining n other data →
      (q'.cells (UInt64.ofNat i)).data = data)
    (hp : ∀ p', p = some p' → Agrees k q' next thread p') :
    Represents k q' (Function.update pc thread p) next := by
  refine ⟨hinv, hmask ▸ h.mask, htail, hhead, ?_, ?_, ?_, ?_⟩
  · intro j hj
    by_cases he : j = i
    · subst he
      exact hseq
    · rw [hcells j hj he, hslot j he, h.seq j hj]
  · intro j hj n data hfull'
    by_cases he : j = i
    · subst he
      exact hfull n data hfull'
    · rw [hcells j hj he]
      exact h.full j hj n data (hslot j he ▸ hfull')
  · intro j hj n other data hdraining'
    by_cases he : j = i
    · subst he
      exact hdraining n other data hdraining'
    · rw [hcells j hj he]
      exact h.draining j hj n other data (hslot j he ▸ hdraining')
  · refine forall_pc_update hp ?_
    intro other p' he hother
    exact (h.agrees other p' hother).move hk h.mask hmask (hown other he) hslot hcells

-- The accesses that move a slot, one by one.

theorem Represents.claimPush (h : Represents k q pc ring) (hk1 : 1 ≤ k) (hk : k ≤ 63)
    (thread : Thread) (data : Ptr) (pos : UInt64) (htail : q.tail = pos)
    (hfresh : (q.cell pos).seq = pos) :
    ring.slot (ring.pushed.length % 2 ^ k) = .free ring.pushed.length ∧
    Represents k { q with tail := pos + 1 }
      (Function.update pc thread (some (.push (.writeData data pos))))
      (ring.claimPush (2 ^ k) thread data) := by
  have hsize : 2 ≤ 2 ^ k := Nat.le_self_pow (by omega) 2
  have hword : 2 ^ k < 2 ^ 64 := Nat.pow_lt_pow_right (by omega) (by omega)
  have hi : ring.pushed.length % 2 ^ k < 2 ^ k := Nat.mod_lt _ (Nat.two_pow_pos k)
  have hpos : pos = UInt64.ofNat ring.pushed.length := htail.symm.trans h.tail
  subst hpos
  rw [cell_ofNat hk h.mask, h.seq _ hi, uint64_ofNat_eq_iff] at hfresh
  have hfree := Ring.slot_eq_free h.inv hsize hword hfresh
  refine ⟨hfree, ?_⟩
  have hs := h.seq _ hi
  rw [hfree] at hs
  apply h.move hk thread (i := ring.pushed.length % 2 ^ k)
  · intro other _ n d
    simp [hfree]
  · exact Ring.inv_claimPush h.inv hsize hfree thread data
  · rfl
  · simp [Ring.claimPush, UInt64.ofNat_add]
  · exact h.head
  · intro j hj
    simp [Ring.claimPush, Ring.setSlot, hj]
  · exact fun _ _ _ => rfl
  · simpa [Ring.claimPush, Ring.setSlot, Slot.seq] using hs
  · simp [Ring.claimPush, Ring.setSlot]
  · simp [Ring.claimPush, Ring.setSlot]
  · rintro p' ⟨⟩
    exact ⟨_, rfl, by simp [Ring.claimPush, Ring.setSlot]⟩

theorem Represents.writeData (h : Represents k q pc ring) (hk : k ≤ 63)
    (thread : Thread) (data : Ptr) (pos : UInt64)
    (hagrees : Agrees k q ring thread (.push (.writeData data pos))) :
    Represents k (q.setCell pos { q.cell pos with data })
      (Function.update pc thread (some (.push (.storeSeq data pos)))) ring := by
  obtain ⟨n, rfl, hslot⟩ := hagrees
  have hi : n % 2 ^ k < 2 ^ k := Nat.mod_lt _ (Nat.two_pow_pos k)
  apply h.move hk thread (i := n % 2 ^ k)
  · intro other hother m d
    simp [hslot, Ne.symm hother]
  · exact h.inv
  · rfl
  · exact h.tail
  · exact h.head
  · exact fun _ _ => rfl
  · intro j hj hne
    rw [setCell_ofNat hk h.mask _ _ hj, if_neg hne]
  · rw [setCell_ofNat hk h.mask _ _ hi, if_pos rfl, cell_ofNat hk h.mask]
    exact h.seq _ hi
  · simp [hslot]
  · simp [hslot]
  · rintro p' ⟨⟩
    exact ⟨⟨n, rfl, hslot⟩, by rw [cell_setCell]⟩

theorem Represents.publish (h : Represents k q pc ring) (hk : k ≤ 63)
    (thread : Thread) (data : Ptr) (n : Nat)
    (hslot : ring.slot (n % 2 ^ k) = .claimed n thread data)
    (hdata : (q.cell (UInt64.ofNat n)).data = data) :
    Represents k
      (q.setCell (UInt64.ofNat n) { q.cell (UInt64.ofNat n) with seq := UInt64.ofNat n + 1 })
      (Function.update pc thread none) (ring.setSlot (n % 2 ^ k) (.full n data)) := by
  have hi : n % 2 ^ k < 2 ^ k := Nat.mod_lt _ (Nat.two_pow_pos k)
  apply h.move hk thread (i := n % 2 ^ k)
  · intro other hother m d
    simp [hslot, Ne.symm hother]
  · exact Ring.inv_publish h.inv hi hslot
  · rfl
  · exact h.tail
  · exact h.head
  · intro j hj
    simp [Ring.setSlot, hj]
  · intro j hj hne
    rw [setCell_ofNat hk h.mask _ _ hj, if_neg hne]
  · rw [setCell_ofNat hk h.mask _ _ hi, if_pos rfl]
    simp [Ring.setSlot, Slot.seq, UInt64.ofNat_add]
  · intro m d hfull
    rw [setCell_ofNat hk h.mask _ _ hi, if_pos rfl]
    simp only [Ring.setSlot, Function.update_self, Slot.full.injEq] at hfull
    exact hdata.trans hfull.2
  · simp [Ring.setSlot]
  · simp

theorem Represents.claimPop (h : Represents k q pc ring) (hk1 : 1 ≤ k) (hk : k ≤ 63)
    (thread : Thread) (pos : UInt64) (hhead : q.head = pos)
    (hfresh : (q.cell pos).seq = pos + 1) :
    ∃ data, ring.slot (ring.popped % 2 ^ k) = .full ring.popped data ∧
    Represents k { q with head := pos + 1 }
      (Function.update pc thread (some (.pop (.readData pos))))
      (ring.claimPop (2 ^ k) thread data) := by
  have hsize : 2 ≤ 2 ^ k := Nat.le_self_pow (by omega) 2
  have hword : 2 ^ k < 2 ^ 64 := Nat.pow_lt_pow_right (by omega) (by omega)
  have hi : ring.popped % 2 ^ k < 2 ^ k := Nat.mod_lt _ (Nat.two_pow_pos k)
  have hpos : pos = UInt64.ofNat ring.popped := hhead.symm.trans h.head
  subst hpos
  have hsucc : UInt64.ofNat ring.popped + 1 = UInt64.ofNat (ring.popped + 1) := by
    simp [UInt64.ofNat_add]
  rw [cell_ofNat hk h.mask, h.seq _ hi, hsucc, uint64_ofNat_eq_iff] at hfresh
  obtain ⟨data, hfull⟩ := Ring.slot_eq_full h.inv hsize hword hfresh
  refine ⟨data, hfull, ?_⟩
  have hs := h.seq _ hi
  rw [hfull] at hs
  apply h.move hk thread (i := ring.popped % 2 ^ k)
  · intro other _ n d
    simp [hfull]
  · exact Ring.inv_claimPop h.inv hsize hfull thread
  · rfl
  · exact h.tail
  · simp [Ring.claimPop, UInt64.ofNat_add]
  · intro j hj
    simp [Ring.claimPop, Ring.setSlot, hj]
  · exact fun _ _ _ => rfl
  · simpa [Ring.claimPop, Ring.setSlot, Slot.seq] using hs
  · simp [Ring.claimPop, Ring.setSlot]
  · intro m other d hd
    simp only [Ring.claimPop, Ring.setSlot, Function.update_self, Slot.draining.injEq] at hd
    exact (h.full _ hi _ _ hfull).trans hd.2.2
  · rintro p' ⟨⟩
    exact ⟨_, data, rfl, by simp [Ring.claimPop, Ring.setSlot]⟩

theorem Represents.release (h : Represents k q pc ring) (hk : k ≤ 63)
    (thread : Thread) (data : Ptr) (n : Nat)
    (hslot : ring.slot (n % 2 ^ k) = .draining n thread data) :
    Represents k
      (q.setCell (UInt64.ofNat n)
        { q.cell (UInt64.ofNat n) with seq := UInt64.ofNat n + q.mask + 1 })
      (Function.update pc thread none) (ring.setSlot (n % 2 ^ k) (.free (n + 2 ^ k))) := by
  have hi : n % 2 ^ k < 2 ^ k := Nat.mod_lt _ (Nat.two_pow_pos k)
  have hmask := uint64_mask_succ hk h.mask
  apply h.move hk thread (i := n % 2 ^ k)
  · intro other hother m d
    simp [hslot, Ne.symm hother]
  · exact Ring.inv_release h.inv hi hslot
  · rfl
  · exact h.tail
  · exact h.head
  · intro j hj
    simp [Ring.setSlot, hj]
  · intro j hj hne
    rw [setCell_ofNat hk h.mask _ _ hj, if_neg hne]
  · rw [setCell_ofNat hk h.mask _ _ hi, if_pos rfl]
    simp only [Ring.setSlot, Function.update_self, Slot.seq, UInt64.ofNat_add, ← hmask]
    rw [UInt64.add_assoc]
  · simp [Ring.setSlot]
  · simp [Ring.setSlot]
  · simp

-- An access that moves no slot.
theorem Represents.still (h : Represents k q pc ring) (thread : Thread) {p : Pc}
    {outcome : Pc ⊕ Result} (hself : ∀ p', outcome = .inl p' → Agrees k q ring thread p')
    (hpush : pushClaim (.access thread p outcome) = none)
    (hpop : popClaim (.access thread p outcome) = none)
    (hreturn : popReturn (.access thread p outcome) = none)
    (hpublish : ∀ pos, ¬Publishes pos (.access thread p outcome)) :
    ∃ next, Represents k q (Function.update pc thread outcome.getLeft?) next ∧
      Move k ring (.access thread p outcome) next :=
  ⟨ring, h.local thread _ fun p' hp => hself p' (Sum.getLeft?_eq_some_iff.mp hp),
    .still hpush hpop hreturn hpublish⟩

-- Every access moves the represented ring as its event says.
theorem Represents.access (h : Represents k q pc ring) (hk1 : 1 ≤ k) (hk : k ≤ 63)
    (thread : Thread) (p : Pc) (hpc : pc thread = some p) (spurious : Bool)
    (hfresh : FreshExchange q p) :
    ∃ next, Represents k (imgMpmc.access q p spurious).1
        (Function.update pc thread (imgMpmc.access q p spurious).2.getLeft?) next ∧
      Move k ring (.access thread p (imgMpmc.access q p spurious).2) next := by
  have hagrees := h.agrees thread p hpc
  cases p with
  | push p =>
      cases p with
      | loadTail data =>
          exact h.still thread (by rintro p' ⟨⟩; trivial) rfl rfl rfl (by simp [Publishes])
      | loadSeq data pos =>
          simp only [imgMpmc, imgMpmcPush]
          split_ifs
          · exact h.still thread (by rintro p' ⟨⟩; trivial) rfl rfl rfl (by simp [Publishes])
          · exact h.still thread (by rintro p' ⟨⟩) rfl rfl rfl (by simp [Publishes])
          · exact h.still thread (by rintro p' ⟨⟩; trivial) rfl rfl rfl (by simp [Publishes])
      | exchange data pos =>
          simp only [imgMpmc, imgMpmcPush]
          split_ifs with hwin
          · obtain ⟨hfree, hnext⟩ := h.claimPush hk1 hk thread data pos hwin.1 (hfresh hwin.1)
            obtain rfl : pos = UInt64.ofNat ring.pushed.length := hwin.1.symm.trans h.tail
            exact ⟨_, hnext, .claimPush thread data hfree⟩
          · exact h.still thread (by rintro p' ⟨⟩; trivial) rfl rfl rfl (by simp [Publishes])
      | writeData data pos =>
          exact ⟨ring, h.writeData hk thread data pos hagrees, .still rfl rfl rfl (by simp [Publishes])⟩
      | storeSeq data pos =>
          obtain ⟨⟨n, rfl, hslot⟩, hdata⟩ := hagrees
          exact ⟨_, h.publish hk thread data n hslot hdata, .publish thread data n hslot⟩
  | pop p =>
      cases p with
      | loadHead =>
          exact h.still thread (by rintro p' ⟨⟩; trivial) rfl rfl rfl (by simp [Publishes])
      | loadSeq pos =>
          simp only [imgMpmc, imgMpmcPop]
          split_ifs
          · exact h.still thread (by rintro p' ⟨⟩; trivial) rfl rfl rfl (by simp [Publishes])
          · exact h.still thread (by rintro p' ⟨⟩) rfl rfl rfl (by simp [Publishes])
          · exact h.still thread (by rintro p' ⟨⟩; trivial) rfl rfl rfl (by simp [Publishes])
      | exchange pos =>
          simp only [imgMpmc, imgMpmcPop]
          split_ifs with hwin
          · obtain ⟨data, hfull, hnext⟩ := h.claimPop hk1 hk thread pos hwin.1 (hfresh hwin.1)
            obtain rfl : pos = UInt64.ofNat ring.popped := hwin.1.symm.trans h.head
            exact ⟨_, hnext, .claimPop thread data hfull⟩
          · exact h.still thread (by rintro p' ⟨⟩; trivial) rfl rfl rfl (by simp [Publishes])
      | readData pos =>
          obtain ⟨n, data, rfl, hslot⟩ := hagrees
          refine h.still thread ?_ rfl rfl rfl (by simp [Publishes])
          rintro p' ⟨⟩
          have hdata := h.draining _ (Nat.mod_lt _ (Nat.two_pow_pos k)) _ _ _ hslot
          rw [← cell_ofNat hk h.mask] at hdata
          exact ⟨n, rfl, hdata ▸ hslot⟩
      | storeSeq pos data =>
          obtain ⟨n, rfl, hslot⟩ := hagrees
          exact ⟨_, h.release hk thread data n hslot, .release thread data n hslot⟩

end Preservation

-- What imgMpmcInit returns.

theorem alignPow2_eq {x p result : UInt64} {fuel k : Nat} (hp : p.toNat = 2 ^ k) (hk : k ≤ 63)
    (h : alignPow2 x fuel p = some result) : ∃ k, k ≤ 63 ∧ result.toNat = 2 ^ k := by
  induction fuel generalizing p k with
  | zero => simp [alignPow2] at h
  | succ fuel ih =>
      simp only [alignPow2] at h
      split_ifs at h with hlt
      · have hshift : (p <<< 1).toNat = 2 ^ (k + 1) % 2 ^ 64 := by
          rw [UInt64.toNat_shiftLeft, hp]
          simp [Nat.shiftLeft_eq, Nat.pow_succ]
        rcases Nat.lt_or_ge k 63 with hk' | hk'
        · rw [Nat.mod_eq_of_lt (Nat.pow_lt_pow_right (by omega) (by omega))] at hshift
          exact ih hshift (by omega) h
        · -- past 2^63 the shift gives 0, from which the loop never leaves
          obtain rfl : k = 63 := by omega
          have hzero : p <<< 1 = 0 := UInt64.toNat_inj.mp (by rw [hshift]; simp)
          rw [hzero] at h
          have hstuck : ∀ fuel, alignPow2 x fuel 0 = none := by
            intro fuel
            induction fuel with
            | zero => rfl
            | succ fuel ih =>
                have hx : (0 : UInt64) < x := UInt64.lt_of_le_of_lt UInt64.zero_le hlt
                simp [alignPow2, hx, ih]
          simp [hstuck] at h
      · exact ⟨k, hk, by simpa using (Option.some.inj h) ▸ hp⟩

theorem initCells_eq {count i : Nat} (hcount : count ≤ 2 ^ 64) (hi : i < count) :
    initCells count (UInt64.ofNat i) = { seq := UInt64.ofNat i, data := 0 } :=
  foldl_update_ofNat (fun i (_ : Cell) => ({ seq := UInt64.ofNat i, data := 0 } : Cell)) _ hcount hi

-- A queue that imgMpmcInit has built represents the empty ticket ring.
theorem represents_init (Thread : Type) {alignedAlloc : UInt64 → Bool} {size : UInt64}
    {q : ImgMpmcQueue} (h : imgMpmcInit alignedAlloc size = some q) :
    ∃ k, k ≤ 63 ∧ q.size.toNat = 2 ^ k ∧
      Represents k q (fun _ : Thread => none) Ring.empty := by
  simp only [imgMpmcInit] at h
  split_ifs at h
  split at h
  · cases h
  · rename_i size' hsize
    split_ifs at h
    cases h
    obtain ⟨k, hk, hpow⟩ := alignPow2_eq (k := 0) rfl (by omega) hsize
    refine ⟨k, hk, hpow, Ring.inv_empty _, ?_, rfl, rfl, ?_, ?_, ?_, ?_⟩
    · have hle : (1 : UInt64) ≤ size' := by
        rw [UInt64.le_iff_toNat_le, hpow]
        exact Nat.one_le_two_pow
      rw [UInt64.toNat_sub_of_le _ _ hle, hpow]
      rfl
    · intro i hi
      change (initCells size'.toNat (UInt64.ofNat i)).seq = _
      rw [initCells_eq (by have := size'.toNat_lt; omega) (hpow ▸ hi)]
      rfl
    · exact fun _ _ _ _ hfull => by cases hfull
    · exact fun _ _ _ _ _ hdraining => by cases hdraining
    · exact fun _ _ hnone => by cases hnone

end ImgEngine.Runtime.ImgMpmc
