import ImgEngine.Runtime.QueueMpmc.History

namespace ImgEngine.Runtime.ImgMpmc

open ImgEngine.Library.Interleaving
open ImgEngine.Library.TicketRing

variable {Thread : Type} [DecidableEq Thread]

-- As long as the counters have not wrapped, the position a thread has loaded is
-- at most the counter, and if they are still equal the cell is as it was found.
def Aligned (k : Nat) (ring : Ring Thread Ptr) : Pc → Prop
  | .push (.loadSeq _ pos) => pos.toNat ≤ ring.pushed.length
  | .push (.exchange _ pos) => pos.toNat ≤ ring.pushed.length ∧
      (pos.toNat = ring.pushed.length →
        ring.slot (ring.pushed.length % 2 ^ k) = .free ring.pushed.length)
  | .pop (.loadSeq pos) => pos.toNat ≤ ring.popped
  | .pop (.exchange pos) => pos.toNat ≤ ring.popped ∧
      (pos.toNat = ring.popped →
        ∃ data, ring.slot (ring.popped % 2 ^ k) = .full ring.popped data)
  | _ => True

section Alignment

variable {k : Nat} {q : ImgMpmcQueue} {pc : Thread → Option Pc} {ring next : Ring Thread Ptr}
  {event : Event Thread Op Pc Result}

omit [DecidableEq Thread] in
theorem Aligned.fresh (h : Represents k q pc ring) (hk : k ≤ 63)
    (hsmall : ring.pushed.length < 2 ^ 63) {p : Pc} (haligned : Aligned k ring p) :
    FreshExchange q p := by
  have hlt : ∀ n, n % 2 ^ k < 2 ^ k := fun n => Nat.mod_lt _ (Nat.two_pow_pos k)
  have hpopped := h.inv.ordered
  cases p with
  | push p =>
      cases p with
      | exchange data pos =>
          intro htail
          obtain rfl : pos = UInt64.ofNat ring.pushed.length := htail.symm.trans h.tail
          have hfree := haligned.2 (word_toNat hsmall)
          rw [cell_ofNat hk h.mask, h.seq _ (hlt _), hfree]
          rfl
      | _ => trivial
  | pop p =>
      cases p with
      | exchange pos =>
          intro hhead
          obtain rfl : pos = UInt64.ofNat ring.popped := hhead.symm.trans h.head
          obtain ⟨data, hfull⟩ := haligned.2 (word_toNat (by omega))
          rw [cell_ofNat hk h.mask, h.seq _ (hlt _), hfull]
          simp [Slot.seq, UInt64.ofNat_add]
      | _ => trivial

omit [DecidableEq Thread] in
-- Another thread's move either takes the counter past the loaded position or
-- leaves the slot of that position alone.
theorem Aligned.move {p : Pc} (haligned : Aligned k ring p) (hmove : Move k ring event next) :
    Aligned k next p := by
  obtain ⟨more, hmore⟩ := hmove.pushed_prefix
  have hpushed : ring.pushed.length ≤ next.pushed.length := by
    rw [← hmore, List.length_append]
    omega
  have hpopped := hmove.popped_le
  have hother : ∀ i j (slot : Slot Thread Ptr), ring.slot i ≠ ring.slot j →
      Function.update ring.slot i slot j = ring.slot j := by
    intro i j slot hne
    exact Function.update_of_ne (fun he => hne (by rw [he])) _ _
  cases p with
  | push p =>
      cases p with
      | loadSeq data pos => exact Nat.le_trans haligned hpushed
      | exchange data pos =>
          refine ⟨Nat.le_trans haligned.1 hpushed, fun hpos => ?_⟩
          have heq : ring.pushed.length = next.pushed.length := by
            have := haligned.1
            omega
          have hfree := haligned.2 (hpos.trans heq.symm)
          rw [← heq]
          cases hmove with
          | still => exact hfree
          | claimPush thread data hslot => simp [Ring.claimPush] at heq
          | publish thread data n hslot =>
              exact (hother _ _ _ (by simp [hfree, hslot])).trans hfree
          | claimPop thread data hslot =>
              exact (hother _ _ _ (by simp [hfree, hslot])).trans hfree
          | release thread data n hslot =>
              exact (hother _ _ _ (by simp [hfree, hslot])).trans hfree
      | _ => trivial
  | pop p =>
      cases p with
      | loadSeq pos => exact Nat.le_trans haligned hpopped
      | exchange pos =>
          refine ⟨Nat.le_trans haligned.1 hpopped, fun hpos => ?_⟩
          have heq : ring.popped = next.popped := by
            have := haligned.1
            omega
          obtain ⟨d, hfull⟩ := haligned.2 (hpos.trans heq.symm)
          rw [← heq]
          refine ⟨d, ?_⟩
          cases hmove with
          | still => exact hfull
          | claimPush thread data hslot =>
              exact (hother _ _ _ (by simp [hfull, hslot])).trans hfull
          | publish thread data n hslot =>
              exact (hother _ _ _ (by simp [hfull, hslot])).trans hfull
          | claimPop thread data hslot => simp [Ring.claimPop] at heq
          | release thread data n hslot =>
              exact (hother _ _ _ (by simp [hfull, hslot])).trans hfull
      | _ => trivial

omit [DecidableEq Thread] in
-- A thread stays aligned over its own loads.
theorem Aligned.access (h : Represents k q pc ring) (hk1 : 1 ≤ k) (hk : k ≤ 63)
    (hsmall : ring.pushed.length < 2 ^ 63) {p p' : Pc} {spurious : Bool}
    (haligned : Aligned k ring p) (hout : (imgMpmc.access q p spurious).2 = .inl p') :
    Aligned k ring p' := by
  have hsize : 2 ≤ 2 ^ k := Nat.le_self_pow (by omega) 2
  have hword : 2 ^ k < 2 ^ 64 := Nat.pow_lt_pow_right (by omega) (by omega)
  have hlt : ∀ n, n % 2 ^ k < 2 ^ k := fun n => Nat.mod_lt _ (Nat.two_pow_pos k)
  have hpopped := h.inv.ordered
  cases p with
  | push p =>
      cases p with
      | loadTail data =>
          cases hout
          simp only [Aligned]
          rw [h.tail, word_toNat hsmall]
      | loadSeq data pos =>
          simp only [imgMpmc, imgMpmcPush, toInt64_sub_eq_zero_iff] at hout
          split_ifs at hout with hseq
          · cases hout
            refine ⟨haligned, fun hpos => ?_⟩
            obtain rfl : pos = UInt64.ofNat ring.pushed.length := by
              rw [← hpos, UInt64.ofNat_toNat]
            rw [cell_ofNat hk h.mask, h.seq _ (hlt _), uint64_ofNat_eq_iff] at hseq
            exact Ring.slot_eq_free h.inv hsize hword hseq
          · cases hout
          · cases hout
            trivial
      | exchange data pos =>
          simp only [imgMpmc, imgMpmcPush] at hout
          split_ifs at hout <;> cases hout <;> trivial
      | writeData data pos =>
          cases hout
          trivial
      | storeSeq data pos => cases hout
  | pop p =>
      cases p with
      | loadHead =>
          cases hout
          simp only [Aligned]
          rw [h.head, word_toNat (by omega)]
      | loadSeq pos =>
          simp only [imgMpmc, imgMpmcPop, toInt64_sub_eq_zero_iff] at hout
          split_ifs at hout with hseq
          · cases hout
            refine ⟨haligned, fun hpos => ?_⟩
            obtain rfl : pos = UInt64.ofNat ring.popped := by rw [← hpos, UInt64.ofNat_toNat]
            have hsucc : UInt64.ofNat ring.popped + 1 = UInt64.ofNat (ring.popped + 1) := by
              simp [UInt64.ofNat_add]
            rw [cell_ofNat hk h.mask, h.seq _ (hlt _), hsucc, uint64_ofNat_eq_iff] at hseq
            exact Ring.slot_eq_full h.inv hsize hword hseq
          · cases hout
          · cases hout
            trivial
      | exchange pos =>
          simp only [imgMpmc, imgMpmcPop] at hout
          split_ifs at hout <;> cases hout <;> trivial
      | readData pos =>
          cases hout
          trivial
      | storeSeq pos data => cases hout

end Alignment

section Runs

variable {k : Nat} {first : ImgMpmcQueue} {events : History Thread}
  {config : Config Thread ImgMpmcQueue Pc} {ring : Ring Thread Ptr}
  {legal : Config Thread ImgMpmcQueue Pc → Turn Thread Op Bool → Prop}

-- The points of either loop from which a ticket can still be claimed.
def beforeClaim : Pc → Bool
  | .push (.loadTail _) | .push (.loadSeq _ _) | .push (.exchange _ _) => true
  | .pop .loadHead | .pop (.loadSeq _) | .pop (.exchange _) => true
  | _ => false

def isClaim (event : Event Thread Op Pc Result) : Bool :=
  (pushClaim event).isSome || (popClaim event).isSome

omit [DecidableEq Thread] in
theorem countP_isClaim (events : History Thread) :
    events.countP isClaim =
      (events.filterMap pushClaim).length + (events.filterMap popClaim).length := by
  rw [List.length_filterMap_eq_countP, List.length_filterMap_eq_countP]
  induction events with
  | nil => rfl
  | cons event events ih =>
      -- no event is a claim on both sides
      have hside : pushClaim event = none ∨ popClaim event = none := by
        unfold pushClaim
        split
        · exact .inr rfl
        · exact .inl rfl
      rw [List.countP_cons, List.countP_cons, List.countP_cons, ih, isClaim]
      rcases hside with h | h <;> simp only [h, Option.isSome_none, Bool.false_or, Bool.or_false,
        Bool.false_eq_true, if_false] <;> omega

-- An operation claims at most one ticket.
theorem claims_le_calls (run : imgMpmc.Run legal (idle Thread first) events config) :
    (events.filterMap pushClaim).length + (events.filterMap popClaim).length ≤
      events.countP Event.isCall := by
  rw [← countP_isClaim]
  refine run.countP_le_calls beforeClaim (fun _ => true) (fun _ _ => rfl) (fun _ _ => rfl) ?_ ?_
    (fun _ => rfl)
  · intro shared thread p choice hclaim
    cases p with
    | push p => cases p <;> first | rfl | simp [isClaim, pushClaim, popClaim] at hclaim
    | pop p => cases p <;> first | rfl | simp [isClaim, pushClaim, popClaim] at hclaim
  · intro shared thread p choice p' hout howes
    cases p with
    | push p =>
        cases p with
        | loadTail data =>
            cases hout
            exact ⟨rfl, rfl⟩
        | loadSeq data pos =>
            simp only [imgMpmc, imgMpmcPush] at hout
            split_ifs at hout <;> cases hout <;> exact ⟨rfl, rfl⟩
        | exchange data pos =>
            simp only [imgMpmc, imgMpmcPush] at hout
            split_ifs at hout <;> cases hout
            · cases howes
            · exact ⟨rfl, rfl⟩
        | writeData data pos =>
            cases hout
            cases howes
        | storeSeq data pos => cases hout
    | pop p =>
        cases p with
        | loadHead =>
            cases hout
            exact ⟨rfl, rfl⟩
        | loadSeq pos =>
            simp only [imgMpmc, imgMpmcPop] at hout
            split_ifs at hout <;> cases hout <;> exact ⟨rfl, rfl⟩
        | exchange pos =>
            simp only [imgMpmc, imgMpmcPop] at hout
            split_ifs at hout <;> cases hout
            · cases howes
            · exact ⟨rfl, rfl⟩
        | readData pos =>
            cases hout
            cases howes
        | storeSeq pos data => cases hout

theorem pushClaims_le_calls (run : imgMpmc.Run legal (idle Thread first) events config) :
    (events.filterMap pushClaim).length ≤ events.countP Event.isCall := by
  have := claims_le_calls run
  omega

-- Every run with fewer than 2^63 operations is a run of the ticket ring.
theorem Tracks.of_run (hk1 : 1 ≤ k) (hk : k ≤ 63)
    (hfirst : Represents k first (fun _ : Thread => none) Ring.empty)
    (run : imgMpmc.Run legal (idle Thread first) events config)
    (hops : events.countP Event.isCall < 2 ^ 63) :
    ∃ ring, Tracks k first events config ring ∧
      ∀ thread p, config.pc thread = some p → Aligned k ring p := by
  induction run with
  | start => exact ⟨Ring.empty, .start hfirst, by simp [idle]⟩
  | @turn events config event next turn run hlegal hplay ih =>
      rw [List.countP_append] at hops
      obtain ⟨ring, tracks, haligned⟩ := ih (by omega)
      have hsmall : ring.pushed.length < 2 ^ 63 := by
        have := pushClaims_le_calls run
        have := congrArg List.length tracks.pushes.2
        simp only [List.length_map] at this
        omega
      obtain ⟨thread, op, rfl, hpc, rfl, rfl⟩ | ⟨thread, spurious, p, rfl, hpc, rfl, rfl⟩ :=
        Program.play_cases hplay
      · refine ⟨ring, tracks.call thread op hpc, forall_pc_call ?_ ?_⟩
        · cases op <;> trivial
        · intro other p _ hp
          exact haligned other p hp
      · have hrep := tracks.represents
        obtain ⟨next, hnext, hmove⟩ := hrep.access hk1 hk thread p hpc spurious
          ((haligned thread p hpc).fresh hrep hk hsmall)
        refine ⟨next, tracks.access thread p spurious hpc hmove hnext, forall_pc_access ?_ ?_⟩
        · intro p' hout
          exact ((haligned thread p hpc).access hrep hk1 hk hsmall hout).move hmove
        · intro other p' _ hp
          exact (haligned other p' hp).move hmove

end Runs

end ImgEngine.Runtime.ImgMpmc
