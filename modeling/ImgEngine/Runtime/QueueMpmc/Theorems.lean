import ImgEngine.Runtime.QueueMpmc.Alignment
import Mathlib.Data.List.Nodup
import Mathlib.Data.List.Perm.Subperm

namespace ImgEngine.Runtime.ImgMpmc

open ImgEngine.Library.Interleaving
open ImgEngine.Library.TicketRing
open scoped List

variable {Thread : Type} [DecidableEq Thread] {k : Nat} {first : ImgMpmcQueue}
  {events : History Thread} {config : Config Thread ImgMpmcQueue Pc} {ring : Ring Thread Ptr}

-- The item with ticket n lies in its slot and has not been read.
def Unread (k : Nat) (ring : Ring Thread Ptr) (pc : Thread → Option Pc) (n : Nat) : Prop :=
  ∃ data, ring.slot (n % 2 ^ k) = .full n data ∨
    ∃ thread, ring.slot (n % 2 ^ k) = .draining n thread data ∧
      pc thread = some (.pop (.readData (UInt64.ofNat n)))

omit [DecidableEq Thread] in
-- Only the read itself ends this: a pop may take the slot, but the slot can only
-- be released by the thread that holds it, and that thread has yet to read.
theorem Unread.move {pc pc' : Thread → Option Pc} {next : Ring Thread Ptr} {thread : Thread}
    {p : Pc} {outcome : Pc ⊕ Result} {n : Nat} (h : Unread k ring pc n)
    (hmove : Move k ring (.access thread p outcome) next) (hpc : pc thread = some p)
    (hother : ∀ other, other ≠ thread → pc' other = pc other)
    (hthread : pc' thread = outcome.getLeft?)
    (hread : ¬Reads (UInt64.ofNat n) (.access thread p outcome : Event Thread Op Pc Result)) :
    Unread k next pc' n := by
  have hsame : ∀ i (slot : Slot Thread Ptr), ring.slot i ≠ ring.slot (n % 2 ^ k) →
      Function.update ring.slot i slot (n % 2 ^ k) = ring.slot (n % 2 ^ k) := by
    intro i slot hne
    exact Function.update_of_ne (fun he => hne (by rw [he])) _ _
  obtain ⟨data, hfull | ⟨reader, hdraining, hreader⟩⟩ := h
  · cases hmove with
    | still => exact ⟨data, .inl hfull⟩
    | claimPush thread d hslot =>
        exact ⟨data, .inl ((hsame _ _ (by simp [hfull, hslot])).trans hfull)⟩
    | publish thread d m hslot =>
        exact ⟨data, .inl ((hsame _ _ (by simp [hfull, hslot])).trans hfull)⟩
    | claimPop thread d hslot =>
        by_cases he : ring.popped % 2 ^ k = n % 2 ^ k
        · rw [he, hfull, Slot.full.injEq] at hslot
          obtain ⟨rfl, rfl⟩ := hslot
          exact ⟨data, .inr ⟨thread, by simp [Ring.claimPop, Ring.setSlot], hthread⟩⟩
        · refine ⟨data, .inl ?_⟩
          simpa [Ring.claimPop, Ring.setSlot, Function.update_of_ne (Ne.symm he)] using hfull
    | release thread d m hslot =>
        exact ⟨data, .inl ((hsame _ _ (by simp [hfull, hslot])).trans hfull)⟩
  · have hne : thread ≠ reader := by
      rintro rfl
      rw [hreader] at hpc
      cases hpc
      exact hread rfl
    refine ⟨data, .inr ⟨reader, ?_, (hother reader hne.symm).trans hreader⟩⟩
    cases hmove with
    | still => exact hdraining
    | claimPush thread d hslot => exact (hsame _ _ (by simp [hdraining, hslot])).trans hdraining
    | publish thread d m hslot => exact (hsame _ _ (by simp [hdraining, hslot])).trans hdraining
    | claimPop thread d hslot => exact (hsame _ _ (by simp [hdraining, hslot])).trans hdraining
    | release thread d m hslot =>
        exact (hsame _ _ (by simp [hdraining, hslot, hne])).trans hdraining

-- From the publication of a ticket to its read, the item stays unread.
theorem Tracks.unread {pos : UInt64} {before between : History Thread}
    {publish : Event Thread Op Pc Result}
    (tracks : Tracks k first (before ++ publish :: between) config ring)
    (hpublish : Publishes pos publish) (hread : ∀ event ∈ between, ¬Reads pos event) :
    ∃ n, pos = UInt64.ofNat n ∧ Unread k ring config.pc n := by
  generalize hevents : before ++ publish :: between = events at tracks
  induction tracks generalizing between with
  | start => simp at hevents
  | @call events config ring tracks thread op hpc ih =>
      cases between using List.reverseRecOn with
      | nil =>
          obtain ⟨-, hlast⟩ := List.append_inj' hevents rfl
          cases hlast
          cases hpublish
      | append_singleton between last =>
          rw [← List.cons_append, ← List.append_assoc] at hevents
          obtain ⟨n, hpos, data, hdata⟩ := ih
            (fun event hm => hread event (List.mem_append_left _ hm))
            (List.append_inj' hevents rfl).1
          refine ⟨n, hpos, data, hdata.imp_right ?_⟩
          rintro ⟨reader, hslot, hreader⟩
          have hne : reader ≠ thread := by
            rintro rfl
            simp [hpc] at hreader
          exact ⟨reader, hslot, by simp [hne, hreader]⟩
  | @access events config ring next tracks thread p spurious hpc hmove hnext ih =>
      cases between using List.reverseRecOn with
      | nil =>
          obtain ⟨-, hlast⟩ := List.append_inj' hevents rfl
          cases hlast
          generalize (imgMpmc.access config.shared p spurious).2 = outcome at hmove hpublish
          cases hmove with
          | still _ _ _ hnone => exact absurd hpublish (hnone pos)
          | claimPush _ data hslot => cases hpublish
          | publish _ data n hslot =>
              exact ⟨n, Eq.symm hpublish, data, .inl (by simp [Ring.setSlot])⟩
          | claimPop _ data hslot => cases hpublish
          | release _ data n hslot => cases hpublish
      | append_singleton between last =>
          rw [← List.cons_append, ← List.append_assoc] at hevents
          obtain ⟨hinit, hlast⟩ := List.append_inj' hevents rfl
          cases hlast
          obtain ⟨n, rfl, hunread⟩ := ih
            (fun event hm => hread event (List.mem_append_left _ hm)) hinit
          refine ⟨n, rfl, hunread.move hmove hpc (fun other he => by simp [he]) (by simp) ?_⟩
          exact hread _ (List.mem_append_right _ (List.mem_singleton.mpr rfl))

omit [DecidableEq Thread] in
-- While the item is unread, no thread stands before a write to its cell.
theorem Unread.not_overwritten {q : ImgMpmcQueue} {pc : Thread → Option Pc} {n : Nat}
    (h : Unread k ring pc n) (hrep : Represents k q pc ring) (hk : k ≤ 63) {thread : Thread}
    {data : Ptr} {pos : UInt64} (hpc : pc thread = some (.push (.writeData data pos))) :
    pos &&& q.mask ≠ UInt64.ofNat n &&& q.mask := by
  intro hcell
  obtain ⟨m, rfl, hclaimed⟩ := hrep.agrees thread _ hpc
  have hlt : ∀ n, n % 2 ^ k < 2 ^ 64 := fun n =>
    lt_of_lt_of_le (Nat.mod_lt _ (Nat.two_pow_pos k)) (Nat.pow_le_pow_right (by omega) (by omega))
  rw [uint64_ofNat_and_mask _ _ (by omega) hrep.mask,
    uint64_ofNat_and_mask _ _ (by omega) hrep.mask] at hcell
  rw [uint64_ofNat_inj (hlt m) (hlt n) hcell] at hclaimed
  obtain ⟨d, hfull | ⟨reader, hdraining, -⟩⟩ := h
  · rw [hfull] at hclaimed
    cases hclaimed
  · rw [hdraining] at hclaimed
    cases hclaimed

-- So no turn overwrites it.
theorem Unread.not_overwrites {q : ImgMpmcQueue} {source target : Config Thread ImgMpmcQueue Pc}
    {turn : Turn Thread Op Bool} {event : Event Thread Op Pc Result} {n : Nat}
    (h : Unread k ring source.pc n) (hrep : Represents k source.shared source.pc ring)
    (hk : k ≤ 63) (hmask : source.shared.mask = q.mask)
    (hplay : imgMpmc.play source turn = some (event, target)) :
    ¬Overwrites q (UInt64.ofNat n &&& q.mask) event := by
  intro hoverwrite
  obtain ⟨thread, op, -, -, rfl, -⟩ | ⟨thread, spurious, p, -, hpc, rfl, -⟩ :=
    Program.play_cases hplay
  · cases hoverwrite
  · cases p with
    | push p =>
        cases p with
        | writeData data pos =>
            refine h.not_overwritten hrep hk hpc ?_
            rw [hmask]
            exact hoverwrite
        | _ => cases hoverwrite
    | pop p => cases hoverwrite

-- Two tickets in claim order are in the order of their numbers.
theorem pair_sublist_range {n : Nat} {p₁ p₂ : UInt64}
    (h : [p₁, p₂] <+ (List.range n).map UInt64.ofNat) :
    ∃ i j, i < j ∧ j < n ∧ p₁ = UInt64.ofNat i ∧ p₂ = UInt64.ofNat j := by
  obtain ⟨tickets, hsub, hmap⟩ := List.sublist_map_iff.mp h
  obtain ⟨i, j, rfl⟩ : ∃ i j, tickets = [i, j] := by
    have hlen := congrArg List.length hmap
    rw [List.length_map] at hlen
    exact List.length_eq_two.mp hlen.symm
  cases hmap
  have hlt := List.pairwise_pair.mp (List.pairwise_lt_range.sublist hsub)
  exact ⟨i, j, hlt, List.mem_range.mp (hsub.subset (by simp)), rfl, rfl⟩

theorem range_pair_sublist {n i j : Nat} (hij : i < j) (hj : j < n) :
    [i, j] <+ List.range n := by
  have hsplit : List.range n = List.range j ++ (List.range (n - j)).map (j + ·) := by
    rw [← List.range_add]
    congr 1
    omega
  rw [hsplit]
  have hfirst : [i] <+ List.range j := List.singleton_sublist.mpr (List.mem_range.mpr hij)
  have hsecond : [j] <+ (List.range (n - j)).map (j + ·) :=
    List.singleton_sublist.mpr (List.mem_map.mpr ⟨0, List.mem_range.mpr (by omega), rfl⟩)
  exact hfirst.append hsecond

-- Tickets are claimed in the order of their numbers on either side.
theorem pops_inOrder {n m : Nat} (hn : n ≤ 2 ^ 64) (hm : m ≤ 2 ^ 64) {p₁ p₂ : UInt64}
    (hpushed : [p₁, p₂] <+ (List.range n).map UInt64.ofNat)
    (hpopped : p₂ ∈ (List.range m).map UInt64.ofNat) :
    [p₁, p₂] <+ (List.range m).map UInt64.ofNat := by
  obtain ⟨i, j, hij, hj, rfl, rfl⟩ := pair_sublist_range hpushed
  obtain ⟨j', hj', heq⟩ := List.mem_map.mp hpopped
  have hj' := List.mem_range.mp hj'
  rw [uint64_ofNat_inj (by omega) (by omega) heq] at hj'
  exact (range_pair_sublist hij hj').map UInt64.ofNat

-- The claim with the ticket of an item carries that item.
theorem Tracks.pushClaim_of_getElem (tracks : Tracks k first events config ring) {n : Nat}
    {data : Ptr} (hitem : ring.pushed[n]? = some data) :
    ∃ pusher, (pusher, UInt64.ofNat n, data) ∈ events.filterMap pushClaim := by
  obtain ⟨htickets, hitems⟩ := tracks.pushes
  have hn := (List.getElem?_eq_some_iff.mp hitem).1
  rw [← hitems, List.getElem?_map, Option.map_eq_some_iff] at hitem
  obtain ⟨⟨pusher, pos, data'⟩, hclaim, rfl⟩ := hitem
  have hpos := congrArg (fun xs => xs[n]?) htickets
  simp only [List.getElem?_map, hclaim, List.getElem?_range hn, Option.map_some,
    Option.some.injEq] at hpos
  exact ⟨pusher, hpos ▸ List.mem_of_getElem? hclaim⟩

theorem Tracks.tickets_nodup (tracks : Tracks k first events config ring)
    (hsmall : ring.pushed.length < 2 ^ 63) :
    ((events.filterMap popReturn).map (fun c => c.2.1)).Nodup := by
  obtain ⟨tickets, hnodup, hmap, hpast, -⟩ := tracks.returns
  have hordered := tracks.represents.inv.ordered
  rw [hmap]
  refine List.Nodup.map_on ?_ hnodup
  intro a ha b hb he
  have := (hpast a ha).1
  have := (hpast b hb).1
  exact uint64_ofNat_inj (by omega) (by omega) he

-- Distinct returns have distinct tickets, so each accounts for its own claim.
theorem Tracks.count_returned_le (tracks : Tracks k first events config ring)
    (hsmall : ring.pushed.length < 2 ^ 63) (data : Ptr) :
    ((events.filterMap popReturn).map (fun c => c.2.2)).count data ≤
      ((events.filterMap pushClaim).map (fun c => c.2.2)).count data := by
  obtain ⟨-, -, -, -, hreturns⟩ := tracks.returns
  have hsub : (events.filterMap popReturn).map (fun c => c.2) <+~
      (events.filterMap pushClaim).map (fun c => c.2) := by
    apply List.Nodup.subperm
    · refine List.Nodup.of_map (fun c => c.1) ?_
      rw [List.map_map]
      exact tracks.tickets_nodup hsmall
    · intro c hc
      obtain ⟨⟨popper, pos, data⟩, hreturn, rfl⟩ := List.mem_map.mp hc
      obtain ⟨-, n, rfl, hitem⟩ := hreturns _ hreturn
      obtain ⟨pusher, hclaim⟩ := tracks.pushClaim_of_getElem hitem
      exact List.mem_map.mpr ⟨_, hclaim, rfl⟩
  have hcount := hsub.countP_le (fun c => c.2 == data)
  simpa only [List.count_eq_countP, List.countP_map, Function.comp_def] using hcount

theorem imgMpmc_exactlyOnce {alignedAlloc : UInt64 → Bool} {size : UInt64} {q : ImgMpmcQueue}
    (hinit : imgMpmcInit alignedAlloc size = some q) (hsize : 2 ≤ q.size)
    {events : History Thread} {config : Config Thread ImgMpmcQueue Pc}
    (run : imgMpmc.Run (fun _ _ => True) (idle Thread q) events config)
    (hops : events.countP Event.isCall < 2 ^ 63) : ExactlyOnce q events := by
  obtain ⟨k, hk, hpow, hfirst⟩ := represents_init Thread hinit
  have hk1 : 1 ≤ k := by
    rw [UInt64.le_iff_toNat_le, hpow] at hsize
    rcases Nat.eq_zero_or_pos k with rfl | hpos
    · simp at hsize
    · exact hpos
  obtain ⟨ring, tracks, -⟩ := Tracks.of_run hk1 hk hfirst run hops
  have hordered := tracks.represents.inv.ordered
  have hsmall : ring.pushed.length < 2 ^ 63 := by
    have hle := pushClaims_le_calls run
    have := congrArg List.length tracks.pushes.2
    rw [List.length_map] at this
    omega
  obtain ⟨-, -, -, -, hreturns⟩ := tracks.returns
  refine ⟨⟨_, hsmall, tracks.pushes.1⟩, ⟨_, by omega, tracks.pops⟩, ?_,
    tracks.tickets_nodup hsmall, tracks.count_returned_le hsmall, ?_, ?_, ?_⟩
  · intro thread pos data hret
    obtain ⟨hclaimed, n, rfl, hitem⟩ := hreturns _ hret
    exact ⟨hclaimed, tracks.pushClaim_of_getElem hitem⟩
  · intro thread
    exact (List.sublist_append_left _ _).trans (claimedBy_sublist run thread)
  · intro thread pos₁ data₁ pos₂ data₂ hpair hpopped
    have hpushed := hpair.map (fun c => c.2.1)
    rw [tracks.pushes.1] at hpushed
    rw [popTickets, tracks.pops] at hpopped ⊢
    exact pops_inOrder (by omega) (by omega) hpushed hpopped
  · intro pos before publish between overwrite after hevents hpublish hoverwrite
    by_contra! hread
    rw [hevents, ← List.cons_append, ← List.append_assoc] at run
    obtain ⟨source, target, turn, hsource, -, hplay⟩ := run.split
    have hfew : (before ++ publish :: between).countP Event.isCall < 2 ^ 63 := by
      refine lt_of_le_of_lt (List.Sublist.countP_le ?_) hops
      rw [hevents, ← List.cons_append, ← List.append_assoc]
      exact List.sublist_append_left _ _
    obtain ⟨ring', tracks', -⟩ := Tracks.of_run hk1 hk hfirst hsource hfew
    obtain ⟨n, rfl, hunread⟩ := tracks'.unread hpublish hread
    have hmask : source.shared.mask = q.mask :=
      UInt64.toNat_inj.mp (tracks'.represents.mask.trans hfirst.mask.symm)
    exact hunread.not_overwrites tracks'.represents hk hmask hplay hoverwrite

-- One thread hands the pointer 7 over to another through a queue of two cells.
theorem imgMpmc_exactlyOnce_handover :
    ∃ q events config, imgMpmcInit (fun _ => true) 2 = some q ∧
      imgMpmc.Run (fun _ _ => True) (idle Bool q) events config ∧
      events.filterMap popReturn = [(false, 0, 7)] ∧ ExactlyOnce q events := by
  let q : ImgMpmcQueue := { size := 2, mask := 1, cells := initCells 2, head := 0, tail := 0 }
  let turns : List (Turn Bool Op Bool) :=
    .call true (.push 7) :: List.replicate 5 (.access true false) ++
      .call false .pop :: List.replicate 5 (.access false false)
  have hplay : (imgMpmc.playAll (fun _ _ => True) turns [] (idle Bool q)).map
      (fun r => (r.1.filterMap popReturn, r.1.countP Event.isCall)) = some ([(false, 0, 7)], 2) := by
    decide
  obtain ⟨⟨events, config⟩, hplay, hresult⟩ := Option.map_eq_some_iff.mp hplay
  simp only [Prod.mk.injEq] at hresult
  have run : imgMpmc.Run (fun _ _ => True) (idle Bool q) events config :=
    Program.Run.start.playAll hplay
  have hinit : imgMpmcInit (fun _ => true) 2 = some q := rfl
  exact ⟨q, events, config, hinit, run, hresult.1,
    imgMpmc_exactlyOnce hinit (by decide) run (by omega)⟩

end ImgEngine.Runtime.ImgMpmc
