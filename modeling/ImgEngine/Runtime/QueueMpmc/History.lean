import ImgEngine.Runtime.QueueMpmc.Simulation

namespace ImgEngine.Runtime.ImgMpmc

open ImgEngine.Library.Interleaving
open ImgEngine.Library.TicketRing
open scoped List

variable {Thread : Type} [DecidableEq Thread]

-- A run of the queue together with the run of the ticket ring it represents.
inductive Tracks (k : Nat) (first : ImgMpmcQueue) :
    History Thread → Config Thread ImgMpmcQueue Pc → Ring Thread Ptr → Prop
  | start (hfirst : Represents k first (fun _ : Thread => none) Ring.empty) :
      Tracks k first [] (idle Thread first) Ring.empty
  | call {events config ring} (tracks : Tracks k first events config ring)
      (thread : Thread) (op : Op) (hpc : config.pc thread = none) :
      Tracks k first (events ++ [.call thread op])
        { config with pc := Function.update config.pc thread (some (imgMpmc.start op)) } ring
  | access {events config ring next} (tracks : Tracks k first events config ring)
      (thread : Thread) (p : Pc) (spurious : Bool) (hpc : config.pc thread = some p)
      (hmove : Move k ring (.access thread p (imgMpmc.access config.shared p spurious).2) next)
      (hnext : Represents k (imgMpmc.access config.shared p spurious).1
        (Function.update config.pc thread (imgMpmc.access config.shared p spurious).2.getLeft?)
        next) :
      Tracks k first
        (events ++ [.access thread p (imgMpmc.access config.shared p spurious).2])
        { shared := (imgMpmc.access config.shared p spurious).1,
          pc := Function.update config.pc thread
            (imgMpmc.access config.shared p spurious).2.getLeft? }
        next

theorem filterMap_snoc_none {α β : Type} {f : α → Option β} {xs : List α} {a : α}
    (h : f a = none) : (xs ++ [a]).filterMap f = xs.filterMap f := by
  simp [List.filterMap_append, h]

theorem filterMap_snoc_some {α β : Type} {f : α → Option β} {xs : List α} {a : α} {b : β}
    (h : f a = some b) : (xs ++ [a]).filterMap f = xs.filterMap f ++ [b] := by
  simp [List.filterMap_append, h]

variable {k : Nat} {first : ImgMpmcQueue} {events : History Thread}
  {config : Config Thread ImgMpmcQueue Pc} {ring : Ring Thread Ptr}

theorem Tracks.represents (tracks : Tracks k first events config ring) :
    Represents k config.shared config.pc ring := by
  induction tracks with
  | start hfirst => exact hfirst
  | call _ thread op _ ih =>
      refine ih.local thread _ ?_
      rintro p' ⟨⟩
      cases op <;> trivial
  | access _ _ _ _ _ _ hnext => exact hnext

-- The claimed push tickets are 0, 1, 2, … and carry the items of the ring.
theorem Tracks.pushes (tracks : Tracks k first events config ring) :
    (events.filterMap pushClaim).map (fun c => c.2.1) =
      (List.range ring.pushed.length).map UInt64.ofNat ∧
    (events.filterMap pushClaim).map (fun c => c.2.2) = ring.pushed := by
  induction tracks with
  | start => exact ⟨rfl, rfl⟩
  | call _ thread op _ ih =>
      rw [filterMap_snoc_none rfl]
      exact ih
  | access _ thread p spurious _ hmove _ ih =>
      generalize (imgMpmc.access _ p spurious).2 = outcome at hmove ⊢
      cases hmove with
      | still hpush =>
          rw [filterMap_snoc_none hpush]
          exact ih
      | claimPush _ data hslot =>
          rw [filterMap_snoc_some (f := pushClaim) rfl]
          simp [Ring.claimPush, ih.1, ih.2, List.range_succ]
      | publish _ data n hslot =>
          rw [filterMap_snoc_none rfl]
          exact ih
      | claimPop _ data hslot =>
          rw [filterMap_snoc_none rfl]
          exact ih
      | release _ data n hslot =>
          rw [filterMap_snoc_none rfl]
          exact ih

theorem Tracks.pops (tracks : Tracks k first events config ring) :
    (events.filterMap popClaim).map (fun c => c.2) =
      (List.range ring.popped).map UInt64.ofNat := by
  induction tracks with
  | start => rfl
  | call _ thread op _ ih =>
      rw [filterMap_snoc_none rfl]
      exact ih
  | access _ thread p spurious _ hmove _ ih =>
      generalize (imgMpmc.access _ p spurious).2 = outcome at hmove ⊢
      cases hmove with
      | still _ hpop =>
          rw [filterMap_snoc_none hpop]
          exact ih
      | claimPush _ data hslot =>
          rw [filterMap_snoc_none rfl]
          exact ih
      | publish _ data n hslot =>
          rw [filterMap_snoc_none rfl]
          exact ih
      | claimPop _ data hslot =>
          rw [filterMap_snoc_some (f := popClaim) rfl]
          simp [Ring.claimPop, ih, List.range_succ]
      | release _ data n hslot =>
          rw [filterMap_snoc_none rfl]
          exact ih

-- What a popping thread did before.
def Began (events : History Thread) (thread : Thread) : Pc → Prop
  | .pop (.readData pos) | .pop (.storeSeq pos _) =>
      (thread, pos) ∈ events.filterMap popClaim
  | _ => True

theorem mem_filterMap_append {α β : Type} {f : α → Option β} {xs : List α} {b : β}
    (h : b ∈ xs.filterMap f) (more : List α) : b ∈ (xs ++ more).filterMap f := by
  rw [List.filterMap_append]
  exact List.mem_append_left _ h

omit [DecidableEq Thread] in
theorem Began.mono {more : History Thread} {thread : Thread} {p : Pc}
    (h : Began events thread p) : Began (events ++ more) thread p := by
  cases p with
  | push p => trivial
  | pop p =>
      cases p with
      | readData pos => exact mem_filterMap_append h more
      | storeSeq pos data => exact mem_filterMap_append h more
      | _ => trivial

omit [DecidableEq Thread] in
-- One access hands what the thread did on to the next program counter.
theorem Began.access {thread : Thread} {p p' : Pc} {q : ImgMpmcQueue} {spurious : Bool}
    (h : Began events thread p) (hout : (imgMpmc.access q p spurious).2 = .inl p') :
    Began (events ++ [.access thread p (.inl p')]) thread p' := by
  cases p with
  | push p =>
      cases p <;> simp only [imgMpmc, imgMpmcPush] at hout <;> (try split_ifs at hout) <;>
        cases hout <;> trivial
  | pop p =>
      cases p with
      | loadHead =>
          cases hout
          trivial
      | loadSeq pos =>
          simp only [imgMpmc, imgMpmcPop] at hout
          split_ifs at hout <;> cases hout <;> trivial
      | exchange pos =>
          simp only [imgMpmc, imgMpmcPop] at hout
          split_ifs at hout
          · cases hout
            simp [Began, List.filterMap_append, popClaim]
          · cases hout
            trivial
      | readData pos =>
          cases hout
          exact mem_filterMap_append h _
      | storeSeq pos data => cases hout

theorem Tracks.began (tracks : Tracks k first events config ring) :
    ∀ thread p, config.pc thread = some p → Began events thread p := by
  induction tracks with
  | start => simp [idle]
  | @call events config ring _ thread op _ ih =>
      refine forall_pc_call ?_ ?_
      · cases op <;> trivial
      · intro other p _ hp
        exact (ih other p hp).mono
  | @access events config ring next _ thread p spurious hpc _ _ ih =>
      refine forall_pc_access ?_ ?_
      · intro p' hout
        rw [hout]
        exact (ih thread p hpc).access hout
      · intro other p' _ hp
        exact (ih other p' hp).mono

-- The pointer a pushing thread has not claimed a ticket for yet.
def unclaimed : Pc → List Ptr
  | .push (.loadTail data) | .push (.loadSeq data _) | .push (.exchange data _) => [data]
  | _ => []

def unclaimedBy (config : Config Thread ImgMpmcQueue Pc) (thread : Thread) : List Ptr :=
  (config.pc thread).elim [] unclaimed

-- One access hands the pointer on, or claims a ticket for it, or gives up.
theorem claimed_access (q : ImgMpmcQueue) (thread : Thread) (p : Pc) (spurious : Bool) :
    claimedBy thread [.access thread p (imgMpmc.access q p spurious).2] ++
      (imgMpmc.access q p spurious).2.getLeft?.elim [] unclaimed <+ unclaimed p := by
  cases p with
  | push p =>
      cases p with
      | loadTail data => exact List.Sublist.refl _
      | loadSeq data pos =>
          simp only [imgMpmc, imgMpmcPush]
          split_ifs
          · exact List.Sublist.refl _
          · exact List.nil_sublist _
          · exact List.Sublist.refl _
      | exchange data pos =>
          simp only [imgMpmc, imgMpmcPush]
          split_ifs
          · simp [claimedBy, pushClaim, unclaimed]
          · exact List.Sublist.refl _
      | _ => exact List.nil_sublist _
  | pop p =>
      cases p with
      | loadSeq pos =>
          simp only [imgMpmc, imgMpmcPop]
          split_ifs <;> exact List.nil_sublist _
      | exchange pos =>
          simp only [imgMpmc, imgMpmcPop]
          split_ifs <;> exact List.nil_sublist _
      | _ => exact List.nil_sublist _

theorem claimedBy_append (thread : Thread) (xs ys : History Thread) :
    claimedBy thread (xs ++ ys) = claimedBy thread xs ++ claimedBy thread ys := by
  simp [claimedBy]

theorem calledBy_append (thread : Thread) (xs ys : History Thread) :
    calledBy thread (xs ++ ys) = calledBy thread xs ++ calledBy thread ys := by
  simp [calledBy]

omit [DecidableEq Thread] in
theorem pushClaim_thread {event : Event Thread Op Pc Result} {c : Thread × UInt64 × Ptr}
    (h : pushClaim event = some c) : c.1 = event.thread := by
  unfold pushClaim at h
  split at h <;> cases h
  rfl

theorem claimedBy_other {thread : Thread} (event : Event Thread Op Pc Result)
    (hne : event.thread ≠ thread) : claimedBy thread [event] = [] := by
  rw [claimedBy, filter_filterMap_other (fun _ _ => pushClaim_thread) event hne, List.map_nil]

theorem claimedBy_sublist {legal : Config Thread ImgMpmcQueue Pc → Turn Thread Op Bool → Prop}
    (run : imgMpmc.Run legal (idle Thread first) events config) (thread : Thread) :
    claimedBy thread events ++ unclaimedBy config thread <+ calledBy thread events := by
  refine run.gives_sublist thread (calledBy thread) (claimedBy thread) unclaimed
    (calledBy_append thread) (claimedBy_append thread) claimedBy_other ?_ ?_ rfl
  · intro op
    cases op with
    | push data => simp [calledBy, pushCall, claimedBy, pushClaim, imgMpmc, unclaimed]
    | pop => exact List.nil_sublist _
  · intro q p spurious
    exact (claimed_access q thread p spurious).trans (List.sublist_append_left _ _)

omit [DecidableEq Thread] in
theorem Ring.update_grows {ring : Ring Thread Ptr} (f : Slot Thread Ptr → Nat) (i : Nat) {j : Nat}
    {slot : Slot Thread Ptr} (h : f (ring.slot j) ≤ f slot) :
    f (ring.slot i) ≤ f (Function.update ring.slot j slot i) := by
  by_cases he : i = j
  · subst he
    simpa only [Function.update_self] using h
  · rw [Function.update_of_ne he]

-- No move takes a slot back to an earlier ticket, and none takes an item back.
omit [DecidableEq Thread] in
theorem Move.grows {event : Event Thread Op Pc Result} {next : Ring Thread Ptr}
    (hmove : Move k ring event next) (i : Nat) :
    (ring.slot i).ticket ≤ (next.slot i).ticket := by
  cases hmove with
  | still => exact Nat.le_refl _
  | claimPush thread data hslot =>
      exact Ring.update_grows Slot.ticket i (by simp [hslot, Slot.ticket])
  | publish thread data n hslot =>
      exact Ring.update_grows Slot.ticket i (by simp [hslot, Slot.ticket])
  | claimPop thread data hslot =>
      exact Ring.update_grows Slot.ticket i (by simp [hslot, Slot.ticket])
  | release thread data n hslot =>
      exact Ring.update_grows Slot.ticket i (by simp [hslot, Slot.ticket])

omit [DecidableEq Thread] in
theorem Move.seq_grows {event : Event Thread Op Pc Result} {next : Ring Thread Ptr}
    (hmove : Move k ring event next) (i : Nat) :
    (ring.slot i).seq ≤ (next.slot i).seq := by
  have hpos := Nat.two_pow_pos k
  cases hmove with
  | still => exact Nat.le_refl _
  | claimPush thread data hslot =>
      exact Ring.update_grows Slot.seq i (by simp [hslot, Slot.seq])
  | publish thread data n hslot =>
      exact Ring.update_grows Slot.seq i (by simp [hslot, Slot.seq])
  | claimPop thread data hslot =>
      exact Ring.update_grows Slot.seq i (by simp [hslot, Slot.seq])
  | release thread data n hslot =>
      exact Ring.update_grows Slot.seq i (by simp only [hslot, Slot.seq]; omega)

omit [DecidableEq Thread] in
theorem Move.pushed_prefix {event : Event Thread Op Pc Result} {next : Ring Thread Ptr}
    (hmove : Move k ring event next) : ring.pushed <+: next.pushed := by
  cases hmove with
  | claimPush thread data hslot => exact List.prefix_append _ _
  | _ => exact List.prefix_refl _

omit [DecidableEq Thread] in
theorem Move.popped_le {event : Event Thread Op Pc Result} {next : Ring Thread Ptr}
    (hmove : Move k ring event next) : ring.popped ≤ next.popped := by
  cases hmove with
  | claimPop thread data hslot => exact Nat.le_succ _
  | _ => exact Nat.le_refl _

-- The tickets of the pops that returned. Each gave back the item of its own
-- ticket, which it had claimed, and the slot has moved past that ticket.
structure Returned (k : Nat) (events : History Thread) (ring : Ring Thread Ptr)
    (tickets : List Nat) : Prop where
  nodup : tickets.Nodup
  answers : (events.filterMap popReturn).map (fun c => c.2.1) = tickets.map UInt64.ofNat
  past : ∀ n ∈ tickets, n < ring.popped ∧ n < (ring.slot (n % 2 ^ k)).ticket
  items : ∀ c ∈ events.filterMap popReturn, (c.1, c.2.1) ∈ events.filterMap popClaim ∧
    ∃ n, c.2.1 = UInt64.ofNat n ∧ ring.pushed[n]? = some c.2.2

section Returned

variable {tickets : List Nat} {next : Ring Thread Ptr}

omit [DecidableEq Thread]

theorem Returned.past_mono (h : Returned k events ring tickets)
    (hticket : ∀ i, (ring.slot i).ticket ≤ (next.slot i).ticket)
    (hpopped : ring.popped ≤ next.popped) :
    ∀ n ∈ tickets, n < next.popped ∧ n < (next.slot (n % 2 ^ k)).ticket := fun n hn =>
  ⟨(h.past n hn).1.trans_le hpopped, (h.past n hn).2.trans_le (hticket _)⟩

theorem Returned.items_mono (h : Returned k events ring tickets)
    (hpushed : ring.pushed <+: next.pushed) (event : Event Thread Op Pc Result) :
    ∀ c ∈ events.filterMap popReturn, (c.1, c.2.1) ∈ (events ++ [event]).filterMap popClaim ∧
      ∃ n, c.2.1 = UInt64.ofNat n ∧ next.pushed[n]? = some c.2.2 := by
  intro c hc
  obtain ⟨hclaim, n, hn, hitem⟩ := h.items c hc
  obtain ⟨more, hmore⟩ := hpushed
  refine ⟨mem_filterMap_append hclaim _, n, hn, ?_⟩
  rw [← hmore, List.getElem?_append_left (List.getElem?_eq_some_iff.mp hitem).1, hitem]

-- An event that is not the return of a pop.
theorem Returned.quiet (h : Returned k events ring tickets) {event : Event Thread Op Pc Result}
    (hnone : popReturn event = none) (hticket : ∀ i, (ring.slot i).ticket ≤ (next.slot i).ticket)
    (hpopped : ring.popped ≤ next.popped) (hpushed : ring.pushed <+: next.pushed) :
    Returned k (events ++ [event]) next tickets where
  nodup := h.nodup
  answers := by
    rw [filterMap_snoc_none hnone]
    exact h.answers
  past := h.past_mono hticket hpopped
  items := by
    rw [filterMap_snoc_none (f := popReturn) hnone]
    exact h.items_mono hpushed event

-- The slot of a pop that returns shows the pop's own ticket until then.
theorem Returned.release (h : Returned k events ring tickets) {thread : Thread} {data : Ptr}
    {n : Nat} (hslot : ring.slot (n % 2 ^ k) = .draining n thread data) (hpopped : n < ring.popped)
    (hitem : ring.pushed[n]? = some data)
    (hclaim : (thread, UInt64.ofNat n) ∈ events.filterMap popClaim)
    (hticket : ∀ i, (ring.slot i).ticket ≤
      ((ring.setSlot (n % 2 ^ k) (.free (n + 2 ^ k))).slot i).ticket) :
    Returned k (events ++
        [.access thread (.pop (.storeSeq (UInt64.ofNat n) data)) (.inr (.popped data))])
      (ring.setSlot (n % 2 ^ k) (.free (n + 2 ^ k))) (tickets ++ [n]) where
  nodup := by
    have hnew : n ∉ tickets := by
      intro hn
      have hpast := (h.past n hn).2
      rw [hslot] at hpast
      exact Nat.lt_irrefl n hpast
    refine List.nodup_append.mpr ⟨h.nodup, List.pairwise_singleton _ n, ?_⟩
    rintro m hm _ hn rfl
    exact hnew (List.mem_singleton.mp hn ▸ hm)
  answers := by
    rw [filterMap_snoc_some (f := popReturn) rfl]
    simp [h.answers]
  past := by
    intro m hm
    rcases List.mem_append.mp hm with hm | hm
    · exact h.past_mono hticket (Nat.le_refl _) m hm
    · obtain rfl := List.mem_singleton.mp hm
      refine ⟨hpopped, ?_⟩
      simp [Ring.setSlot, Slot.ticket]
  items := by
    rw [filterMap_snoc_some (f := popReturn) rfl]
    intro c hc
    rcases List.mem_append.mp hc with hc | hc
    · exact h.items_mono (List.prefix_refl _) _ c hc
    · obtain rfl := List.mem_singleton.mp hc
      exact ⟨mem_filterMap_append hclaim _, n, rfl, hitem⟩

end Returned

theorem Tracks.returns (tracks : Tracks k first events config ring) :
    ∃ tickets, Returned k events ring tickets := by
  induction tracks with
  | start => exact ⟨[], List.nodup_nil, rfl, by simp, by simp⟩
  | call _ thread op _ ih =>
      obtain ⟨tickets, h⟩ := ih
      exact ⟨tickets, h.quiet rfl (fun _ => Nat.le_refl _) (Nat.le_refl _) (List.prefix_refl _)⟩
  | access tracks thread p spurious hpc hmove _ ih =>
      obtain ⟨tickets, h⟩ := ih
      have hbegan := tracks.began thread p hpc
      have hstage := tracks.represents.inv.stage
      generalize (imgMpmc.access _ p spurious).2 = outcome at hmove ⊢
      have hquiet : popReturn (.access thread p outcome) = none → Returned k _ _ tickets :=
        fun hnone => h.quiet hnone hmove.grows hmove.popped_le hmove.pushed_prefix
      have hgrows := hmove.grows
      cases hmove with
      | still _ _ hreturn => exact ⟨tickets, hquiet hreturn⟩
      | claimPush _ data hslot => exact ⟨tickets, hquiet rfl⟩
      | publish _ data n hslot => exact ⟨tickets, hquiet rfl⟩
      | claimPop _ data hslot => exact ⟨tickets, hquiet rfl⟩
      | release _ data n hslot =>
          have hdraining := hstage _ (Nat.mod_lt n (Nat.two_pow_pos k))
          rw [hslot] at hdraining
          exact ⟨tickets ++ [n], h.release hslot hdraining.1 hdraining.2.2 hbegan hgrows⟩

end ImgEngine.Runtime.ImgMpmc
