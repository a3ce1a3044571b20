import ImgEngine.Runtime.QueueMpmc.Theorems

namespace ImgEngine.Runtime.ImgMpmc

open ImgEngine.Library.Interleaving
open ImgEngine.Library.TicketRing

-- What the two loops may answer. The result -1, the early NULL and another round
-- of a loop each say something about the queue at the access that led to them.

inductive Side where
  | push
  | pop
  deriving DecidableEq

-- The position that a thread has loaded in the present round of its loop.
def loaded : Pc → Option (Side × UInt64)
  | .push (.loadSeq _ pos) | .push (.exchange _ pos) => some (.push, pos)
  | .pop (.loadSeq pos) | .pop (.exchange pos) => some (.pop, pos)
  | _ => none

section Events

variable {Thread : Type}

-- The load of the index with which the round began.
def Loads (thread : Thread) (side : Side) (pos : UInt64) : Event Thread Op Pc Result → Prop
  | .access thread' (.push (.loadTail _)) (.inl (.push (.loadSeq _ pos'))) =>
      thread' = thread ∧ side = .push ∧ pos' = pos
  | .access thread' (.pop .loadHead) (.inl (.pop (.loadSeq pos'))) =>
      thread' = thread ∧ side = .pop ∧ pos' = pos
  | _ => False

-- A successful compare-exchange, which moves the index on from pos.
def Claims (thread : Thread) (side : Side) (pos : UInt64) : Event Thread Op Pc Result → Prop
  | .access thread' (.push (.exchange _ pos')) (.inl (.push (.writeData _ _))) =>
      thread' = thread ∧ side = .push ∧ pos' = pos
  | .access thread' (.pop (.exchange pos')) (.inl (.pop (.readData _))) =>
      thread' = thread ∧ side = .pop ∧ pos' = pos
  | _ => False

-- After the thread loaded pos and before it loads again, another thread claimed pos.
def Overtaken (events : History Thread) (thread : Thread) (side : Side) (pos : UInt64) : Prop :=
  ∃ before load between claim other, events = before ++ load :: between ∧
    Loads thread side pos load ∧ (∀ event ∈ between, ∀ side pos, ¬Loads thread side pos event) ∧
    claim ∈ between ∧ other ≠ thread ∧ Claims other side pos claim

end Events

def GoesRound : Pc ⊕ Result → Prop
  | .inl (.push (.loadTail _)) | .inl (.pop .loadHead) => True
  | _ => False

-- A compare-exchange that goes round from here fails for no reason.
def Spurious (q : ImgMpmcQueue) : Pc → Prop
  | .push (.exchange _ pos) => q.tail = pos
  | .pop (.exchange pos) => q.head = pos
  | _ => False

def ReturnsNull : Result → Prop
  | .empty => True
  | .popped data => data = 0
  | _ => False

-- One access from p in the state q, after the events, gives its outcome for the
-- stated reason only. The queue was built with the given size.
structure Justified {Thread : Type} (size : UInt64) (events : History Thread) (q : ImgMpmcQueue)
    (thread : Thread) (p : Pc) (outcome : Pc ⊕ Result) : Prop where
  -- the pop of the ticket one lap before the tail has not released its cell
  full : outcome = .inr .full → ∃ data pos, p = .push (.loadSeq data pos) ∧ q.tail = pos ∧
    size ≤ pos ∧ ∀ popper item, (popper, pos - size, item) ∉ events.filterMap popReturn
  -- the push of the ticket at the head has not been published
  null : (∀ pusher data, Event.call pusher (.push data) ∈ events → data ≠ 0) →
    ∀ result, outcome = .inr result → ReturnsNull result →
      ∃ pos, p = .pop (.loadSeq pos) ∧ q.head = pos ∧ ∀ event ∈ events, ¬Publishes pos event
  round : GoesRound outcome → ¬Spurious q p →
    ∃ side pos, loaded p = some (side, pos) ∧ Overtaken events thread side pos

-- An access that does not return only has to account for another round.
theorem Justified.inl {Thread : Type} {size : UInt64} {events : History Thread}
    {q : ImgMpmcQueue} {thread : Thread} {p p' : Pc}
    (hround : GoesRound (.inl p') → ¬Spurious q p →
      ∃ side pos, loaded p = some (side, pos) ∧ Overtaken events thread side pos) :
    Justified size events q thread p (.inl p') where
  full := nofun
  null := fun _ _ h => by cases h
  round := hround

variable {Thread : Type} [DecidableEq Thread] {k : Nat} {first q : ImgMpmcQueue}
  {events : History Thread} {config : Config Thread ImgMpmcQueue Pc} {ring next : Ring Thread Ptr}
  {event : Event Thread Op Pc Result}

-- The ticket that the index of a side stands at.
def nextTicket (ring : Ring Thread Ptr) : Side → Nat
  | .push => ring.pushed.length
  | .pop => ring.popped

-- What a thread in its loop knows: it loaded the position of some ticket, and if
-- the index has moved on since then, another thread claimed that ticket.
def Watched (events : History Thread) (ring : Ring Thread Ptr) (thread : Thread) (p : Pc) : Prop :=
  ∀ side pos, loaded p = some (side, pos) → ∃ before load between n,
    events = before ++ load :: between ∧ Loads thread side pos load ∧
    (∀ event ∈ between, ∀ side pos, ¬Loads thread side pos event) ∧
    pos = UInt64.ofNat n ∧ n ≤ nextTicket ring side ∧
    (n < nextTicket ring side → ∃ claim ∈ between, ∃ other, other ≠ thread ∧
      Claims other side pos claim)

omit [DecidableEq Thread] in
-- A move of another thread either leaves the index alone or is the claim that
-- takes it on from the ticket it stood at.
theorem Move.nextTicket_cases {thread : Thread} {p : Pc} {outcome : Pc ⊕ Result}
    (hmove : Move k ring (.access thread p outcome) next) (side : Side) :
    nextTicket next side = nextTicket ring side ∨
      nextTicket next side = nextTicket ring side + 1 ∧
        Claims thread side (UInt64.ofNat (nextTicket ring side))
          (.access thread p outcome : Event Thread Op Pc Result) := by
  cases hmove with
  | still => exact .inl rfl
  | claimPush _ data hslot =>
      cases side with
      | push => exact .inr ⟨by simp [nextTicket, Ring.claimPush], rfl, rfl, rfl⟩
      | pop => exact .inl rfl
  | publish => cases side <;> exact .inl rfl
  | claimPop _ data hslot =>
      cases side with
      | push => exact .inl rfl
      | pop => exact .inr ⟨rfl, rfl, rfl, rfl⟩
  | release => cases side <;> exact .inl rfl

omit [DecidableEq Thread] in
theorem Loads.thread_eq {thread thread' : Thread} {side : Side} {pos : UInt64} {p : Pc}
    {outcome : Pc ⊕ Result} (h : Loads thread side pos (.access thread' p outcome)) :
    thread' = thread := by
  unfold Loads at h
  split at h
  · rename_i heq
    cases heq
    exact h.1
  · rename_i heq
    cases heq
    exact h.1
  · cases h

omit [DecidableEq Thread] in
-- Nothing that the thread watches for gets lost when more happens. An event that
-- moves the index on from the loaded position is the claim of another thread.
theorem Watched.append {thread : Thread} {p : Pc} (h : Watched events ring thread p)
    (hquiet : ∀ side pos, ¬Loads thread side pos event)
    (hmove : ∀ side, nextTicket next side = nextTicket ring side ∨
      nextTicket next side = nextTicket ring side + 1 ∧ ∃ other, other ≠ thread ∧
        Claims other side (UInt64.ofNat (nextTicket ring side)) event) :
    Watched (events ++ [event]) next thread p := by
  intro side pos hpos
  obtain ⟨before, load, between, n, rfl, hload, hsince, rfl, hle, hclaim⟩ := h side pos hpos
  refine ⟨before, load, between ++ [event], n, by simp, hload, ?_, rfl, ?_, ?_⟩
  · intro e he
    rcases List.mem_append.mp he with he | he
    · exact hsince e he
    · rw [List.mem_singleton.mp he]
      exact hquiet
  · rcases hmove side with heq | ⟨heq, -⟩ <;> omega
  · intro hlt
    by_cases hold : n < nextTicket ring side
    · obtain ⟨claim, hmem, hother⟩ := hclaim hold
      exact ⟨claim, List.mem_append_left _ hmem, hother⟩
    · rcases hmove side with heq | ⟨-, other, hne, hclaims⟩
      · omega
      · obtain rfl : n = nextTicket ring side := by omega
        exact ⟨event, List.mem_append_right _ (List.mem_singleton.mpr rfl), other, hne, hclaims⟩

omit [DecidableEq Thread] in
-- The thread's own accesses: the load of the index begins a round, and the load
-- of the sequence number keeps the position.
theorem Watched.access {thread : Thread} {p p' : Pc} {spurious : Bool}
    {pc : Thread → Option Pc} (h : Watched events ring thread p) (hrep : Represents k q pc ring)
    (hmove : Move k ring (.access thread p (imgMpmc.access q p spurious).2) next)
    (hout : (imgMpmc.access q p spurious).2 = .inl p') :
    Watched (events ++ [.access thread p (.inl p')]) next thread p' := by
  rw [hout] at hmove
  have hstill : (∀ side pos, ¬Claims thread side pos
      (.access thread p (.inl p') : Event Thread Op Pc Result)) →
      ∀ side, nextTicket next side = nextTicket ring side := by
    intro hno side
    rcases hmove.nextTicket_cases side with heq | ⟨-, hclaims⟩
    · exact heq
    · exact absurd hclaims (hno _ _)
  intro side pos hpos
  cases p with
  | push p =>
      cases p with
      | loadTail data =>
          cases hout
          cases hpos
          have hnext := hstill (fun _ _ => id) .push
          exact ⟨events, _, [], ring.pushed.length, rfl, ⟨rfl, rfl, rfl⟩, by simp, hrep.tail,
            Nat.le_of_eq hnext.symm, fun hlt => absurd hlt (by rw [hnext]; exact Nat.lt_irrefl _)⟩
      | loadSeq data pos' =>
          simp only [imgMpmc, imgMpmcPush] at hout
          split_ifs at hout <;> cases hout <;> cases hpos
          exact h.append (fun _ _ => id) (fun side => .inl (hstill (fun _ _ => id) side)) _ _ rfl
      | exchange data pos' =>
          simp only [imgMpmc, imgMpmcPush] at hout
          split_ifs at hout <;> cases hout <;> cases hpos
      | writeData data pos' =>
          cases hout
          cases hpos
      | storeSeq data pos' => cases hout
  | pop p =>
      cases p with
      | loadHead =>
          cases hout
          cases hpos
          have hnext := hstill (fun _ _ => id) .pop
          exact ⟨events, _, [], ring.popped, rfl, ⟨rfl, rfl, rfl⟩, by simp, hrep.head,
            Nat.le_of_eq hnext.symm, fun hlt => absurd hlt (by rw [hnext]; exact Nat.lt_irrefl _)⟩
      | loadSeq pos' =>
          simp only [imgMpmc, imgMpmcPop] at hout
          split_ifs at hout <;> cases hout <;> cases hpos
          exact h.append (fun _ _ => id) (fun side => .inl (hstill (fun _ _ => id) side)) _ _ rfl
      | exchange pos' =>
          simp only [imgMpmc, imgMpmcPop] at hout
          split_ifs at hout <;> cases hout <;> cases hpos
      | readData pos' =>
          cases hout
          cases hpos
      | storeSeq pos' data => cases hout

theorem Tracks.watched (tracks : Tracks k first events config ring) :
    ∀ thread p, config.pc thread = some p → Watched events ring thread p := by
  induction tracks with
  | start => simp [idle]
  | @call events config ring _ thread op _ ih =>
      refine forall_pc_call ?_ ?_
      · intro side pos hpos
        cases op <;> cases hpos
      · intro other p _ hp
        exact (ih other p hp).append (fun _ _ => id) (fun _ => .inl rfl)
  | @access events config ring next tracks thread p spurious hpc hmove _ ih =>
      refine forall_pc_access ?_ ?_
      · intro p' hout
        rw [hout]
        exact (ih thread p hpc).access tracks.represents hmove hout
      · intro other p' he hp
        refine (ih other p' hp).append ?_ ?_
        · intro side pos hload
          exact he hload.thread_eq.symm
        · intro side
          rcases hmove.nextTicket_cases side with heq | ⟨heq, hclaims⟩
          · exact .inl heq
          · exact .inr ⟨heq, thread, Ne.symm he, hclaims⟩

-- The slot of a published ticket has moved on to a larger sequence number.
theorem Tracks.published (tracks : Tracks k first events config ring) {pos : UInt64}
    (hmem : event ∈ events) (hpublish : Publishes pos event) :
    ∃ n, pos = UInt64.ofNat n ∧ n < ring.pushed.length ∧ n < (ring.slot (n % 2 ^ k)).seq := by
  induction tracks with
  | start => cases hmem
  | @call events config ring _ thread op _ ih =>
      rcases List.mem_append.mp hmem with hmem | hmem
      · exact ih hmem
      · rw [List.mem_singleton.mp hmem] at hpublish
        cases hpublish
  | @access events config ring next tracks thread p spurious hpc hmove _ ih =>
      rcases List.mem_append.mp hmem with hmem | hmem
      · obtain ⟨n, hpos, hpushed, hseq⟩ := ih hmem
        obtain ⟨more, hmore⟩ := hmove.pushed_prefix
        refine ⟨n, hpos, ?_, lt_of_lt_of_le hseq (hmove.seq_grows _)⟩
        rw [← hmore, List.length_append]
        omega
      · rw [List.mem_singleton.mp hmem] at hpublish
        have hstage := tracks.represents.inv.stage
        generalize (imgMpmc.access config.shared p spurious).2 = outcome at hmove hpublish
        cases hmove with
        | still _ _ _ hnone => exact absurd hpublish (hnone pos)
        | claimPush _ data hslot => cases hpublish
        | publish _ data n hslot =>
            have hclaimed := hstage _ (Nat.mod_lt n (Nat.two_pow_pos k))
            rw [hslot] at hclaimed
            exact ⟨n, Eq.symm hpublish, (List.getElem?_eq_some_iff.mp hclaimed.2.2).1,
              by simp [Ring.setSlot, Slot.seq]⟩
        | claimPop _ data hslot => cases hpublish
        | release _ data n hslot => cases hpublish

-- A thread that claimed a ticket for a pointer was called with that pointer.
theorem mem_calledBy {thread : Thread} {data : Ptr} (h : data ∈ calledBy thread events) :
    Event.call thread (.push data) ∈ events := by
  simp only [calledBy, List.mem_map, List.mem_filter, List.mem_filterMap, decide_eq_true_eq] at h
  obtain ⟨⟨caller, item⟩, ⟨⟨event, hmem, hcall⟩, rfl⟩, rfl⟩ := h
  unfold pushCall at hcall
  split at hcall
  · cases hcall
    exact hmem
  · cases hcall

theorem claimed_called {legal : Config Thread ImgMpmcQueue Pc → Turn Thread Op Bool → Prop}
    (run : imgMpmc.Run legal (idle Thread first) events config) {thread : Thread} {pos : UInt64}
    {data : Ptr} (h : (thread, pos, data) ∈ events.filterMap pushClaim) :
    Event.call thread (.push data) ∈ events := by
  have hclaimed : data ∈ claimedBy thread events := by
    simp only [claimedBy, List.mem_map, List.mem_filter, decide_eq_true_eq]
    exact ⟨_, ⟨h, rfl⟩, rfl⟩
  exact mem_calledBy (((List.sublist_append_left _ _).trans (claimedBy_sublist run thread)).subset
    hclaimed)

section Answers

-- The sizes that the words leave room for: no index has wrapped, and no sequence
-- number is half a word ahead of an index.
structure Roomy (k : Nat) (ring : Ring Thread Ptr) : Prop where
  lap : 1 ≤ k
  size : k ≤ 59
  tickets : ring.pushed.length + ring.popped < 2 ^ 63

omit [DecidableEq Thread] in
theorem Roomy.two_le (h : Roomy k ring) : 2 ≤ 2 ^ k := by
  simpa using Nat.pow_le_pow_right (n := 2) (by omega) h.lap

variable {pc : Thread → Option Pc}

omit [DecidableEq Thread] in
theorem Represents.cell_seq (hrep : Represents k q pc ring) (hk : k ≤ 63) (n : Nat) :
    (q.cell (UInt64.ofNat n)).seq = UInt64.ofNat (ring.slot (n % 2 ^ k)).seq := by
  rw [cell_ofNat hk hrep.mask, hrep.seq _ (Nat.mod_lt _ (Nat.two_pow_pos k))]

omit [DecidableEq Thread] in
-- The signed difference compares the sequence number with the ticket itself.
theorem Represents.diff_neg_iff (hrep : Represents k q pc ring) (hroomy : Roomy k ring) {n m : Nat}
    (hm : m ≤ 2 ^ 63) :
    (q.cell (UInt64.ofNat n)).seq.toInt64 - (UInt64.ofNat m).toInt64 < 0 ↔
      (ring.slot (n % 2 ^ k)).seq < m := by
  have hpow : 2 ^ k ≤ 2 ^ 59 := Nat.pow_le_pow_right (by omega) hroomy.size
  have hseq := Ring.seq_le hrep.inv (Nat.mod_lt n (Nat.two_pow_pos k))
  have hordered := hrep.inv.ordered
  have htickets := hroomy.tickets
  rw [hrep.cell_seq (by have := hroomy.size; omega)]
  exact toInt64_sub_neg_iff (by omega) (by omega)

omit [DecidableEq Thread] in
theorem Represents.diff_zero_iff (hrep : Represents k q pc ring) (hroomy : Roomy k ring)
    {n m : Nat} (hm : m ≤ 2 ^ 63) :
    (q.cell (UInt64.ofNat n)).seq.toInt64 - (UInt64.ofNat m).toInt64 = 0 ↔
      (ring.slot (n % 2 ^ k)).seq = m := by
  have hpow : 2 ^ k ≤ 2 ^ 59 := Nat.pow_le_pow_right (by omega) hroomy.size
  have hseq := Ring.seq_le hrep.inv (Nat.mod_lt n (Nat.two_pow_pos k))
  have hordered := hrep.inv.ordered
  have htickets := hroomy.tickets
  rw [hrep.cell_seq (by have := hroomy.size; omega), toInt64_sub_eq_zero_iff]
  constructor
  · exact uint64_ofNat_inj (by omega) (by omega)
  · exact congrArg UInt64.ofNat

-- Push finds a smaller number than its ticket only at the tail, and only when the
-- ticket one lap before still holds the cell.
theorem Tracks.full (tracks : Tracks k first events config ring) (hroomy : Roomy k ring) {n : Nat}
    (hn : n ≤ ring.pushed.length) (hseq : (ring.slot (n % 2 ^ k)).seq < n) :
    n = ring.pushed.length ∧ 2 ^ k ≤ n ∧ ∀ popper item,
      (popper, UInt64.ofNat (n - 2 ^ k), item) ∉ events.filterMap popReturn := by
  have hinv := tracks.represents.inv
  have htickets := hroomy.tickets
  obtain rfl : n = ring.pushed.length := by
    by_contra hne
    have := Ring.le_seq_of_lt_pushed hinv hroomy.two_le (n := n) (by omega)
    omega
  have hlap := Ring.size_le_pushed hinv hroomy.two_le hseq
  have htwo := hroomy.two_le
  refine ⟨rfl, hlap, ?_⟩
  intro popper item hreturn
  obtain ⟨tickets, -, hmap, hpast, -⟩ := tracks.returns
  have hmem := List.mem_map_of_mem (f := fun c => c.2.1) hreturn
  rw [hmap] at hmem
  obtain ⟨m, hm, heq⟩ := List.mem_map.mp hmem
  obtain ⟨hpopped, hticket⟩ := hpast m hm
  obtain rfl := uint64_ofNat_inj (by omega) (by omega) heq
  -- its pop has returned, so the cell already shows the number of the next lap
  have hslot : (ring.pushed.length - 2 ^ k) % 2 ^ k = ring.pushed.length % 2 ^ k :=
    (Nat.mod_eq_sub_mod hlap).symm
  have hres := hinv.residue _ (Nat.mod_lt ring.pushed.length (Nat.two_pow_pos k))
  rw [hslot] at hticket
  have hle := @Ring.ticket_le (2 ^ k) _ _ hres.symm (by omega)
  have hseqs : (ring.slot (ring.pushed.length % 2 ^ k)).ticket ≤
      (ring.slot (ring.pushed.length % 2 ^ k)).seq := by
    cases ring.slot (ring.pushed.length % 2 ^ k) with
    | free => exact Nat.le_refl _
    | claimed => exact Nat.le_refl _
    | full => exact Nat.le_succ _
    | draining => exact Nat.le_succ _
  omega

theorem Tracks.empty (tracks : Tracks k first events config ring) (hroomy : Roomy k ring) {n : Nat}
    (hn : n ≤ ring.popped) (hseq : (ring.slot (n % 2 ^ k)).seq < n + 1) :
    n = ring.popped ∧ ∀ event ∈ events, ¬Publishes (UInt64.ofNat n) event := by
  have hinv := tracks.represents.inv
  have htickets := hroomy.tickets
  have hordered := hinv.ordered
  refine ⟨?_, ?_⟩
  · by_contra hne
    have := Ring.lt_seq_of_lt_popped hinv hroomy.two_le (n := n) (by omega)
    omega
  · intro event hmem hpublish
    obtain ⟨m, heq, hpushed, hlater⟩ := tracks.published hmem hpublish
    obtain rfl := uint64_ofNat_inj (by omega) (by omega) heq
    omega

-- Either index that a thread finds moved on has been moved by another thread.
theorem Tracks.overtaken (tracks : Tracks k first events config ring) {thread : Thread} {p : Pc}
    (hpc : config.pc thread = some p) (side : Side) {n : Nat}
    (hloaded : loaded p = some (side, UInt64.ofNat n)) (hn : n < nextTicket ring side)
    (hsmall : nextTicket ring side < 2 ^ 63) :
    Overtaken events thread side (UInt64.ofNat n) := by
  obtain ⟨before, load, between, m, hevents, hload, hsince, hpos, hle, hclaim⟩ :=
    tracks.watched thread p hpc side _ hloaded
  obtain rfl := uint64_ofNat_inj (by omega) (by omega) hpos
  obtain ⟨claim, hmem, other, hother, hclaims⟩ := hclaim hn
  exact ⟨before, load, between, claim, other, hevents, hload, hsince, hmem, hother, hclaims⟩

theorem Tracks.justified_push (tracks : Tracks k first events config ring) (hroomy : Roomy k ring)
    {size : UInt64} (hsize : size.toNat = 2 ^ k) {thread : Thread} {p : PushPc}
    (hpc : config.pc thread = some (.push p)) (spurious : Bool) :
    Justified size events config.shared thread (.push p)
      (imgMpmc.access config.shared (.push p) spurious).2 := by
  have hrep := tracks.represents
  have htickets := hroomy.tickets
  have hsmall : ring.pushed.length < 2 ^ 63 := by omega
  cases p with
  | loadTail data => exact .inl fun h => h.elim
  | loadSeq data pos =>
      obtain ⟨-, -, -, n, -, -, -, rfl, hn, -⟩ := tracks.watched thread _ hpc .push pos rfl
      have hn : n ≤ ring.pushed.length := hn
      simp only [imgMpmc, imgMpmcPush, hrep.diff_zero_iff hroomy (m := n) (by omega),
        hrep.diff_neg_iff hroomy (m := n) (by omega)]
      split_ifs with heq hlt
      · exact .inl fun h => h.elim
      · refine ⟨fun _ => ?_, fun _ result h hnull => ?_, fun h => h.elim⟩
        · obtain ⟨rfl, hlap, hreturn⟩ := tracks.full hroomy hn hlt
          have hle : size ≤ UInt64.ofNat ring.pushed.length := by
            rw [UInt64.le_iff_toNat_le, hsize, word_toNat hsmall]
            exact hlap
          refine ⟨data, _, rfl, hrep.tail, hle, ?_⟩
          rw [← UInt64.ofNat_toNat (x := size), hsize, ← UInt64.ofNat_sub hlap]
          exact hreturn
        · cases h
          cases hnull
      · refine .inl fun _ _ => ⟨.push, _, rfl, ?_⟩
        refine tracks.overtaken hpc .push rfl ?_ hsmall
        have := Ring.seq_le_pushed hrep.inv hroomy.two_le
        refine lt_of_le_of_ne hn fun hlast => ?_
        rw [hlast, nextTicket] at hlt heq
        omega
  | exchange data pos =>
      obtain ⟨-, -, -, n, -, -, -, rfl, hn, -⟩ := tracks.watched thread _ hpc .push pos rfl
      have hn : n ≤ ring.pushed.length := hn
      simp only [imgMpmc, imgMpmcPush]
      split_ifs with hwin
      · exact .inl fun h => h.elim
      · refine .inl fun _ hspurious => ⟨.push, _, rfl, ?_⟩
        refine tracks.overtaken hpc .push rfl ?_ hsmall
        refine lt_of_le_of_ne hn ?_
        rintro rfl
        exact hspurious hrep.tail
  | writeData data pos => exact .inl fun h => h.elim
  | storeSeq data pos =>
      refine ⟨fun h => (by cases h), fun _ result h hnull => ?_, fun h => h.elim⟩
      cases h
      cases hnull

theorem Tracks.justified_pop {legal : Config Thread ImgMpmcQueue Pc → Turn Thread Op Bool → Prop}
    (tracks : Tracks k first events config ring)
    (run : imgMpmc.Run legal (idle Thread first) events config) (hroomy : Roomy k ring)
    (size : UInt64) {thread : Thread} {p : PopPc} (hpc : config.pc thread = some (.pop p))
    (spurious : Bool) :
    Justified size events config.shared thread (.pop p)
      (imgMpmc.access config.shared (.pop p) spurious).2 := by
  have hrep := tracks.represents
  have htickets := hroomy.tickets
  have hsmall : ring.popped < 2 ^ 63 := by omega
  cases p with
  | loadHead => exact .inl fun h => h.elim
  | loadSeq pos =>
      obtain ⟨-, -, -, n, -, -, -, rfl, hn, -⟩ := tracks.watched thread _ hpc .pop pos rfl
      have hn : n ≤ ring.popped := hn
      have hsucc : UInt64.ofNat n + 1 = UInt64.ofNat (n + 1) := by simp [UInt64.ofNat_add]
      simp only [imgMpmc, imgMpmcPop, hsucc, hrep.diff_zero_iff hroomy (m := n + 1) (by omega),
        hrep.diff_neg_iff hroomy (m := n + 1) (by omega)]
      split_ifs with heq hlt
      · exact .inl fun h => h.elim
      · refine ⟨fun h => (by cases h), fun _ _ _ _ => ?_, fun h => h.elim⟩
        obtain ⟨rfl, hpublish⟩ := tracks.empty hroomy hn hlt
        exact ⟨_, rfl, hrep.head, hpublish⟩
      · refine .inl fun _ _ => ⟨.pop, _, rfl, ?_⟩
        refine tracks.overtaken hpc .pop rfl ?_ hsmall
        have := Ring.seq_le_popped hrep.inv hroomy.two_le
        refine lt_of_le_of_ne hn fun hlast => ?_
        rw [hlast, nextTicket] at hlt heq
        omega
  | exchange pos =>
      obtain ⟨-, -, -, n, -, -, -, rfl, hn, -⟩ := tracks.watched thread _ hpc .pop pos rfl
      have hn : n ≤ ring.popped := hn
      simp only [imgMpmc, imgMpmcPop]
      split_ifs with hwin
      · exact .inl fun h => h.elim
      · refine .inl fun _ hspurious => ⟨.pop, _, rfl, ?_⟩
        refine tracks.overtaken hpc .pop rfl ?_ hsmall
        refine lt_of_le_of_ne hn ?_
        rintro rfl
        exact hspurious hrep.head
  | readData pos => exact .inl fun h => h.elim
  | storeSeq pos data =>
      refine ⟨fun h => (by cases h), fun hdata result h hnull => ?_, fun h => h.elim⟩
      cases h
      -- what a pop returns was passed to a push, so it is not null
      obtain ⟨n, rfl, hslot⟩ := hrep.agrees thread _ hpc
      have hdraining := hrep.inv.stage _ (Nat.mod_lt n (Nat.two_pow_pos k))
      rw [hslot] at hdraining
      obtain ⟨pusher, hclaim⟩ := tracks.pushClaim_of_getElem hdraining.2.2
      exact absurd hnull (hdata _ _ (claimed_called run hclaim))

end Answers

-- aligned_alloc finds no memory in a block of no bytes, which is what it is asked
-- for when the size of the cells overflows.
theorem imgMpmcInit_size_lt {alignedAlloc : UInt64 → Bool} {size : UInt64} {q : ImgMpmcQueue}
    (hinit : imgMpmcInit alignedAlloc size = some q) (hzero : alignedAlloc 0 = false)
    (hsize : q.size.toNat = 2 ^ k) : k ≤ 59 := by
  simp only [imgMpmcInit] at hinit
  split_ifs at hinit
  split at hinit
  · cases hinit
  · rename_i size' hpow
    split_ifs at hinit with halloc
    cases hinit
    by_contra hlarge
    obtain ⟨d, rfl⟩ : ∃ d, k = 60 + d := ⟨k - 60, by omega⟩
    have hbytes : cellBytes * size' = 0 := by
      apply UInt64.toNat_inj.mp
      rw [UInt64.toNat_mul, hsize, Nat.pow_add]
      change 16 * (2 ^ 60 * 2 ^ d) % 2 ^ 64 = 0
      omega
    rw [hbytes, hzero] at halloc
    cases halloc

theorem imgMpmc_justified {alignedAlloc : UInt64 → Bool} {size : UInt64} {q : ImgMpmcQueue}
    (hinit : imgMpmcInit alignedAlloc size = some q) (hzero : alignedAlloc 0 = false)
    (hsize : 2 ≤ q.size) {events : History Thread} {config : Config Thread ImgMpmcQueue Pc}
    (run : imgMpmc.Run (fun _ _ => True) (idle Thread q) events config)
    (hops : events.countP Event.isCall < 2 ^ 63) {thread : Thread} {p : Pc}
    (hpc : config.pc thread = some p) (spurious : Bool) :
    Justified q.size events config.shared thread p
      (imgMpmc.access config.shared p spurious).2 := by
  obtain ⟨k, hk, hpow, hfirst⟩ := represents_init Thread hinit
  have hk1 : 1 ≤ k := by
    rw [UInt64.le_iff_toNat_le, hpow] at hsize
    rcases Nat.eq_zero_or_pos k with rfl | hpos
    · simp at hsize
    · exact hpos
  obtain ⟨ring, tracks, -⟩ := Tracks.of_run hk1 hk hfirst run hops
  have hroomy : Roomy k ring := by
    refine ⟨hk1, imgMpmcInit_size_lt hinit hzero hpow, ?_⟩
    have hclaims := claims_le_calls run
    have hpushes := congrArg List.length tracks.pushes.2
    have hpops := congrArg List.length tracks.pops
    rw [List.length_map] at hpushes
    rw [List.length_map, List.length_map, List.length_range] at hpops
    omega
  cases p with
  | push p => exact tracks.justified_push hroomy hpow hpc spurious
  | pop p => exact tracks.justified_pop run hroomy q.size hpc spurious

-- A third push into a queue of two cells gives up while both items wait.
theorem imgMpmc_justified_full :
    ∃ q events config p, imgMpmcInit (fun bytes => bytes != 0) 2 = some q ∧
      imgMpmc.Run (fun _ _ => True) (idle Bool q) events config ∧ config.pc true = some p ∧
      (imgMpmc.access config.shared p false).2 = .inr .full ∧
      Justified q.size events config.shared true p (imgMpmc.access config.shared p false).2 := by
  let q : ImgMpmcQueue := { size := 2, mask := 1, cells := initCells 2, head := 0, tail := 0 }
  let pushes : List (Turn Bool Op Bool) :=
    .call true (.push 7) :: List.replicate 5 (.access true false)
  let turns := pushes ++ pushes ++ [.call true (.push 7), .access true false]
  have hplay : (imgMpmc.playAll (fun _ _ => True) turns [] (idle Bool q)).map
      (fun r => (r.2.pc true, r.1.countP Event.isCall,
        (imgMpmc.access r.2.shared (.push (.loadSeq 7 2)) false).2)) =
      some (some (.push (.loadSeq 7 2)), 3, .inr .full) := by
    decide
  obtain ⟨⟨events, config⟩, hplay, hresult⟩ := Option.map_eq_some_iff.mp hplay
  simp only [Prod.mk.injEq] at hresult
  obtain ⟨hpc, hcalls, hfull⟩ := hresult
  have run : imgMpmc.Run (fun _ _ => True) (idle Bool q) events config :=
    Program.Run.start.playAll hplay
  have hinit : imgMpmcInit (fun bytes => bytes != 0) 2 = some q := rfl
  exact ⟨q, events, config, _, hinit, run, hpc, hfull,
    imgMpmc_justified hinit rfl (by decide) run (by omega) hpc false⟩

end ImgEngine.Runtime.ImgMpmc
