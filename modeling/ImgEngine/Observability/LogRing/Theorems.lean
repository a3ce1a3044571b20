import ImgEngine.Observability.LogRing.Simulation
import ImgEngine.Runtime.QueueMpmc.History

namespace ImgEngine.Observability.ImgLogger

open ImgEngine.Library.Interleaving
open ImgEngine.Library.TicketRing
open scoped List

variable {Thread : Type}

-- The messages with their tickets.
def numbered (msgs : List LogMsg) : List (UInt64 × LogMsg) :=
  msgs.mapIdx fun n msg => (UInt64.ofNat n, msg)

theorem numbered_concat (msgs : List LogMsg) (msg : LogMsg) :
    numbered (msgs ++ [msg]) = numbered msgs ++ [(UInt64.ofNat msgs.length, msg)] :=
  List.mapIdx_concat

@[simp] theorem length_numbered (msgs : List LogMsg) : (numbered msgs).length = msgs.length :=
  List.length_mapIdx

theorem tickets_numbered (msgs : List LogMsg) :
    (numbered msgs).map (fun c => c.1) = (List.range msgs.length).map UInt64.ofNat := by
  induction msgs using List.reverseRecOn with
  | nil => rfl
  | append_singleton msgs msg ih => simp [numbered_concat, ih, List.range_succ]

theorem claims_snoc (events : History Thread) (event : Event Thread Op Pc Result) :
    claims (events ++ [event]) = claims events ++ ((pushClaim event).map fun c => c.2).toList := by
  cases h : pushClaim event with
  | none => simp [claims, h]
  | some c => simp [claims, h]

theorem delivered_snoc (events : History Thread) (event : Event Thread Op Pc Result) :
    delivered (events ++ [event]) = delivered events ++ (popReturn event).toList := by
  cases h : popReturn event with
  | none => simp [delivered, h]
  | some c => simp [delivered, h]

variable {k : Nat} {consumer : Thread} {first : LogRing} {events : History Thread}
  {config : Config Thread LogRing Pc} {ring next : Ring Thread LogMsg}

-- The history tells of the ring: the claimed messages are those pushed, and the
-- delivered ones those popped but for the one in the consumer's hand.
structure Tracks (k : Nat) (consumer : Thread) (events : History Thread)
    (config : Config Thread LogRing Pc) (ring : Ring Thread LogMsg) : Prop where
  represents : Represents k consumer config.shared config.pc ring
  claims : claims events = numbered ring.pushed
  delivered : delivered events =
    (numbered ring.pushed).take (ring.popped - inHand (config.pc consumer))

theorem Move.claims {event : Event Thread Op Pc Result} (hmove : Move k consumer ring event next)
    (h : claims events = numbered ring.pushed) :
    claims (events ++ [event]) = numbered next.pushed := by
  rw [claims_snoc, h]
  cases hmove with
  | still hclaim => simp [hclaim]
  | claimPush thread msg todo => exact (numbered_concat ring.pushed msg).symm
  | publish thread msg n => exact List.append_nil _
  | claimPop msg out todo => exact List.append_nil _
  | release msg n hpopped hslot => exact List.append_nil _

variable [DecidableEq Thread]

theorem inHand_update {pc : Thread → Option Pc} {thread : Thread} {place : Option Pc}
    (h : inHand place = inHand (pc thread)) (consumer : Thread) :
    inHand (Function.update pc thread place consumer) = inHand (pc consumer) := by
  by_cases he : consumer = thread
  · rw [he, Function.update_self, h]
  · rw [Function.update_of_ne he]

theorem Move.delivered {thread : Thread} {p : Pc} {outcome : Pc ⊕ Result}
    (hmove : Move k consumer ring (.access thread p outcome) next) (hinv : ring.Inv (2 ^ k))
    {pc : Thread → Option Pc} (hpc : pc thread = some p)
    (h : delivered events = (numbered ring.pushed).take (ring.popped - inHand (pc consumer))) :
    delivered (events ++ [.access thread p outcome]) = (numbered next.pushed).take
      (next.popped - inHand (Function.update pc thread outcome.getLeft? consumer)) := by
  rw [delivered_snoc, h]
  cases hmove with
  | still hclaim hreturn hhand =>
      rw [hreturn, inHand_update (hpc ▸ hhand)]
      exact List.append_nil _
  | claimPush _ msg todo =>
      rw [inHand_update (hpc ▸ rfl)]
      have hle : ring.popped ≤ (numbered ring.pushed).length := by
        simpa using hinv.ordered
      simp only [Ring.claimPush, Ring.setSlot, numbered_concat]
      rw [List.take_append_of_le_length (by omega)]
      exact List.append_nil _
  | publish _ msg n =>
      rw [inHand_update (hpc ▸ rfl)]
      exact List.append_nil _
  | claimPop msg out todo =>
      rw [hpc, Function.update_self]
      exact List.append_nil _
  | release msg n hpopped hslot =>
      have hstage := hinv.stage _ (Nat.mod_lt n (Nat.two_pow_pos k))
      rw [hslot] at hstage
      have hitem : (numbered ring.pushed)[n]? = some (UInt64.ofNat n, msg) := by
        simp [numbered, hstage.2.2]
      have hbefore : ring.popped - inHand (pc consumer) = n := by
        rw [hpc, ← hpopped]
        rfl
      rw [Function.update_self, hbefore]
      simp only [Ring.setSlot, ← hpopped]
      change _ = (numbered ring.pushed).take (n + 1)
      rw [List.take_add_one, hitem]
      rfl

theorem Tracks.turn (tracks : Tracks k consumer events config ring) (hk1 : 1 ≤ k) (hk : k ≤ 63)
    (hsmall : ring.pushed.length < 2 ^ 63) {turn : Turn Thread Op Choice}
    {event : Event Thread Op Pc Result} {config' : Config Thread LogRing Pc}
    (hlegal : Contract consumer config turn)
    (hplay : logRing.play config turn = some (event, config')) :
    ∃ next, Tracks k consumer (events ++ [event]) config' next := by
  obtain ⟨thread, op, rfl, hpc, rfl, rfl⟩ | ⟨thread, choice, p, rfl, hpc, rfl, rfl⟩ :=
    Program.play_cases hplay
  · refine ⟨ring, tracks.represents.call thread op ?_, ?_, ?_⟩
    · rintro out rfl
      exact hlegal
    · rw [claims_snoc, tracks.claims]
      exact List.append_nil _
    · have hhand : inHand (some (logRing.start op)) = inHand (config.pc thread) := by
        rw [hpc]
        cases op <;> rfl
      rw [delivered_snoc, tracks.delivered, inHand_update hhand]
      exact List.append_nil _
  · obtain ⟨next, hnext, hmove⟩ := tracks.represents.access hk1 hk hsmall thread p hpc choice
    exact ⟨next, hnext, hmove.claims tracks.claims,
      hmove.delivered tracks.represents.inv hpc tracks.delivered⟩

variable {legal : Config Thread LogRing Pc → Turn Thread Op Choice → Prop}

-- The points of the push loop from which a ticket can still be claimed.
def beforeClaim : Pc → Bool
  | .push (.loadTail _) | .push (.loadSeq _ _) | .push (.exchange _ _) => true
  | _ => false

-- A push claims at most one ticket.
theorem claims_le_calls (run : logRing.Run legal (idle Thread first) events config) :
    (claims events).length ≤ events.countP Event.isCall := by
  rw [claims, List.length_map, List.length_filterMap_eq_countP]
  refine run.countP_le_calls beforeClaim (fun _ => true) (fun _ _ => rfl) (fun _ _ => rfl) ?_ ?_
    (fun _ => rfl)
  · intro q thread p choice hclaim
    cases p with
    | push p => cases p <;> first | rfl | simp [pushClaim] at hclaim
    | pop p => simp [pushClaim] at hclaim
  · intro q thread p choice p' hout howes
    cases p with
    | push p =>
        cases p with
        | loadTail msg =>
            cases hout
            exact ⟨rfl, rfl⟩
        | loadSeq msg pos =>
            simp only [logRing_push, logRingPush] at hout
            split_ifs at hout <;> cases hout <;> exact ⟨rfl, rfl⟩
        | exchange msg pos =>
            simp only [logRing_push, logRingPush] at hout
            split_ifs at hout <;> cases hout
            · cases howes
            · exact ⟨rfl, rfl⟩
        | copy msg pos todo =>
            cases todo with
            | cons i todo =>
                cases hout
                cases howes
            | nil => cases hout
    | pop p =>
        obtain ⟨place, -, rfl⟩ := map_eq_inl hout
        cases howes

-- Every run with fewer than 2^63 operations is a run of the ticket ring.
theorem Tracks.of_run (hk1 : 1 ≤ k) (hk : k ≤ 63)
    (hfirst : Represents k consumer first (fun _ => none) Ring.empty)
    (run : logRing.Run (Contract consumer) (idle Thread first) events config)
    (hops : events.countP Event.isCall < 2 ^ 63) :
    ∃ ring, Tracks k consumer events config ring ∧ ring.pushed.length < 2 ^ 63 := by
  have hsmall : ∀ {events : History Thread} {config ring},
      logRing.Run (Contract consumer) (idle Thread first) events config →
      events.countP Event.isCall < 2 ^ 63 → Tracks k consumer events config ring →
      ring.pushed.length < 2 ^ 63 := by
    intro events config ring run hops tracks
    have hle := claims_le_calls run
    rw [tracks.claims, length_numbered] at hle
    exact lt_of_le_of_lt hle hops
  suffices htracks : ∃ ring, Tracks k consumer events config ring by
    obtain ⟨ring, tracks⟩ := htracks
    exact ⟨ring, tracks, hsmall run hops tracks⟩
  induction run with
  | start => exact ⟨Ring.empty, hfirst, rfl, rfl⟩
  | turn turn run hlegal hplay ih =>
      rw [List.countP_append] at hops
      have hops' := Nat.lt_of_le_of_lt (Nat.le_add_right _ _) hops
      obtain ⟨ring, tracks⟩ := ih hops'
      exact tracks.turn hk1 hk (hsmall run hops' tracks) hlegal hplay

omit [DecidableEq Thread] in
-- The consumer stands at the head, and no cell there is ahead of it.
theorem Represents.not_ahead {pc : Thread → Option Pc} {q : LogRing}
    (h : Represents k consumer q pc ring) (hk1 : 1 ≤ k) (hk : k ≤ 63)
    (hsmall : ring.pushed.length < 2 ^ 63) {thread : Thread} {p : Pc}
    (hpc : pc thread = some p) : ¬Ahead q p := by
  have hknows := h.knows thread p hpc
  intro hahead
  cases p with
  | push p => exact hahead
  | pop p =>
      cases p with
      | loadSeq out pos =>
          obtain ⟨-, rfl⟩ := hknows
          have hle := Ring.seq_le_popped h.inv (Nat.le_self_pow (by omega) 2)
          have hlt := Int64.lt_iff_toInt_lt.mp hahead
          rw [Int64.toInt_zero, h.pop_diff hk1 hk hsmall] at hlt
          omega
      | _ => exact hahead

-- What a thread in log_ring_push has passed in and not claimed a ticket for, and
-- what it has claimed and not published.

def unclaimed : Pc → List LogMsg
  | .push (.loadTail msg) | .push (.loadSeq msg _) | .push (.exchange msg _) => [msg]
  | _ => []

def unpublished : Pc → List (UInt64 × LogMsg)
  | .push (.copy msg pos _) => [(pos, msg)]
  | _ => []

omit [DecidableEq Thread] in
theorem pushClaim_thread {event : Event Thread Op Pc Result} {c : Thread × UInt64 × LogMsg}
    (h : pushClaim event = some c) : c.1 = event.thread := by
  unfold pushClaim at h
  split at h <;> cases h
  rfl

omit [DecidableEq Thread] in
theorem pushReturn_thread {event : Event Thread Op Pc Result} {c : Thread × UInt64 × LogMsg}
    (h : pushReturn event = some c) : c.1 = event.thread := by
  unfold pushReturn at h
  split at h <;> cases h
  rfl

-- One access hands the message on, or claims a ticket for it, or gives up.
theorem claimed_access (q : LogRing) (thread : Thread) (p : Pc) (choice : Choice) :
    (claimedBy thread [.access thread p (logRing.access q p choice).2]).map (fun c => c.2) ++
      (logRing.access q p choice).2.getLeft?.elim [] unclaimed <+ unclaimed p := by
  cases p with
  | push p =>
      rw [logRing_push]
      cases p with
      | loadTail msg => exact List.Sublist.refl _
      | loadSeq msg pos =>
          simp only [logRingPush]
          split_ifs
          · exact List.Sublist.refl _
          · exact List.nil_sublist _
          · exact List.Sublist.refl _
      | exchange msg pos =>
          simp only [logRingPush]
          split_ifs
          · simp [claimedBy, pushClaim, unclaimed]
          · exact List.Sublist.refl _
      | copy msg pos todo => cases todo <;> exact List.nil_sublist _
  | pop p =>
      rw [logRing_pop]
      cases (logRingPop q choice p).2 <;> exact List.nil_sublist _

-- One access claims the ticket, or keeps it during memcpy, or publishes it.
theorem accepted_access (q : LogRing) (thread : Thread) (p : Pc) (choice : Choice) :
    acceptedBy thread [.access thread p (logRing.access q p choice).2] ++
        (logRing.access q p choice).2.getLeft?.elim [] unpublished <+
      unpublished p ++ claimedBy thread [.access thread p (logRing.access q p choice).2] := by
  cases p with
  | push p =>
      rw [logRing_push]
      cases p with
      | loadTail msg => exact List.nil_sublist _
      | loadSeq msg pos =>
          simp only [logRingPush]
          split_ifs <;> exact List.nil_sublist _
      | exchange msg pos =>
          simp only [logRingPush]
          split_ifs
          · simp [acceptedBy, pushReturn, claimedBy, pushClaim, unpublished]
          · exact List.nil_sublist _
      | copy msg pos todo =>
          cases todo with
          | nil => simp [logRingPush, acceptedBy, pushReturn, unpublished]
          | cons i todo => exact List.sublist_append_left [(pos, msg)] _
  | pop p =>
      rw [logRing_pop]
      cases (logRingPop q choice p).2 <;> exact List.nil_sublist _

theorem calledBy_append (thread : Thread) (xs ys : History Thread) :
    calledBy thread (xs ++ ys) = calledBy thread xs ++ calledBy thread ys := by
  simp [calledBy]

theorem claimedBy_append (thread : Thread) (xs ys : History Thread) :
    claimedBy thread (xs ++ ys) = claimedBy thread xs ++ claimedBy thread ys := by
  simp [claimedBy]

theorem acceptedBy_append (thread : Thread) (xs ys : History Thread) :
    acceptedBy thread (xs ++ ys) = acceptedBy thread xs ++ acceptedBy thread ys := by
  simp [acceptedBy]

theorem claimed_sublist_called (run : logRing.Run legal (idle Thread first) events config)
    (thread : Thread) : (claimedBy thread events).map (fun c => c.2) <+ calledBy thread events := by
  refine (List.sublist_append_left _ _).trans
    (run.gives_sublist thread (calledBy thread)
      (fun events => (claimedBy thread events).map (fun c => c.2)) unclaimed
      (calledBy_append thread) ?_ ?_ ?_ ?_ rfl)
  · intro xs ys
    rw [claimedBy_append, List.map_append]
  · intro event hne
    rw [claimedBy, filter_filterMap_other (fun _ _ => pushClaim_thread) event hne]
    rfl
  · intro op
    cases op with
    | push msg => simp [calledBy, pushCall, claimedBy, pushClaim, logRing, unclaimed]
    | pop out => exact List.nil_sublist _
  · intro q p choice
    exact (claimed_access q thread p choice).trans (List.sublist_append_left _ _)

theorem accepted_sublist_claimed (run : logRing.Run legal (idle Thread first) events config)
    (thread : Thread) : acceptedBy thread events <+ claimedBy thread events := by
  refine (List.sublist_append_left _ _).trans
    (run.gives_sublist thread (claimedBy thread) (acceptedBy thread) unpublished
      (claimedBy_append thread) (acceptedBy_append thread) ?_ ?_
      (fun q p choice => accepted_access q thread p choice) rfl)
  · intro event hne
    rw [acceptedBy, filter_filterMap_other (fun _ _ => pushReturn_thread) event hne]
    rfl
  · intro op
    cases op <;> exact List.nil_sublist _

theorem logRing_delivers {alignedAlloc : UInt64 → Option (UInt64 → LogCell)} {first : LogRing}
    (hinit : imgLoggerInit alignedAlloc = some first) {consumer : Thread}
    {events : History Thread} {config : Config Thread LogRing Pc}
    (run : logRing.Run (Contract consumer) (idle Thread first) events config)
    (hops : events.countP Event.isCall < 2 ^ 63) :
    Delivers events ∧
      ∀ thread p, config.pc thread = some p → ¬Ahead config.shared p := by
  obtain ⟨ring, tracks, hsmall⟩ :=
    Tracks.of_run (by decide) (by decide) (represents_init consumer hinit) run hops
  refine ⟨⟨⟨ring.pushed.length, hsmall, ?_⟩, claimed_sublist_called run,
    accepted_sublist_claimed run, ?_⟩, ?_⟩
  · rw [tracks.claims, tickets_numbered]
  · rw [tracks.delivered, tracks.claims]
    exact List.take_prefix _ _
  · intro thread p hpc
    exact tracks.represents.not_ahead (by decide) (by decide) hsmall hpc

-- A message goes from one thread to the consumer, whose pop returns with the head
-- moved on.
theorem logRing_delivers_handover :
    ∃ memory first events config,
      imgLoggerInit (fun _ => some memory) = some first ∧
      logRing.Run (Contract false) (idle Bool first) events config ∧
      config.shared.head = 1 ∧ (config.pc false).isNone ∧ Delivers events ∧
        ∀ thread p, config.pc thread = some p → ¬Ahead config.shared p := by
  let memory : UInt64 → LogCell := fun _ => { seq := 7, msg := fun _ => 0 }
  let first : LogRing :=
    { size := 1024, mask := 1023, cells := numberCells memory 1024, head := 0, tail := 0 }
  let choice : Choice := { spurious := false, order := Equiv.refl _ }
  -- three accesses before the 256 of memcpy and one after them
  let turns : List (Turn Bool Op Choice) :=
    .call true (.push fun _ => 65) :: List.replicate 260 (.access true choice) ++
      .call false (.pop fun _ => 0) :: List.replicate 260 (.access false choice)
  have hplay : (logRing.playAll (Contract false) turns [] (idle Bool first)).map
      (fun r => (r.2.shared.head, (r.2.pc false).isNone)) = some (1, true) := by
    decide +kernel
  obtain ⟨⟨events, config⟩, hplay, hresult⟩ := Option.map_eq_some_iff.mp hplay
  simp only [Prod.mk.injEq] at hresult
  have hinit : imgLoggerInit (fun _ => some memory) = some first := rfl
  have run : logRing.Run (Contract false) (idle Bool first) events config :=
    Program.Run.start.playAll hplay
  have hcalls : events.countP Event.isCall = 2 := by
    rw [Program.countP_isCall_playAll hplay]
    decide +kernel
  exact ⟨memory, first, events, config, hinit, run, hresult.1, hresult.2,
    logRing_delivers hinit run (by omega)⟩

end ImgEngine.Observability.ImgLogger
