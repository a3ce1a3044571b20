import ImgEngine.Observability.Logger.Steps

namespace ImgEngine.Observability.ImgLog

open ImgEngine.Library.Interleaving
open ImgEngine.Library.TicketRing
open scoped List

variable {Thread : Type} [DecidableEq Thread] {consumer owner : Thread}
  {events : History Thread} {config next : Config Thread Logger Pc}

-- What the thread has printed, and owes, is what it has popped.

def printedLine (entry : UInt64 × LogMsg) : List UInt8 := printable entry.2 ++ [10]

def poppedBy (event : Event Thread Op Pc Result) : Option (UInt64 × LogMsg) :=
  (logPart.event event).bind ImgLogger.popReturn

def claimedAs (event : Event Thread Op Pc Result) : Option (Thread × UInt64 × LogMsg) :=
  (logPart.event event).bind ImgLogger.pushClaim

omit [DecidableEq Thread] in
theorem delivered_events (events : History Thread) :
    ImgLogger.delivered (logPart.events events) = events.filterMap poppedBy := by
  rw [ImgLogger.delivered, List.filterMap_filterMap]
  rfl

theorem pop_result {q ring : LogRing} {choice : ImgLogger.Choice} {pc : ImgLogger.PopPc}
    {result : ImgLogger.Result} (h : logRingPop q choice pc = (ring, .inr result)) :
    (∃ pos, pc = .copy pc.out pos [] ∧ result = .popped pc.out) ∨
      result = .empty ∨ result = .missed := by
  cases pc with
  | loadHead out => cases h
  | loadSeq out pos =>
      simp only [logRingPop] at h
      split_ifs at h <;> cases h
      exact .inr (.inl rfl)
  | exchange out pos =>
      simp only [logRingPop] at h
      split_ifs at h <;> cases h
      exact .inr (.inr rfl)
  | copy out pos todo =>
      cases todo with
      | nil =>
          cases h
          exact .inl ⟨pos, rfl, rfl⟩
      | cons i todo => cases h

omit [DecidableEq Thread] in
theorem Step.prints {s s' : Logger} {pc : Pc} {outcome : Pc ⊕ Result}
    (hstep : Step s pc s' outcome) (thread : Thread) :
    s'.printed ++ owed outcome.getLeft? = s.printed ++ owed (some pc) ++
      (poppedBy (.access thread pc outcome)).toList.flatMap printedLine := by
  cases hstep with
  | @pop pc ring pc' choice h =>
      cases pc <;> simp [owed, poppedBy, Subprogram.event, logPart, ringPart, ImgLogger.popReturn]
  | @popped pc ring result choice h =>
      obtain ⟨pos, hpc, rfl⟩ | rfl | rfl := pop_result h
      · rw [hpc]
        simp [owed, poppedBy, Subprogram.event, logPart, ringPart, ImgLogger.popReturn,
          printedLine, ImgLogger.PopPc.out]
      · simp [owed, poppedBy, Subprogram.event, logPart, ringPart, ImgLogger.popReturn]
      · simp [owed, poppedBy, Subprogram.event, logPart, ringPart, ImgLogger.popReturn]
  | @pause result buffer hresult =>
      cases result with
      | popped out => exact absurd rfl (hresult out)
      | _ => simp [owed, poppedBy, Subprogram.event, logPart, ringPart]
  | _ => simp [owed, poppedBy, Subprogram.event, logPart, ringPart, ImgLogger.popReturn]

omit [DecidableEq Thread] in
-- Nobody else prints or pops.
theorem Step.aside {s s' : Logger} {pc : Pc} {outcome : Pc ⊕ Result}
    (hstep : Step s pc s' outcome) (hpc : pc.looping = false) (thread : Thread) :
    s'.printed = s.printed ∧ poppedBy (.access thread pc outcome) = none := by
  cases hstep with
  | poll | finish | pop | popped | print | pause | newline => cases hpc
  | _ => exact ⟨rfl, rfl⟩

theorem printed_of_run {first : Config Thread Logger Pc} (hfirst : Orderly consumer first)
    (hprinted : first.shared.printed = []) (hidle : first.pc consumer = none)
    (run : logger.Run (Contract consumer owner) first events config) :
    config.shared.printed ++ owed (config.pc consumer) =
      (events.filterMap poppedBy).flatMap printedLine := by
  induction run with
  | start =>
      rw [hprinted, hidle]
      rfl
  | @turn events config event next turn run hlegal hplay ih =>
      rw [List.filterMap_append, List.flatMap_append, ← ih]
      obtain ⟨thread, op, rfl, hpc, rfl, rfl⟩ | ⟨thread, choice, pc, rfl, hpc, rfl, rfl⟩ :=
        Program.play_cases hplay <;> dsimp only
      · have howed : owed (Function.update config.pc thread (some (logger.start op)) consumer) =
            owed (config.pc consumer) := by
          by_cases he : consumer = thread
          · subst he
            rw [Function.update_self, hpc]
            cases op <;> rfl
          · rw [Function.update_of_ne he]
        rw [howed]
        exact (List.append_nil _).symm
      · have hstep := step_access config.shared pc choice
        generalize logger.access config.shared pc choice = out at hstep
        have hone : [Event.access thread pc out.2].filterMap poppedBy =
            (poppedBy (.access thread pc out.2)).toList := by
          cases h : poppedBy (Event.access thread pc out.2) <;> simp [h]
        rw [hone]
        by_cases he : consumer = thread
        · subst he
          rw [Function.update_self, hpc]
          exact hstep.prints consumer
        · have hlooping : pc.looping = false := by
            by_contra h
            have hself := (hfirst.of_run run).placed thread pc hpc
            exact he (hself.looping (Bool.not_eq_false _ ▸ h)).1.symm
          obtain ⟨hsame, hnone⟩ := hstep.aside hlooping thread
          rw [Function.update_of_ne he, hsame, hnone]
          exact (List.append_nil _).symm

omit [DecidableEq Thread] in
-- The tickets of the ring are those of the messages that are logged.
theorem claimed_eq (event : Event Thread Op Pc Result) :
    claimed event = (claimedAs event).map fun c => (c.1, printable c.2.2) := by
  cases event with
  | call thread op => rfl
  | access thread pc outcome =>
      cases pc with
      | push p =>
          cases outcome with
          | inl pc' =>
              cases pc' with
              | push p' => cases p <;> cases p' <;> rfl
              | _ => cases p <;> rfl
          | inr result => cases result <;> cases p <;> rfl
      | enter level text stack =>
          cases outcome with
          | inl pc' =>
              cases pc' with
              | push p => cases p <;> rfl
              | _ => rfl
          | inr result => rfl
      | test buffer =>
          cases outcome with
          | inl pc' =>
              cases pc' with
              | pop p => cases p <;> rfl
              | _ => rfl
          | inr result => rfl
      | pop p =>
          cases outcome with
          | inl pc' => cases pc' <;> rfl
          | inr result => rfl
      | _ => rfl

omit [DecidableEq Thread] in
theorem claimedAs_events (events : History Thread) :
    events.filterMap claimedAs = (logPart.events events).filterMap ImgLogger.pushClaim := by
  rw [List.filterMap_filterMap]
  rfl

omit [DecidableEq Thread] in
theorem map_claims (events : History Thread) :
    (ImgLogger.claims (logPart.events events)).map (fun c => printable c.2) =
      (logged events).map (fun c => c.2) := by
  have hlogged : events.filterMap claimed =
      (events.filterMap claimedAs).map fun c => (c.1, printable c.2.2) := by
    rw [List.map_filterMap]
    exact congrArg (List.filterMap · events) (funext claimed_eq)
  rw [logged, hlogged, ImgLogger.claims, ← claimedAs_events]
  simp only [List.map_map, Function.comp_def]

-- What a thread has called img_log_write with and not claimed a ticket for.
def unclaimed : Pc → List (List UInt8)
  | .enter level text _ => if level.val < ImgLogLevel.info.val then [] else [lineOf text]
  | .push (.loadTail msg) | .push (.loadSeq msg _) | .push (.exchange msg _) => [printable msg]
  | _ => []

theorem loggedBy_append (thread : Thread) (xs ys : History Thread) :
    loggedBy thread (xs ++ ys) = loggedBy thread xs ++ loggedBy thread ys := by
  simp [loggedBy, logged]

theorem writtenBy_append (thread : Thread) (xs ys : History Thread) :
    writtenBy thread (xs ++ ys) = writtenBy thread xs ++ writtenBy thread ys := by
  simp [writtenBy]

omit [DecidableEq Thread] in
theorem claimed_thread {event : Event Thread Op Pc Result} {c : Thread × List UInt8}
    (h : claimed event = some c) : c.1 = event.thread := by
  unfold claimed at h
  split at h <;> cases h
  rfl

-- One access hands the message on, or claims a ticket for it, or gives it up.
theorem Step.logs {s s' : Logger} {pc : Pc} {outcome : Pc ⊕ Result} (hstep : Step s pc s' outcome)
    (thread : Thread) :
    loggedBy thread [.access thread pc outcome] ++ outcome.getLeft?.elim [] unclaimed <+
      unclaimed pc := by
  cases hstep with
  | skip hlevel => exact List.nil_sublist _
  | enter hlevel => simp [loggedBy, logged, claimed, unclaimed, hlevel, printable_vsnprintf]
  | @push pc ring pc' choice h =>
      cases pc with
      | loadTail msg =>
          cases h
          exact List.Sublist.refl _
      | loadSeq msg pos =>
          simp only [logRingPush] at h
          split_ifs at h <;> cases h <;> exact List.Sublist.refl _
      | exchange msg pos =>
          simp only [logRingPush] at h
          split_ifs at h <;> cases h
          · simp [loggedBy, logged, claimed, unclaimed]
          · exact List.Sublist.refl _
      | copy msg pos todo =>
          cases todo with
          | nil => cases h
          | cons i todo =>
              cases h
              exact List.Sublist.refl _
  | @wrote pc ring result choice h => cases pc <;> exact List.nil_sublist _
  | @pop pc => cases pc <;> exact List.nil_sublist _
  | @popped pc => cases pc <;> exact List.nil_sublist _
  | _ => exact List.nil_sublist _

theorem loggedBy_sublist {first : Config Thread Logger Pc}
    {legal : Config Thread Logger Pc → Turn Thread Op ImgLogger.Choice → Prop} {thread : Thread}
    (hidle : first.pc thread = none) (run : logger.Run legal first events config) :
    loggedBy thread events <+ writtenBy thread events := by
  refine (List.sublist_append_left _ _).trans
    (run.gives_sublist thread (writtenBy thread) (loggedBy thread) unclaimed
      (writtenBy_append thread) (loggedBy_append thread) ?_ ?_ ?_ hidle)
  · intro event hne
    rw [loggedBy, logged, filter_filterMap_other (fun _ _ => claimed_thread) event hne]
    rfl
  · intro op
    cases op with
    | write level text stack =>
        by_cases hlevel : level.val < ImgLogLevel.info.val
        · simp only [logger, unclaimed, if_pos hlevel]
          exact List.nil_sublist _
        · simp [loggedBy, logged, claimed, logger, unclaimed, writtenBy, writeCall, hlevel]
    | loop stack => exact List.nil_sublist _
    | shutdown => exact List.nil_sublist _
  · intro s pc choice
    exact ((step_access s pc choice).logs thread).trans (List.sublist_append_left _ _)

-- The logger after img_logger_init, before its thread runs.
def fresh (Thread : Type) (ring : LogRing) : Config Thread Logger Pc :=
  { shared := .started ring, pc := fun _ => none }

omit [DecidableEq Thread] in
theorem orderly_fresh (consumer : Thread) (ring : LogRing) :
    Orderly consumer (fresh Thread ring) where
  placed thread pc h := by cases h
  freed h := by cases h

omit [DecidableEq Thread] in
theorem Orderly.out_of_ring (h : Orderly consumer config) (hfreed : config.shared.freed = true) :
    ∀ thread pc, config.pc thread = some pc → inRing pc = none := by
  intro thread pc hpc
  have hplaced := h.placed thread pc hpc
  cases pc with
  | push p =>
      have hnot := (hplaced.writing rfl).2
      rw [hfreed] at hnot
      cases hnot
  | pop p =>
      have hnot := (hplaced.looping rfl).2
      rw [h.freed hfreed] at hnot
      cases hnot
  | _ => rfl

-- The logger prints the lines of the first messages that it took, whole and in the order
-- of the tickets, and every thread's lines in the order in which they were written. At
-- its end at most as many messages are lost as the ring has cells. Nobody is in the ring
-- once its cells are freed.
theorem logger_prints {alignedAlloc : UInt64 → Option (UInt64 → LogCell)} {ring : LogRing}
    (hinit : imgLoggerInit alignedAlloc = some ring)
    (run : logger.Run (Contract consumer owner) (fresh Thread ring) events config)
    (hops : events.countP enters < 2 ^ 63) :
    (∀ thread, loggedBy thread events <+ writtenBy thread events) ∧
      ∃ n ≤ (logged events).length,
        config.shared.printed ++ owed (config.pc consumer) =
          ((logged events).take n).flatMap line ∧
        (config.shared.finished = true →
          owed (config.pc consumer) = [] ∧ (logged events).length ≤ n + 1024) ∧
        (config.shared.freed = true →
          ∀ thread pc, config.pc thread = some pc → inRing pc = none) := by
  refine ⟨fun thread => loggedBy_sublist rfl run, ?_⟩
  have horderly := (orderly_fresh consumer ring).of_run run
  obtain ⟨tickets, tracks, -⟩ := ImgLogger.Tracks.of_run (by decide) (by decide)
    (ImgLogger.represents_init consumer hinit) (ring_run (orderly_fresh consumer ring) run)
    (Nat.lt_of_le_of_lt (countP_isCall_le events) hops)
  have hlength : (logged events).length = tickets.pushed.length := by
    have hmap := congrArg List.length (map_claims events)
    rw [tracks.claims] at hmap
    simpa using hmap.symm
  have hordered := tracks.represents.inv.ordered
  have hbounded := tracks.represents.inv.bounded
  refine ⟨tickets.popped - ImgLogger.inHand ((logPart.config config).pc consumer), by omega, ?_, ?_,
    horderly.out_of_ring⟩
  · rw [printed_of_run (orderly_fresh consumer ring) rfl rfl run, ← delivered_events,
      tracks.delivered, ← tracks.claims]
    have hlines : ∀ entries : List (UInt64 × LogMsg), entries.flatMap printedLine =
        (entries.map fun c => printable c.2).flatMap (· ++ [10]) := by
      intro entries
      rw [List.flatMap_map]
      rfl
    rw [hlines, List.map_take, map_claims, ← List.map_take, List.flatMap_map]
    rfl
  · intro hfinished
    have hquiet : owed (config.pc consumer) = [] ∧
        ImgLogger.inHand ((logPart.config config).pc consumer) = 0 := by
      rw [Subprogram.config_pc]
      cases hpc : config.pc consumer with
      | none => exact ⟨rfl, rfl⟩
      | some pc =>
          have hlooping : pc.looping ≠ true := by
            intro h
            have hnot := ((horderly.placed consumer pc hpc).looping h).2
            rw [hfinished] at hnot
            cases hnot
          cases pc with
          | test | pop | checked | newline => exact absurd rfl hlooping
          | _ => exact ⟨rfl, rfl⟩
    refine ⟨hquiet.1, ?_⟩
    rw [hquiet.2, hlength]
    simpa using hbounded

-- Turns that keep the contract and can be checked: nobody is about to free the cells.

def Pc.freeing : Pc → Bool
  | .free => true
  | _ => false

def Unfreed (consumer owner : Thread) (config : Config Thread Logger Pc) :
    Turn Thread Op ImgLogger.Choice → Prop
  | .call thread op => Contract consumer owner config (.call thread op)
  | .access thread _ => (config.pc thread).any Pc.freeing = false

instance (consumer owner : Thread) (config : Config Thread Logger Pc) :
    ∀ turn, Decidable (Unfreed consumer owner config turn)
  | .call _ (.write _ _ _) => inferInstanceAs (Decidable (_ ∧ _))
  | .call _ (.loop _) => inferInstanceAs (Decidable (_ ∧ _))
  | .call _ .shutdown => inferInstanceAs (Decidable (_ ∧ _ ∧ _))
  | .access _ _ => inferInstanceAs (Decidable (_ = _))

omit [DecidableEq Thread] in
theorem contract_of_unfreed (config : Config Thread Logger Pc)
    (turn : Turn Thread Op ImgLogger.Choice) (h : Unfreed consumer owner config turn) :
    Contract consumer owner config turn := by
  cases turn with
  | call thread op => exact h
  | access thread choice =>
      rintro ⟨pc, hpc, rfl⟩
      rw [Unfreed, hpc] at h
      cases h

-- A message that was accepted before the shutdown and is never printed.
theorem logger_prints_lost :
    ∃ memory ring events config,
      imgLoggerInit (fun _ => some memory) = some ring ∧
      logger.Run (Contract false true) (fresh Bool ring) events config ∧
      config.shared.printed = [] ∧ config.shared.finished = true ∧
      logged events = [(true, [72, 105])] ∧
      ∃ n ≤ (logged events).length,
        config.shared.printed ++ owed (config.pc false) =
          ((logged events).take n).flatMap line := by
  let memory : UInt64 → LogCell := fun _ => { seq := 7, msg := fun _ => 0 }
  let ring : LogRing :=
    { size := 1024, mask := 1023, cells := numberCells memory 1024, head := 0, tail := 0 }
  let choice : ImgLogger.Choice := { spurious := false, order := Equiv.refl _ }
  -- four accesses before the 256 of memcpy and one after them
  let turns : List (Turn Bool Op ImgLogger.Choice) :=
    .call true (.write .info [72, 105] fun _ => 7) :: List.replicate 261 (.access true choice) ++
      [.call true .shutdown, .access true choice, .call false (.loop fun _ => 0),
        .access false choice]
  have hplay : (logger.playAll (Unfreed false true) turns [] (fresh Bool ring)).map
      (fun r => (r.1.countP enters, r.2.shared.printed, r.2.shared.finished, logged r.1)) =
        some (1, [], true, [(true, [72, 105])]) := by
    decide +kernel
  obtain ⟨⟨events, config⟩, hplay, hresult⟩ := Option.map_eq_some_iff.mp hplay
  simp only [Prod.mk.injEq] at hresult
  obtain ⟨hops, hprinted, hfinished, hlogged⟩ := hresult
  have hinit : imgLoggerInit (fun _ => some memory) = some ring := rfl
  have run : logger.Run (Contract false true) (fresh Bool ring) events config :=
    (Program.Run.start.playAll hplay).mono contract_of_unfreed
  obtain ⟨-, n, hn, hlines, -⟩ := logger_prints hinit run (by rw [hops]; decide)
  exact ⟨memory, ring, events, config, hinit, run, hprinted, hfinished, hlogged, n, hn, hlines⟩

end ImgEngine.Observability.ImgLog
