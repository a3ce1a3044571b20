import ImgEngine.Observability.LogRing.Theorems
import ImgEngine.Observability.Logger

namespace ImgEngine.Observability.ImgLog

open ImgEngine.Library.Interleaving
open ImgEngine.Library.TicketRing
open scoped List

-- The text that vsnprintf leaves, whatever lay in the buffer.

theorem ofFn_vsnprintf (text : List UInt8) (buffer : LogMsg) :
    List.ofFn (vsnprintf text buffer) = text.take (logMsgSize - 1) ++
      0 :: (List.ofFn buffer).drop ((text.take (logMsgSize - 1)).length + 1) := by
  have hlt : (text.take (logMsgSize - 1)).length < logMsgSize := by
    rw [List.length_take, logMsgSize]
    omega
  generalize hkept : text.take (logMsgSize - 1) = kept at hlt
  refine List.ext_getElem ?_ ?_
  · simp only [List.length_ofFn, List.length_append, List.length_cons, List.length_drop]
    omega
  · intro i hi hi'
    rw [List.getElem_ofFn]
    simp only [vsnprintf, hkept]
    rcases Nat.lt_trichotomy i kept.length with h | h | h
    · rw [List.getElem?_eq_getElem h, List.getElem_append_left h]
    · subst h
      simp
    · rw [List.getElem?_eq_none (Nat.le_of_lt h), List.getElem_append_right (Nat.le_of_lt h)]
      simp only [if_neg (Nat.ne_of_gt h), List.getElem_cons, Nat.sub_eq_zero_iff_le,
        dif_neg (Nat.not_le_of_gt h), List.getElem_drop, List.getElem_ofFn]
      congr 2
      omega

theorem printable_vsnprintf (text : List UInt8) (buffer : LogMsg) :
    printable (vsnprintf text buffer) = lineOf text := by
  rw [printable, ofFn_vsnprintf, lineOf]
  generalize List.drop _ _ = rest
  generalize text.take (logMsgSize - 1) = kept
  induction kept with
  | nil => simp
  | cons byte kept ih => simp only [List.cons_append, List.takeWhile_cons, ih]

-- What one access does.
inductive Step (s : Logger) : Pc → Logger → Pc ⊕ Result → Prop
  | skip {level text stack} (hlevel : level.val < ImgLogLevel.info.val) :
      Step s (.enter level text stack) s (.inr .skipped)
  | enter {level text stack} (hlevel : ¬level.val < ImgLogLevel.info.val) :
      Step s (.enter level text stack) s (.inl (.push (.loadTail (vsnprintf text stack))))
  | push {pc ring pc'} (choice) (h : logRingPush s.ring choice pc = (ring, .inl pc')) :
      Step s (.push pc) { s with ring } (.inl (.push pc'))
  | wrote {pc ring result} (choice) (h : logRingPush s.ring choice pc = (ring, .inr result)) :
      Step s (.push pc) { s with ring } (.inr (.wrote result))
  | poll {buffer} (hrunning : s.running = true) :
      Step s (.test buffer) s (.inl (.pop (.loadHead buffer)))
  | finish {buffer} (hrunning : s.running = false) :
      Step s (.test buffer) { s with finished := true } (.inr .ended)
  | pop {pc ring pc'} (choice) (h : logRingPop s.ring choice pc = (ring, .inl pc')) :
      Step s (.pop pc) { s with ring } (.inl (.pop pc'))
  | popped {pc ring result} (choice) (h : logRingPop s.ring choice pc = (ring, .inr result)) :
      Step s (.pop pc) { s with ring } (.inl (.checked result pc.out))
  | print {out buffer} : Step s (.checked (.popped out) buffer)
      { s with printed := s.printed ++ printable buffer } (.inl (.newline buffer))
  | pause {result buffer} (hresult : ∀ out, result ≠ .popped out) :
      Step s (.checked result buffer) s (.inl (.test buffer))
  | newline {buffer} :
      Step s (.newline buffer) { s with printed := s.printed ++ [10] } (.inl (.test buffer))
  | stop : Step s .stop { s with running := false } (.inl .join)
  | joined (hfinished : s.finished = true) : Step s .join s (.inl .free)
  | wait (hfinished : s.finished = false) : Step s .join s (.inl .join)
  | free : Step s .free { s with freed := true } (.inr .shut)

theorem step_access (s : Logger) (pc : Pc) (choice : ImgLogger.Choice) :
    Step s pc (logger.access s pc choice).1 (logger.access s pc choice).2 := by
  simp only [logger]
  cases pc with
  | enter level text stack =>
      rw [logAccess]
      split_ifs with h
      · exact .skip h
      · exact .enter h
  | push pc =>
      rw [logAccess]
      cases hpush : logRingPush s.ring choice pc with
      | mk ring outcome =>
          cases outcome with
          | inl pc' => exact .push choice hpush
          | inr result => exact .wrote choice hpush
  | test buffer =>
      rw [logAccess]
      split_ifs with h
      · exact .poll h
      · exact .finish (Bool.eq_false_iff.mpr h)
  | pop pc =>
      rw [logAccess]
      cases hpop : logRingPop s.ring choice pc with
      | mk ring outcome =>
          cases outcome with
          | inl pc' => exact .pop choice hpop
          | inr result => exact .popped choice hpop
  | checked result buffer =>
      cases result with
      | popped out => exact .print
      | pushed => exact .pause nofun
      | full => exact .pause nofun
      | empty => exact .pause nofun
      | missed => exact .pause nofun
  | newline buffer => exact .newline
  | stop => exact .stop
  | join =>
      rw [logAccess]
      split_ifs with h
      · exact .joined h
      · exact .wait (Bool.eq_false_iff.mpr h)
  | free => exact .free

-- What the log ring sees of the logger.

def inRing : Pc → Option ImgLogger.Pc
  | .push pc => some (.push pc)
  | .pop pc => some (.pop pc)
  | _ => none

def ringPart : Pc → Pc ⊕ Result →
    Option (ImgLogger.Op ⊕ ImgLogger.Pc × (ImgLogger.Pc ⊕ ImgLogger.Result))
  | .enter _ _ _, .inl (.push (.loadTail msg)) => some (.inl (.push msg))
  | .test _, .inl (.pop (.loadHead buffer)) => some (.inl (.pop buffer))
  | .push pc, .inl (.push pc') => some (.inr (.push pc, .inl (.push pc')))
  | .push pc, .inr (.wrote result) => some (.inr (.push pc, .inr result))
  | .pop pc, .inl (.pop pc') => some (.inr (.pop pc, .inl (.pop pc')))
  | .pop pc, .inl (.checked result _) => some (.inr (.pop pc, .inr result))
  | _, _ => none

def logPart : Subprogram logger logRing where
  shared := Logger.ring
  place := inRing
  part := ringPart
  start op := by cases op <;> rfl
  outside := by
    intro s pc choice hplace
    generalize hout : logger.access s pc choice = out
    have hstep := step_access s pc choice
    rw [hout] at hstep
    obtain ⟨s', outcome⟩ := out
    cases hstep with
    | enter => exact ⟨rfl, .inr ⟨_, rfl, rfl⟩⟩
    | poll => exact ⟨rfl, .inr ⟨_, rfl, rfl⟩⟩
    | push | wrote | pop | popped => cases hplace
    | _ => exact ⟨rfl, .inl ⟨rfl, rfl⟩⟩
  inside := by
    intro s pc p choice hplace
    generalize hout : logger.access s pc choice = out
    have hstep := step_access s pc choice
    rw [hout] at hstep
    obtain ⟨s', outcome⟩ := out
    cases hstep with
    | push choice h | wrote choice h =>
        cases hplace
        refine ⟨choice, ?_⟩
        rw [logRing_push, h]
        exact ⟨rfl, rfl, rfl⟩
    | pop choice h | popped choice h =>
        cases hplace
        refine ⟨choice, ?_⟩
        rw [logRing_pop, h]
        exact ⟨rfl, rfl, rfl⟩
    | _ => cases hplace

variable {Thread : Type} [DecidableEq Thread] {consumer owner : Thread}
  {events : History Thread} {config next : Config Thread Logger Pc}

-- Who stands where, and in which order the shutdown goes.

def Pc.looping : Pc → Bool
  | .test _ | .pop _ | .checked _ _ | .newline _ => true
  | _ => false

structure Placed (consumer : Thread) (s : Logger) (thread : Thread) (pc : Pc) : Prop where
  looping : pc.looping = true → thread = consumer ∧ s.finished = false
  writing : pc.writing = true → thread ≠ consumer ∧ s.freed = false
  free : pc = .free → s.finished = true

structure Orderly (consumer : Thread) (config : Config Thread Logger Pc) : Prop where
  placed : ∀ thread pc, config.pc thread = some pc → Placed consumer config.shared thread pc
  freed : config.shared.freed = true → config.shared.finished = true

omit [DecidableEq Thread] in
theorem placed_start {thread : Thread} {op : Op}
    (hlegal : Contract consumer owner config (.call thread op)) :
    Placed consumer config.shared thread (logger.start op) := by
  cases op with
  | write level text stack => exact ⟨nofun, fun _ => hlegal, nofun⟩
  | loop stack => exact ⟨fun _ => hlegal, nofun, nofun⟩
  | shutdown => exact ⟨nofun, nofun, nofun⟩

omit [DecidableEq Thread] in
-- A thread goes on in the function that it is in.
theorem Placed.step {s s' : Logger} {thread : Thread} {pc pc' : Pc}
    (h : Placed consumer s thread pc) (hstep : Step s pc s' (.inl pc')) :
    Placed consumer s' thread pc' := by
  cases hstep with
  | enter | push => exact ⟨nofun, fun _ => h.writing rfl, nofun⟩
  | poll | pop | popped | print | pause | newline => exact ⟨fun _ => h.looping rfl, nofun, nofun⟩
  | stop | wait => exact ⟨nofun, nofun, nofun⟩
  | joined hfinished => exact ⟨nofun, nofun, fun _ => hfinished⟩

omit [DecidableEq Thread] in
-- The other threads are where they may be: the loop has ended when it says so, and nobody
-- writes when the cells are freed.
theorem Placed.other {s s' : Logger} {thread other : Thread} {pc pc' : Pc} {outcome : Pc ⊕ Result}
    (h : Placed consumer s other pc') (hne : other ≠ thread) (hself : Placed consumer s thread pc)
    (hstep : Step s pc s' outcome) (hfree : pc = .free → pc'.writing = false) :
    Placed consumer s' other pc' := by
  cases hstep with
  | finish =>
      refine ⟨fun hlooping => ?_, h.writing, fun _ => rfl⟩
      exact absurd ((h.looping hlooping).1.trans (hself.looping rfl).1.symm) hne
  | free =>
      refine ⟨h.looping, fun hwriting => ?_, h.free⟩
      exact absurd hwriting (Bool.eq_false_iff.mp (hfree rfl))
  | _ => exact ⟨h.looping, h.writing, h.free⟩

omit [DecidableEq Thread] in
theorem Step.freed {s s' : Logger} {thread : Thread} {pc : Pc} {outcome : Pc ⊕ Result}
    (hstep : Step s pc s' outcome) (hself : Placed consumer s thread pc)
    (h : s.freed = true → s.finished = true) : s'.freed = true → s'.finished = true := by
  cases hstep with
  | finish => exact fun _ => rfl
  | free => exact fun _ => hself.free rfl
  | _ => exact h

theorem Orderly.turn (h : Orderly consumer config) {turn : Turn Thread Op ImgLogger.Choice}
    {event : Event Thread Op Pc Result} (hlegal : Contract consumer owner config turn)
    (hplay : logger.play config turn = some (event, next)) : Orderly consumer next := by
  obtain ⟨thread, op, rfl, hpc, rfl, rfl⟩ | ⟨thread, choice, pc, rfl, hpc, rfl, rfl⟩ :=
    Program.play_cases hplay
  · have hstart : Placed consumer config.shared thread (logger.start op) := placed_start hlegal
    exact ⟨forall_pc_call hstart fun other p _ => h.placed other p, h.freed⟩
  · have hstep := step_access config.shared pc choice
    have hself := h.placed thread pc hpc
    refine ⟨forall_pc_access ?_ ?_, hstep.freed hself h.freed⟩
    · intro pc' hout
      exact hself.step (hout ▸ hstep)
    · intro other pc' hne hpc'
      exact (h.placed other pc' hpc').other hne hself hstep fun hfree =>
        hlegal ⟨pc, hpc, hfree⟩ other pc' hpc'

theorem Orderly.of_run {first : Config Thread Logger Pc} (hfirst : Orderly consumer first)
    (run : logger.Run (Contract consumer owner) first events config) :
    Orderly consumer config := by
  induction run with
  | start => exact hfirst
  | turn turn run hlegal hplay ih => exact ih.turn hlegal hplay

-- So the ring is used as it has to be: only the thread of the logger pops.

-- The accesses that call log_ring_push or log_ring_pop.
def enters : Event Thread Op Pc Result → Bool
  | .access _ (.enter _ _ _) (.inl _) | .access _ (.test _) (.inl _) => true
  | _ => false

omit [DecidableEq Thread] in
theorem event_eq_call {event : Event Thread Op Pc Result} {thread : Thread} {op : ImgLogger.Op}
    (h : logPart.event event = some (.call thread op)) :
    enters event = true ∧ event.thread = thread ∧
      ∀ out, op = .pop out → ∃ buffer outcome, event = .access thread (.test buffer) outcome := by
  cases event with
  | call other op' => cases h
  | access other pc outcome =>
      simp only [Subprogram.event, logPart] at h
      unfold ringPart at h
      split at h
      · cases h
      · rename_i op' hpart
        cases h
        split at hpart
        · cases hpart
          refine ⟨rfl, rfl, fun out hout => ?_⟩
          cases hout
        · cases hpart
          exact ⟨rfl, rfl, fun _ _ => ⟨_, _, rfl⟩⟩
        all_goals cases hpart
      · cases h

theorem ring_run {first : Config Thread Logger Pc} (hfirst : Orderly consumer first)
    (run : logger.Run (Contract consumer owner) first events config) :
    logRing.Run (ImgLogger.Contract consumer) (logPart.config first) (logPart.events events)
      (logPart.config config) := by
  refine logPart.run ?_ run
  intro before source turn event target event' turn' hrun hlegal hplay hevent hplay'
  obtain ⟨thread, op, rfl, -, rfl, -⟩ | ⟨thread, choice, pc, rfl, -, rfl, -⟩ :=
    Program.play_cases hplay'
  · cases op with
    | push msg => trivial
    | pop out =>
        obtain ⟨-, -, htest⟩ := event_eq_call hevent
        obtain ⟨buffer, outcome, rfl⟩ := htest out rfl
        obtain ⟨other, op, -, -, hcall, -⟩ | ⟨other, choice, pc, -, hpc, haccess, -⟩ :=
          Program.play_cases hplay
        · cases hcall
        · cases haccess
          exact (((hfirst.of_run hrun).placed _ _ hpc).looping rfl).1
  · trivial

omit [DecidableEq Thread] in
theorem countP_isCall_le (events : History Thread) :
    (logPart.events events).countP Event.isCall ≤ events.countP enters := by
  induction events with
  | nil => exact Nat.le_refl _
  | cons event events ih =>
      rw [List.countP_cons]
      cases hevent : logPart.event event with
      | none =>
          rw [Subprogram.events, List.filterMap_cons_none hevent]
          exact Nat.le_add_right_of_le ih
      | some event' =>
          rw [Subprogram.events, List.filterMap_cons_some hevent, List.countP_cons]
          cases event' with
          | call thread op =>
              rw [(event_eq_call hevent).1]
              simpa [Event.isCall, Event.calls] using ih
          | access thread pc outcome =>
              simp only [Event.isCall, Event.calls, Bool.false_eq_true, if_false]
              exact Nat.le_add_right_of_le ih

end ImgEngine.Observability.ImgLog
