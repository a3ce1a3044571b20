import Mathlib.Data.List.Induction
import Mathlib.Logic.Function.Basic
import Mathlib.Tactic.SplitIfs

namespace ImgEngine.Library.Interleaving

open scoped List

-- A program run by every thread of a shared object. An operation starts at a
-- program counter, and each turn makes one access to the shared state. The
-- choice resolves what the hardware leaves open, such as a spurious failure.
structure Program (Shared Op Pc Result Choice : Type) where
  start : Op → Pc
  access : Shared → Pc → Choice → Shared × (Pc ⊕ Result)

-- Threads outside every operation have no program counter.
structure Config (Thread Shared Pc : Type) where
  shared : Shared
  pc : Thread → Option Pc

inductive Turn (Thread Op Choice : Type) where
  | call (thread : Thread) (op : Op)
  | access (thread : Thread) (choice : Choice)

def Turn.isCall {Thread Op Choice : Type} : Turn Thread Op Choice → Bool
  | .call _ _ => true
  | .access _ _ => false

-- What one turn adds to the history: the start of an operation, or an access
-- made from a program counter and what it led to.
inductive Event (Thread Op Pc Result : Type) where
  | call (thread : Thread) (op : Op)
  | access (thread : Thread) (pc : Pc) (outcome : Pc ⊕ Result)
  deriving DecidableEq

def Event.thread {Thread Op Pc Result : Type} : Event Thread Op Pc Result → Thread
  | .call thread _ | .access thread _ _ => thread

def Event.calls {Thread Op Pc Result : Type} (which : Op → Bool) :
    Event Thread Op Pc Result → Bool
  | .call _ op => which op
  | .access _ _ _ => false

def Event.isCall {Thread Op Pc Result : Type} (event : Event Thread Op Pc Result) : Bool :=
  event.calls fun _ => true

-- An operation that no other thread interrupts.
def Program.alone {Shared Op Pc Result Choice : Type}
    (program : Program Shared Op Pc Result Choice) (choice : Choice) :
    Nat → Shared → Pc → Option (Shared × Result)
  | 0, _, _ => none
  | fuel + 1, shared, pc =>
      match program.access shared pc choice with
      | (shared, .inl pc) => program.alone choice fuel shared pc
      | (shared, .inr result) => some (shared, result)

-- The same, with any choice at each access.
inductive Program.Returns {Shared Op Pc Result Choice : Type}
    (program : Program Shared Op Pc Result Choice) : Shared → Pc → Shared → Result → Prop
  | last {shared pc shared' result} (choice : Choice)
      (h : program.access shared pc choice = (shared', .inr result)) :
      Returns program shared pc shared' result
  | more {shared pc next pc' shared' result} (choice : Choice)
      (h : program.access shared pc choice = (next, .inl pc'))
      (rest : Returns program next pc' shared' result) : Returns program shared pc shared' result

section Alone

variable {Shared Op Pc Result Choice : Type} {program : Program Shared Op Pc Result Choice}
  {shared shared' next : Shared} {pc pc' : Pc} {result result' : Result}

theorem Program.returns_of_alone {choice : Choice} {fuel : Nat}
    (h : program.alone choice fuel shared pc = some (shared', result)) :
    program.Returns shared pc shared' result := by
  induction fuel generalizing shared pc with
  | zero => cases h
  | succ fuel ih =>
      rw [Program.alone] at h
      cases haccess : program.access shared pc choice with
      | mk next outcome =>
          rw [haccess] at h
          cases outcome with
          | inl pc' => exact .more choice haccess (ih h)
          | inr result' =>
              cases h
              exact .last choice haccess

theorem Program.alone_step {choice : Choice}
    (h : program.access shared pc choice = (next, .inl pc')) (fuel : Nat) :
    program.alone choice (fuel + 1) shared pc = program.alone choice fuel next pc' := by
  rw [Program.alone, h]

theorem Program.alone_stop {choice : Choice}
    (h : program.access shared pc choice = (next, .inr result)) (fuel : Nat) :
    program.alone choice (fuel + 1) shared pc = some (next, result) := by
  rw [Program.alone, h]

-- An access that no choice changes.

theorem Program.Returns.step (h : program.Returns shared pc shared' result)
    (haccess : ∀ choice, program.access shared pc choice = (next, .inl pc')) :
    program.Returns next pc' shared' result := by
  cases h with
  | last choice h =>
      rw [haccess choice] at h
      cases h
  | more choice h rest =>
      rw [haccess choice] at h
      cases h
      exact rest

theorem Program.Returns.stop (h : program.Returns shared pc shared' result)
    (haccess : ∀ choice, program.access shared pc choice = (next, .inr result')) :
    shared' = next ∧ result = result' := by
  cases h with
  | last choice h =>
      rw [haccess choice] at h
      cases h
      exact ⟨rfl, rfl⟩
  | more choice h rest =>
      rw [haccess choice] at h
      cases h

end Alone

section Runs

variable {Thread Shared Op Pc Result Choice : Type} [DecidableEq Thread]

def Program.play (program : Program Shared Op Pc Result Choice)
    (config : Config Thread Shared Pc) :
    Turn Thread Op Choice → Option (Event Thread Op Pc Result × Config Thread Shared Pc)
  | .call thread op =>
      match config.pc thread with
      | none => some (.call thread op,
          { config with pc := Function.update config.pc thread (some (program.start op)) })
      | some _ => none
  | .access thread choice =>
      match config.pc thread with
      | none => none
      | some pc =>
          let (shared, outcome) := program.access config.shared pc choice
          some (.access thread pc outcome,
            { shared, pc := Function.update config.pc thread outcome.getLeft? })

-- The finite runs whose turns are all legal, with their histories in order.
inductive Program.Run (program : Program Shared Op Pc Result Choice)
    (legal : Config Thread Shared Pc → Turn Thread Op Choice → Prop)
    (first : Config Thread Shared Pc) :
    List (Event Thread Op Pc Result) → Config Thread Shared Pc → Prop
  | start : Run program legal first [] first
  | turn {events config event next} (turn : Turn Thread Op Choice)
      (run : Run program legal first events config) (hlegal : legal config turn)
      (hplay : program.play config turn = some (event, next)) :
      Run program legal first (events ++ [event]) next

variable {program : Program Shared Op Pc Result Choice}
  {legal : Config Thread Shared Pc → Turn Thread Op Choice → Prop}
  {first config next : Config Thread Shared Pc}
  {events : List (Event Thread Op Pc Result)} {event : Event Thread Op Pc Result}

theorem Program.play_call {thread : Thread} (op : Op) (hpc : config.pc thread = none) :
    program.play config (.call thread op) = some (.call thread op,
      { config with pc := Function.update config.pc thread (some (program.start op)) }) := by
  rw [Program.play, hpc]

theorem Program.play_access {thread : Thread} {choice : Choice} {pc : Pc} {shared : Shared}
    {outcome : Pc ⊕ Result} (hpc : config.pc thread = some pc)
    (haccess : program.access config.shared pc choice = (shared, outcome)) :
    program.play config (.access thread choice) = some (.access thread pc outcome,
      { shared, pc := Function.update config.pc thread outcome.getLeft? }) := by
  simp only [Program.play, hpc, haccess]

-- A turn moves one thread, so what holds of each thread's place has to be shown of that
-- thread and kept for the others.

section Places

variable {P : Thread → Pc → Prop} {pc : Thread → Option Pc} {thread : Thread}

theorem forall_pc_update {place : Option Pc} (hself : ∀ p, place = some p → P thread p)
    (hothers : ∀ other p, other ≠ thread → pc other = some p → P other p) :
    ∀ other p, Function.update pc thread place other = some p → P other p := by
  intro other p hp
  by_cases he : other = thread
  · subst he
    rw [Function.update_self] at hp
    exact hself p hp
  · rw [Function.update_of_ne he] at hp
    exact hothers other p he hp

theorem forall_pc_call {start : Pc} (hself : P thread start)
    (hothers : ∀ other p, other ≠ thread → pc other = some p → P other p) :
    ∀ other p, Function.update pc thread (some start) other = some p → P other p :=
  forall_pc_update (fun _ hp => Option.some.inj hp ▸ hself) hothers

theorem forall_pc_access {outcome : Pc ⊕ Result} (hself : ∀ p, outcome = .inl p → P thread p)
    (hothers : ∀ other p, other ≠ thread → pc other = some p → P other p) :
    ∀ other p, Function.update pc thread outcome.getLeft? other = some p → P other p :=
  forall_pc_update (fun p hp => hself p (Sum.getLeft?_eq_some_iff.mp hp)) hothers

-- An access of a part of a program, with the part's places among those of the whole.
theorem map_eq_inl {Part : Type} {wrap : Part → Pc} {result : Result → Result}
    {outcome : Part ⊕ Result} {p : Pc} (h : outcome.map wrap result = .inl p) :
    ∃ place, outcome = .inl place ∧ p = wrap place := by
  cases outcome with
  | inl place => exact ⟨place, rfl, (Sum.inl.inj h).symm⟩
  | inr result => cases h

end Places

-- All that one turn can do.
theorem Program.play_cases {turn : Turn Thread Op Choice}
    (h : program.play config turn = some (event, next)) :
    (∃ thread op, turn = .call thread op ∧ config.pc thread = none ∧
      event = .call thread op ∧
      next = { config with pc := Function.update config.pc thread (some (program.start op)) }) ∨
    (∃ thread choice pc, turn = .access thread choice ∧ config.pc thread = some pc ∧
      event = .access thread pc (program.access config.shared pc choice).2 ∧
      next = { shared := (program.access config.shared pc choice).1,
               pc := Function.update config.pc thread
                (program.access config.shared pc choice).2.getLeft? }) := by
  cases turn with
  | call thread op =>
      cases hpc : config.pc thread with
      | none =>
          simp only [play, hpc, Option.some.injEq, Prod.mk.injEq] at h
          exact .inl ⟨thread, op, rfl, hpc, h.1.symm, h.2.symm⟩
      | some pc => simp [play, hpc] at h
  | access thread choice =>
      cases hpc : config.pc thread with
      | none => simp [play, hpc] at h
      | some pc =>
          simp only [play, hpc, Option.some.injEq, Prod.mk.injEq] at h
          exact .inr ⟨thread, choice, pc, rfl, hpc, h.1.symm, h.2.symm⟩

theorem Program.Run.mono {legal' : Config Thread Shared Pc → Turn Thread Op Choice → Prop}
    (hmono : ∀ config turn, legal config turn → legal' config turn)
    (run : program.Run legal first events config) : program.Run legal' first events config := by
  induction run with
  | start => exact .start
  | turn turn _ hlegal hplay ih => exact .turn turn ih (hmono _ _ hlegal) hplay

-- Every prefix of a history is the history of a run, whose last state made the
-- turn that the next event records.
theorem Program.Run.split {before after : List (Event Thread Op Pc Result)}
    (run : program.Run legal first (before ++ event :: after) config) :
    ∃ source target turn, program.Run legal first before source ∧ legal source turn ∧
      program.play source turn = some (event, target) := by
  generalize hevents : before ++ event :: after = events at run
  induction run generalizing after with
  | start => simp at hevents
  | @turn events source last target turn run hlegal hplay ih =>
      cases after using List.reverseRecOn with
      | nil =>
          obtain ⟨rfl, hlast⟩ := List.append_inj' hevents rfl
          cases hlast
          exact ⟨source, target, turn, run, hlegal, hplay⟩
      | append_singleton after last' =>
          rw [← List.cons_append, ← List.append_assoc] at hevents
          exact ih (List.append_inj' hevents rfl).1

-- A part of the shared state that no access changes.
theorem Program.Run.keeps {A : Type} {part : Shared → A}
    (h : ∀ shared pc choice, part (program.access shared pc choice).1 = part shared)
    (run : program.Run legal first events config) : part config.shared = part first.shared := by
  induction run with
  | start => rfl
  | turn turn run _ hplay ih =>
      obtain ⟨thread, op, -, -, rfl, rfl⟩ | ⟨thread, choice, pc, -, -, rfl, rfl⟩ :=
        play_cases hplay
      · exact ih
      · exact (h _ pc choice).trans ih

-- A thread that stands inside an operation stands where its last event took it.
theorem Program.Run.arrived {thread : Thread} {p : Pc}
    (run : program.Run legal first events config) (hidle : first.pc thread = none)
    (hpc : config.pc thread = some p) :
    ∃ before event after source turn target, events = before ++ event :: after ∧
      event.thread = thread ∧ (∀ other ∈ after, other.thread ≠ thread) ∧
      program.Run legal first before source ∧ legal source turn ∧
      program.play source turn = some (event, target) ∧ target.pc thread = some p ∧
      program.Run legal target after config := by
  induction run with
  | start => cases hidle.symm.trans hpc
  | @turn events config event next turn run hlegal hplay ih =>
      by_cases he : event.thread = thread
      · exact ⟨events, event, [], config, turn, next, rfl, he, nofun, run, hlegal, hplay, hpc,
          .start⟩
      · have hkeep : next.pc thread = config.pc thread := by
          obtain ⟨other, op, rfl, -, rfl, rfl⟩ | ⟨other, choice, pc, rfl, -, rfl, rfl⟩ :=
            play_cases hplay
          · exact Function.update_of_ne (Ne.symm he) _ _
          · exact Function.update_of_ne (Ne.symm he) _ _
        obtain ⟨before, arrival, after, source, turn', target, rfl, harrival, hafter, hsource,
          hlegal', hplay', htarget, hrest⟩ := ih (hkeep.symm.trans hpc)
        refine ⟨before, arrival, after ++ [event], source, turn', target, ?_, harrival, ?_, hsource,
          hlegal', hplay', htarget, .turn turn hrest hlegal hplay⟩
        · rw [List.append_assoc, List.cons_append]
        · intro other hother
          rcases List.mem_append.mp hother with hother | hother
          · exact hafter other hother
          · rwa [List.mem_singleton.mp hother]

-- Turns taken one after another as long as they are legal, for runs given by an
-- explicit schedule.
def Program.playAll (program : Program Shared Op Pc Result Choice)
    (legal : Config Thread Shared Pc → Turn Thread Op Choice → Prop)
    [∀ config turn, Decidable (legal config turn)] :
    List (Turn Thread Op Choice) → List (Event Thread Op Pc Result) →
    Config Thread Shared Pc → Option (List (Event Thread Op Pc Result) × Config Thread Shared Pc)
  | [], events, config => some (events, config)
  | turn :: turns, events, config =>
      if legal config turn then
        match program.play config turn with
        | none => none
        | some (event, next) => playAll program legal turns (events ++ [event]) next
      else none

theorem Program.countP_isCall_playAll [∀ config turn, Decidable (legal config turn)]
    {turns : List (Turn Thread Op Choice)} {events' : List (Event Thread Op Pc Result)}
    (h : program.playAll legal turns events config = some (events', next)) :
    events'.countP Event.isCall = events.countP Event.isCall + turns.countP Turn.isCall := by
  induction turns generalizing events config with
  | nil =>
      cases h
      rfl
  | cons turn turns ih =>
      simp only [Program.playAll] at h
      split_ifs at h with hlegal
      split at h
      · cases h
      · rename_i event target hplay
        have hevent : event.isCall = turn.isCall := by
          obtain ⟨thread, op, rfl, -, rfl, -⟩ | ⟨thread, choice, pc, rfl, -, rfl, -⟩ :=
            play_cases hplay <;> rfl
        rw [ih h, List.countP_append, List.countP_singleton, List.countP_cons, hevent]
        omega

theorem Program.Run.playAll [∀ config turn, Decidable (legal config turn)]
    {turns : List (Turn Thread Op Choice)} {events' : List (Event Thread Op Pc Result)}
    (run : program.Run legal first events config)
    (h : program.playAll legal turns events config = some (events', next)) :
    program.Run legal first events' next := by
  induction turns generalizing events config with
  | nil =>
      cases h
      exact run
  | cons turn turns ih =>
      simp only [Program.playAll] at h
      split_ifs at h with hlegal
      split at h
      · cases h
      · rename_i event target hplay
        exact ih (.turn turn run hlegal hplay) h

-- What another thread's event adds to the things that a thread did.
theorem filter_filterMap_other {β : Type} {thread : Thread}
    {f : Event Thread Op Pc Result → Option (Thread × β)}
    (hf : ∀ event c, f event = some c → c.1 = event.thread)
    (event : Event Thread Op Pc Result) (hne : event.thread ≠ thread) :
    ([event].filterMap f).filter (fun c => c.1 = thread) = [] := by
  rw [List.filter_eq_nil_iff]
  intro c hc
  obtain ⟨e, he, hfe⟩ := List.mem_filterMap.mp hc
  rw [List.mem_singleton.mp he] at hfe
  simpa [hf _ _ hfe] using hne

-- A thread takes things in with its events, holds them inside an operation and gives
-- them out again. Then it gives out what it took in, in the same order.
theorem Program.Run.gives_sublist {β : Type} (thread : Thread)
    (takes gives : List (Event Thread Op Pc Result) → List β) (holds : Pc → List β)
    (htakes : ∀ xs ys, takes (xs ++ ys) = takes xs ++ takes ys)
    (hgives : ∀ xs ys, gives (xs ++ ys) = gives xs ++ gives ys)
    (hother : ∀ event : Event Thread Op Pc Result, event.thread ≠ thread → gives [event] = [])
    (hcall : ∀ op, gives [.call thread op] ++ holds (program.start op) <+ takes [.call thread op])
    (haccess : ∀ shared pc choice,
      gives [.access thread pc (program.access shared pc choice).2] ++
          (program.access shared pc choice).2.getLeft?.elim [] holds <+
        holds pc ++ takes [.access thread pc (program.access shared pc choice).2])
    (hidle : first.pc thread = none) (run : program.Run legal first events config) :
    gives events ++ (config.pc thread).elim [] holds <+ takes events := by
  induction run with
  | start =>
      have hnil : gives [] = [] := List.self_eq_append_right.mp (hgives [] [])
      rw [hnil, hidle]
      exact List.nil_sublist _
  | @turn events config event next turn run hlegal hplay ih =>
      rw [htakes, hgives]
      obtain ⟨other, op, rfl, hpc, rfl, rfl⟩ | ⟨other, choice, pc, rfl, hpc, rfl, rfl⟩ :=
        play_cases hplay <;> dsimp only
      · by_cases he : other = thread
        · subst he
          rw [hpc, Option.elim_none, List.append_nil] at ih
          rw [Function.update_self, Option.elim_some, List.append_assoc]
          exact ih.append (hcall op)
        · rw [hother (.call other op) he, List.append_nil, Function.update_of_ne (Ne.symm he)]
          exact ih.trans (List.sublist_append_left _ _)
      · by_cases he : other = thread
        · subst he
          rw [hpc, Option.elim_some] at ih
          rw [Function.update_self, List.append_assoc]
          refine (List.Sublist.append_left (haccess config.shared pc choice) _).trans ?_
          rw [← List.append_assoc]
          exact ih.append_right _
        · rw [hother (.access other pc _) he, List.append_nil, Function.update_of_ne (Ne.symm he)]
          exact ih.trans (List.sublist_append_left _ _)

-- The threads that stand where they can still cause an event, which `owes` says.

structure Debts (owes : Pc → Bool) (pc : Thread → Option Pc) (debtors : List Thread) : Prop where
  nodup : debtors.Nodup
  mem : ∀ thread, thread ∈ debtors ↔ ∃ p, pc thread = some p ∧ owes p = true

section Debts

variable {owes : Pc → Bool} {pc : Thread → Option Pc} {debtors : List Thread} {thread : Thread}

theorem Debts.incur (h : Debts owes pc debtors) (hpc : pc thread = none) {start : Pc}
    (howes : owes start = true) :
    Debts owes (Function.update pc thread (some start)) (thread :: debtors) := by
  have hnot : thread ∉ debtors := by simp [h.mem, hpc]
  refine ⟨List.nodup_cons.mpr ⟨hnot, h.nodup⟩, fun other => ?_⟩
  by_cases he : other = thread
  · simp [he, howes]
  · simp [he, h.mem]

theorem Debts.keep (h : Debts owes pc debtors) {p : Pc} (howes : thread ∈ debtors ↔ owes p = true) :
    Debts owes (Function.update pc thread (some p)) debtors := by
  refine ⟨h.nodup, fun other => ?_⟩
  by_cases he : other = thread
  · simp [he, howes]
  · simp [he, h.mem]

theorem Debts.settle (h : Debts owes pc debtors) {outcome : Pc ⊕ Result}
    (hfree : ∀ p, outcome = .inl p → owes p = false) :
    Debts owes (Function.update pc thread outcome.getLeft?) (debtors.erase thread) := by
  refine ⟨h.nodup.erase _, fun other => ?_⟩
  by_cases he : other = thread
  · subst he
    rw [Function.update_self]
    refine ⟨fun hmem => absurd hmem h.nodup.not_mem_erase, ?_⟩
    rintro ⟨p, hp, howes⟩
    rw [hfree p (Sum.getLeft?_eq_some_iff.mp hp)] at howes
    cases howes
  · simp [h.nodup.mem_erase_iff, he, h.mem]

end Debts

-- An event that an operation can cause at most once happens at most as often as
-- such operations start. The invariant counts the threads that still can cause it.
theorem Program.Run.countP_le_calls (owes : Pc → Bool) (which : Op → Bool)
    {p : Event Thread Op Pc Result → Bool}
    (hstart : ∀ op, owes (program.start op) = true → which op = true)
    (hcall : ∀ thread op, p (.call thread op) = false)
    (hpays : ∀ shared thread pc choice,
      p (.access thread pc (program.access shared pc choice).2) = true → owes pc = true)
    (hkeeps : ∀ shared thread pc choice pc', (program.access shared pc choice).2 = .inl pc' →
      owes pc' = true → owes pc = true ∧ p (.access thread pc (.inl pc')) = false)
    (hidle : ∀ thread, first.pc thread = none)
    (run : program.Run legal first events config) :
    events.countP p ≤ events.countP (Event.calls which) := by
  suffices hinv : ∃ debtors, Debts owes config.pc debtors ∧
      events.countP p + debtors.length ≤ events.countP (Event.calls which) by
    obtain ⟨debtors, -, hcount⟩ := hinv
    omega
  induction run with
  | start => exact ⟨[], ⟨List.nodup_nil, by simp [hidle]⟩, Nat.le_refl _⟩
  | @turn events config event next turn run hlegal hplay ih =>
      obtain ⟨debtors, hdebts, hcount⟩ := ih
      simp only [List.countP_append, List.countP_singleton]
      obtain ⟨thread, op, rfl, hpc, rfl, rfl⟩ | ⟨thread, choice, pc, rfl, hpc, rfl, rfl⟩ :=
        play_cases hplay
      · simp only [hcall, Event.calls]
        cases howes : owes (program.start op) with
        | true =>
            have hwhich := hstart op howes
            refine ⟨thread :: debtors, hdebts.incur hpc howes, ?_⟩
            simp only [hwhich, List.length_cons]
            simp
            omega
        | false =>
            have hnot : thread ∉ debtors := by simp [hdebts.mem, hpc]
            refine ⟨debtors, hdebts.keep (by simp [hnot, howes]), ?_⟩
            simp
            omega
      · simp only [Event.calls]
        generalize hout : (program.access config.shared pc choice).2 = outcome
        have hold : thread ∈ debtors ↔ owes pc = true := by simp [hdebts.mem, hpc]
        by_cases hstill : ∃ pc', outcome = .inl pc' ∧ owes pc' = true
        · obtain ⟨pc', rfl, howes⟩ := hstill
          obtain ⟨hbefore, hnone⟩ := hkeeps _ thread _ _ _ hout howes
          refine ⟨debtors, hdebts.keep ?_, by simpa [hnone] using hcount⟩
          exact iff_of_true (hold.mpr hbefore) howes
        · have hfree : ∀ pc', outcome = .inl pc' → owes pc' = false := fun pc' he =>
            Bool.eq_false_iff.mpr fun howes => hstill ⟨pc', he, howes⟩
          refine ⟨debtors.erase thread, hdebts.settle hfree, ?_⟩
          by_cases hp : p (.access thread pc outcome) = true
          · have hin := hold.mpr (hpays _ _ _ _ (hout ▸ hp))
            have hpos := List.length_pos_of_mem hin
            rw [List.length_erase_of_mem hin]
            simp [hp]
            omega
          · have := List.length_erase_le (a := thread) (l := debtors)
            simp [hp]
            omega

end Runs

end ImgEngine.Library.Interleaving
