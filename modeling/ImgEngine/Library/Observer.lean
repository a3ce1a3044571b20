import ImgEngine.Library.Interleaving

namespace ImgEngine.Library.Interleaving

-- An operation that reads the shared state, one access at a time, and never changes it.
structure Observer (Shared View Answer : Type) where
  start : View
  look : Shared → View → View ⊕ Answer

variable {Thread Shared Op Pc Result Choice View Answer : Type} [DecidableEq Thread]

-- The program with the observation as one more operation, which is none.
def Program.observed (program : Program Shared Op Pc Result Choice)
    (observer : Observer Shared View Answer) :
    Program Shared (Option Op) (Pc ⊕ View) (Result ⊕ Answer) Choice where
  start
    | some op => .inl (program.start op)
    | none => .inr observer.start
  access shared pc choice :=
    match pc with
    | .inl pc =>
        let (shared, outcome) := program.access shared pc choice
        (shared, outcome.map .inl .inl)
    | .inr view => (shared, (observer.look shared view).map .inr .inr)

-- What is left of a run when the observations are taken out.

def Event.base : Event Thread (Option Op) (Pc ⊕ View) (Result ⊕ Answer) →
    Option (Event Thread Op Pc Result)
  | .call thread (some op) => some (.call thread op)
  | .access thread (.inl pc) (.inl (.inl pc')) => some (.access thread pc (.inl pc'))
  | .access thread (.inl pc) (.inr (.inl result)) => some (.access thread pc (.inr result))
  | _ => none

def Config.base (config : Config Thread Shared (Pc ⊕ View)) : Config Thread Shared Pc where
  shared := config.shared
  pc thread := (config.pc thread).bind Sum.getLeft?

abbrev bases (events : List (Event Thread (Option Op) (Pc ⊕ View) (Result ⊕ Answer))) :
    List (Event Thread Op Pc Result) := events.filterMap Event.base

-- Who observes, and when, is left open.
def Observed (legal : Config Thread Shared Pc → Turn Thread Op Choice → Prop)
    (config : Config Thread Shared (Pc ⊕ View)) : Turn Thread (Option Op) Choice → Prop
  | .call thread (some op) => legal config.base (.call thread op)
  | .call _ none => True
  | .access thread choice => legal config.base (.access thread choice)

instance {legal : Config Thread Shared Pc → Turn Thread Op Choice → Prop}
    [∀ config turn, Decidable (legal config turn)] (config : Config Thread Shared (Pc ⊕ View)) :
    ∀ turn, Decidable (Observed legal config turn)
  | .call thread (some op) => inferInstanceAs (Decidable (legal config.base (.call thread op)))
  | .call _ none => inferInstanceAs (Decidable True)
  | .access thread choice =>
      inferInstanceAs (Decidable (legal config.base (.access thread choice)))

section Base

variable {program : Program Shared Op Pc Result Choice} {observer : Observer Shared View Answer}
  {legal : Config Thread Shared Pc → Turn Thread Op Choice → Prop}
  {first config next : Config Thread Shared (Pc ⊕ View)}
  {events : List (Event Thread (Option Op) (Pc ⊕ View) (Result ⊕ Answer))}
  {event : Event Thread (Option Op) (Pc ⊕ View) (Result ⊕ Answer)}

omit [DecidableEq Thread] in
theorem Event.thread_of_base {event' : Event Thread Op Pc Result}
    (h : event.base = some event') : event'.thread = event.thread := by
  unfold Event.base at h
  split at h <;> cases h <;> rfl

omit [DecidableEq Thread] in
@[simp] theorem base_pc (thread : Thread) :
    config.base.pc thread = (config.pc thread).bind Sum.getLeft? := rfl

theorem base_update (pc : Thread → Option (Pc ⊕ View)) (thread : Thread)
    (place : Option (Pc ⊕ View)) :
    (fun other => (Function.update pc thread place other).bind Sum.getLeft?) =
      Function.update (fun other => (pc other).bind Sum.getLeft?) thread
        (place.bind Sum.getLeft?) := by
  funext other
  by_cases he : other = thread
  · subst he
    simp
  · simp [he]

-- A turn of the observed program is one of the program, or nothing for it.
theorem Program.play_base {turn : Turn Thread (Option Op) Choice}
    (hlegal : Observed legal config turn)
    (h : (program.observed observer).play config turn = some (event, next)) :
    (event.base = none ∧ next.base = config.base) ∨
      ∃ event' turn', event.base = some event' ∧ legal config.base turn' ∧
        program.play config.base turn' = some (event', next.base) := by
  obtain ⟨thread, op, rfl, hpc, rfl, rfl⟩ | ⟨thread, choice, pc, rfl, hpc, rfl, rfl⟩ :=
    Program.play_cases h
  · have hidle : config.base.pc thread = none := by rw [base_pc, hpc, Option.bind_none]
    cases op with
    | none =>
        refine .inl ⟨rfl, ?_⟩
        simp only [Config.base, base_update]
        congr 1
        exact Function.update_eq_self_iff.mpr hidle.symm
    | some op =>
        refine .inr ⟨_, _, rfl, hlegal, ?_⟩
        rw [Program.play_call op hidle]
        simp only [Config.base, base_update]
        rfl
  · cases pc with
    | inl pc =>
        have hpc : config.base.pc thread = some pc := by
          rw [base_pc, hpc]
          rfl
        refine .inr ⟨.access thread pc (program.access config.shared pc choice).2,
          .access thread choice, ?_, hlegal, ?_⟩
        · simp only [Program.observed]
          cases (program.access config.shared pc choice).2 with
          | inl pc' => rfl
          | inr result => rfl
        · rw [Program.play_access hpc rfl]
          simp only [Config.base, base_update, Program.observed]
          cases (program.access config.shared pc choice).2 with
          | inl pc' => rfl
          | inr result => rfl
    | inr view =>
        have hidle : config.base.pc thread = none := by
          rw [base_pc, hpc]
          rfl
        refine .inl ⟨rfl, ?_⟩
        simp only [Config.base, base_update, Program.observed]
        have hnone : ((observer.look config.shared view).map Sum.inr Sum.inr :
            (Pc ⊕ View) ⊕ (Result ⊕ Answer)).getLeft?.bind Sum.getLeft? = none := by
          cases observer.look config.shared view with
          | inl view' => rfl
          | inr answer => rfl
        rw [hnone]
        congr 1
        exact Function.update_eq_self_iff.mpr hidle.symm

-- So what holds of every run of the program holds of what is left of every observed run.
theorem Program.Run.base
    (run : (program.observed observer).Run (Observed legal) first events config) :
    program.Run legal first.base (bases events) config.base := by
  induction run with
  | start => exact .start
  | @turn events config event next turn run hlegal hplay ih =>
      rw [bases, List.filterMap_append]
      obtain ⟨hnone, hsame⟩ | ⟨event', turn', hevent, hlegal', hplay'⟩ := play_base hlegal hplay
      · rw [List.filterMap_cons_none hnone, List.filterMap_nil, List.append_nil, hsame]
        exact ih
      · rw [List.filterMap_cons_some hevent, List.filterMap_nil]
        exact .turn turn' ih hlegal' hplay'

omit [DecidableEq Thread] in
theorem countP_isCall_bases
    (events : List (Event Thread (Option Op) (Pc ⊕ View) (Result ⊕ Answer))) :
    (bases events).countP Event.isCall ≤ events.countP Event.isCall := by
  unfold bases
  induction events with
  | nil => exact Nat.le_refl _
  | cons event events ih =>
      rw [List.countP_cons]
      cases hbase : event.base with
      | none =>
          rw [List.filterMap_cons_none hbase]
          omega
      | some event' =>
          have hcall : event'.isCall = event.isCall := by
            unfold Event.base at hbase
            split at hbase <;> cases hbase <;> rfl
          rw [List.filterMap_cons_some hbase, List.countP_cons, hcall]
          omega

end Base

-- Nobody is inside an operation.
def Config.quiet (shared : Shared) : Config Thread Shared Pc where
  shared := shared
  pc _ := none

-- An observer that loads one thing and then answers from it and from what it finds next.

inductive PairView (A : Type) where
  | first
  | second (a : A)
  deriving DecidableEq

variable {A : Type}

def pairObserver (load : Shared → A) (answer : A → Shared → Answer) :
    Observer Shared (PairView A) Answer where
  start := .first
  look shared
    | .first => .inl (.second (load shared))
    | .second a => .inr (answer a shared)

-- Where an answer comes from: the two states that it was given from, and what happened
-- between them.
structure Snapshot (program : Program Shared Op Pc Result Choice)
    (legal : Config Thread Shared Pc → Turn Thread Op Choice → Prop)
    (load : Shared → A) (answer : A → Shared → Answer) (shared : Shared)
    (looked between : List (Event Thread Op Pc Result)) (result : Answer)
    (source now : Config Thread Shared Pc) : Prop where
  looked : program.Run legal (.quiet shared) looked source
  between : program.Run legal source between now
  result : result = answer (load source.shared) now.shared

section Pairs

variable {program : Program Shared Op Pc Result Choice}
  {legal : Config Thread Shared Pc → Turn Thread Op Choice → Prop} {load : Shared → A}
  {answer : A → Shared → Answer} {shared : Shared} {thread : Thread} {a : A}

theorem Program.Run.append {first config next : Config Thread Shared Pc}
    {events more : List (Event Thread Op Pc Result)} (run : program.Run legal first events config)
    (rest : program.Run legal config more next) : program.Run legal first (events ++ more) next := by
  induction rest with
  | start =>
      rw [List.append_nil]
      exact run
  | turn turn _ hlegal hplay ih =>
      rw [← List.append_assoc]
      exact .turn turn ih hlegal hplay

-- The load that the answer goes back to.
theorem play_second {config next : Config Thread Shared (Pc ⊕ PairView A)}
    {event : Event Thread (Option Op) (Pc ⊕ PairView A) (Result ⊕ Answer)}
    {turn : Turn Thread (Option Op) Choice}
    (h : (program.observed (pairObserver load answer)).play config turn = some (event, next))
    (hpc : next.pc event.thread = some (.inr (.second a))) :
    event = .access event.thread (.inr .first) (.inl (.inr (.second a))) ∧
      a = load config.shared := by
  obtain ⟨thread, op, rfl, -, rfl, rfl⟩ | ⟨thread, choice, pc, rfl, -, rfl, rfl⟩ :=
    Program.play_cases h
  · simp only [Event.thread, Function.update_self] at hpc
    cases op with
    | none => cases hpc
    | some op => cases hpc
  · simp only [Event.thread, Function.update_self] at hpc ⊢
    cases pc with
    | inl pc =>
        simp only [Program.observed] at hpc
        cases hout : (program.access config.shared pc choice).2 with
        | inl pc' =>
            rw [hout] at hpc
            cases hpc
        | inr result =>
            rw [hout] at hpc
            cases hpc
    | inr view =>
        cases view with
        | first =>
            cases hpc
            exact ⟨rfl, rfl⟩
        | second a' => cases hpc

theorem Program.Run.pair_answer {before after : List
      (Event Thread (Option Op) (Pc ⊕ PairView A) (Result ⊕ Answer))} {result : Answer}
    {last : Config Thread Shared (Pc ⊕ PairView A)}
    (run : (program.observed (pairObserver load answer)).Run (Observed legal) (.quiet shared)
      (before ++ .access thread (.inr (.second a)) (.inr (.inr result)) :: after) last) :
    ∃ looked between source now,
      before = looked ++ .access thread (.inr .first) (.inl (.inr (.second a))) :: between ∧
        (∀ event ∈ between, event.thread ≠ thread) ∧
        Snapshot program legal load answer shared (bases looked) (bases between) result source
          now := by
  obtain ⟨now, next, turn, hnow, hlegal, hplay⟩ := run.split
  obtain ⟨other, op, -, -, hcall, -⟩ | ⟨other, choice, pc, rfl, hpc, hevent, -⟩ :=
    Program.play_cases hplay
  · cases hcall
  · cases hevent
    obtain ⟨looked, event, between, source, turn, target, rfl, rfl, hbetween, hsource, hlegal',
      hplay', htarget, hrest⟩ := hnow.arrived rfl hpc
    obtain ⟨hevent, rfl⟩ := play_second hplay' htarget
    refine ⟨looked, between, source.base, now.base, ?_, hbetween, hsource.base, ?_, rfl⟩
    · rw [hevent]
      rfl
    · obtain ⟨-, hsame⟩ | ⟨event', turn', hbase, -, -⟩ := Program.play_base hlegal' hplay'
      · rw [← hsame]
        exact hrest.base
      · rw [hevent] at hbase
        cases hbase

end Pairs

end ImgEngine.Library.Interleaving
