import ImgEngine.Library.Interleaving

namespace ImgEngine.Library.Interleaving

variable {Thread S O P R C S' O' P' R' C' : Type}

-- A program that calls another one on a part of its shared state, one access at a time.
-- An access from a place inside the other program is an access of that program. Any other
-- access leaves its state alone, and may call it.
structure Subprogram (outer : Program S O P R C) (inner : Program S' O' P' R' C') where
  shared : S → S'
  place : P → Option P'
  -- the operation that an access calls, or the access that it is
  part : P → P ⊕ R → Option (O' ⊕ P' × (P' ⊕ R'))
  start : ∀ op, place (outer.start op) = none
  outside : ∀ s pc choice, place pc = none →
    shared (outer.access s pc choice).1 = shared s ∧
      ((part pc (outer.access s pc choice).2 = none ∧
          (outer.access s pc choice).2.getLeft?.bind place = none) ∨
        ∃ op, part pc (outer.access s pc choice).2 = some (.inl op) ∧
          (outer.access s pc choice).2.getLeft?.bind place = some (inner.start op))
  inside : ∀ s pc p choice, place pc = some p → ∃ choice',
    shared (outer.access s pc choice).1 = (inner.access (shared s) p choice').1 ∧
      part pc (outer.access s pc choice).2 =
        some (.inr (p, (inner.access (shared s) p choice').2)) ∧
      (outer.access s pc choice).2.getLeft?.bind place =
        (inner.access (shared s) p choice').2.getLeft?

namespace Subprogram

variable {outer : Program S O P R C} {inner : Program S' O' P' R' C'}

-- What is left of a run of the outer program.

def event (sub : Subprogram outer inner) : Event Thread O P R → Option (Event Thread O' P' R')
  | .call _ _ => none
  | .access thread pc outcome =>
      match sub.part pc outcome with
      | none => none
      | some (.inl op) => some (.call thread op)
      | some (.inr (p, outcome)) => some (.access thread p outcome)

def config (sub : Subprogram outer inner) (config : Config Thread S P) : Config Thread S' P' where
  shared := sub.shared config.shared
  pc thread := (config.pc thread).bind sub.place

abbrev events (sub : Subprogram outer inner) (events : List (Event Thread O P R)) :
    List (Event Thread O' P' R') := events.filterMap sub.event

variable (sub : Subprogram outer inner)

@[simp] theorem event_call (thread : Thread) (op : O) : sub.event (.call thread op) = none := rfl

@[simp] theorem config_pc (config : Config Thread S P) (thread : Thread) :
    (sub.config config).pc thread = (config.pc thread).bind sub.place := rfl

variable [DecidableEq Thread]

theorem pc_update (pc : Thread → Option P) (thread : Thread) (place : Option P) :
    (fun other => (Function.update pc thread place other).bind sub.place) =
      Function.update (fun other => (pc other).bind sub.place) thread (place.bind sub.place) := by
  funext other
  by_cases he : other = thread
  · subst he
    simp
  · simp [he]

-- A turn of the outer program is one of the inner program, or nothing for it.
theorem play {config next : Config Thread S P} {turn : Turn Thread O C} {event : Event Thread O P R}
    (h : outer.play config turn = some (event, next)) :
    (sub.event event = none ∧ sub.config next = sub.config config) ∨
      ∃ event' turn', sub.event event = some event' ∧
        inner.play (sub.config config) turn' = some (event', sub.config next) := by
  obtain ⟨thread, op, rfl, hpc, rfl, rfl⟩ | ⟨thread, choice, pc, rfl, hpc, rfl, rfl⟩ :=
    Program.play_cases h
  · refine .inl ⟨rfl, ?_⟩
    simp only [Subprogram.config, pc_update, Option.bind_some, sub.start]
    congr 1
    exact Function.update_eq_self_iff.mpr (by rw [hpc, Option.bind_none])
  · have hplace : (sub.config config).pc thread = sub.place pc := by
      rw [config_pc, hpc, Option.bind_some]
    cases hp : sub.place pc with
    | none =>
        obtain ⟨hshared, ⟨hpart, hout⟩ | ⟨op, hpart, hout⟩⟩ :=
          sub.outside config.shared pc choice hp
        · refine .inl ⟨by rw [Subprogram.event, hpart], ?_⟩
          simp only [Subprogram.config, pc_update, hshared, hout]
          congr 1
          exact Function.update_eq_self_iff.mpr (hp ▸ hplace).symm
        · refine .inr ⟨.call thread op, .call thread op, by rw [Subprogram.event, hpart], ?_⟩
          rw [Program.play_call op (hplace.trans hp)]
          simp only [Subprogram.config, pc_update, hshared, hout]
    | some p =>
        obtain ⟨choice', hshared, hpart, hout⟩ := sub.inside config.shared pc p choice hp
        refine .inr ⟨_, .access thread choice', by rw [Subprogram.event, hpart], ?_⟩
        rw [Program.play_access (hplace.trans hp) rfl]
        simp only [Subprogram.config, pc_update, hshared, hout]

-- So the inner program does what it does in a run of its own.
theorem run {legal : Config Thread S P → Turn Thread O C → Prop}
    {legal' : Config Thread S' P' → Turn Thread O' C' → Prop} {first last : Config Thread S P}
    {history : List (Event Thread O P R)}
    (hlegal' : ∀ before source turn event target event' turn',
      outer.Run legal first before source → legal source turn →
      outer.play source turn = some (event, target) → sub.event event = some event' →
      inner.play (sub.config source) turn' = some (event', sub.config target) →
      legal' (sub.config source) turn')
    (h : outer.Run legal first history last) :
    inner.Run legal' (sub.config first) (sub.events history) (sub.config last) := by
  induction h with
  | start => exact .start
  | @turn before source event target turn run hlegal hplay ih =>
      rw [events, List.filterMap_append]
      obtain ⟨hnone, hsame⟩ | ⟨event', turn', hevent, hplay'⟩ := sub.play hplay
      · rw [List.filterMap_cons_none hnone, List.filterMap_nil, List.append_nil, hsame]
        exact ih
      · rw [List.filterMap_cons_some hevent, List.filterMap_nil]
        exact .turn turn' ih
          (hlegal' before source turn event target event' turn' run hlegal hplay hevent hplay') hplay'

end Subprogram

end ImgEngine.Library.Interleaving
