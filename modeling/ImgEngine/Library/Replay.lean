import ImgEngine.Library.Loop

namespace ImgEngine.Library.Replay

open ImgEngine.Library.Loop

-- Operations on a state that keep its shape.
structure Operations (S Op Shape : Type) where
  shape : S → Shape
  run : Op → S → S
  keeps : ∀ op s, shape (run op s) = shape s

variable {S Op Shape : Type} {M : Operations S Op Shape} {shape : Shape} {ok : Op → Prop}
  {pass pass' : S → S}

def Operations.replay (M : Operations S Op Shape) (ops : List Op) (s : S) : S :=
  ops.foldl (fun s op => M.run op s) s

theorem replay_append (ops ops' : List Op) (s : S) :
    M.replay (ops ++ ops') s = M.replay ops' (M.replay ops s) := List.foldl_append

theorem replay_shape (ops : List Op) (s : S) : M.shape (M.replay ops s) = M.shape s := by
  induction ops generalizing s with
  | nil => rfl
  | cons op ops ih => exact (ih (M.run op s)).trans (M.keeps op s)

-- On the states of one shape a pass performs one list of operations, which are all
-- allowed. The list does not depend on what else a state holds.
def Performs (M : Operations S Op Shape) (shape : Shape) (ok : Op → Prop) (pass : S → S) : Prop :=
  ∃ ops : List Op, (∀ op ∈ ops, ok op) ∧ ∀ s, M.shape s = shape → pass s = M.replay ops s

theorem Performs.shape_eq (h : Performs M shape ok pass) {s : S} (hs : M.shape s = shape) :
    M.shape (pass s) = shape := by
  obtain ⟨ops, -, heq⟩ := h
  rw [heq s hs, replay_shape, hs]

theorem Performs.congr (h : Performs M shape ok pass)
    (heq : ∀ s, M.shape s = shape → pass' s = pass s) : Performs M shape ok pass' := by
  obtain ⟨ops, hok, hops⟩ := h
  exact ⟨ops, hok, fun s hs => (heq s hs).trans (hops s hs)⟩

theorem Performs.skip (heq : ∀ s, M.shape s = shape → pass s = s) : Performs M shape ok pass :=
  ⟨[], fun _ hop => absurd hop List.not_mem_nil, heq⟩

theorem Performs.single (op : Op) (hop : ok op)
    (heq : ∀ s, M.shape s = shape → pass s = M.run op s) : Performs M shape ok pass := by
  refine ⟨[op], fun other hmem => ?_, heq⟩
  rw [List.mem_singleton.mp hmem]
  exact hop

theorem Performs.comp (h : Performs M shape ok pass) (h' : Performs M shape ok pass') :
    Performs M shape ok fun s => pass' (pass s) := by
  have hshape := fun s hs => h.shape_eq (s := s) hs
  obtain ⟨ops, hok, heq⟩ := h
  obtain ⟨ops', hok', heq'⟩ := h'
  refine ⟨ops ++ ops', fun op hop => ?_, fun s hs => ?_⟩
  · exact (List.mem_append.mp hop).elim (hok op) (hok' op)
  · rw [replay_append, ← heq s hs]
    exact heq' _ (hshape s hs)

theorem Performs.forRange {n : Nat} {body : Nat → S → S}
    (h : ∀ i < n, Performs M shape ok (body i)) : Performs M shape ok (forRange n body) := by
  induction n with
  | zero => exact .skip fun s _ => rfl
  | succ n ih =>
      have hrest := ih fun i hi => h i (Nat.lt_succ_of_lt hi)
      exact (hrest.comp (h n (Nat.lt_succ_self n))).congr fun s _ => forRange_succ n body s

theorem Performs.forUp {lo hi : Int} {body : Int → S → S}
    (h : ∀ i, lo ≤ i → i < hi → Performs M shape ok (body i)) :
    Performs M shape ok (forUp lo hi body) :=
  .forRange fun i hlt => h (lo + i) (by omega) (by omega)

-- Whether a round breaks out of the loop depends on the shape only.

theorem Performs.breakFrom {body : Nat → S → Option S} (count i : Nat)
    (h : ∀ j, i ≤ j → j < i + count → (∀ s, M.shape s = shape → body j s = none) ∨
      ∃ round, Performs M shape ok round ∧ ∀ s, M.shape s = shape → body j s = some (round s)) :
    Performs M shape ok (breakFrom body count i) := by
  induction count generalizing i with
  | zero => exact .skip fun s _ => rfl
  | succ count ih =>
      rcases h i (Nat.le_refl i) (by omega) with hnone | ⟨round, hround, hsome⟩
      · refine .skip fun s hs => ?_
        rw [Loop.breakFrom, hnone s hs]
      · have hrest := ih (i + 1) fun j hj hj' => h j (by omega) (by omega)
        refine (hround.comp hrest).congr fun s hs => ?_
        rw [Loop.breakFrom, hsome s hs]

theorem Performs.forUpBreak {lo hi : Int} {body : Int → S → Option S}
    (h : ∀ i, lo ≤ i → i < hi → (∀ s, M.shape s = shape → body i s = none) ∨
      ∃ round, Performs M shape ok round ∧ ∀ s, M.shape s = shape → body i s = some (round s)) :
    Performs M shape ok (forUpBreak lo hi body) :=
  .breakFrom _ 0 fun j _ hj => h (lo + j) (by omega) (by omega)

-- What every allowed operation keeps, the pass keeps.
theorem Performs.keep (h : Performs M shape ok pass) {T : Type} (f : S → T)
    (hkeep : ∀ op, ok op → ∀ s, M.shape s = shape → f (M.run op s) = f s) {s : S}
    (hs : M.shape s = shape) : f (pass s) = f s := by
  obtain ⟨ops, hok, heq⟩ := h
  rw [heq s hs]
  clear heq
  induction ops generalizing s with
  | nil => rfl
  | cons op ops ih =>
      have hop := hok op List.mem_cons_self
      have hrest := ih ((M.keeps op s).trans hs) fun op hmem => hok op (List.mem_cons_of_mem _ hmem)
      exact hrest.trans (hkeep op hop s hs)

end ImgEngine.Library.Replay
