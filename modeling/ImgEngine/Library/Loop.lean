import Mathlib.Data.List.Basic

namespace ImgEngine.Library.Loop

variable {S : Type}

-- Counting loops whose body changes a state.

def forRange (n : Nat) (body : Nat → S → S) (s : S) : S :=
  (List.range n).foldl (fun s i => body i s) s

-- from lo up to hi, which is not reached
def forUp (lo hi : Int) (body : Int → S → S) (s : S) : S :=
  forRange (hi - lo).toNat (fun i => body (lo + i)) s

-- A body without a result breaks out of the loop.

def breakFrom (body : Nat → S → Option S) : Nat → Nat → S → S
  | 0, _, s => s
  | count + 1, i, s =>
      match body i s with
      | none => s
      | some s => breakFrom body count (i + 1) s

def forUpBreak (lo hi : Int) (body : Int → S → Option S) (s : S) : S :=
  breakFrom (fun i => body (lo + i)) (hi - lo).toNat 0 s

@[simp] theorem forRange_zero (body : Nat → S → S) (s : S) : forRange 0 body s = s := rfl

theorem forRange_succ (n : Nat) (body : Nat → S → S) (s : S) :
    forRange (n + 1) body s = body n (forRange n body s) := by
  rw [forRange, List.range_succ, List.foldl_append]
  rfl

theorem forRange_invariant {n : Nat} {body : Nat → S → S} {s : S} (Inv : Nat → S → Prop)
    (h : Inv 0 s) (hstep : ∀ i < n, ∀ s, Inv i s → Inv (i + 1) (body i s)) :
    Inv n (forRange n body s) := by
  induction n with
  | zero => exact h
  | succ n ih =>
      rw [forRange_succ]
      exact hstep n (Nat.lt_succ_self n) _ (ih fun i hi => hstep i (Nat.lt_succ_of_lt hi))

theorem forRange_congr {n : Nat} {body body' : Nat → S → S}
    (h : ∀ i < n, ∀ s, body i s = body' i s) (s : S) : forRange n body s = forRange n body' s := by
  induction n with
  | zero => rfl
  | succ n ih =>
      rw [forRange_succ, forRange_succ, ih fun i hi => h i (Nat.lt_succ_of_lt hi)]
      exact h n (Nat.lt_succ_self n) _

-- A loop whose rounds may fail, when none of them does.
theorem foldlM_range_eq {n : Nat} {body : S → Nat → Option S} {total : Nat → S → S}
    (h : ∀ i < n, ∀ s, body s i = some (total i s)) (s : S) :
    (List.range n).foldlM body s = some (forRange n total s) := by
  induction n with
  | zero => rfl
  | succ n ih =>
      rw [List.range_succ, List.foldlM_append, ih fun i hi => h i (Nat.lt_succ_of_lt hi),
        forRange_succ]
      change List.foldlM body _ [n] = _
      rw [List.foldlM_cons, h n (Nat.lt_succ_self n)]
      rfl

theorem foldlM_range_invariant {n : Nat} {body : S → Nat → Option S} {s : S} (Inv : S → Prop)
    (h : Inv s) (hstep : ∀ i < n, ∀ s, Inv s → ∃ s', body s i = some s' ∧ Inv s') :
    ∃ s', (List.range n).foldlM body s = some s' ∧ Inv s' := by
  induction n with
  | zero => exact ⟨s, rfl, h⟩
  | succ n ih =>
      obtain ⟨s', hfirst, hinv⟩ := ih fun i hi => hstep i (Nat.lt_succ_of_lt hi)
      obtain ⟨s'', hlast, hinv'⟩ := hstep n (Nat.lt_succ_self n) s' hinv
      refine ⟨s'', ?_, hinv'⟩
      rw [List.range_succ, List.foldlM_append, hfirst]
      change List.foldlM body _ [n] = _
      rw [List.foldlM_cons, hlast]
      rfl

-- What every round keeps, the loop keeps.

theorem forRange_keep {T : Type} (f : S → T) {body : Nat → S → S}
    (h : ∀ i s, f (body i s) = f s) (n : Nat) (s : S) : f (forRange n body s) = f s :=
  forRange_invariant (fun _ t => f t = f s) rfl fun i _ t ht => (h i t).trans ht

theorem forUp_keep {T : Type} (f : S → T) {body : Int → S → S}
    (h : ∀ i s, f (body i s) = f s) (lo hi : Int) (s : S) : f (forUp lo hi body s) = f s :=
  forRange_keep f (fun i => h (lo + i)) _ s

theorem breakFrom_keep {T : Type} (f : S → T) {body : Nat → S → Option S}
    (h : ∀ i s s', body i s = some s' → f s' = f s) (count i : Nat) (s : S) :
    f (breakFrom body count i s) = f s := by
  induction count generalizing i s with
  | zero => rfl
  | succ count ih =>
      rw [breakFrom]
      cases hbody : body i s with
      | none => rfl
      | some s' => exact (ih (i + 1) s').trans (h i s s' hbody)

theorem forUpBreak_keep {T : Type} (f : S → T) {body : Int → S → Option S}
    (h : ∀ i s s', body i s = some s' → f s' = f s) (lo hi : Int) (s : S) :
    f (forUpBreak lo hi body s) = f s :=
  breakFrom_keep f (fun i => h (lo + i)) _ _ s

theorem forRange_add (m n : Nat) (body : Nat → S → S) (s : S) :
    forRange (m + n) body s = forRange n (fun i => body (m + i)) (forRange m body s) := by
  induction n with
  | zero => rfl
  | succ n ih => rw [← Nat.add_assoc, forRange_succ, ih, forRange_succ]

-- Two nested loops are one loop over the pairs in lexicographic order.
theorem forRange_nested (rows cols : Nat) (body : Nat → Nat → S → S) (s : S) :
    forRange rows (fun row => forRange cols (body row)) s =
      forRange (rows * cols) (fun i => body (i / cols) (i % cols)) s := by
  induction rows with
  | zero => rw [Nat.zero_mul, forRange_zero, forRange_zero]
  | succ rows ih =>
      rw [forRange_succ, ih, Nat.succ_mul, forRange_add]
      unfold forRange
      apply List.foldl_ext
      intro s col hcol
      have hcol := List.mem_range.mp hcol
      have hpos : 0 < cols := Nat.zero_lt_of_lt hcol
      change _ = body ((rows * cols + col) / cols) ((rows * cols + col) % cols) s
      rw [Nat.mul_comm rows cols, Nat.mul_add_div hpos, Nat.div_eq_of_lt hcol,
        Nat.mul_add_mod, Nat.mod_eq_of_lt hcol, Nat.add_zero]

end ImgEngine.Library.Loop
