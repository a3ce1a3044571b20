import ImgEngine.Library.Loop
import Mathlib.Logic.Function.Basic
import Mathlib.Logic.Nontrivial.Basic
import Mathlib.Tactic.SplitIfs

namespace ImgEngine.Library.Overlay

open ImgEngine.Library.Loop

variable {β : Type} {src dst : Nat → β} {w w' : Nat → Option Nat}

-- Copies from cells that nothing writes to. The map gives the cell that a cell is a
-- copy of, if it is one.
def overlay (w : Nat → Option Nat) (src dst : Nat → β) : Nat → β := fun j =>
  (w j).elim (dst j) src

theorem overlay_of_some {j i : Nat} (h : w j = some i) : overlay w src dst j = src i := by
  rw [overlay, h, Option.elim_some]

theorem overlay_of_none {j : Nat} (h : w j = none) : overlay w src dst j = dst j := by
  rw [overlay, h, Option.elim_none]

-- The later copies hide the earlier ones.
def atop (later earlier : Nat → Option Nat) : Nat → Option Nat := fun j => (later j).or (earlier j)

theorem overlay_atop : overlay w src (overlay w' src dst) = overlay (atop w w') src dst := by
  funext j
  cases hw : w j with
  | none => simp only [overlay, atop, hw, Option.elim_none, Option.none_or]
  | some i => simp only [overlay, atop, hw, Option.elim_some, Option.some_or]

-- n cells from s on, copied to d.
def span (d s n : Nat) : Nat → Option Nat := fun j =>
  if d ≤ j ∧ j < d + n then some (s + (j - d)) else none

theorem span_inside {d s n k : Nat} (h : k < n) : span d s n (d + k) = some (s + k) := by
  rw [span, if_pos (by omega), Nat.add_sub_cancel_left]

theorem span_outside {d s n j : Nat} (h : j < d ∨ d + n ≤ j) : span d s n j = none :=
  if_neg (by omega)

theorem overlay_span_zero (d s : Nat) : overlay (span d s 0) src dst = dst :=
  funext fun _ => overlay_of_none (span_outside (by omega))

theorem atop_span (d s m n : Nat) : atop (span (d + m) (s + m) n) (span d s m) =
    span d s (m + n) := by
  funext j
  simp only [atop, span]
  by_cases hlater : d + m ≤ j ∧ j < d + m + n
  · rw [if_pos hlater, Option.some_or, if_pos (by omega)]
    congr 1
    omega
  · rw [if_neg hlater, Option.none_or]
    by_cases hearlier : d ≤ j ∧ j < d + m
    · rw [if_pos hearlier, if_pos (by omega)]
    · rw [if_neg hearlier, if_neg (by omega)]

theorem update_overlay (d s : Nat) :
    Function.update dst d (src s) = overlay (span d s 1) src dst := by
  funext j
  by_cases hj : j = d
  · subst hj
    rw [Function.update_self, ← Nat.add_zero j, overlay_of_some (span_inside Nat.one_pos)]
    rfl
  · rw [Function.update_of_ne hj, overlay_of_none (span_outside (by omega))]

-- A loop whose rounds copy.

def layers (w : Nat → Nat → Option Nat) : Nat → Nat → Option Nat
  | 0 => fun _ => none
  | n + 1 => atop (w n) (layers w n)

theorem forRange_overlay {w : Nat → Nat → Option Nat} (n : Nat) (dst : Nat → β) :
    forRange n (fun i dst => overlay (w i) src dst) dst = overlay (layers w n) src dst := by
  induction n with
  | zero => exact (funext fun _ => overlay_of_none rfl).symm
  | succ n ih => rw [forRange_succ, ih, overlay_atop, layers]

section Layers

variable {w : Nat → Nat → Option Nat} {n j : Nat}

theorem layers_eq_none_iff : layers w n j = none ↔ ∀ y < n, w y j = none := by
  induction n with
  | zero => simp [layers]
  | succ n ih =>
      rw [layers, atop, Option.or_eq_none_iff, ih]
      constructor
      · rintro ⟨hlast, h⟩ y hy
        rcases Nat.lt_succ_iff_lt_or_eq.mp hy with hlt | rfl
        · exact h y hlt
        · exact hlast
      · intro h
        exact ⟨h n (Nat.lt_succ_self n), fun y hy => h y (Nat.lt_succ_of_lt hy)⟩

theorem layers_eq_none (h : ∀ y < n, w y j = none) : layers w n j = none :=
  layers_eq_none_iff.mpr h

-- The last round that copies to a cell decides.
theorem layers_eq_some {y i : Nat} (hy : y < n) (h : w y j = some i)
    (hlater : ∀ y', y < y' → y' < n → w y' j = none) : layers w n j = some i := by
  induction n with
  | zero => omega
  | succ n ih =>
      rw [layers, atop]
      by_cases hlast : y = n
      · subst hlast
        rw [h, Option.some_or]
      · rw [hlater n (by omega) (Nat.lt_succ_self n), Option.none_or]
        exact ih (by omega) fun y' hlt hn => hlater y' hlt (Nat.lt_succ_of_lt hn)

-- Only one round copies to the cell.
theorem layers_eq {y : Nat} (hy : y < n) (hother : ∀ y' < n, y' ≠ y → w y' j = none) :
    layers w n j = w y j := by
  cases hw : w y j with
  | none =>
      refine layers_eq_none fun y' hy' => ?_
      by_cases he : y' = y
      · rw [he, hw]
      · exact hother y' hy' he
  | some i => exact layers_eq_some hy hw fun y' hlt hn => hother y' hn (by omega)

end Layers

-- A loop that copies one cell after the other.
theorem forRange_copy (d s n : Nat) (dst : Nat → β) :
    forRange n (fun k dst => Function.update dst (d + k) (src (s + k))) dst =
      overlay (span d s n) src dst := by
  induction n with
  | zero => exact (overlay_span_zero d s).symm
  | succ n ih => rw [forRange_succ, ih, update_overlay, overlay_atop, atop_span]

-- Copies of n cells each that lie m cells apart.

section Tiles

variable {d m n count : Nat} {s : Nat → Nat}

theorem tiles_inside (hn : n ≤ m) {x k : Nat} (hx : x < count) (hk : k < n) :
    layers (fun x => span (d + x * m) (s x) n) count (d + x * m + k) = some (s x + k) := by
  refine layers_eq_some hx (span_inside hk) fun x' hlt _ => span_outside (.inl ?_)
  have hstep := Nat.mul_le_mul_right m hlt
  rw [Nat.succ_mul] at hstep
  omega

theorem tiles_outside {j : Nat}
    (h : ∀ x < count, j < d + x * m ∨ d + x * m + n ≤ j) :
    layers (fun x => span (d + x * m) (s x) n) count j = none :=
  layers_eq_none fun x hx => span_outside (h x hx)

end Tiles

-- Whatever the source holds.

section Contents

variable [Nontrivial β] {j : Nat}

theorem overlay_apply_iff (dst : Nat → β) {i : Nat} :
    (∀ src, overlay w src dst j = src i) ↔ w j = some i := by
  constructor
  · intro h
    obtain ⟨a, ha⟩ := exists_ne (dst j)
    have hmark := h fun k => if k = i then a else dst j
    rw [if_pos rfl] at hmark
    cases hw : w j with
    | none =>
        rw [overlay_of_none hw] at hmark
        exact absurd hmark.symm ha
    | some k =>
        rw [overlay_of_some hw] at hmark
        by_cases hk : k = i
        · rw [hk]
        · rw [if_neg hk] at hmark
          exact absurd hmark.symm ha
  · intro h src
    exact overlay_of_some h

theorem overlay_keeps_iff (dst : Nat → β) :
    (∀ src, overlay w src dst j = dst j) ↔ w j = none := by
  constructor
  · intro h
    obtain ⟨a, ha⟩ := exists_ne (dst j)
    have hmark := h fun _ => a
    cases hw : w j with
    | none => rfl
    | some k =>
        rw [overlay_of_some hw] at hmark
        exact absurd hmark ha
  · intro h src
    exact overlay_of_none h

end Contents

end ImgEngine.Library.Overlay
