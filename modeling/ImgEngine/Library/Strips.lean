import ImgEngine.Library.Loop
import Mathlib.Logic.Function.Basic
import Mathlib.Tactic.SplitIfs

namespace ImgEngine.Library.Strips

open ImgEngine.Library.Loop

variable {β : Type} {f g : (Nat → β) → Nat → β} {cells : Nat → β}

-- A change to n cells from o on. The function is given the cells from o on and
-- says what each of the n becomes.
def window (o n : Nat) (f : (Nat → β) → Nat → β) (cells : Nat → β) : Nat → β := fun j =>
  if o ≤ j ∧ j < o + n then f (fun k => cells (o + k)) (j - o) else cells j

theorem window_inside {o n k : Nat} (h : k < n) :
    window o n f cells (o + k) = f (fun k => cells (o + k)) k := by
  rw [window, if_pos (by omega), Nat.add_sub_cancel_left]

theorem window_outside {o n j : Nat} (h : j < o ∨ o + n ≤ j) : window o n f cells j = cells j := by
  rw [window, if_neg (by omega)]

-- A change that reads none but the n cells.
def Local (n : Nat) (f : (Nat → β) → Nat → β) : Prop :=
  ∀ a b, (∀ k < n, a k = b k) → ∀ k < n, f a k = f b k

-- The same change to strips of n cells that start s cells apart.

def strips (o s n count : Nat) (f : (Nat → β) → Nat → β) (cells : Nat → β) : Nat → β :=
  forRange count (fun y => window (o + y * s) n f) cells

theorem strips_succ (o s n count : Nat) : strips o s n (count + 1) f cells =
    window (o + count * s) n f (strips o s n count f cells) := forRange_succ _ _ _

theorem strips_outside {o s n count j : Nat}
    (h : ∀ y < count, j < o + y * s ∨ o + y * s + n ≤ j) :
    strips o s n count f cells j = cells j := by
  induction count with
  | zero => rfl
  | succ count ih =>
      rw [strips_succ, window_outside (h count (by omega))]
      exact ih fun y hy => h y (by omega)

theorem strips_inside {o s n count : Nat} (hn : n ≤ s) (hf : Local n f) {y k : Nat}
    (hy : y < count) (hk : k < n) :
    strips o s n count f cells (o + y * s + k) = f (fun k => cells (o + y * s + k)) k := by
  induction count with
  | zero => omega
  | succ count ih =>
      rw [strips_succ]
      by_cases hlast : y = count
      · subst hlast
        rw [window_inside hk]
        -- the strips before end before this one starts
        refine hf _ _ (fun i hi => strips_outside fun y' hy' => .inr ?_) k hk
        have hstep := Nat.mul_le_mul_right s hy'
        rw [Nat.succ_mul] at hstep
        omega
      · have hstep := Nat.mul_le_mul_right s (show y + 1 ≤ count by omega)
        rw [Nat.succ_mul] at hstep
        rw [window_outside (.inl (by omega))]
        exact ih (by omega)

-- A change that leaves every cell as it was.
theorem strips_keep (o s n count : Nat) (cells : Nat → β) (h : ∀ a, ∀ k < n, f a k = a k) :
    strips o s n count f cells = cells := by
  refine forRange_keep id (fun y cells => ?_) count cells
  funext j
  by_cases hj : o + y * s ≤ j ∧ j < o + y * s + n
  · obtain ⟨k, rfl⟩ := Nat.exists_eq_add_of_le hj.1
    rw [id, window_inside (by omega), h _ k (by omega), id]
  · exact window_outside (by omega)

theorem strips_eq_iff (o count : Nat) (cells : Nat → β) {s n : Nat} (hn : n ≤ s) (hf : Local n f)
    (hg : Local n g) :
    strips o s n count f cells = strips o s n count g cells ↔
      ∀ y < count, ∀ k < n, f (fun k => cells (o + y * s + k)) k =
        g (fun k => cells (o + y * s + k)) k := by
  constructor
  · intro h y hy k hk
    rw [← strips_inside hn hf hy hk, ← strips_inside hn hg hy hk, h]
  · intro h
    funext j
    by_cases hj : ∃ y < count, ∃ k < n, j = o + y * s + k
    · obtain ⟨y, hy, k, hk, rfl⟩ := hj
      rw [strips_inside hn hf hy hk, strips_inside hn hg hy hk, h y hy k hk]
    · have hout : ∀ y < count, j < o + y * s ∨ o + y * s + n ≤ j := by
        intro y hy
        by_contra hin
        exact hj ⟨y, hy, j - (o + y * s), by omega, by omega⟩
      rw [strips_outside hout, strips_outside hout]

-- Strips without gaps are one.
theorem strips_adjacent (o n count : Nat) (hf : Local n f) :
    strips o n n count f cells =
      window o (count * n) (fun a k => f (fun i => a (k / n * n + i)) (k % n)) cells := by
  funext j
  by_cases hj : o ≤ j ∧ j < o + count * n
  · have hn : 0 < n := Nat.pos_of_ne_zero fun h => by
      rw [h, Nat.mul_zero] at hj
      omega
    have hlt : j - o < count * n := by omega
    have hy : (j - o) / n < count := (Nat.div_lt_iff_lt_mul hn).mpr hlt
    have hsplit : (j - o) / n * n + (j - o) % n = j - o := Nat.div_add_mod' _ _
    have hat : j = o + (j - o) / n * n + (j - o) % n := by omega
    have hin : j = o + (j - o) := by omega
    conv_lhs => rw [hat]
    conv_rhs => rw [hin]
    rw [strips_inside (Nat.le_refl n) hf hy (Nat.mod_lt _ hn), window_inside hlt]
    simp only [Nat.add_assoc]
  · rw [window_outside (by omega), strips_outside]
    intro y hy
    have hstep := Nat.mul_le_mul_right n (show y + 1 ≤ count from hy)
    rw [Nat.succ_mul] at hstep
    omega

-- Two neighbouring windows in which each cell is mapped.
theorem window_map_join (o m n : Nat) (q q' : β → β) :
    window (o + m) n (fun a k => q' (a k)) (window o m (fun a k => q (a k)) cells) =
      window o (m + n) (fun a k => if k < m then q (a k) else q' (a k)) cells := by
  funext j
  by_cases hj : o ≤ j ∧ j < o + (m + n)
  · obtain ⟨k, rfl⟩ := Nat.exists_eq_add_of_le hj.1
    rw [window_inside (by omega)]
    by_cases hfirst : k < m
    · rw [window_outside (by omega), window_inside hfirst, if_pos hfirst]
    · have hk : o + k = o + m + (k - m) := by omega
      rw [if_neg hfirst, hk, window_inside (by omega)]
      change q' (window o m _ cells (o + m + (k - m))) = q' (cells (o + k))
      rw [window_outside (by omega), hk]
  · rw [window_outside (by omega), window_outside (by omega), window_outside (by omega)]

theorem window_map_append (o m n : Nat) (q : β → β) :
    window (o + m) n (fun a k => q (a k)) (window o m (fun a k => q (a k)) cells) =
      window o (m + n) (fun a k => q (a k)) cells := by
  rw [window_map_join]
  simp only [ite_self]

-- A loop that maps one cell after the other.
theorem forRange_update (o n : Nat) (q : β → β) : forRange n (fun i (cells : Nat → β) =>
    Function.update cells (o + i) (q (cells (o + i)))) cells =
      window o n (fun a k => q (a k)) cells := by
  induction n with
  | zero =>
      funext j
      exact (window_outside (by omega)).symm
  | succ n ih =>
      rw [forRange_succ, ih, ← window_map_append]
      funext j
      by_cases hj : j = o + n
      · subst hj
        rw [Function.update_self, window.eq_def (o + n), if_pos (by omega), Nat.sub_self]
        rfl
      · rw [Function.update_of_ne hj]
        exact (window_outside (by omega)).symm

end ImgEngine.Library.Strips
