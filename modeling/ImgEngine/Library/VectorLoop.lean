import Mathlib.Algebra.Group.Nat.Defs

namespace ImgEngine.Library.VectorLoop

variable {S R : Type} {len : UInt32} {round : UInt32 → S → S} {final : UInt32 → S → R}
  {loop : Nat → UInt32 → S → Option R}

-- A loop that goes on 32 cells at a time while as many are left, with counters of 32
-- bits, and that has some rounds at most.
structure Vectored (len : UInt32) (round : UInt32 → S → S) (final : UInt32 → S → R)
    (loop : Nat → UInt32 → S → Option R) : Prop where
  zero : ∀ x s, loop 0 x s = none
  succ : ∀ fuel x s, loop (fuel + 1) x s =
    if x + 32 ≤ len then loop fuel (x + 32) (round x s) else some (final x s)

theorem next_toNat (x : UInt32) : (x + 32).toNat = (x.toNat + 32) % 2 ^ 32 := UInt32.toNat_add x 32

-- The loop ends after the last whole vector if the counter does not wrap before.
theorem Vectored.returns (h : Vectored len round final loop) (hlen : len.toNat < 2 ^ 32 - 32)
    (Inv : Nat → S → Prop)
    (hround : ∀ x : UInt32, ∀ s, x.toNat + 32 ≤ len.toNat → Inv x.toNat s →
      Inv (x.toNat + 32) (round x s))
    {fuel : Nat} {x : UInt32} {s : S} (halign : x.toNat % 32 = 0) (hx : x.toNat ≤ len.toNat)
    (hfuel : len.toNat < x.toNat + 32 * fuel) (hinv : Inv x.toNat s) :
    ∃ s', Inv (len.toNat / 32 * 32) s' ∧
      loop fuel x s = some (final (.ofNat (len.toNat / 32 * 32)) s') := by
  induction fuel generalizing x s with
  | zero => omega
  | succ fuel ih =>
      have hnext := next_toNat x
      rw [Nat.mod_eq_of_lt (by omega)] at hnext
      rw [h.succ]
      by_cases hmore : x + 32 ≤ len
      · have hmore' := UInt32.le_iff_toNat_le.mp hmore
        rw [hnext] at hmore'
        rw [if_pos hmore]
        exact ih (by omega) (by omega) (by omega) (hnext ▸ hround x s hmore' hinv)
      · have hmore' := mt UInt32.le_iff_toNat_le.mpr hmore
        rw [hnext] at hmore'
        have hend : len.toNat / 32 * 32 = x.toNat := by omega
        rw [if_neg hmore, hend, UInt32.ofNat_toNat]
        exact ⟨s, hinv, rfl⟩

-- Else it never does.
theorem Vectored.stuck (h : Vectored len round final loop) (hlen : 2 ^ 32 - 32 ≤ len.toNat)
    {fuel : Nat} {x : UInt32} {s : S} (halign : x.toNat % 32 = 0) : loop fuel x s = none := by
  induction fuel generalizing x s with
  | zero => exact h.zero x s
  | succ fuel ih =>
      have hx := x.toNat_lt
      have hnext := next_toNat x
      have hmore : x + 32 ≤ len := by
        rw [UInt32.le_iff_toNat_le, hnext]
        omega
      rw [h.succ, if_pos hmore]
      exact ih (by omega)

end ImgEngine.Library.VectorLoop
