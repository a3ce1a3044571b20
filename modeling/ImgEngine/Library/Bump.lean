import Mathlib.Data.List.Basic
import Mathlib.Order.Bounds.Basic

namespace ImgEngine.Library.Bump

-- The smallest multiple of m from n on.

def roundUp (m n : Nat) : Nat := (n + (m - 1)) / m * m

variable {m n : Nat}

theorem le_roundUp (hm : 0 < m) (n : Nat) : n ≤ roundUp m n := by
  have hsplit := Nat.div_add_mod' (n + (m - 1)) m
  have hlt := Nat.mod_lt (n + (m - 1)) hm
  rw [roundUp]
  omega

theorem roundUp_lt (hm : 0 < m) (n : Nat) : roundUp m n < n + m := by
  have hle := Nat.div_mul_le_self (n + (m - 1)) m
  rw [roundUp]
  omega

theorem roundUp_isLeast (hm : 0 < m) (n : Nat) : IsLeast {k | m ∣ k ∧ n ≤ k} (roundUp m n) := by
  refine ⟨⟨Nat.dvd_mul_left _ _, le_roundUp hm n⟩, ?_⟩
  rintro _ ⟨⟨q, rfl⟩, hle⟩
  rw [roundUp, Nat.mul_comm m q]
  refine Nat.mul_le_mul_right m (Nat.lt_succ_iff.mp ((Nat.div_lt_iff_lt_mul hm).mpr ?_))
  rw [Nat.succ_mul, Nat.mul_comm q]
  omega

@[simp] theorem roundUp_one (n : Nat) : roundUp 1 n = n := by
  simp [roundUp]

-- Stretches of a memory.

structure Region where
  start : Nat
  size : Nat
deriving DecidableEq, Repr

def Region.Apart (a b : Region) : Prop := a.start + a.size ≤ b.start ∨ b.start + b.size ≤ a.start

-- A memory of which everything from the top on is free, with the regions below that
-- have been handed out, the last one first.
structure Stack (capacity : Nat) where
  top : Nat
  regions : List Region
  apart : regions.Pairwise Region.Apart
  below : ∀ region ∈ regions, region.start + region.size ≤ top
  fits : top ≤ capacity

namespace Stack

variable {capacity : Nat}

def cleared (top : Nat) (fits : top ≤ capacity) : Stack capacity where
  top := top
  regions := []
  apart := .nil
  below := nofun
  fits := fits

-- What lies between the top and the start is lost.
def push (s : Stack capacity) (start size : Nat) (hstart : s.top ≤ start)
    (hfits : start + size ≤ capacity) : Stack capacity where
  top := start + size
  regions := ⟨start, size⟩ :: s.regions
  apart := .cons (fun region hmem => .inr ((s.below region hmem).trans hstart)) s.apart
  below := by
    intro region hmem
    rcases List.mem_cons.mp hmem with rfl | hmem
    · exact Nat.le_refl _
    · have := s.below region hmem
      omega
  fits := hfits

theorem inside (s : Stack capacity) {region : Region} (h : region ∈ s.regions) :
    region.start + region.size ≤ capacity :=
  (s.below region h).trans s.fits

end Stack

end ImgEngine.Library.Bump
