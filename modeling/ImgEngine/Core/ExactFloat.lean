import ImgEngine.Core.Float
import Mathlib.Data.Rat.Floor
import Mathlib.Tactic.NormNum

namespace ImgEngine

-- Floats that stand for rational numbers and compute exactly with them. Nothing is
-- said of sums and of constants other than 1, so that lengths in pixels, which are
-- computed from them, may be any.
class ExactFloat (F : Type) extends FloatType F where
  val : F → ℚ
  val_ofUInt32 : ∀ n : UInt32, val (ofUInt32 n) = n.toNat
  val_mul : ∀ x y, val (x * y) = val x * val y
  val_div : ∀ x y, val (x / y) = val x / val y
  val_one : val 1.0 = 1
  lt_iff : ∀ x y, lt x y = true ↔ val x < val y
  toUInt32_val : ∀ x, 0 ≤ val x → val x < 2 ^ 32 → (toUInt32 x).toNat = ⌊val x⌋₊

instance : FloatType ℚ where
  lt x y := x < y
  ofUInt32 n := n.toNat
  toUInt32 x := .ofNat ⌊x⌋₊

instance : ExactFloat ℚ where
  val := id
  val_ofUInt32 _ := rfl
  val_mul _ _ := rfl
  val_div _ _ := rfl
  val_one := by norm_num
  lt_iff x y := decide_eq_true_iff
  toUInt32_val x hx hlt := by
    have hfloor : ⌊x⌋₊ < 2 ^ 32 := (Nat.floor_lt hx).mpr (by exact_mod_cast hlt)
    change (UInt32.ofNat ⌊x⌋₊).toNat = _
    rw [UInt32.toNat_ofNat', Nat.mod_eq_of_lt hfloor]
    rfl

end ImgEngine
