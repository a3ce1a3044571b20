import Mathlib.Algebra.Order.Ring.Nat
import Mathlib.Data.Nat.ModEq
import Mathlib.Logic.Function.Basic
import Mathlib.Tactic.SplitIfs

namespace ImgEngine

-- A 64-bit address. The null pointer is 0.
abbrev Ptr := UInt64

-- Indices are reduced with a mask that is one below a power of two.
theorem uint64_and_mask (x mask : UInt64) {k : Nat} (hmask : mask.toNat = 2 ^ k - 1) :
    (x &&& mask).toNat = x.toNat % 2 ^ k := by
  rw [UInt64.toNat_and, hmask, Nat.and_two_pow_sub_one_eq_mod]

theorem uint32_and_mask (x mask : UInt32) {k : Nat} (hmask : mask.toNat = 2 ^ k - 1) :
    (x &&& mask).toNat = x.toNat % 2 ^ k := by
  rw [UInt32.toNat_and, hmask, Nat.and_two_pow_sub_one_eq_mod]

-- Sums, differences and shifts below such a mask.

theorem uint32_add_and_mask (a b mask : UInt32) {k : Nat} (hk : k ≤ 32)
    (hmask : mask.toNat = 2 ^ k - 1) : ((a + b) &&& mask).toNat = (a.toNat + b.toNat) % 2 ^ k := by
  rw [uint32_and_mask _ _ hmask, UInt32.toNat_add]
  exact Nat.mod_mod_of_dvd _ (Nat.pow_dvd_pow 2 hk)

theorem uint32_sub_and_mask {a b mask : UInt32} {k : Nat} (hk : k ≤ 32)
    (hmask : mask.toNat = 2 ^ k - 1) (hb : b.toNat < 2 ^ k) :
    ((a - b) &&& mask).toNat = (a.toNat + 2 ^ k - b.toNat) % 2 ^ k := by
  obtain ⟨c, hc⟩ : 2 ^ k ∣ 2 ^ 32 := Nat.pow_dvd_pow 2 hk
  have hc0 : c ≠ 0 := by
    rintro rfl
    simp at hc
  obtain ⟨c, rfl⟩ := Nat.exists_eq_succ_of_ne_zero hc0
  have hsum : 2 ^ 32 - b.toNat + a.toNat = a.toNat + 2 ^ k - b.toNat + 2 ^ k * c := by
    rw [hc, Nat.mul_succ]
    omega
  rw [uint32_and_mask _ _ hmask, UInt32.toNat_sub, Nat.mod_mod_of_dvd _ ⟨_, hc⟩, hsum,
    Nat.add_mul_mod_self_left]

theorem uint32_one_shiftLeft {power : UInt32} (hpower : power.toNat < 32) :
    ((1 : UInt32) <<< power).toNat = 2 ^ power.toNat := by
  have hword : 2 ^ power.toNat < 2 ^ 32 := Nat.pow_lt_pow_right (by omega) hpower
  rw [UInt32.toNat_shiftLeft, UInt32.toNat_one, Nat.shiftLeft_eq, Nat.mod_eq_of_lt hpower, one_mul,
    Nat.mod_eq_of_lt hword]

theorem uint64_ofNat_and_mask (n : Nat) (mask : UInt64) {k : Nat} (hk : k ≤ 64)
    (hmask : mask.toNat = 2 ^ k - 1) :
    UInt64.ofNat n &&& mask = UInt64.ofNat (n % 2 ^ k) := by
  apply UInt64.toNat_inj.mp
  have hlt : n % 2 ^ k < 2 ^ 64 :=
    lt_of_lt_of_le (Nat.mod_lt _ (Nat.two_pow_pos k)) (Nat.pow_le_pow_right (by omega) hk)
  rw [uint64_and_mask _ _ hmask, UInt64.toNat_ofNat', UInt64.toNat_ofNat',
    Nat.mod_mod_of_dvd _ (Nat.pow_dvd_pow 2 hk), Nat.mod_eq_of_lt hlt]

-- Clearing the bits of such a mask rounds down.
theorem uint64_and_not_mask (x mask : UInt64) {k : Nat} (hmask : mask.toNat = 2 ^ k - 1) :
    (x &&& ~~~mask).toNat = x.toNat / 2 ^ k * 2 ^ k := by
  have hnot : (~~~mask).toNat = 2 ^ 64 - (mask.toNat + 1) := by
    rw [UInt64.toNat_not, Nat.sub_sub, Nat.add_comm 1]
    rfl
  have hshift : x.toNat / 2 ^ k * 2 ^ k = x.toNat >>> k <<< k := by
    rw [Nat.shiftRight_eq_div_pow, Nat.shiftLeft_eq]
  rw [UInt64.toNat_and, hnot, hshift]
  apply Nat.eq_of_testBit_eq
  intro i
  rw [Nat.testBit_and, Nat.testBit_two_pow_sub_succ mask.toNat_lt, hmask,
    Nat.testBit_two_pow_sub_one, Nat.testBit_shiftLeft, Nat.testBit_shiftRight]
  by_cases hi : k ≤ i
  · rw [Nat.add_sub_cancel' hi]
    rcases Nat.lt_or_ge i 64 with hlt | hge
    · simp [hi, hlt]
    · have hbit : x.toNat.testBit i = false :=
        Nat.testBit_lt_two_pow (x.toNat_lt.trans_le (Nat.pow_le_pow_right (by omega) hge))
      simp [hbit]
  · simp [hi, Nat.not_le.mp hi]

theorem uint64_ofNat_eq_iff (a b : Nat) :
    UInt64.ofNat a = UInt64.ofNat b ↔ a ≡ b [MOD 2 ^ 64] := by
  rw [← UInt64.toNat_inj, UInt64.toNat_ofNat', UInt64.toNat_ofNat']
  rfl

theorem uint64_ofNat_inj {a b : Nat} (ha : a < 2 ^ 64) (hb : b < 2 ^ 64)
    (h : UInt64.ofNat a = UInt64.ofNat b) : a = b :=
  Nat.ModEq.eq_of_lt_of_lt ((uint64_ofNat_eq_iff a b).mp h) ha hb

theorem word_toNat {n : Nat} (hn : n < 2 ^ 63) : (UInt64.ofNat n).toNat = n := by
  rw [UInt64.toNat_ofNat', Nat.mod_eq_of_lt (by omega)]

-- Arrays with a power of two of places, which the mask picks.

theorem uint64_mask_succ {mask : UInt64} {k : Nat} (hk : k ≤ 63) (hmask : mask.toNat = 2 ^ k - 1) :
    mask + 1 = UInt64.ofNat (2 ^ k) := by
  have hlt : 2 ^ k < 2 ^ 64 := Nat.pow_lt_pow_right (by omega) (by omega)
  have := Nat.two_pow_pos k
  apply UInt64.toNat_inj.mp
  rw [UInt64.toNat_add, hmask, UInt64.toNat_ofNat', Nat.mod_eq_of_lt hlt]
  simp only [UInt64.toNat_one]
  omega

theorem update_and_mask {α : Type} {mask : UInt64} {k : Nat} (hk : k ≤ 63)
    (hmask : mask.toNat = 2 ^ k - 1) (cells : UInt64 → α) (n : Nat) (cell : α) {i : Nat}
    (hi : i < 2 ^ k) :
    Function.update cells (UInt64.ofNat n &&& mask) cell (UInt64.ofNat i) =
      if i = n % 2 ^ k then cell else cells (UInt64.ofNat i) := by
  have hle : (2 : Nat) ^ k ≤ 2 ^ 63 := Nat.pow_le_pow_right (by omega) hk
  have hn : n % 2 ^ k < 2 ^ k := Nat.mod_lt _ (Nat.two_pow_pos k)
  rw [uint64_ofNat_and_mask n mask (by omega) hmask, Function.update_apply]
  split_ifs with h h' h'
  · rfl
  · exact absurd (uint64_ofNat_inj (by omega) (by omega) h) h'
  · exact absurd (by rw [h']) h
  · rfl

-- A loop that sets one place after another.
theorem foldl_update_ofNat {α : Type} (value : Nat → α → α) (cells : UInt64 → α) {count i : Nat}
    (hcount : count ≤ 2 ^ 64) (hi : i < count) :
    (List.range count).foldl (fun cells i =>
        Function.update cells (UInt64.ofNat i) (value i (cells (UInt64.ofNat i)))) cells
      (UInt64.ofNat i) = value i (cells (UInt64.ofNat i)) := by
  have hne : ∀ {i j : Nat}, i < count → j < count → i ≠ j → UInt64.ofNat i ≠ UInt64.ofNat j :=
    fun hi hj hij he => hij (uint64_ofNat_inj (by omega) (by omega) he)
  suffices hall : ∀ n ≤ count, ∀ j < count,
      (List.range n).foldl (fun cells i =>
          Function.update cells (UInt64.ofNat i) (value i (cells (UInt64.ofNat i)))) cells
        (UInt64.ofNat j) =
      if j < n then value j (cells (UInt64.ofNat j)) else cells (UInt64.ofNat j) by
    rw [hall count (Nat.le_refl _) i hi, if_pos hi]
  intro n
  induction n with
  | zero => exact fun _ j _ => rfl
  | succ n ih =>
      intro hn j hj
      rw [List.range_succ, List.foldl_append, List.foldl_cons, List.foldl_nil]
      by_cases he : j = n
      · subst he
        rw [Function.update_self, ih (by omega) j hj, if_neg (Nat.lt_irrefl j),
          if_pos (Nat.lt_succ_self j)]
      · rw [Function.update_of_ne (hne hj (by omega) he), ih (by omega) j hj]
        have hiff : j < n ↔ j < n + 1 := by omega
        simp only [hiff]

-- Words whose result does not wrap.

theorem uint32_toNat_ofNat {n : Nat} (h : n < 2 ^ 32) : (UInt32.ofNat n).toNat = n := by
  rw [UInt32.toNat_ofNat', Nat.mod_eq_of_lt h]

theorem uint32_toNat_add {a b : UInt32} (h : a.toNat + b.toNat < 2 ^ 32) :
    (a + b).toNat = a.toNat + b.toNat := by
  rw [UInt32.toNat_add, Nat.mod_eq_of_lt h]

theorem uint32_toNat_mul {a b : UInt32} (h : a.toNat * b.toNat < 2 ^ 32) :
    (a * b).toNat = a.toNat * b.toNat := by
  rw [UInt32.toNat_mul, Nat.mod_eq_of_lt h]

-- The bytes of a row of pixels.
theorem uint32_toNat_mul_three {n : UInt32} (h : 3 * n.toNat < 2 ^ 32) :
    (n * 3).toNat = 3 * n.toNat := by
  rw [uint32_toNat_mul, Nat.mul_comm]
  · rfl
  · change n.toNat * 3 < 2 ^ 32
    omega

theorem uint32_toNat_sub {a b : UInt32} (h : b.toNat ≤ a.toNat) :
    (a - b).toNat = a.toNat - b.toNat :=
  UInt32.toNat_sub_of_le a b (UInt32.le_iff_toNat_le.mpr h)

-- The signed difference of two words vanishes only between equal words.
theorem toInt64_sub_eq_zero_iff (a b : UInt64) : a.toInt64 - b.toInt64 = 0 ↔ a = b := by
  constructor
  · intro h
    have h := congrArg Int64.toBitVec h
    simp only [Int64.toBitVec_sub, UInt64.toBitVec_toInt64, Int64.toBitVec_zero] at h
    apply UInt64.toBitVec_inj.mp
    bv_omega
  · rintro rfl
    simp

-- The sign of the difference is right as long as the numbers are less than half
-- a word apart.
theorem toInt64_sub_toInt {a b : Nat} (hab : b ≤ a + 2 ^ 63) (hlt : a < b + 2 ^ 63) :
    ((UInt64.ofNat a).toInt64 - (UInt64.ofNat b).toInt64).toInt = (a : Int) - b := by
  have hdiff : ((UInt64.ofNat a).toInt64 - (UInt64.ofNat b).toInt64).toBitVec.toNat =
      (2 ^ 64 - b % 2 ^ 64 + a % 2 ^ 64) % 2 ^ 64 := by
    simp [BitVec.toNat_sub]
  rw [Int64.toInt, BitVec.toInt_eq_toNat_cond, hdiff]
  split_ifs <;> omega

theorem toInt64_sub_neg_iff {a b : Nat} (hab : b ≤ a + 2 ^ 63) (hlt : a < b + 2 ^ 63) :
    (UInt64.ofNat a).toInt64 - (UInt64.ofNat b).toInt64 < 0 ↔ a < b := by
  rw [Int64.lt_iff_toInt_lt, toInt64_sub_toInt hab hlt, Int64.toInt_zero]
  omega

end ImgEngine
