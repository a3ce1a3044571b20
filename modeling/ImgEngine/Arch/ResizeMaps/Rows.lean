import ImgEngine.Arch.ResizeMaps
import ImgEngine.Library.Overlay
import ImgEngine.Library.VectorLoop

namespace ImgEngine.Arch

open ImgEngine.Library.Loop ImgEngine.Library.Overlay ImgEngine.Library.VectorLoop

-- The resize kernels compute where a row starts in 32 bits.

def rowStart (stride : UInt32) (y : Nat) : Nat := (UInt32.ofNat y * stride).toNat

theorem rowStart_eq (stride : UInt32) (y : Nat) : rowStart stride y = y * stride.toNat % 2 ^ 32 := by
  rw [rowStart, UInt32.toNat_mul, UInt32.toNat_ofNat', Nat.mod_mul_mod]

theorem rowStart_of_lt {stride : UInt32} {y : Nat} (h : y * stride.toNat < 2 ^ 32) :
    rowStart stride y = y * stride.toNat := by
  rw [rowStart_eq, Nat.mod_eq_of_lt h]

section Rows

variable {stride : UInt32} {rows n : Nat} {w : Nat → Nat → Option Nat}

-- What the rounds of a kernel copy to stays within the stride of their rows.
def InRows (stride : UInt32) (w : Nat → Nat → Option Nat) : Prop :=
  ∀ y j, j < rowStart stride y ∨ rowStart stride y + stride.toNat ≤ j → w y j = none

theorem mul_le_last {y : Nat} (hy : y < rows) : y * stride.toNat ≤ (rows - 1) * stride.toNat :=
  Nat.mul_le_mul_right _ (Nat.le_sub_one_of_lt hy)

theorem layers_row (hw : InRows stride w) (hlast : (rows - 1) * stride.toNat < 2 ^ 32) {y k : Nat}
    (hy : y < rows) (hk : k < stride.toNat) :
    layers w rows (y * stride.toNat + k) = w y (y * stride.toNat + k) := by
  refine layers_eq hy fun y' hy' hne => hw y' _ ?_
  rw [rowStart_of_lt ((mul_le_last hy').trans_lt hlast)]
  rcases Nat.lt_or_gt_of_ne hne with hlt | hgt
  · have hstep := Nat.mul_le_mul_right stride.toNat hlt
    rw [Nat.succ_mul] at hstep
    omega
  · have hstep := Nat.mul_le_mul_right stride.toNat hgt
    rw [Nat.succ_mul] at hstep
    omega

-- Where the start of the last row wraps around, nothing is copied to its place.
theorem layers_lastRow (hw : InRows stride w) (hlast : 2 ^ 32 ≤ (rows - 1) * stride.toNat) :
    layers w rows ((rows - 1) * stride.toNat) = none := by
  have hstride := stride.toNat_lt
  refine layers_eq_none fun y hy => hw y _ (.inr ?_)
  rw [rowStart_eq]
  have hmod := Nat.mod_lt (y * stride.toNat) (Nat.two_pow_pos 32)
  by_cases hfar : 2 ^ 32 + stride.toNat ≤ (rows - 1) * stride.toNat
  · omega
  · by_cases hy' : y = rows - 1
    · subst hy'
      rw [Nat.mod_eq_sub_mod hlast, Nat.mod_eq_of_lt (by omega)]
      omega
    · -- the rows before the last one do not wrap
      have hstep := Nat.mul_le_mul_right stride.toNat (show y + 1 ≤ rows - 1 by omega)
      rw [Nat.succ_mul] at hstep
      rw [Nat.mod_eq_of_lt (by omega)]
      exact hstep

instance uint8_nontrivial : Nontrivial UInt8 := ⟨0, 1, by decide⟩

-- The rows come out right for every source exactly if no row of the destination wraps
-- around and each round copies what it should.
theorem copiesRows_iff (hw : InRows stride w) (hrows : 1 ≤ rows) (hn : 1 ≤ n)
    (hwidth : n ≤ stride.toNat) (goal : Nat → Nat → Nat) (dst : Bytes) :
    (∀ src : Bytes, ∀ y < rows, ∀ k < n,
      overlay (layers w rows) src dst (y * stride.toNat + k) = src (goal y k)) ↔
    (rows - 1) * stride.toNat < 2 ^ 32 ∧
      ∀ y < rows, ∀ k < n, w y (y * stride.toNat + k) = some (goal y k) := by
  have hcells : (∀ src : Bytes, ∀ y < rows, ∀ k < n,
      overlay (layers w rows) src dst (y * stride.toNat + k) = src (goal y k)) ↔
      ∀ y < rows, ∀ k < n, layers w rows (y * stride.toNat + k) = some (goal y k) :=
    ⟨fun h y hy k hk => (overlay_apply_iff dst).mp fun src => h src y hy k hk,
      fun h src y hy k hk => overlay_of_some (h y hy k hk)⟩
  rw [hcells]
  constructor
  · intro h
    have hlast : (rows - 1) * stride.toNat < 2 ^ 32 := by
      by_contra hwrap
      have hcell := h (rows - 1) (by omega) 0 hn
      rw [Nat.add_zero, layers_lastRow hw (Nat.not_lt.mp hwrap)] at hcell
      cases hcell
    refine ⟨hlast, fun y hy k hk => ?_⟩
    rw [← layers_row hw hlast hy (by omega)]
    exact h y hy k hk
  · rintro ⟨hlast, h⟩ y hy k hk
    rw [layers_row hw hlast hy (by omega)]
    exact h y hy k hk

-- What lies outside of the rows is kept.
theorem layers_outside (hlast : (rows - 1) * stride.toNat < 2 ^ 32)
    (hw : ∀ y j, j < rowStart stride y ∨ rowStart stride y + n ≤ j → w y j = none) {j : Nat}
    (h : ∀ y < rows, j < y * stride.toNat ∨ y * stride.toNat + n ≤ j) :
    layers w rows j = none := by
  refine layers_eq_none fun y hy => hw y j ?_
  rw [rowStart_of_lt ((mul_le_last hy).trans_lt hlast)]
  exact h y hy

end Rows

-- The bytes of a row, pixel by pixel.
theorem forall_pixelBytes_iff {w ch : Nat} {P : Nat → Prop} :
    (∀ k < w * ch, P k) ↔ ∀ x < w, ∀ c < ch, P (x * ch + c) := by
  constructor
  · intro h x hx c hc
    have hend := Nat.mul_le_mul_right ch hx
    rw [Nat.succ_mul] at hend
    exact h _ (by omega)
  · intro h k hk
    have hch : 0 < ch := Nat.pos_of_ne_zero fun hzero => by
      rw [hzero, Nat.mul_zero] at hk
      exact absurd hk (Nat.not_lt_zero k)
    have hpixel := h (k / ch) ((Nat.div_lt_iff_lt_mul hch).mpr hk) (k % ch) (Nat.mod_lt k hch)
    rwa [Nat.div_add_mod'] at hpixel

theorem pixelByte_div_mod {ch c : Nat} (x : Nat) (hc : c < ch) :
    (x * ch + c) / ch = x ∧ (x * ch + c) % ch = c := by
  constructor
  · rw [Nat.mul_comm, Nat.mul_add_div (Nat.zero_lt_of_lt hc), Nat.div_eq_of_lt hc, Nat.add_zero]
  · rw [Nat.mul_comm, Nat.mul_add_mod, Nat.mod_eq_of_lt hc]

-- The loops over a row.

theorem memcpy_overlay (dst src : Bytes) (d s n : Nat) :
    dst.memcpy d src s n = overlay (span d s n) src dst := by
  funext j
  simp only [Bytes.memcpy, overlay, span]
  split_ifs <;> rfl

theorem copyRow_vectored (src : Bytes) (srcRow dstRow : Nat) (size : UInt32) :
    Vectored size (fun i bytes => bytes.memcpy (dstRow + i.toNat) src (srcRow + i.toNat) 32)
      (fun i => forRange (size.toNat - i.toNat) fun k (bytes : Bytes) =>
        Function.update bytes (dstRow + i.toNat + k) (src (srcRow + i.toNat + k)))
      (copyRow src srcRow dstRow size) :=
  ⟨fun _ _ => rfl, fun _ _ _ => rfl⟩

theorem copyRow_overlay (src : Bytes) (srcRow dstRow : Nat) {size : UInt32}
    (hsize : size.toNat < 2 ^ 32 - 32) (bytes : Bytes) :
    copyRow src srcRow dstRow size (2 ^ 27 + 1) 0 bytes =
      some (overlay (span dstRow srcRow size.toNat) src bytes) := by
  have hfuel : size.toNat < (0 : UInt32).toNat + 32 * (2 ^ 27 + 1) := by
    change _ < 0 + 32 * _
    omega
  have hwhole : size.toNat / 32 * 32 ≤ size.toNat := Nat.div_mul_le_self _ _
  have hend : (UInt32.ofNat (size.toNat / 32 * 32)).toNat = size.toNat / 32 * 32 :=
    uint32_toNat_ofNat (by omega)
  -- the rounds so far have copied the bytes before i
  obtain ⟨_, rfl, hloop⟩ := (copyRow_vectored src srcRow dstRow size).returns hsize
    (fun i s => s = overlay (span dstRow srcRow i) src bytes)
    (fun i s _ hs => by rw [hs, memcpy_overlay, overlay_atop, atop_span]) rfl (Nat.zero_le _) hfuel
    (overlay_span_zero dstRow srcRow).symm
  rw [hloop, hend, forRange_copy, overlay_atop, atop_span, Nat.add_sub_of_le hwhole]

end ImgEngine.Arch
