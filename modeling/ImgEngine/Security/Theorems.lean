import ImgEngine.Security

namespace ImgEngine.Security

theorem pixels_toNat (w h : UInt32) : (w.toUInt64 * h.toUInt64).toNat = w.toNat * h.toNat := by
  have hw := w.toNat_lt
  have hh := h.toNat_lt
  have hlt : w.toNat * h.toNat < 2 ^ 64 :=
    calc
      w.toNat * h.toNat < 2 ^ 32 * 2 ^ 32 := Nat.mul_lt_mul'' hw hh
      _ = 2 ^ 64 := rfl
  rw [UInt64.toNat_mul, UInt32.toNat_toUInt64, UInt32.toNat_toUInt64, Nat.mod_eq_of_lt hlt]

-- The limit on the pixels and the cap on the memory never refuse what the
-- limits on the sides let through.
theorem imgSecurityValidateRequest_ok_iff (w h : UInt32) (fileSize : UInt64) :
    imgSecurityValidateRequest w h fileSize = .ok () ↔ Admitted w h fileSize := by
  have hpixels := pixels_toNat w h
  unfold imgSecurityValidateRequest
  simp only
  generalize w.toUInt64 * h.toUInt64 = pixels at hpixels ⊢
  constructor
  · intro hok
    split_ifs at hok with hzero hlarge hcount hsize hratio hcap
    simp only [not_or, gt_iff_lt, UInt32.not_lt, UInt64.not_lt, UInt32.le_iff_toNat_le,
      UInt64.le_iff_toNat_le, ← UInt32.toNat_inj] at hzero hlarge hratio
    rw [hpixels] at hratio
    exact ⟨⟨Nat.one_le_iff_ne_zero.mpr hzero.1, hlarge.1⟩,
      ⟨Nat.one_le_iff_ne_zero.mpr hzero.2, hlarge.2⟩, hratio⟩
  · rintro ⟨⟨hw, hw'⟩, ⟨hh, hh'⟩, hratio⟩
    have hpos : 1 ≤ w.toNat * h.toNat := Nat.mul_pos hw hh
    have hmax : w.toNat * h.toNat ≤ 16384 * 16384 := Nat.mul_le_mul hw' hh'
    have hsize : fileSize ≠ 0 := by
      rintro rfl
      simp at hratio
      omega
    rw [if_neg, if_neg, if_neg, if_neg hsize, if_neg, if_neg]
    · rw [gt_iff_lt, UInt64.not_lt, UInt64.le_iff_toNat_le, UInt64.toNat_mul, hpixels]
      change w.toNat * h.toNat * 4 % 2 ^ 64 ≤ 4294967296
      omega
    · rw [gt_iff_lt, UInt64.not_lt, UInt64.le_iff_toNat_le, hpixels]
      exact hratio
    · rw [not_or, gt_iff_lt, UInt64.not_lt, UInt64.le_iff_toNat_le, ← UInt64.toNat_inj, hpixels]
      exact ⟨by simp only [UInt64.toNat_zero]; omega, hmax⟩
    · rw [not_or, gt_iff_lt, gt_iff_lt, UInt32.not_lt, UInt32.not_lt, UInt32.le_iff_toNat_le,
        UInt32.le_iff_toNat_le]
      exact ⟨hw', hh'⟩
    · rw [not_or, ← UInt32.toNat_inj, ← UInt32.toNat_inj]
      simp only [UInt32.toNat_zero]
      omega

theorem imgBoundsCheck_self {limit size : UInt64} (base : Ptr) (h : size ≤ limit) :
    imgBoundsCheck base size base limit = true := by
  unfold imgBoundsCheck
  rw [if_neg (by simp)]
  simp only [UInt64.sub_self, UInt64.sub_zero]
  rw [if_neg (by simp)]
  simpa using h

-- The entry points ask the gate about 16384 x 16384 or 4096 x 4096 pixels before
-- the decoder asks it about the real size.
theorem standIn_iff (w h : UInt32) (fileSize : UInt64) :
    (imgSecurityValidateRequest w h fileSize = .ok () →
      imgSecurityValidateRequest 16384 16384 fileSize = .ok () ∧
        (w ≤ 4096 → h ≤ 4096 → imgSecurityValidateRequest 4096 4096 fileSize = .ok ())) ↔
      w = 0 ∨ h = 0 ∨ w > 16384 ∨ h > 16384 ∨
        (fileSize * 400).toNat < w.toNat * h.toNat ∨ 16384 * 16384 ≤ (fileSize * 400).toNat := by
  simp only [imgSecurityValidateRequest_ok_iff]
  constructor
  · intro hmono
    by_contra hout
    simp only [not_or, gt_iff_lt, UInt32.not_lt, UInt32.le_iff_toNat_le, not_lt,
      ← UInt32.toNat_inj] at hout
    obtain ⟨hw, hh, hw', hh', hratio, hsmall⟩ := hout
    have hadmitted : Admitted w h fileSize :=
      ⟨⟨Nat.one_le_iff_ne_zero.mpr hw, hw'⟩, ⟨Nat.one_le_iff_ne_zero.mpr hh, hh'⟩, hratio⟩
    exact hsmall (hmono hadmitted).1.ratio
  · intro hin hadmitted
    obtain ⟨⟨hw, hw'⟩, ⟨hh, hh'⟩, hratio⟩ := hadmitted
    have hlarge : 16384 * 16384 ≤ (fileSize * MAX_RATIO).toNat := by
      simp only [gt_iff_lt, UInt32.lt_iff_toNat_lt, ← UInt32.toNat_inj] at hin
      rcases hin with h | h | h | h | h | h
      · exact absurd h (Nat.ne_of_gt hw)
      · exact absurd h (Nat.ne_of_gt hh)
      · exact absurd h (Nat.not_lt.mpr hw')
      · exact absurd h (Nat.not_lt.mpr hh')
      · exact absurd h (Nat.not_lt.mpr hratio)
      · exact h
    refine ⟨⟨by decide, by decide, hlarge⟩, fun _ _ => ⟨by decide, by decide, ?_⟩⟩
    exact Nat.le_trans (by decide) hlarge

-- A photo of 640 x 480 pixels in a file of 30000 bytes.
theorem standIn_refuses :
    ¬(imgSecurityValidateRequest 640 480 30000 = .ok () →
      imgSecurityValidateRequest 16384 16384 30000 = .ok () ∧
        (640 ≤ 4096 → 480 ≤ 4096 → imgSecurityValidateRequest 4096 4096 30000 = .ok ())) := by
  decide

end ImgEngine.Security
