import ImgEngine.Arch.Resize.Uniform

namespace ImgEngine.Arch

open ImgEngine.Library.Loop ImgEngine.Library.VectorLoop

-- A row is written from its start on, wherever the source lies.
theorem avx2ResizeRow_outside (src : ResizeSource) (scaleX : UInt32) (s d : Nat) {len : UInt32}
    (hlen : len.toNat < 2 ^ 32 - 32) (bytes : Bytes) :
    ∃ bytes', avx2ResizeRow src scaleX s d len (2 ^ 27 + 1) 0 0 bytes = some bytes' ∧
      ∀ j, d + len.toNat ≤ j → bytes' j = bytes j := by
  have hfuel : len.toNat < (0 : UInt32).toNat + 32 * (2 ^ 27 + 1) := by
    change _ < 0 + 32 * _
    omega
  obtain ⟨state, hvectors, hloop⟩ := (avx2ResizeRow_vectored src scaleX s d len).returns hlen
    (fun _ state => ∀ j, d + len.toNat ≤ j → state.2 j = bytes j)
    (fun x state hx hstate j hj => by
      simp only [Bytes.memcpy]
      rw [if_neg (by omega)]
      exact hstate j hj)
    (s := (0, bytes)) rfl (Nat.zero_le _) hfuel fun _ _ => rfl
  refine ⟨_, hloop, ?_⟩
  -- the bytes behind the vectors
  refine forRange_invariant (fun _ (bytes' : Bytes) => ∀ j, d + len.toNat ≤ j → bytes' j = bytes j)
    hvectors fun i hi bytes' hbytes j hj => ?_
  have hx : (UInt32.ofNat (len.toNat / 32 * 32)).toNat = len.toNat / 32 * 32 :=
    uint32_toNat_ofNat (by omega)
  have hoffset : (UInt32.ofNat (len.toNat / 32 * 32) + UInt32.ofNat i).toNat =
      len.toNat / 32 * 32 + i := by
    rw [UInt32.toNat_add, hx, uint32_toNat_ofNat (by omega), Nat.mod_eq_of_lt (by omega)]
  rw [hx] at hi
  simp only [hoffset]
  rw [Function.update_of_ne (by omega)]
  exact hbytes j hj

-- A source with no more channels than the destination is not written behind its rows.
theorem imgArchAvx2Resize_outside {p : ResizeParams} {src : ResizeSource} (hsrc : p.src = some src)
    {dst : ImgBuffer} (hchannels : src.channels.toNat ≤ dst.channels.toNat)
    (hrow : dst.width.toNat * dst.channels.toNat ≤ dst.stride.toNat)
    (hends : dst.height ≠ 0 → dst.width.toNat * src.channels.toNat < 2 ^ 32 - 32) :
    ∃ bytes, imgArchAvx2Resize (some p) dst = some { dst with bytes } ∧
      ∀ i, dst.height.toNat * dst.stride.toNat ≤ i → bytes i = dst.bytes i := by
  have hwidth := Nat.mul_le_mul_left dst.width.toNat hchannels
  have hlen : (dst.width * src.channels).toNat = dst.width.toNat * src.channels.toNat :=
    uint32_toNat_mul ((hwidth.trans hrow).trans_lt dst.stride.toNat_lt)
  let row (bytes : Bytes) (y : Nat) : Option Bytes :=
    avx2ResizeRow src p.scaleX ((UInt32.ofNat y * p.scaleY) >>> 16 * src.stride).toNat
      (UInt32.ofNat y * dst.stride).toNat (dst.width * src.channels) (2 ^ 27 + 1) 0 0 bytes
  let outside (bytes : Bytes) : Prop :=
    ∀ i, dst.height.toNat * dst.stride.toNat ≤ i → bytes i = dst.bytes i
  have hrows : ∀ y, y < dst.height.toNat → ∀ bytes, outside bytes →
      ∃ bytes', row bytes y = some bytes' ∧ outside bytes' := by
    intro y hy bytes hbytes
    have hheight : dst.height ≠ 0 := by
      rintro hzero
      rw [hzero] at hy
      exact Nat.not_lt_zero y hy
    obtain ⟨bytes', hreturns, hkeeps⟩ := avx2ResizeRow_outside src p.scaleX
      ((UInt32.ofNat y * p.scaleY) >>> 16 * src.stride).toNat (UInt32.ofNat y * dst.stride).toNat
      (hlen ▸ hends hheight) bytes
    refine ⟨bytes', hreturns, fun i hi => (hkeeps i ?_).trans (hbytes i hi)⟩
    -- the start of a row is at most where it lies without the wrap
    have hstart : (UInt32.ofNat y * dst.stride).toNat ≤ y * dst.stride.toNat := by
      change rowStart dst.stride y ≤ _
      rw [rowStart_eq]
      exact Nat.mod_le _ _
    have hlast := Nat.mul_le_mul_right dst.stride.toNat hy
    rw [Nat.succ_mul] at hlast
    omega
  obtain ⟨bytes, hloop, houtside⟩ := foldlM_range_invariant outside (fun _ _ => rfl) hrows
  refine ⟨bytes, ?_, houtside⟩
  simp only [imgArchAvx2Resize, hsrc, Option.bind_some]
  exact congrArg (Option.map fun bytes => { dst with bytes }) hloop

end ImgEngine.Arch
