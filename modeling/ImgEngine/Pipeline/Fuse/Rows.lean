import ImgEngine.Library.Strips
import ImgEngine.Library.VectorLoop
import ImgEngine.Pipeline.Fuse

namespace ImgEngine.Pipeline

open ImgEngine.Library.Loop ImgEngine.Library.Strips ImgEngine.Library.VectorLoop

variable {p : ImgFusedParams} {buf : ImgBuffer}

-- The functions for single images, as maps of the bytes in each row.

section Rows

theorem fusedExecScalar_strips (p : ImgFusedParams) (buf : ImgBuffer) :
    fusedExecScalar p buf = some { buf with
      bytes := strips 0 buf.stride.toNat (buf.width * buf.channels).toNat buf.height.toNat
        (fun a k => scalarByte p (a k)) buf.bytes } := by
  simp only [fusedExecScalar, forRange_update, strips, Nat.zero_add]

-- A row as the vector loop and the loop for the rest of it leave it.
def lanesByte (p : ImgFusedParams) (len : Nat) (a : Nat → UInt8) (k : Nat) : UInt8 :=
  if k < len / 32 * 32 then simdByte p (a k) else scalarByte p (a k)

theorem avx2Row_vectored (p : ImgFusedParams) (row : Nat) (len : UInt32) :
    Vectored len
      (fun x => forRange 32 fun i (bytes : Bytes) => Function.update bytes (row + x.toNat + i)
        (simdByte p (bytes (row + x.toNat + i))))
      (fun x => forRange (len.toNat - x.toNat) fun i (bytes : Bytes) =>
        Function.update bytes (row + x.toNat + i) (scalarByte p (bytes (row + x.toNat + i))))
      (avx2Row p row len) :=
  ⟨fun _ _ => rfl, fun _ _ _ => rfl⟩

theorem avx2Row_window (p : ImgFusedParams) (row : Nat) {len : UInt32}
    (hlen : len.toNat < 2 ^ 32 - 32) (bytes : Bytes) :
    avx2Row p row len (2 ^ 27 + 1) 0 bytes =
      some (window row len.toNat (lanesByte p len.toNat) bytes) := by
  have hzero : (0 : UInt32).toNat = 0 := rfl
  have hfuel : len.toNat < (0 : UInt32).toNat + 32 * (2 ^ 27 + 1) := by
    change _ < 0 + 32 * _
    omega
  have hwhole : len.toNat / 32 * 32 ≤ len.toNat := Nat.div_mul_le_self _ _
  have hend : (UInt32.ofNat (len.toNat / 32 * 32)).toNat = len.toNat / 32 * 32 :=
    uint32_toNat_ofNat (by omega)
  have hnone : window row 0 (fun a k => simdByte p (a k)) bytes = bytes :=
    funext fun j => window_outside (by omega)
  -- the rounds so far have changed the bytes before x
  obtain ⟨_, rfl, hloop⟩ := (avx2Row_vectored p row len).returns hlen
    (fun x s => s = window row x (fun a k => simdByte p (a k)) bytes)
    (fun x s _ hs => by rw [hs, forRange_update, window_map_append]) rfl (Nat.zero_le _) hfuel
    (hzero ▸ hnone.symm)
  rw [hloop, hend, forRange_update, window_map_join, Nat.add_sub_of_le hwhole]
  rfl

theorem fusedExecAvx2_strips (hrows : RowsEnd true buf) :
    fusedExecAvx2 p buf = some { buf with
      bytes := strips 0 buf.stride.toNat (buf.width * buf.channels).toNat buf.height.toNat
        (lanesByte p (buf.width * buf.channels).toNat) buf.bytes } := by
  have hround : ∀ y < buf.height.toNat, ∀ bytes : Bytes,
      avx2Row p (y * buf.stride.toNat) (buf.width * buf.channels) (2 ^ 27 + 1) 0 bytes =
        some (window (0 + y * buf.stride.toNat) (buf.width * buf.channels).toNat
          (lanesByte p (buf.width * buf.channels).toNat) bytes) := by
    intro y hy bytes
    have hheight : buf.height ≠ 0 := by
      rintro hzero
      rw [hzero] at hy
      exact absurd hy (Nat.not_lt_zero y)
    rw [avx2Row_window p _ (hrows rfl hheight), Nat.zero_add]
  rw [fusedExecAvx2, foldlM_range_eq hround]
  rfl

theorem fusedExecAvx2_stuck (p : ImgFusedParams) {buf : ImgBuffer} (hrows : ¬RowsEnd true buf) :
    fusedExecAvx2 p buf = none := by
  simp only [RowsEnd, forall_const, Classical.not_imp, Nat.not_lt] at hrows
  have hheight : buf.height.toNat ≠ 0 := fun h => hrows.1 (UInt32.toNat_inj.mp h)
  obtain ⟨n, hn⟩ := Nat.exists_eq_succ_of_ne_zero hheight
  rw [fusedExecAvx2, hn, List.range_succ_eq_map, List.foldlM_cons,
    (avx2Row_vectored p _ _).stuck hrows.2 rfl]
  rfl

end Rows

-- One byte. From 2^15 on the sum is negative as a lane, and packing makes it 0.

section Lanes

def InLane (p : ImgFusedParams) (px : UInt8) : Prop :=
  p.hasBrightness = true →
    (if p.hasGrayscale then grayscale px else px).toNat + p.brightnessValue.toNat < 2 ^ 15

instance (px : UInt8) : Decidable (InLane p px) := inferInstanceAs (Decidable (_ → _))

theorem grayscale_toUInt16 (px : UInt8) : (px.toUInt16 * 77) >>> 8 = (grayscale px).toUInt16 := by
  have hall : ∀ px : BitVec 8, ((UInt8.ofBitVec px).toUInt16 * 77) >>> 8 =
      (grayscale (.ofBitVec px)).toUInt16 := by decide +kernel
  exact hall px.toBitVec

theorem addsEpu16_toNat (a b : UInt16) : (addsEpu16 a b).toNat = min 65535 (a.toNat + b.toNat) := by
  unfold addsEpu16
  split_ifs with hlarge
  · change 65535 = _
    omega
  · rw [UInt16.toNat_add]
    omega

theorem packusEpi16_toNat (lane : UInt16) :
    (packusEpi16 lane).toNat = if 2 ^ 15 ≤ lane.toNat then 0 else min 255 lane.toNat := by
  have hneg : lane ≥ 0x8000 ↔ 2 ^ 15 ≤ lane.toNat := UInt16.le_iff_toNat_le
  have hlarge : lane > 255 ↔ 255 < lane.toNat := UInt16.lt_iff_toNat_lt
  unfold packusEpi16
  simp only [hneg, hlarge]
  split_ifs with h h'
  · rfl
  · change 255 = _
    omega
  · rw [UInt16.toNat_toUInt8]
    omega

theorem brighten_toNat (value : UInt16) (px : UInt8) :
    (brighten value px).toNat = min 255 (px.toNat + value.toNat) := by
  have hpx := px.toNat_lt
  have hvalue := value.toNat_lt
  have hsum : (px.toUInt32 + value.toUInt32).toNat = px.toNat + value.toNat := by
    rw [uint32_toNat_add]
    · rw [UInt8.toNat_toUInt32, UInt16.toNat_toUInt32]
    · rw [UInt8.toNat_toUInt32, UInt16.toNat_toUInt32]
      omega
  simp only [brighten, gt_iff_lt, UInt32.lt_iff_toNat_lt, hsum]
  change UInt8.toNat (if 255 < _ then _ else _) = _
  split_ifs with h
  · change 255 = _
    omega
  · rw [UInt32.toNat_toUInt8, hsum]
    omega

-- A byte as a lane, packed again.
theorem packusEpi16_byte (px : UInt8) : packusEpi16 px.toUInt16 = px := by
  have hlt := px.toNat_lt
  rw [← UInt8.toNat_inj, packusEpi16_toNat, UInt8.toNat_toUInt16, if_neg (by omega)]
  omega

theorem simdByte_eq_iff (p : ImgFusedParams) (px : UInt8) :
    simdByte p px = scalarByte p px ↔ InLane p px := by
  have hgray : (if p.hasGrayscale then (px.toUInt16 * 77) >>> 8 else px.toUInt16) =
      (if p.hasGrayscale then grayscale px else px).toUInt16 := by
    rw [grayscale_toUInt16]
    split_ifs <;> rfl
  unfold simdByte scalarByte fusedByte InLane
  dsimp only
  rw [hgray]
  generalize (if p.hasGrayscale then grayscale px else px) = gray
  have hlt := gray.toNat_lt
  by_cases hb : p.hasBrightness = true
  · rw [if_pos hb, if_pos hb, ← UInt8.toNat_inj, packusEpi16_toNat, addsEpu16_toNat, brighten_toNat,
      UInt8.toNat_toUInt16]
    simp only [hb, forall_const]
    split_ifs <;> omega
  · rw [if_neg hb, if_neg hb, packusEpi16_byte]
    simp [hb]

end Lanes

-- Both functions leave the same bytes exactly when the vector loops end and their
-- sums stay below 2^15.
theorem fusedExecAvx2_eq_iff (p : ImgFusedParams) (buf : ImgBuffer)
    (hstride : buf.width.toNat * buf.channels.toNat ≤ buf.stride.toNat) :
    fusedExecAvx2 p buf = fusedExecScalar p buf ↔
      RowsEnd true buf ∧ ∀ y < buf.height.toNat,
        ∀ x < buf.width.toNat * buf.channels.toNat / 32 * 32,
          InLane p (buf.bytes (y * buf.stride.toNat + x)) := by
  have hlen : (buf.width * buf.channels).toNat = buf.width.toNat * buf.channels.toNat :=
    uint32_toNat_mul (hstride.trans_lt buf.stride.toNat_lt)
  have hlocal : ∀ n (q : Nat → UInt8 → UInt8), Local n fun a k => q k (a k) :=
    fun n q a b h k hk => congrArg (q k) (h k hk)
  by_cases hrows : RowsEnd true buf
  · rw [fusedExecAvx2_strips hrows, fusedExecScalar_strips, hlen]
    have hiff := strips_eq_iff 0 buf.height.toNat buf.bytes hstride
      (f := lanesByte p (buf.width.toNat * buf.channels.toNat)) (g := fun a k => scalarByte p (a k))
      (hlocal _ fun k px => if k < buf.width.toNat * buf.channels.toNat / 32 * 32 then simdByte p px
        else scalarByte p px) (hlocal _ fun _ => scalarByte p)
    simp only [Option.some.injEq, ImgBuffer.mk.injEq, true_and, and_true, hiff, Nat.zero_add,
      and_iff_right hrows]
    refine forall₂_congr fun y _ => ⟨fun h x hx => ?_, fun h x hx => ?_⟩
    · have hx' : x < buf.width.toNat * buf.channels.toNat :=
        hx.trans_le (Nat.div_mul_le_self _ _)
      have hbyte := h x hx'
      rw [lanesByte, if_pos hx] at hbyte
      exact (simdByte_eq_iff p _).mp hbyte
    · rw [lanesByte]
      split_ifs with hvector
      · exact (simdByte_eq_iff p _).mpr (h x hvector)
      · rfl
  · rw [fusedExecAvx2_stuck p hrows, fusedExecScalar_strips]
    simp [hrows]

-- A row that is one vector.

def oneVector : ImgBuffer where
  data := 64
  bytes _ := 0
  width := 32
  height := 1
  channels := 1
  stride := 32

def brighterBy (value : UInt16) : ImgFusedParams :=
  { ImgFusedParams.zero with hasBrightness := true, brightnessValue := value }

theorem fusedExecAvx2_eq_brighterBy :
    fusedExecAvx2 (brighterBy 32767) oneVector = fusedExecScalar (brighterBy 32767) oneVector := by
  have hblack : InLane (brighterBy 32767) 0 := by decide
  exact (fusedExecAvx2_eq_iff (brighterBy 32767) oneVector (by decide)).mpr
    ⟨fun _ _ => by decide, fun _ _ _ _ => hblack⟩

-- The vector kernel makes it black where the other one makes it white.
theorem fusedExecAvx2_negative :
    oneVector.width.toNat * oneVector.channels.toNat ≤ oneVector.stride.toNat ∧
      (fusedExecAvx2 (brighterBy 32768) oneVector).map (·.bytes 0) = some 0 ∧
      (fusedExecScalar (brighterBy 32768) oneVector).map (·.bytes 0) = some 255 := by
  decide +kernel

end ImgEngine.Pipeline
