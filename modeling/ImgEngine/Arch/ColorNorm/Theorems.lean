import ImgEngine.Arch.ColorNorm
import ImgEngine.Library.Strips
import ImgEngine.Library.VectorLoop

namespace ImgEngine.Arch

open ImgEngine.Library.Loop ImgEngine.Library.Strips ImgEngine.Library.VectorLoop

theorem avgZero_toNat (px : UInt8) : (avgZero px).toNat = (px.toNat + 1) / 2 := by
  have hpx := px.toNat_lt
  rw [avgZero, UInt16.toNat_toUInt8, UInt16.toNat_shiftRight, UInt16.toNat_add, UInt8.toNat_toUInt16]
  change ((px.toNat + 1) % 2 ^ 16) >>> 1 % 2 ^ 8 = _
  rw [Nat.shiftRight_eq_div_pow]
  omega

theorem halveByte_toNat (px : UInt8) : (halveByte px).toNat = px.toNat / 2 := by
  rw [halveByte, UInt8.toNat_shiftRight]
  change px.toNat >>> 1 = _
  rw [Nat.shiftRight_eq_div_pow]

-- Halving k times, with either rounding.

theorem avgZero_iterate (k : Nat) (px : UInt8) :
    (avgZero^[k] px).toNat = (px.toNat + (2 ^ k - 1)) / 2 ^ k := by
  induction k with
  | zero => simp
  | succ k ih =>
      have hpos := Nat.two_pow_pos k
      have hsum : px.toNat + (2 ^ k - 1) + 2 ^ k = px.toNat + (2 ^ (k + 1) - 1) := by
        rw [Nat.pow_succ]
        omega
      rw [Function.iterate_succ_apply', avgZero_toNat, ih, ← Nat.add_div_right _ hpos, hsum,
        Nat.div_div_eq_div_mul, ← Nat.pow_succ]

theorem halveByte_iterate (k : Nat) (px : UInt8) :
    (halveByte^[k] px).toNat = px.toNat / 2 ^ k := by
  induction k with
  | zero => simp
  | succ k ih =>
      rw [Function.iterate_succ_apply', halveByte_toNat, ih, Nat.div_div_eq_div_mul, ← Nat.pow_succ]

-- One row.

def normRow (n : Nat) (bytes : Nat → UInt8) (i : Nat) : UInt8 :=
  if i < n / 32 * 32 then avgZero (bytes i) else halveByte (bytes i)

theorem local_normRow (n : Nat) : Local n (normRow n) := by
  intro a b h i hi
  rw [normRow, normRow, h i hi]

theorem normVector_vectored (row : Nat) (rowBytes : UInt32) :
    Vectored rowBytes
      (fun x => forRange 32 fun i (bytes : Bytes) =>
        Function.update bytes (row + x.toNat + i) (avgZero (bytes (row + x.toNat + i))))
      (fun x bytes => (x, bytes)) (normVector row rowBytes) :=
  ⟨fun _ _ => rfl, fun _ _ _ => rfl⟩

theorem normVector_eq (row : Nat) {rowBytes : UInt32} (hlt : rowBytes.toNat < 2 ^ 32 - 32)
    (bytes : Bytes) :
    normVector row rowBytes (2 ^ 27 + 1) 0 bytes =
      some (UInt32.ofNat (rowBytes.toNat / 32 * 32),
        window row (rowBytes.toNat / 32 * 32) (fun a k => avgZero (a k)) bytes) := by
  have hzero : (0 : UInt32).toNat = 0 := rfl
  have hfuel : rowBytes.toNat < (0 : UInt32).toNat + 32 * (2 ^ 27 + 1) := by
    change _ < 0 + 32 * _
    omega
  have hnone : window row 0 (fun a k => avgZero (a k)) bytes = bytes :=
    funext fun j => window_outside (by omega)
  obtain ⟨_, rfl, hloop⟩ := (normVector_vectored row rowBytes).returns hlt
    (fun x s => s = window row x (fun a k => avgZero (a k)) bytes)
    (fun x s _ hs => by rw [hs, forRange_update, window_map_append]) rfl (Nat.zero_le _) hfuel
    (hzero ▸ hnone.symm)
  exact hloop

theorem normRow_eq (row : Nat) {rowBytes : UInt32} (hlt : rowBytes.toNat < 2 ^ 32 - 32)
    (bytes : Bytes) :
    ((normVector row rowBytes (2 ^ 27 + 1) 0 bytes).map fun t => normTail row rowBytes t.1 t.2) =
      some (window row rowBytes.toNat (normRow rowBytes.toNat) bytes) := by
  have hx : (UInt32.ofNat (rowBytes.toNat / 32 * 32)).toNat = rowBytes.toNat / 32 * 32 :=
    uint32_toNat_ofNat (by omega)
  have hsum : rowBytes.toNat / 32 * 32 + (rowBytes.toNat - rowBytes.toNat / 32 * 32) =
      rowBytes.toNat := by omega
  rw [normVector_eq row hlt, Option.map_some, normTail, hx, forRange_update, window_map_join, hsum]
  rfl

theorem normBuffer_eq {buf : ImgBuffer} (h : RowsFit buf.header) :
    normBuffer buf = some { buf with
      bytes := strips 0 buf.stride.toNat (buf.width.toNat * buf.channels.toNat) buf.height.toNat
        (normRow (buf.width.toNat * buf.channels.toNat)) buf.bytes } := by
  have hends : buf.width.toNat * buf.channels.toNat < 2 ^ 32 - 32 := h.ends
  have hbytes : (buf.width * buf.channels).toNat = buf.width.toNat * buf.channels.toNat :=
    uint32_toNat_mul (by omega)
  have hround : ∀ y < buf.height.toNat, ∀ bytes : Bytes,
      ((normVector (UInt32.ofNat y * buf.stride).toNat (buf.width * buf.channels) (2 ^ 27 + 1) 0
        bytes).map fun t =>
          normTail (UInt32.ofNat y * buf.stride).toNat (buf.width * buf.channels) t.1 t.2) =
      some (window (0 + y * buf.stride.toNat) (buf.width.toNat * buf.channels.toNat)
        (normRow (buf.width.toNat * buf.channels.toNat)) bytes) := by
    intro y hy bytes
    have hrow : (UInt32.ofNat y * buf.stride).toNat = 0 + y * buf.stride.toNat := by
      have hoffsets : (buf.height.toNat - 1) * buf.stride.toNat < 2 ^ 32 := h.offsets
      have hle := Nat.mul_le_mul_right buf.stride.toNat (show y ≤ buf.height.toNat - 1 by omega)
      have hheight := buf.height.toNat_lt
      rw [uint32_toNat_mul, uint32_toNat_ofNat (by omega), Nat.zero_add]
      rw [uint32_toNat_ofNat (by omega)]
      omega
    rw [normRow_eq _ (hbytes ▸ hends), hbytes, hrow]
  rw [normBuffer, foldlM_range_eq hround]
  rfl

-- A buffer of which every byte is what the kernel makes of it.
def normalized (buf : ImgBuffer) : ImgBuffer :=
  { buf with bytes := fun i => normByte buf.header i (buf.bytes i) }

theorem normalized_bytewise : Images.Bytewise normalized normByte :=
  ⟨fun _ => rfl, fun _ _ => rfl⟩

theorem normBuffer_normalized {buf : ImgBuffer} (h : RowsFit buf.header) :
    normBuffer buf = some (normalized buf) := by
  have hrow : buf.width.toNat * buf.channels.toNat ≤ buf.stride.toNat := h.row
  rw [normBuffer_eq h, normalized]
  congr 2
  funext j
  by_cases hin : j / buf.stride.toNat < buf.height.toNat ∧
      j % buf.stride.toNat < buf.width.toNat * buf.channels.toNat
  · -- a byte of row j / stride
    have hj : j = 0 + j / buf.stride.toNat * buf.stride.toNat + j % buf.stride.toNat := by
      rw [Nat.zero_add, Nat.div_add_mod']
    have hcell := @strips_inside _ _ buf.bytes 0 _ _ _ hrow
      (local_normRow (buf.width.toNat * buf.channels.toNat)) _ _ hin.1 hin.2
    rw [← hj] at hcell
    rw [hcell, normRow, ← hj, normByte]
    by_cases hvector : j % buf.stride.toNat < buf.width.toNat * buf.channels.toNat / 32 * 32
    · rw [if_pos hvector, if_pos ⟨hin.1, hvector⟩]
    · rw [if_neg hvector, if_neg fun h => hvector h.2, if_pos ⟨hin.1, Nat.not_lt.mp hvector, hin.2⟩]
  · have hnotVector : ¬InVectors buf.header j := fun h => hin ⟨h.1, by
      have := h.2
      change j % buf.stride.toNat < buf.width.toNat * buf.channels.toNat / 32 * 32 at this
      omega⟩
    have hnotTail : ¬InTail buf.header j := fun h => hin ⟨h.1, h.2.2⟩
    rw [normByte, if_neg hnotVector, if_neg hnotTail]
    refine strips_outside fun y hy => ?_
    rw [Nat.zero_add]
    by_contra hbyte
    refine hin ?_
    obtain ⟨k, rfl⟩ := Nat.exists_eq_add_of_le (Nat.not_lt.mp fun h => hbyte (.inl h))
    have hk : k < buf.width.toNat * buf.channels.toNat := by omega
    have hpos : 0 < buf.stride.toNat := by omega
    rw [Nat.mul_comm y, Nat.mul_add_div hpos, Nat.mul_add_mod, Nat.div_eq_of_lt (by omega),
      Nat.mod_eq_of_lt (by omega)]
    exact ⟨hy, hk⟩

-- Rounds of a whole batch.

section Rounds

variable {images : Images} {batch : ImgBatch}

def normRounds (k : Nat) (batch : ImgBatch) (images : Images) : Images :=
  { images with
    memory := fun a => (images.batchByte normByte batch a)^[k] (images.memory a) }

-- Without a null pointer the loop is one that would leave them out.
theorem imgFusedResizeColorNormAvx2_forEachM (hnull : none ∉ batch) :
    imgFusedResizeColorNormAvx2 batch images = images.forEachM normBuffer batch := by
  induction batch generalizing images with
  | nil => rfl
  | cons entry batch ih =>
      have hrest := fun hmem => hnull (List.mem_cons_of_mem _ hmem)
      cases entry with
      | none => exact absurd List.mem_cons_self hnull
      | some p =>
          rw [Images.forEachM_some]
          change ((normBuffer (images.load p)).map (images.store p)).bind
            (imgFusedResizeColorNormAvx2 batch) = _
          rw [Option.bind_map]
          exact congrArg _ (funext fun buf => ih hrest)

theorem imgFusedResizeColorNormAvx2_eq (images : Images)
    (hfit : ∀ entry ∈ batch, ∃ p, entry = some p ∧ RowsFit (images.header p)) :
    imgFusedResizeColorNormAvx2 batch images = some (normRounds 1 batch images) := by
  have hnull : none ∉ batch := fun hmem => by
    obtain ⟨p, hp, -⟩ := hfit none hmem
    cases hp
  rw [imgFusedResizeColorNormAvx2_forEachM hnull, Images.forEachM_eq (g := normalized) fun _ => rfl]
  · rw [normalized_bytewise.forEach]
    rfl
  · intro p hp buf hbuf
    obtain ⟨q, hq, hrows⟩ := hfit _ hp
    obtain rfl := Option.some_inj.mp hq
    exact normBuffer_normalized (hbuf ▸ hrows)

-- One round more. The structures are the same after every round.
theorem imgFusedResizeColorNormAvx2_round (k : Nat)
    (hfit : ∀ entry ∈ batch, ∃ p, entry = some p ∧ RowsFit (images.header p)) :
    imgFusedResizeColorNormAvx2 batch (normRounds k batch images) =
      some (normRounds (k + 1) batch images) := by
  rw [imgFusedResizeColorNormAvx2_eq (normRounds k batch images) hfit]
  refine congrArg some (congrArg (Images.mk images.header) (funext fun a => ?_))
  exact (Function.iterate_succ_apply' _ _ _).symm

theorem byteAt_normByte (h : ImgHeader) (a : Nat) (px : UInt8) :
    Images.byteAt normByte h a px =
      if h.data.toNat ≤ a ∧ InVectors h (a - h.data.toNat) then avgZero px
      else if h.data.toNat ≤ a ∧ InTail h (a - h.data.toNat) then halveByte px
      else px := by
  by_cases hdata : h.data.toNat ≤ a
  · simp only [Images.byteAt, normByte, hdata, true_and, if_true]
  · simp only [Images.byteAt, hdata, false_and, if_false]

-- A byte that lies in vectors only, and one that lies behind them only.

theorem batchByte_vectors {a : Nat} (h : tails images batch a = 0) (px : UInt8) :
    images.batchByte normByte batch a px = avgZero^[vectors images batch a] px := by
  simp only [tails, List.countP_eq_zero, decide_eq_true_eq] at h
  refine Images.batchByte_iterate (fun p hp px => ?_) px
  rw [byteAt_normByte, if_neg (h p hp)]

theorem batchByte_tails {a : Nat} (h : vectors images batch a = 0) (px : UInt8) :
    images.batchByte normByte batch a px = halveByte^[tails images batch a] px := by
  simp only [vectors, List.countP_eq_zero, decide_eq_true_eq] at h
  refine Images.batchByte_iterate (fun p hp px => ?_) px
  rw [byteAt_normByte, if_neg (h p hp)]

theorem normRounds_halved (k : Nat) (batch : ImgBatch) (images : Images) (a : Nat) :
    Halved k images batch a ((normRounds k batch images).memory a) := by
  constructor
  · rfl
  · intro h
    have hbyte : images.batchByte normByte batch a = avgZero^[vectors images batch a] :=
      funext (batchByte_vectors h)
    simp only [normRounds]
    rw [hbyte, ← Function.iterate_mul, avgZero_iterate, Nat.mul_comm]
  · intro h
    have hbyte : images.batchByte normByte batch a = halveByte^[tails images batch a] :=
      funext (batchByte_tails h)
    simp only [normRounds]
    rw [hbyte, ← Function.iterate_mul, halveByte_iterate, Nat.mul_comm]

end Rounds

end ImgEngine.Arch
