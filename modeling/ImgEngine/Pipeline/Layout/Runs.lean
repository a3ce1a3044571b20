import ImgEngine.Pipeline.Layout

namespace ImgEngine.Pipeline

open ImgEngine.Library.Loop ImgEngine.Memory

variable {F : Type} [FloatType F]

-- What the functions that scale a photo do with the heap, and the bytes that they leave.
-- Neither depends on the bytes of the source, which may therefore be any.

-- The loop of resize_nearest.
def scaledBytes (src : ImgBuffer) (size : UInt32 × UInt32) (stale : Bytes) : Bytes :=
  forRange size.2.toNat (fun dy => forRange size.1.toNat (fun dx bytes =>
    bytes.setRgb ((UInt32.ofNat dy * (size.1 * 3)).toNat + (UInt32.ofNat dx * 3).toNat)
      (src.bytes.getRgb (nearestOffset src size.1 size.2 (.ofNat dx) (.ofNat dy))))) stale

-- Where prepare_fill reads the rows of the scaled image, and what it leaves in the cell.

def cropRow (scaled : UInt32 × UInt32) (cellW cellH dy : UInt32) : Nat :=
  (((scaled.2 - cellH) / 2 + dy) * (scaled.1 * 3)).toNat + ((scaled.1 - cellW) / 2 * 3).toNat

def cropped (src : ImgBuffer) (scaled : UInt32 × UInt32) (cellW cellH : UInt32)
    (stale tmpStale : Bytes) : Bytes :=
  copyRows stale (scaledBytes src scaled tmpStale) cellH (cellW * 3)
    (fun dy => (dy * (cellW * 3)).toNat) (cropRow scaled cellW cellH)

-- The same for prepare_fit, which writes into a part of the cell.

def pasteRow (fit : UInt32 × UInt32) (cellW cellH dy : UInt32) : Nat :=
  (((cellH - fit.2) / 2 + dy) * (cellW * 3)).toNat + ((cellW - fit.1) / 2 * 3).toNat

def fitRow (fit : UInt32 × UInt32) (dy : UInt32) : Nat := (dy * (fit.1 * 3)).toNat

def pasted (src : ImgBuffer) (fit : UInt32 × UInt32) (cellW cellH : UInt32) (bg : Rgb)
    (stale tmpStale : Bytes) : Bytes :=
  copyRows (fillBackground stale (rgbSize cellW cellH) bg) (scaledBytes src fit tmpStale) fit.2
    (fit.1 * 3) (pasteRow fit cellW cellH) (fitRow fit)

-- The ways in which a preparation can end: without a block, with the one block that it
-- took given back, or with two blocks taken, of which one holds the cell and the other
-- one is given back.
inductive Ends (heap : Heap) (cellW cellH : UInt32) (make : Bytes → Bytes → Bytes → Bytes)
    (run : Bytes → Except ImgError ImgBuffer × Heap) : Prop where
  | early (e : ImgError) (hrun : ∀ bytes, run bytes = (.error e, heap))
  | late (e : ImgError) {block : Ptr} {heap₁ : Heap} (halloc : heap.alloc = some (block, heap₁))
      (hrun : ∀ bytes, run bytes = (.error e, heap₁.release block))
  | done {first second mem tmp : Ptr} {heap₁ heap₂ : Heap} (stale tmpStale : Bytes)
      (halloc : heap.alloc = some (first, heap₁)) (halloc' : heap₁.alloc = some (second, heap₂))
      (hblocks : [second, first].Perm [tmp, mem]) (hsize : rgbSize cellW cellH ≤ heap.pool.blockSize)
      (hrun : ∀ bytes, run bytes =
        (.ok (rgbBuffer mem cellW cellH (make bytes stale tmpStale)), heap₂.release tmp))

theorem resizeNearest_cases (src : ImgBuffer) (newW newH : UInt32) (heap : Heap) :
    (∃ e, ∀ bytes, resizeNearest { src with bytes } newW newH heap = (.error e, heap)) ∨
      ∃ mem heap₁, heap.alloc = some (mem, heap₁) ∧ ∀ bytes,
        resizeNearest { src with bytes } newW newH heap = (.ok (rgbBuffer mem newW newH
          (scaledBytes { src with bytes } (newW, newH) (heap₁.stale mem))), heap₁) := by
  unfold resizeNearest
  split_ifs
  · exact .inl ⟨_, fun _ => rfl⟩
  · exact .inl ⟨_, fun _ => rfl⟩
  · cases halloc : heap.alloc with
    | none => exact .inl ⟨_, fun _ => rfl⟩
    | some taken => exact .inr ⟨taken.1, taken.2, rfl, fun _ => rfl⟩

section Prepare

variable (src : ImgBuffer) (cellW cellH : UInt32) (heap : Heap) (bg : Rgb)

theorem prepareFill_ends : Ends heap cellW cellH
    (fun bytes => cropped { src with bytes } (coverSize F src cellW cellH) cellW cellH)
    fun bytes => prepareFill F { src with bytes } cellW cellH heap := by
  have hcover : ∀ bytes, coverSize F { src with bytes } cellW cellH = coverSize F src cellW cellH :=
    fun _ => rfl
  unfold prepareFill
  simp only [hcover]
  rcases resizeNearest_cases src (coverSize F src cellW cellH).1 (coverSize F src cellW cellH).2 heap
    with ⟨e, hfail⟩ | ⟨tmp, heap₁, halloc, hok⟩
  · exact .early e fun bytes => by rw [hfail]
  · have hblock := (Heap.alloc_some halloc).2
    simp only [hok]
    by_cases hlarge : rgbSize cellW cellH > heap₁.pool.blockSize
    · exact .late .nomem halloc fun _ => by rw [if_pos hlarge]; rfl
    · cases halloc' : heap₁.alloc with
      | none => exact .late .nomem halloc fun _ => by rw [if_neg hlarge]; rfl
      | some taken =>
          refine .done _ _ halloc halloc' (.swap ..) ?_ fun _ => by rw [if_neg hlarge]; rfl
          exact hblock ▸ UInt64.not_lt.mp hlarge

theorem prepareFit_ends : Ends heap cellW cellH
    (fun bytes => pasted { src with bytes } (fitSize F src cellW cellH) cellW cellH bg)
    fun bytes => prepareFit F { src with bytes } cellW cellH heap bg := by
  have hfit : ∀ bytes, fitSize F { src with bytes } cellW cellH = fitSize F src cellW cellH :=
    fun _ => rfl
  unfold prepareFit
  simp only [hfit]
  by_cases hlarge : rgbSize cellW cellH > heap.pool.blockSize
  · exact .early .nomem fun _ => if_pos hlarge
  · cases halloc : heap.alloc with
    | none => exact .early .nomem fun _ => if_neg hlarge
    | some taken =>
        simp only [if_neg hlarge]
        rcases resizeNearest_cases src (fitSize F src cellW cellH).1 (fitSize F src cellW cellH).2
          taken.2 with ⟨e, hfail⟩ | ⟨tmp, heap₂, halloc', hok⟩
        · exact .late e halloc fun bytes => by rw [hfail]
        · exact .done _ _ halloc halloc' (.refl _) (UInt64.not_lt.mp hlarge)
            fun bytes => by rw [hok]; rfl

end Prepare

end ImgEngine.Pipeline
