import ImgEngine.Core.Buffer
import Mathlib.Data.List.ReduceOption

namespace ImgEngine

-- img_buffer_t as it lies in memory, with a pointer to the bytes.
structure ImgHeader where
  data : Ptr
  width : UInt32
  height : UInt32
  channels : UInt32
  stride : UInt32

def ImgBuffer.header (buf : ImgBuffer) : ImgHeader where
  data := buf.data
  width := buf.width
  height := buf.height
  channels := buf.channels
  stride := buf.stride

-- The buffers of a program by the addresses of their structures, and the bytes by their
-- own addresses. Two pointers may be the same, and two buffers may share bytes. The
-- structures lie apart from the bytes.
@[ext] structure Images where
  header : Ptr → ImgHeader
  memory : Bytes

-- The first count entries of buffers. A null pointer is none.
abbrev ImgBatch := List (Option Ptr)

namespace Images

-- The buffer at an address with the bytes from its data on, and what is left of the
-- program when it has been changed.

def load (images : Images) (p : Ptr) : ImgBuffer where
  data := (images.header p).data
  bytes i := images.memory ((images.header p).data.toNat + i)
  width := (images.header p).width
  height := (images.header p).height
  channels := (images.header p).channels
  stride := (images.header p).stride

def store (images : Images) (p : Ptr) (buf : ImgBuffer) : Images where
  header := Function.update images.header p buf.header
  memory a :=
    if buf.data.toNat ≤ a then buf.bytes (a - buf.data.toNat) else images.memory a

-- A loop over the buffers of a batch that leaves out the null pointers.
def forEach (fn : ImgBuffer → ImgBuffer) (batch : ImgBatch) (images : Images) : Images :=
  batch.foldl (fun images entry =>
    entry.elim images fun p => images.store p (fn (images.load p))) images

-- The same with a function that may not return.
def forEachM (fn : ImgBuffer → Option ImgBuffer) (batch : ImgBatch) (images : Images) :
    Option Images :=
  batch.foldlM (fun images entry =>
    entry.elim (some images) fun p => (fn (images.load p)).map (images.store p)) images

variable {images : Images} {p : Ptr}

@[simp] theorem header_load (images : Images) (p : Ptr) :
    (images.load p).header = images.header p := rfl

theorem header_store (images : Images) (p : Ptr) (buf : ImgBuffer) :
    (images.store p buf).header = Function.update images.header p buf.header := rfl

theorem header_store_self {buf : ImgBuffer} (h : buf.header = images.header p) :
    (images.store p buf).header = images.header := by
  rw [header_store, h, Function.update_eq_self]

theorem memory_load (images : Images) (p : Ptr) {a : Nat}
    (h : (images.header p).data.toNat ≤ a) :
    (images.load p).bytes (a - (images.load p).data.toNat) = images.memory a := by
  change images.memory ((images.header p).data.toNat + (a - (images.header p).data.toNat)) = _
  rw [Nat.add_sub_cancel' h]

@[simp] theorem store_load (images : Images) (p : Ptr) :
    images.store p (images.load p) = images := by
  refine Images.ext (header_store_self rfl) ?_
  funext a
  simp only [store]
  split_ifs with h
  · exact memory_load images p h
  · rfl

section ForEach

variable {f g : ImgBuffer → ImgBuffer} {batch : ImgBatch}

@[simp] theorem forEach_nil : forEach f [] images = images := rfl

@[simp] theorem forEach_none : forEach f (none :: batch) images = forEach f batch images := rfl

@[simp] theorem forEach_some :
    forEach f (some p :: batch) images =
      forEach f batch (images.store p (f (images.load p))) := rfl

@[simp] theorem forEachM_nil {f : ImgBuffer → Option ImgBuffer} :
    forEachM f [] images = some images := rfl

@[simp] theorem forEachM_none {f : ImgBuffer → Option ImgBuffer} :
    forEachM f (none :: batch) images = forEachM f batch images := rfl

@[simp] theorem forEachM_some {f : ImgBuffer → Option ImgBuffer} :
    forEachM f (some p :: batch) images =
      (f (images.load p)).bind fun buf => forEachM f batch (images.store p buf) := by
  change ((f (images.load p)).map (images.store p)).bind (forEachM f batch) = _
  rw [Option.bind_map]
  rfl

-- Functions that do the same to every buffer of a batch as long as the structures stay
-- as they are.
theorem forEachM_eq {f : ImgBuffer → Option ImgBuffer}
    (hheader : ∀ buf, (g buf).header = buf.header)
    (h : ∀ p, some p ∈ batch → ∀ buf, buf.header = images.header p → f buf = some (g buf)) :
    forEachM f batch images = some (forEach g batch images) := by
  induction batch generalizing images with
  | nil => rfl
  | cons entry batch ih =>
      cases entry with
      | none => exact ih fun p hp => h p (List.mem_cons_of_mem _ hp)
      | some p =>
          have hstay := header_store_self (hheader (images.load p))
          rw [forEachM_some, h p List.mem_cons_self _ rfl, Option.bind_some, forEach_some]
          refine ih fun q hq buf hbuf => h q (List.mem_cons_of_mem _ hq) buf ?_
          rw [hbuf, hstay]

theorem forEachM_some_comp : forEachM (fun buf => some (f buf)) batch images =
    some (forEach f batch images) := by
  induction batch generalizing images with
  | nil => rfl
  | cons entry batch ih =>
      cases entry with
      | none => exact ih
      | some p => exact ih

theorem forEach_congr (hheader : ∀ buf, (g buf).header = buf.header)
    (h : ∀ p, some p ∈ batch → ∀ buf, buf.header = images.header p → f buf = g buf) :
    forEach f batch images = forEach g batch images := by
  have hsome := forEachM_eq hheader fun p hp buf hbuf => congrArg some (h p hp buf hbuf)
  rwa [forEachM_some_comp, Option.some_inj] at hsome

-- A function that leaves a buffer alone or does not return.
theorem forEachM_keep_iff {f : ImgBuffer → Option ImgBuffer} {P : ImgBuffer → Prop}
    (h : ∀ buf result, f buf = some result ↔ P buf ∧ buf = result) {result : Images} :
    forEachM f batch images = some result ↔
      (∀ p, some p ∈ batch → P (images.load p)) ∧ images = result := by
  induction batch with
  | nil => simp
  | cons entry batch ih =>
      cases entry with
      | none => simpa using ih
      | some p =>
          simp only [forEachM_some, Option.bind_eq_some_iff, h, List.mem_cons, Option.some_inj]
          constructor
          · rintro ⟨_, ⟨hfirst, rfl⟩, hrest⟩
            rw [store_load, ih] at hrest
            refine ⟨fun q hq => ?_, hrest.2⟩
            rcases hq with rfl | hq
            · exact hfirst
            · exact hrest.1 q hq
          · rintro ⟨hall, hresult⟩
            refine ⟨_, ⟨hall p (.inl rfl), rfl⟩, ?_⟩
            rw [store_load, ih]
            exact ⟨fun q hq => hall q (.inr hq), hresult⟩

-- What a function sets in the structure of a buffer stays set there.
theorem forEach_header {P : ImgHeader → Prop} (h : ∀ buf, P (f buf).header) :
    (P (images.header p) ∨ some p ∈ batch) → P ((forEach f batch images).header p) := by
  induction batch generalizing images with
  | nil => simp
  | cons entry batch ih =>
      intro hp
      cases entry with
      | none =>
          exact ih (hp.imp_right fun hmem => by simpa using hmem)
      | some q =>
          refine ih ?_
          by_cases hq : p = q
          · subst hq
            refine .inl ?_
            change P ((images.store p _).header p)
            rw [header_store, Function.update_self]
            exact h _
          · change P ((images.store q _).header p) ∨ _
            rw [header_store, Function.update_of_ne hq]
            exact hp.imp_right fun hmem => by simpa [hq] using hmem

end ForEach

-- A function that changes every byte of a buffer by itself.
structure Bytewise (f : ImgBuffer → ImgBuffer) (byte : ImgHeader → Nat → UInt8 → UInt8) : Prop where
  header : ∀ buf, (f buf).header = buf.header
  bytes : ∀ buf i, (f buf).bytes i = byte buf.header i (buf.bytes i)

-- What such a function makes of the byte at an address, and what a loop over a batch does.

def byteAt (byte : ImgHeader → Nat → UInt8 → UInt8) (h : ImgHeader) (a : Nat) (px : UInt8) :
    UInt8 :=
  if h.data.toNat ≤ a then byte h (a - h.data.toNat) px else px

def batchByte (images : Images) (byte : ImgHeader → Nat → UInt8 → UInt8) (batch : ImgBatch)
    (a : Nat) (px : UInt8) : UInt8 :=
  batch.reduceOption.foldl (fun px p => byteAt byte (images.header p) a px) px

section Bytewise

variable {f : ImgBuffer → ImgBuffer} {byte : ImgHeader → Nat → UInt8 → UInt8} {batch : ImgBatch}

theorem Bytewise.store (h : Bytewise f byte) :
    images.store p (f (images.load p)) =
      { images with memory := fun a => byteAt byte (images.header p) a (images.memory a) } := by
  have hheader := h.header (images.load p)
  have hdata : (f (images.load p)).data = (images.header p).data := congrArg ImgHeader.data hheader
  refine Images.ext (header_store_self hheader) ?_
  funext a
  simp only [Images.store, byteAt, hdata]
  split_ifs with ha
  · rw [h.bytes, header_load]
    exact congrArg _ (memory_load images p ha)
  · rfl

theorem Bytewise.forEach (h : Bytewise f byte) (batch : ImgBatch) (images : Images) :
    Images.forEach f batch images =
      { images with memory := fun a => images.batchByte byte batch a (images.memory a) } := by
  induction batch generalizing images with
  | nil => rfl
  | cons entry batch ih =>
      cases entry with
      | none => exact ih images
      | some p =>
          rw [forEach_some, h.store, ih]
          rfl

-- Where every buffer does the same to the byte or nothing, it is done as often as the
-- buffers are that do.
theorem batchByte_iterate {a : Nat} {g : UInt8 → UInt8} {P : Ptr → Prop} [DecidablePred P]
    (h : ∀ p ∈ batch.reduceOption, ∀ px,
      byteAt byte (images.header p) a px = if P p then g px else px) (px : UInt8) :
    images.batchByte byte batch a px = g^[batch.reduceOption.countP fun p => P p] px := by
  simp only [batchByte]
  generalize batch.reduceOption = pointers at h
  induction pointers generalizing px with
  | nil => rfl
  | cons p pointers ih =>
      rw [List.foldl_cons, ih _ fun q hq => h q (List.mem_cons_of_mem _ hq), h p List.mem_cons_self]
      by_cases hp : P p
      · rw [if_pos hp, List.countP_cons_of_pos (by simpa using hp), Function.iterate_succ_apply]
      · rw [if_neg hp, List.countP_cons_of_neg (by simpa using hp)]

end Bytewise

end Images

end ImgEngine
