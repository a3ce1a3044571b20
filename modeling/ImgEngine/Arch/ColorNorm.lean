import ImgEngine.Core.Batch
import ImgEngine.Library.Loop

namespace ImgEngine.Arch

open ImgEngine.Library.Loop

-- _mm256_avg_epu8 with zero, which rounds up, and the shift of the tail, which rounds down.

def avgZero (px : UInt8) : UInt8 := ((px.toUInt16 + 1) >>> 1).toUInt8

def halveByte (px : UInt8) : UInt8 := px >>> 1

-- The vector loop of a row from x on: where it stops and what it leaves. The addition
-- x + 32 wraps.
def normVector (row : Nat) (rowBytes : UInt32) : Nat → UInt32 → Bytes → Option (UInt32 × Bytes)
  | 0, _, _ => none
  | fuel + 1, x, bytes =>
      if x + 32 ≤ rowBytes then
        normVector row rowBytes fuel (x + 32) (forRange 32 (fun i (bytes : Bytes) =>
          Function.update bytes (row + x.toNat + i) (avgZero (bytes (row + x.toNat + i)))) bytes)
      else some (x, bytes)

def normTail (row : Nat) (rowBytes x : UInt32) (bytes : Bytes) : Bytes :=
  forRange (rowBytes.toNat - x.toNat) (fun i (bytes : Bytes) =>
    Function.update bytes (row + x.toNat + i) (halveByte (bytes (row + x.toNat + i)))) bytes

-- One buffer of the batch. The offset of a row is computed in 32 bits. After 2^27 rounds
-- of 32 bytes x is back at 0, so a row that takes more never ends.
def normBuffer (buf : ImgBuffer) : Option ImgBuffer :=
  ((List.range buf.height.toNat).foldlM (fun bytes y =>
    let row := (UInt32.ofNat y * buf.stride).toNat
    let rowBytes := buf.width * buf.channels
    (normVector row rowBytes (2 ^ 27 + 1) 0 bytes).map fun (x, bytes) =>
      normTail row rowBytes x bytes) buf.bytes).map fun bytes => { buf with bytes }

-- A null pointer in the batch is read through.
def imgFusedResizeColorNormAvx2 (batch : ImgBatch) (images : Images) : Option Images :=
  batch.foldlM (fun images entry => entry.bind fun p =>
    (normBuffer (images.load p)).map (images.store p)) images

-- Buffers whose rows the kernel reaches.
structure RowsFit (h : ImgHeader) : Prop where
  row : h.width.toNat * h.channels.toNat ≤ h.stride.toNat
  ends : h.width.toNat * h.channels.toNat < 2 ^ 32 - 32
  offsets : (h.height.toNat - 1) * h.stride.toNat < 2 ^ 32

-- The bytes of a buffer that lie in the whole vectors of a row, and those behind them.

def InVectors (h : ImgHeader) (i : Nat) : Prop :=
  i / h.stride.toNat < h.height.toNat ∧
    i % h.stride.toNat < h.width.toNat * h.channels.toNat / 32 * 32

def InTail (h : ImgHeader) (i : Nat) : Prop :=
  i / h.stride.toNat < h.height.toNat ∧
    h.width.toNat * h.channels.toNat / 32 * 32 ≤ i % h.stride.toNat ∧
    i % h.stride.toNat < h.width.toNat * h.channels.toNat

instance (h : ImgHeader) (i : Nat) : Decidable (InVectors h i) := inferInstanceAs (Decidable (_ ∧ _))

instance (h : ImgHeader) (i : Nat) : Decidable (InTail h i) :=
  inferInstanceAs (Decidable (_ ∧ _ ∧ _))

def normByte (h : ImgHeader) (i : Nat) (px : UInt8) : UInt8 :=
  if InVectors h i then avgZero px
  else if InTail h i then halveByte px
  else px

-- How many entries of a batch have the byte at an address among the ones or the others.
-- A buffer counts as often as it stands in the batch.

def vectors (images : Images) (batch : ImgBatch) (a : Nat) : Nat :=
  batch.reduceOption.countP fun p => (images.header p).data.toNat ≤ a ∧
    InVectors (images.header p) (a - (images.header p).data.toNat)

def tails (images : Images) (batch : ImgBatch) (a : Nat) : Nat :=
  batch.reduceOption.countP fun p => (images.header p).data.toNat ≤ a ∧
    InTail (images.header p) (a - (images.header p).data.toNat)

-- The byte at an address after k rounds on a batch. What lies in vectors only is divided
-- rounding up, and what lies behind them only rounding down.
structure Halved (k : Nat) (images : Images) (batch : ImgBatch) (a : Nat) (px : UInt8) : Prop where
  rounds : px = (images.batchByte normByte batch a)^[k] (images.memory a)
  up : tails images batch a = 0 →
    px.toNat = ((images.memory a).toNat + (2 ^ (k * vectors images batch a) - 1)) /
      2 ^ (k * vectors images batch a)
  down : vectors images batch a = 0 →
    px.toNat = (images.memory a).toNat / 2 ^ (k * tails images batch a)

end ImgEngine.Arch
