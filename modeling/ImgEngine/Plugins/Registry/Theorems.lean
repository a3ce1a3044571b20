import ImgEngine.Library.LastGiven
import ImgEngine.Plugins.Registry

namespace ImgEngine.Plugins

open ImgEngine.Library.LastGiven
open ImgEngine.Pipeline (IMG_MAX_OPS)

-- What img_register_op takes of a function for one of the tables.
def registered {Fn : Type} (opcode : UInt32) (fn : Option Fn) : Option (UInt32 × Fn) :=
  if opcode < IMG_MAX_OPS then fn.map (opcode, ·) else none

theorem imgRegisterOp_jump (opcode : UInt32) (singleFn : Option OpFn) (batchFn : Option BatchOpFn)
    (tables : Tables) : (imgRegisterOp opcode singleFn batchFn tables).jump =
      setEntry tables.jump (registered opcode singleFn) := by
  by_cases hop : IMG_MAX_OPS ≤ opcode
  · rw [imgRegisterOp, if_pos hop, registered, if_neg (UInt32.not_lt.mpr hop)]
    rfl
  · rw [imgRegisterOp, if_neg hop, registered, if_pos (UInt32.not_le.mp hop)]
    cases singleFn <;> cases batchFn <;> rfl

theorem imgRegisterOp_batchJump (opcode : UInt32) (singleFn : Option OpFn)
    (batchFn : Option BatchOpFn) (tables : Tables) :
    (imgRegisterOp opcode singleFn batchFn tables).batchJump =
      setEntry tables.batchJump (registered opcode batchFn) := by
  by_cases hop : IMG_MAX_OPS ≤ opcode
  · rw [imgRegisterOp, if_pos hop, registered, if_neg (UInt32.not_lt.mpr hop)]
    rfl
  · rw [imgRegisterOp, if_neg hop, registered, if_pos (UInt32.not_le.mp hop)]
    cases singleFn <;> cases batchFn <;> rfl

-- One of the two tables, with the functions and the capability that belong to it.
structure Side (Fn : Type) where
  part : Tables → UInt32 → Option Fn
  exec : ImgPluginDescriptor → Option Fn
  cap : UInt32
  init : ∀ r p, p.abiVersion = IMG_PLUGIN_ABI_VERSION →
    part (initDescriptor r p).tables = setEntry (part r.tables)
      (registered p.opCode (if p.capabilities &&& cap ≠ 0 then exec p else none))
  load : ∀ r p, p.abiVersion = IMG_PLUGIN_ABI_VERSION →
    part (loadDescriptor r p).tables =
      setEntry (part r.tables) (registered p.opCode (exec p))

def singleSide : Side OpFn where
  part := Tables.jump
  exec := ImgPluginDescriptor.singleExec
  cap := IMG_CAP_SINGLE
  init r p habi := by rw [initDescriptor, if_neg (not_not.mpr habi), imgRegisterOp_jump]
  load r p habi := by rw [loadDescriptor, if_neg (not_not.mpr habi), imgRegisterOp_jump]

def batchSide : Side BatchOpFn where
  part := Tables.batchJump
  exec := ImgPluginDescriptor.batchExec
  cap := IMG_CAP_BATCH
  init r p habi := by rw [initDescriptor, if_neg (not_not.mpr habi), imgRegisterOp_batchJump]
  load r p habi := by rw [loadDescriptor, if_neg (not_not.mpr habi), imgRegisterOp_batchJump]

namespace Side

variable {Fn : Type} (side : Side Fn)

-- The function that the first pass takes from a descriptor.
def gated (p : ImgPluginDescriptor) : Option (UInt32 × Fn) :=
  given (fun p => if p.capabilities &&& side.cap ≠ 0 then side.exec p else none) p

omit side in
theorem registered_eq {p : ImgPluginDescriptor} (habi : p.abiVersion = IMG_PLUGIN_ABI_VERSION)
    (exec : ImgPluginDescriptor → Option Fn) : registered p.opCode (exec p) = given exec p := by
  simp only [registered, given, ImgPluginDescriptor.Accepted, habi, true_and]

omit side in
theorem given_eq_none {p : ImgPluginDescriptor} (habi : p.abiVersion ≠ IMG_PLUGIN_ABI_VERSION)
    (exec : ImgPluginDescriptor → Option Fn) : given exec p = none :=
  if_neg fun h => habi h.1

theorem initDescriptor_part (r : Registered) (p : ImgPluginDescriptor) :
    side.part (initDescriptor r p).tables = setEntry (side.part r.tables) (side.gated p) := by
  by_cases habi : p.abiVersion = IMG_PLUGIN_ABI_VERSION
  · rw [side.init r p habi, gated, ← registered_eq habi]
  · rw [initDescriptor, if_pos habi, gated, given_eq_none habi]
    rfl

theorem loadDescriptor_part (r : Registered) (p : ImgPluginDescriptor) :
    side.part (loadDescriptor r p).tables = setEntry (side.part r.tables) (given side.exec p) := by
  by_cases habi : p.abiVersion = IMG_PLUGIN_ABI_VERSION
  · rw [side.load r p habi, registered_eq habi]
  · rw [loadDescriptor, if_pos habi, given_eq_none habi]
    rfl

-- What the first pass takes, the second takes too.
theorem gated_subset (descriptors : List ImgPluginDescriptor) :
    (descriptors.filterMap side.gated).map Prod.fst ⊆
      (descriptors.filterMap (given side.exec)).map Prod.fst := by
  intro opcode hmem
  obtain ⟨⟨opcode, fn⟩, hgiven, rfl⟩ := List.mem_map.mp hmem
  obtain ⟨p, hp, hgated⟩ := List.mem_filterMap.mp hgiven
  refine List.mem_map.mpr ⟨(opcode, fn), List.mem_filterMap.mpr ⟨p, hp, ?_⟩, rfl⟩
  simp only [gated, given] at hgated
  rw [given]
  split_ifs at hgated ⊢
  · exact hgated
  · cases hgated

-- Both passes over the section, one after the other. A capability that is missing keeps
-- a function out of the first pass only.
theorem passes (descriptors : List ImgPluginDescriptor) (r r' : Registered)
    (htables : r'.tables = (descriptors.foldl initDescriptor r).tables) (opcode : UInt32) :
    side.part (descriptors.foldl loadDescriptor r').tables opcode =
      (lastGiven opcode (descriptors.filterMap (given side.exec))).or
        (side.part r.tables opcode) := by
  have hload := foldl_lastGiven (fun r => side.part r.tables) side.loadDescriptor_part
    descriptors r' opcode
  have hinit := foldl_lastGiven (fun r => side.part r.tables) side.initDescriptor_part
    descriptors r opcode
  rw [hload, htables, hinit, lastGiven_or_of_subset (side.gated_subset descriptors)]

end Side

-- The null entries are skipped in the first pass and fault in the second.

theorem imgPluginsInitAll_eq (entries : Section) (tables : Tables) :
    imgPluginsInitAll entries tables =
      entries.reduceOption.foldl initDescriptor { tables, printed := [] } := by
  rw [imgPluginsInitAll]
  generalize ({ tables, printed := [] } : Registered) = r
  induction entries generalizing r with
  | nil => rfl
  | cons entry entries ih =>
      cases entry with
      | none => exact ih r
      | some p => exact ih (initDescriptor r p)

theorem foldlM_loadEntry (entries : Section) (r : Registered) :
    entries.foldlM loadEntry r = if entries.all Option.isSome then
      some (entries.reduceOption.foldl loadDescriptor r) else none := by
  induction entries generalizing r with
  | nil => rfl
  | cons entry entries ih =>
      cases entry with
      | none => rfl
      | some desc => exact ih (loadDescriptor r desc)

end ImgEngine.Plugins
