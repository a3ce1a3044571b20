import ImgEngine.Pipeline.JumpTable

namespace ImgEngine.Plugins

open ImgEngine.Pipeline

def IMG_PLUGIN_ABI_VERSION : UInt32 := 1

def IMG_CAP_SINGLE : UInt32 := (1 : UInt32) <<< 0
def IMG_CAP_BATCH : UInt32 := (1 : UInt32) <<< 1

-- What a table entry may point to: a kernel of the engine, the function of its own plugin,
-- or one of another plugin.

inductive OpFn where
  | kernel (kernel : Kernel)
  | grayscaleExec
  | other (fn : Ptr)
deriving DecidableEq

inductive BatchOpFn where
  | resizeFusedAvx2
  | fusedResizeColorNormAvx2
  | other (fn : Ptr)
deriving DecidableEq

-- g_jump_table and g_batch_jump_table. A null pointer is none.
structure Tables where
  jump : UInt32 → Option OpFn
  batchJump : UInt32 → Option BatchOpFn

def setSingle (opcode : UInt32) (singleFn : Option OpFn) (tables : Tables) : Tables :=
  match singleFn with
  | none => tables
  | some fn => { tables with jump := Function.update tables.jump opcode (some fn) }

def setBatch (opcode : UInt32) (batchFn : Option BatchOpFn) (tables : Tables) : Tables :=
  match batchFn with
  | none => tables
  | some fn => { tables with batchJump := Function.update tables.batchJump opcode (some fn) }

def imgRegisterOp (opcode : UInt32) (singleFn : Option OpFn) (batchFn : Option BatchOpFn)
    (tables : Tables) : Tables :=
  if IMG_MAX_OPS ≤ opcode then tables
  else setBatch opcode batchFn (setSingle opcode singleFn tables)

-- img_plugin_descriptor_t
structure ImgPluginDescriptor where
  name : String
  abiVersion : UInt32
  opCode : UInt32
  capabilities : UInt32
  singleExec : Option OpFn
  batchExec : Option BatchOpFn

-- The section img_plugins as the linker leaves it, with none for a null pointer.
abbrev Section := List (Option ImgPluginDescriptor)

-- The tables, and what has been printed.
structure Registered where
  tables : Tables
  printed : List String

def abiMismatch (p : ImgPluginDescriptor) : String := "ABI mismatch: " ++ p.name ++ "\n"

def initDescriptor (r : Registered) (p : ImgPluginDescriptor) : Registered :=
  if p.abiVersion ≠ IMG_PLUGIN_ABI_VERSION then { r with printed := r.printed ++ [abiMismatch p] }
  else
    let singleFn := if p.capabilities &&& IMG_CAP_SINGLE ≠ 0 then p.singleExec else none
    let batchFn := if p.capabilities &&& IMG_CAP_BATCH ≠ 0 then p.batchExec else none
    { r with tables := imgRegisterOp p.opCode singleFn batchFn r.tables }

def imgPluginsInitAll (entries : Section) (tables : Tables) : Registered :=
  entries.foldl (fun r entry =>
    match entry with
    | none => r
    | some p => initDescriptor r p) { tables, printed := [] }

-- The capabilities are not looked at.
def loadDescriptor (r : Registered) (desc : ImgPluginDescriptor) : Registered :=
  if desc.abiVersion ≠ IMG_PLUGIN_ABI_VERSION then
    { r with printed := r.printed ++ [abiMismatch desc] }
  else
    { tables := imgRegisterOp desc.opCode desc.singleExec desc.batchExec r.tables
      printed := r.printed ++ ["Registered plugin: " ++ desc.name ++ "\n"] }

-- An entry is read through without a check. A fault has no result.
def loadEntry (r : Registered) (entry : Option ImgPluginDescriptor) : Option Registered :=
  entry.map (loadDescriptor r)

-- The directory is only compared with NULL, for which the result is -1.
def imgPluginLoadAll (directory : Option String) (entries : Section) (tables : Tables) :
    Option (Int × Registered) :=
  if directory.isNone then some (-1, { tables, printed := [] })
  else (entries.foldlM loadEntry { tables, printed := [] }).map fun r => (0, r)

-- The plugin of plugin_grayscale.c
def grayscalePlugin : ImgPluginDescriptor where
  name := "grayscale"
  abiVersion := IMG_PLUGIN_ABI_VERSION
  opCode := OP_GRAYSCALE
  capabilities := IMG_CAP_SINGLE
  singleExec := some .grayscaleExec
  batchExec := none

-- What the descriptors of a section are given for: the functions under the opcodes that
-- the tables have room for.

def ImgPluginDescriptor.Accepted (p : ImgPluginDescriptor) : Prop :=
  p.abiVersion = IMG_PLUGIN_ABI_VERSION ∧ p.opCode < IMG_MAX_OPS

instance (p : ImgPluginDescriptor) : Decidable p.Accepted := inferInstanceAs (Decidable (_ ∧ _))

def given {Fn : Type} (exec : ImgPluginDescriptor → Option Fn) (p : ImgPluginDescriptor) :
    Option (UInt32 × Fn) :=
  if p.Accepted then (exec p).map (p.opCode, ·) else none

def singles (entries : Section) : List (UInt32 × OpFn) :=
  entries.reduceOption.filterMap (given ImgPluginDescriptor.singleExec)

def batches (entries : Section) : List (UInt32 × BatchOpFn) :=
  entries.reduceOption.filterMap (given ImgPluginDescriptor.batchExec)

end ImgEngine.Plugins
