import ImgEngine.Plugins.Registry

namespace ImgEngine.Startup

open ImgEngine.Pipeline ImgEngine.Plugins

-- What img_jump_table_init puts into g_batch_jump_table.
def batchTableInit (caps : UInt32) : UInt32 → Option BatchOpFn :=
  if imgCpuHasAvx512 caps then fun _ => none
  else if imgCpuHasAvx2 caps then
    Function.update (fun _ => none) OP_RESIZE (some .resizeFusedAvx2)
  else fun _ => none

def imgFusedInit (caps : UInt32) (tables : Tables) : Tables :=
  if imgCpuHasAvx2 caps then
    { tables with batchJump :=
        Function.update tables.batchJump OP_RESIZE (some .fusedResizeColorNormAvx2) }
  else tables

-- The tables before the plugins, from img_jump_table_init, img_hw_register_kernels and
-- img_fused_init.
def kernelTables (caps : UInt32) : Tables :=
  imgFusedInit caps
    { jump := fun opcode => (startupTable caps opcode).map .kernel
      batchJump := batchTableInit caps }

-- The tables after img_engine_init, for the section that the linker made. There are none
-- if the process aborts or faults.
def imgEngineInit (sandbox : Bool) (caps : UInt32) (entries : Section) : Option Tables :=
  if ¬sandbox then none
  else
    let tables := (imgPluginsInitAll entries (kernelTables caps)).tables
    (imgPluginLoadAll (some "./plugins_build") entries tables).map fun r => r.2.tables

end ImgEngine.Startup
