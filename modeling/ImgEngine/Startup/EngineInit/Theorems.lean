import ImgEngine.Plugins.Registry.Theorems
import ImgEngine.Startup.EngineInit

namespace ImgEngine.Startup

open ImgEngine.Library.LastGiven ImgEngine.Plugins

variable {entries : Section}

theorem imgEngineInit_loaded (caps : UInt32) (hnull : none ∉ entries) :
    ∃ tables, imgEngineInit true caps entries = some tables ∧ ∀ opcode,
      tables.jump opcode =
        (lastGiven opcode (singles entries)).or ((kernelTables caps).jump opcode) ∧
      tables.batchJump opcode =
        (lastGiven opcode (batches entries)).or ((kernelTables caps).batchJump opcode) := by
  have hall : entries.all Option.isSome = true := by
    refine List.all_eq_true.mpr fun entry hmem => Option.isSome_iff_ne_none.mpr ?_
    rintro rfl
    exact hnull hmem
  simp only [imgEngineInit, imgPluginLoadAll, imgPluginsInitAll_eq, foldlM_loadEntry, hall,
    not_true_eq_false, Option.isNone_some, Bool.false_eq_true, if_false, if_true]
  refine ⟨_, rfl, fun opcode => ?_⟩
  have single := singleSide.passes entries.reduceOption ⟨kernelTables caps, []⟩ ⟨_, []⟩ rfl opcode
  have batch := batchSide.passes entries.reduceOption ⟨kernelTables caps, []⟩ ⟨_, []⟩ rfl opcode
  exact ⟨single, batch⟩

theorem imgEngineInit_faults (caps : UInt32) (hnull : none ∈ entries) : imgEngineInit true caps entries = none := by
  have hall : entries.all Option.isSome = false :=
    List.all_eq_false.mpr ⟨none, hnull, Bool.false_ne_true⟩
  simp [imgEngineInit, imgPluginLoadAll, imgPluginsInitAll_eq, foldlM_loadEntry, hall]

-- What img_engine_init leaves in the tables: under each opcode the function of the last
-- descriptor that gives one, whatever its capabilities say, and else the kernel for the
-- CPU. With a null pointer in the section the process faults.
theorem imgEngineInit_tables (caps : UInt32) (entries : Section) :
    (none ∈ entries ∧ imgEngineInit true caps entries = none) ∨
      (none ∉ entries ∧ ∃ tables, imgEngineInit true caps entries = some tables ∧
        ∀ opcode,
          tables.jump opcode =
            (lastGiven opcode (singles entries)).or ((kernelTables caps).jump opcode) ∧
          tables.batchJump opcode =
            (lastGiven opcode (batches entries)).or ((kernelTables caps).batchJump opcode)) := by
  by_cases hnull : none ∈ entries
  · exact .inl ⟨hnull, imgEngineInit_faults caps hnull⟩
  · exact .inr ⟨hnull, imgEngineInit_loaded caps hnull⟩

end ImgEngine.Startup
