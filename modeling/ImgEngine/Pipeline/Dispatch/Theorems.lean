import ImgEngine.Pipeline.Dispatch

namespace ImgEngine.Pipeline

open ImgEngine.Library.ByteMemory

variable {pipe : ImgPipelineDesc}

theorem ImgPipelineDesc.count_toNat (pipe : ImgPipelineDesc) :
    pipe.count.toNat = pipe.ops.length :=
  uint32_toNat_ofNat pipe.countable

section Compile

variable {jumpTable : Table} {out : Ptr}

-- The compiler reads the table at the opcodes, up to the first entry that is not set.
theorem compileFrom_indices (i : Nat) (ops : List ImgOpDesc) (mem : Memory) :
    (compileFrom jumpTable out i ops mem).1 <+: ops.map ImgOpDesc.opCode := by
  induction ops generalizing i mem with
  | nil => exact List.prefix_refl _
  | cons op ops ih =>
      simp only [compileFrom, List.map_cons]
      split_ifs
      · exact ⟨ops.map ImgOpDesc.opCode, rfl⟩
      · exact List.cons_prefix_cons.mpr ⟨rfl, ih _ _⟩

theorem imgPipelineCompile_indices (mem : Memory) :
    (imgPipelineCompile jumpTable mem pipe out).1 <+: pipe.ops.map ImgOpDesc.opCode := by
  rw [imgPipelineCompile]
  split_ifs
  · exact List.nil_prefix
  · exact compileFrom_indices _ _ _

end Compile

section Execution

variable {S : Type} {table : Table} {kernel : Ptr → Ptr → S → S}

theorem executeOp_runtime {i : Nat} {op : ImgOpDesc} (hop : pipe.ops[i]? = some op)
    (t : List UInt32 × S) :
    executeOp table kernel pipe.runtime i t =
      some (t.1 ++ [op.opCode], dispatch table kernel t.2 op) := by
  simp only [executeOp, ImgPipelineDesc.runtime, hop, Option.map_some, dispatch]
  split_ifs <;> rfl

theorem executeFrom_runtime {count i : Nat} (hcount : i + count = pipe.ops.length)
    (t : List UInt32 × S) :
    executeFrom table kernel pipe.runtime count i t =
      some (t.1 ++ (pipe.ops.drop i).map ImgOpDesc.opCode,
        (pipe.ops.drop i).foldl (dispatch table kernel) t.2) := by
  induction count generalizing i t with
  | zero =>
      rw [Nat.add_zero] at hcount
      rw [hcount, List.drop_length, List.map_nil, List.append_nil]
      rfl
  | succ count ih =>
      have hlt : i < pipe.ops.length := by omega
      rw [executeFrom, executeOp_runtime (List.getElem?_eq_getElem hlt), Option.bind_some,
        ih (by omega), List.drop_eq_getElem_cons hlt, List.map_cons, List.foldl_cons,
        List.append_assoc, List.singleton_append]

-- On a descriptor either executor dispatches the operations in order, and reads
-- the table at every opcode.
theorem executeRuntime_runtime (s : S) :
    executeRuntime table kernel pipe.runtime s =
      some (pipe.ops.map ImgOpDesc.opCode, pipe.ops.foldl (dispatch table kernel) s) := by
  have hcount : 0 + pipe.runtime.count.toNat = pipe.ops.length := by
    rw [Nat.zero_add]
    exact pipe.count_toNat
  rw [executeRuntime, executeFrom_runtime hcount]
  simp

end Execution

-- The two executors read the tables at every opcode, so nothing but the opcodes matters.
theorem inTables_iff (jumpTable batchJumpTable : Table) :
    InTables jumpTable batchJumpTable pipe ↔ ∀ op ∈ pipe.ops, op.opCode < IMG_MAX_OPS := by
  constructor
  · intro h op hop
    exact h.hot Unit (fun _ _ s => s) () _ _ (executeRuntime_runtime ()) _
      (List.mem_map_of_mem hop)
  · intro h
    have hall : ∀ index ∈ pipe.ops.map ImgOpDesc.opCode, index < IMG_MAX_OPS := by
      intro index hindex
      obtain ⟨op, hop, rfl⟩ := List.mem_map.mp hindex
      exact h op hop
    constructor
    · intro mem out index hindex
      exact hall index ((imgPipelineCompile_indices mem).subset hindex)
    · intro S kernel s indices s' hrun index hindex
      rw [imgPipelineExecuteHot, executeRuntime_runtime] at hrun
      cases hrun
      exact hall index hindex
    · intro S kernel s indices s' hrun index hindex
      rw [imgBatchExecuteRt, executeRuntime_runtime] at hrun
      cases hrun
      exact hall index hindex

-- The validator bounds the opcodes by OP_CUSTOM_BASE, and the tables are shorter.
theorem imgValidatePipelineSafety_inTables_iff (jumpTable batchJumpTable : Table)
    (pipe : ImgPipelineDesc) :
    (imgValidatePipelineSafety pipe = true → InTables jumpTable batchJumpTable pipe) ↔
      (imgValidatePipelineSafety pipe = true → ∀ op ∈ pipe.ops, op.opCode < IMG_MAX_OPS) :=
  imp_congr_right fun _ => inTables_iff jumpTable batchJumpTable

-- The opcode 256 passes the validator and is read one entry past the end.
theorem imgValidatePipelineSafety_not_inTables :
    ∃ pipe : ImgPipelineDesc, imgValidatePipelineSafety pipe = true ∧
      ¬InTables (fun _ => 4096) (fun _ => 0) pipe := by
  let pipe : ImgPipelineDesc := { ops := [{ opCode := 256, params := 0 }], countable := by decide }
  refine ⟨pipe, by decide, fun h => ?_⟩
  have hbound := h.compile (fun _ => 0) 8192 256 (by decide +kernel)
  exact absurd hbound (by decide)

end ImgEngine.Pipeline
