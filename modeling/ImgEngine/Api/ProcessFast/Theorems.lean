import ImgEngine.Api.ProcessFast
import ImgEngine.Pipeline.Dispatch.Theorems

namespace ImgEngine.Api

open ImgEngine.Library.ByteMemory
open ImgEngine.Pipeline ImgEngine.Security

-- The executors run the calls they find, whatever these do.

section Calls

variable {S : Type} {table : Table} {kernel : Ptr → Ptr → S → S} {pipe : ImgPipelineRuntime}

def replay (kernel : Ptr → Ptr → S → S) (calls : List (Ptr × Ptr)) (s : S) : S :=
  calls.foldl (fun s call => kernel call.1 call.2 s) s

-- A kernel that only notes that it was called.
def note (fn params : Ptr) (calls : List (Ptr × Ptr)) : List (Ptr × Ptr) := calls ++ [(fn, params)]

theorem executeOp_replay (i : Nat) (indices : List UInt32) (calls : List (Ptr × Ptr)) (s : S) :
    executeOp table kernel pipe i (indices, replay kernel calls s) =
      (executeOp table note pipe i (indices, calls)).map
        fun t => (t.1, replay kernel t.2 s) := by
  simp only [executeOp]
  cases pipe.opCode i with
  | none => rfl
  | some opCode =>
      simp only
      split_ifs
      · rfl
      · cases pipe.params i with
        | none => rfl
        | some params => simp [replay, note]

theorem executeFrom_replay (count i : Nat) (indices : List UInt32) (calls : List (Ptr × Ptr))
    (s : S) :
    executeFrom table kernel pipe count i (indices, replay kernel calls s) =
      (executeFrom table note pipe count i (indices, calls)).map
        fun t => (t.1, replay kernel t.2 s) := by
  induction count generalizing i indices calls with
  | zero => rfl
  | succ count ih =>
      rw [executeFrom, executeFrom, executeOp_replay]
      cases executeOp table note pipe i (indices, calls) with
      | none => rfl
      | some t => exact ih _ _ _

theorem executeRuntime_replay (s : S) :
    executeRuntime table kernel pipe s =
      (executeRuntime table note pipe []).map fun t => (t.1, replay kernel t.2 s) :=
  executeFrom_replay _ _ _ [] s

-- The calls of a pipeline whose reads fault at unreadable addresses. `call` is the
-- call of one operation, if its table entry is set.
section Reads

variable {codeReadable paramsReadable : Nat → Bool} {code : Nat → UInt32} {arg : Nat → Ptr}
  {call : Nat → Option (Ptr × Ptr)}

end Reads

end Calls

-- What img_pipeline_compile leaves in the variable.

section Layout

variable {jumpTable : Table} {out : Ptr} {mem : Memory}

variable {process : Process} {pipe : ImgPipelineDesc}

end Layout

section Fast

variable {process : Process} {pipe : ImgPipelineDesc} {Ctx Buf : Type}
  {kernel : Ptr → Ptr → Ctx × Buf → Ctx × Buf} {ctx : Ctx} {buf : Buf}

end Fast

section Processes

-- Memory that can be read from 4096 on, with the variable at 8192 and one kernel for
-- all operations.
def plainProcess (mem : Memory) (kernel : Ptr) : Process where
  mem := mem
  readable addr := 4096 ≤ addr
  jumpTable _ := kernel
  compiled := 8192
  inside := by decide

end Processes

end ImgEngine.Api
