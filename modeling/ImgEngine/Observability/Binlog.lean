import ImgEngine.Core.Word
import ImgEngine.Library.QueueFamily
import ImgEngine.Library.RingBuffer

namespace ImgEngine.Observability

open ImgEngine.Library ImgEngine.Library.RingBuffer

def IMG_MAX_CPUS : UInt32 := 128

def SIZEOF_LOG_ENTRY : UInt64 := 40

structure ImgLogEntry where
  timestamp : UInt64
  eventId : UInt32
  cpu : UInt32
  arg0 : UInt64
  arg1 : UInt64
  arg2 : UInt64
deriving DecidableEq

-- The memory behind a pointer to entries, with the number of entries it has room for.
structure EntryBlock where
  room : Nat
  entry : Nat → ImgLogEntry

-- img_binlog_cpu_t. A null pointer is none.
structure ImgBinlogCpu where
  entries : Option EntryBlock
  size : UInt32
  mask : UInt32
  head : UInt32
  tail : UInt32

namespace ImgBinlogCpu

-- {0}
def zero : ImgBinlogCpu where
  entries := none
  size := 0
  mask := 0
  head := 0
  tail := 0

-- The store of an entry. There is no result behind the room or without any.
def store (c : ImgBinlogCpu) (i : UInt32) (e : ImgLogEntry) : Option ImgBinlogCpu :=
  match c.entries with
  | none => none
  | some block =>
      if i.toNat < block.room then
        some { c with entries := some { block with entry := Function.update block.entry i.toNat e } }
      else none

-- What lies between head and tail.

def count (c : ImgBinlogCpu) : Nat := ((c.tail - c.head) &&& c.mask).toNat

def contents (c : ImgBinlogCpu) : List ImgLogEntry :=
  match c.entries with
  | none => []
  | some block => window (c.mask.toNat + 1) block.entry c.head.toNat c.tail.toNat

end ImgBinlogCpu

structure ImgBinlog where
  cpuCount : UInt32
  cpuLogs : Nat → ImgBinlogCpu

-- What aligned_alloc finds for each shard: memory with old entries, or none for NULL.
abbrev Allocation := Nat → Option (Nat → ImgLogEntry)

-- A shard with memory of its own and nothing in it.
def freshShard (size : UInt32) (old : Nat → ImgLogEntry) : ImgBinlogCpu :=
  let bytes := SIZEOF_LOG_ENTRY * size.toUInt64
  { entries := some { room := bytes.toNat / SIZEOF_LOG_ENTRY.toNat, entry := old }
    size
    mask := size - 1
    head := 0
    tail := 0 }

-- The loop of img_binlog_init from shard i on. It ends at the first shard that gets no
-- memory.
def allocShards (alloc : Allocation) (size : UInt32) :
    Nat → Nat → (Nat → ImgBinlogCpu) → Bool × (Nat → ImgBinlogCpu)
  | 0, _, cpuLogs => (true, cpuLogs)
  | count + 1, i, cpuLogs =>
      match alloc i with
      | none => (false, Function.update cpuLogs i { cpuLogs i with entries := none })
      | some old =>
          allocShards alloc size count (i + 1) (Function.update cpuLogs i (freshShard size old))

def imgBinlogInit (alloc : Allocation) (log : Option ImgBinlog) (cpuCount power : UInt32) :
    Int × Option ImgBinlog :=
  match log with
  | none => (-1, none)
  | some log =>
      if cpuCount = 0 ∨ cpuCount > IMG_MAX_CPUS then (-1, some log)
      else
        let size := 1 <<< power
        let (ok, cpuLogs) := allocShards alloc size cpuCount.toNat 0 fun _ => .zero
        (if ok then 0 else -1, some { cpuCount, cpuLogs })

-- The flag, a record of this model, tells whether the entry was stored. There is no result
-- where memory is touched that is not there: a shard behind the array, or its entries.
def imgBinlogWrite (log : ImgBinlog) (tlsCpuId : UInt32) (now : UInt64) (event : UInt32)
    (arg0 arg1 arg2 : UInt64) : Option (Bool × ImgBinlog) :=
  let cpu := tlsCpuId
  if cpu ≥ log.cpuCount then some (false, log)
  else if cpu ≥ IMG_MAX_CPUS then none
  else
    let c := log.cpuLogs cpu.toNat
    let tail := c.tail
    let next := (tail + 1) &&& c.mask
    if next = c.head then some (false, log)
    else
      match c.store tail { timestamp := now, eventId := event, cpu, arg0, arg1, arg2 } with
      | none => none
      | some c =>
          let c := { c with tail := next }
          some (true, { log with cpuLogs := Function.update log.cpuLogs cpu.toNat c })

-- The consumer moves the head of a shard over n entries.
def ImgBinlog.consume (log : ImgBinlog) (shard n : Nat) : ImgBinlog :=
  let c := log.cpuLogs shard
  let c := { c with head := (c.head + UInt32.ofNat n) &&& c.mask }
  { log with cpuLogs := Function.update log.cpuLogs shard c }

abbrev History := List (QueueFamily.Event Nat ImgLogEntry)

-- Writes and steps of the consumer, one after the other, which never moves a head past
-- the tail.
inductive BinlogRun (start : ImgBinlog) : History → ImgBinlog → Prop where
  | start : BinlogRun start [] start
  | write {events log kept log'} (tlsCpuId : UInt32) (now : UInt64) (event : UInt32)
      (arg0 arg1 arg2 : UInt64) (h : BinlogRun start events log)
      (hwrite : imgBinlogWrite log tlsCpuId now event arg0 arg1 arg2 = some (kept, log')) :
      BinlogRun start
        (events ++ [.put tlsCpuId.toNat ⟨now, event, tlsCpuId, arg0, arg1, arg2⟩ kept]) log'
  | consume {events log} (shard n : Nat) (h : BinlogRun start events log)
      (hn : n ≤ (log.cpuLogs shard).count) :
      BinlogRun start (events ++ [.take shard n]) (log.consume shard n)

-- The shards before the first one that got no memory.
def Allocated (alloc : Allocation) (cpuCount : UInt32) (i : Nat) : Prop :=
  i < cpuCount.toNat ∧ ∀ j ≤ i, (alloc j).isSome

instance (alloc : Allocation) (cpuCount : UInt32) (i : Nat) :
    Decidable (Allocated alloc cpuCount i) :=
  decidable_of_iff (i < cpuCount.toNat ∧ ∀ j < i + 1, (alloc j).isSome)
    (and_congr_right fun _ => forall_congr' fun _ => imp_congr_left Nat.lt_succ_iff)

end ImgEngine.Observability
