import ImgEngine.Observability.Binlog

namespace ImgEngine.Observability

open ImgEngine.Library ImgEngine.Library.RingBuffer

-- A shard with memory for 2^k entries, and its indices in range.
structure Ready (k : Nat) (c : ImgBinlogCpu) : Prop where
  small : k ≤ 31
  block : ∃ block, c.entries = some block ∧ block.room = 2 ^ k
  mask : c.mask.toNat = 2 ^ k - 1
  head : c.head.toNat < 2 ^ k
  tail : c.tail.toNat < 2 ^ k

section Shards

variable {k : Nat} {c : ImgBinlogCpu}

theorem Ready.room (h : Ready k c) : c.mask.toNat + 1 = 2 ^ k := by
  have hmask := h.mask
  have hpos := Nat.two_pow_pos k
  omega

theorem Ready.contents_eq (h : Ready k c) :
    ∃ block, c.entries = some block ∧ block.room = 2 ^ k ∧
      c.contents = window (2 ^ k) block.entry c.head.toNat c.tail.toNat := by
  obtain ⟨block, hblock, hroom⟩ := h.block
  refine ⟨block, hblock, hroom, ?_⟩
  rw [ImgBinlogCpu.contents, hblock]
  dsimp only
  rw [h.room]

theorem Ready.count_eq (h : Ready k c) : c.count = c.contents.length := by
  obtain ⟨block, -, -, hcontents⟩ := h.contents_eq
  rw [hcontents, window_length]
  exact uint32_sub_and_mask (h.small.trans (by decide)) h.mask h.head

theorem Ready.length_le (h : Ready k c) : c.contents.length ≤ 2 ^ k - 1 := by
  obtain ⟨block, -, -, hcontents⟩ := h.contents_eq
  have hused := used_lt h.head c.tail.toNat
  rw [hcontents, window_length]
  omega

theorem Ready.next_toNat (h : Ready k c) (i : UInt32) :
    ((i + 1) &&& c.mask).toNat = next (2 ^ k) i.toNat :=
  uint32_add_and_mask i 1 c.mask (h.small.trans (by decide)) h.mask

theorem Ready.full_iff (h : Ready k c) :
    (c.tail + 1) &&& c.mask = c.head ↔ c.contents.length = 2 ^ k - 1 := by
  obtain ⟨block, -, -, hcontents⟩ := h.contents_eq
  rw [← UInt32.toNat_inj, h.next_toNat, next_eq_iff_used h.head h.tail, hcontents, window_length]

-- An entry is stored in the free slot behind the others.
theorem Ready.push (h : Ready k c) (hroom : (c.tail + 1) &&& c.mask ≠ c.head) (e : ImgLogEntry) :
    ∃ c', c.store c.tail e = some c' ∧ Ready k { c' with tail := (c.tail + 1) &&& c.mask } ∧
      ({ c' with tail := (c.tail + 1) &&& c.mask } : ImgBinlogCpu).contents = c.contents ++ [e] := by
  obtain ⟨block, hblock, hsize, hcontents⟩ := h.contents_eq
  have htail : c.tail.toNat < block.room := hsize ▸ h.tail
  have hnext : next (2 ^ k) c.tail.toNat ≠ c.head.toNat := by
    rw [← h.next_toNat]
    exact fun heq => hroom (UInt32.toNat_inj.mp heq)
  let block' : EntryBlock := { block with entry := Function.update block.entry c.tail.toNat e }
  have hready : Ready k
      { c with entries := some block', tail := (c.tail + 1) &&& c.mask } := by
    refine ⟨h.small, ⟨block', rfl, hsize⟩, h.mask, h.head, ?_⟩
    dsimp only
    rw [h.next_toNat]
    exact Nat.mod_lt _ (Nat.two_pow_pos k)
  refine ⟨{ c with entries := some block' }, ?_, hready, ?_⟩
  · rw [ImgBinlogCpu.store, hblock]
    exact if_pos htail
  · have hslot : block'.entry c.tail.toNat = e := Function.update_self _ _ _
    have hpush := window_push h.head h.tail hnext block'.entry
    rw [window_update h.head, ← hcontents, hslot] at hpush
    change window (c.mask.toNat + 1) block'.entry c.head.toNat ((c.tail + 1) &&& c.mask).toNat = _
    rw [h.room, h.next_toNat]
    exact hpush

-- The head moves over entries.
theorem Ready.consume (h : Ready k c) {n : Nat} (hn : n ≤ c.count) :
    Ready k { c with head := (c.head + UInt32.ofNat n) &&& c.mask } ∧
      ({ c with head := (c.head + UInt32.ofNat n) &&& c.mask } : ImgBinlogCpu).contents =
        c.contents.drop n := by
  obtain ⟨block, hblock, hsize, hcontents⟩ := h.contents_eq
  have hlength := h.length_le
  have hcount := h.count_eq
  have hword : 2 ^ k < 2 ^ 32 := Nat.pow_lt_pow_right (by omega) (by have := h.small; omega)
  have hhead : ((c.head + UInt32.ofNat n) &&& c.mask).toNat = (c.head.toNat + n) % 2 ^ k := by
    rw [uint32_add_and_mask _ _ _ (h.small.trans (by decide)) h.mask,
      uint32_toNat_ofNat (by omega)]
  constructor
  · refine ⟨h.small, h.block, h.mask, ?_, h.tail⟩
    dsimp only
    rw [hhead]
    exact Nat.mod_lt _ (Nat.two_pow_pos k)
  · have hused : n ≤ used (2 ^ k) c.head.toNat c.tail.toNat := by
      rw [hcount, hcontents, window_length] at hn
      exact hn
    have hblocks : ({ c with head := (c.head + UInt32.ofNat n) &&& c.mask } : ImgBinlogCpu).contents =
        window (c.mask.toNat + 1) block.entry ((c.head + UInt32.ofNat n) &&& c.mask).toNat
          c.tail.toNat := by
      rw [ImgBinlogCpu.contents, hblock]
    rw [hblocks, hcontents, ← window_drop h.head h.tail hused, h.room, hhead]

theorem freshShard_ready {power : UInt32} (hpower : power.toNat ≤ 31) (old : Nat → ImgLogEntry) :
    Ready power.toNat (freshShard (1 <<< power) old) ∧
      (freshShard (1 <<< power) old).contents = [] := by
  have hsize : ((1 : UInt32) <<< power).toNat = 2 ^ power.toNat := uint32_one_shiftLeft (by omega)
  have hpos := Nat.two_pow_pos power.toNat
  have hle : 2 ^ power.toNat ≤ 2 ^ 31 := Nat.pow_le_pow_right (by decide) hpower
  refine ⟨⟨hpower, ⟨_, rfl, ?_⟩, ?_, hpos, hpos⟩, window_empty _ (Nat.succ_pos _)⟩
  · change (40 * ((1 : UInt32) <<< power).toUInt64).toNat / 40 = _
    have hbytes : (40 * ((1 : UInt32) <<< power).toUInt64).toNat = 40 * 2 ^ power.toNat := by
      rw [UInt64.toNat_mul, UInt32.toNat_toUInt64, hsize]
      exact Nat.mod_eq_of_lt (by change 40 * 2 ^ power.toNat < 2 ^ 64; omega)
    rw [hbytes]
    exact Nat.mul_div_cancel_left _ (by decide)
  · change ((1 : UInt32) <<< power - 1).toNat = _
    rw [uint32_toNat_sub (by rw [hsize]; exact hpos), hsize]
    rfl

end Shards

section Init

variable {alloc : Allocation} {size : UInt32} {cpuLogs : Nat → ImgBinlogCpu}

-- The loop gives memory to the shards before the first failure and leaves the others.
theorem allocShards_shard (count i : Nat) (hnone : ∀ j, i ≤ j → (cpuLogs j).entries = none)
    (j : Nat) :
    ((i ≤ j ∧ j < i + count ∧ ∀ l, i ≤ l → l ≤ j → (alloc l).isSome) →
      ∃ old, (allocShards alloc size count i cpuLogs).2 j = freshShard size old) ∧
    (¬(i ≤ j ∧ j < i + count ∧ ∀ l, i ≤ l → l ≤ j → (alloc l).isSome) →
      (allocShards alloc size count i cpuLogs).2 j = cpuLogs j) := by
  induction count generalizing i cpuLogs with
  | zero => exact ⟨fun h => absurd h.2.1 (by omega), fun _ => rfl⟩
  | succ count ih =>
      unfold allocShards
      cases halloc : alloc i with
      | none =>
          have hkept : Function.update cpuLogs i { cpuLogs i with entries := none } = cpuLogs := by
            rw [← hnone i (Nat.le_refl i)]
            exact Function.update_eq_self i cpuLogs
          refine ⟨fun h => ?_, fun _ => congrFun hkept j⟩
          have hsome := h.2.2 i (Nat.le_refl i) h.1
          rw [halloc] at hsome
          cases hsome
      | some old =>
          have hbehind : ∀ j, i + 1 ≤ j →
              (Function.update cpuLogs i (freshShard size old) j).entries = none := by
            intro j hj
            rw [Function.update_of_ne (by omega)]
            exact hnone j (by omega)
          have hrest := ih (i + 1) hbehind
          by_cases hj : j = i
          · subst hj
            have hown := hrest.2 (by omega)
            rw [Function.update_self] at hown
            refine ⟨fun _ => ⟨old, hown⟩, fun h => absurd ⟨Nat.le_refl j, by omega, ?_⟩ h⟩
            intro l hle hge
            rw [show l = j by omega, halloc]
            rfl
          · rw [Function.update_of_ne hj] at hrest
            refine ⟨fun h => hrest.1 ⟨by omega, by omega, fun l hl => h.2.2 l (by omega)⟩,
              fun h => hrest.2 fun hafter => h ⟨by omega, by omega, fun l hl hle => ?_⟩⟩
            by_cases hl' : l = i
            · rw [hl', halloc]
              rfl
            · exact hafter.2.2 l (by omega) hle

theorem allocShards_start (alloc : Allocation) (cpuCount size : UInt32) (i : Nat) :
    (Allocated alloc cpuCount i → ∃ old,
      (allocShards alloc size cpuCount.toNat 0 fun _ => .zero).2 i = freshShard size old) ∧
    (¬Allocated alloc cpuCount i →
      (allocShards alloc size cpuCount.toNat 0 fun _ => .zero).2 i = .zero) := by
  have hreached : (0 ≤ i ∧ i < 0 + cpuCount.toNat ∧ ∀ l, 0 ≤ l → l ≤ i → (alloc l).isSome) ↔
      Allocated alloc cpuCount i := by
    simp [Allocated]
  rw [← hreached]
  exact allocShards_shard cpuCount.toNat 0 (fun _ _ => rfl) i

end Init

-- The shards of a log, each with memory for 2^power entries or as memset left it.
structure LogInv (alloc : Allocation) (cpuCount power : UInt32) (log : ImgBinlog) : Prop where
  small : cpuCount.toNat ≤ 128
  count : log.cpuCount = cpuCount
  ready : ∀ i, Allocated alloc cpuCount i → Ready power.toNat (log.cpuLogs i)
  missing : ∀ i, ¬Allocated alloc cpuCount i → log.cpuLogs i = .zero

def capacity (alloc : Allocation) (cpuCount power : UInt32) (i : Nat) : Nat :=
  if Allocated alloc cpuCount i then 2 ^ power.toNat - 1 else 0

def ImgBinlog.contents (log : ImgBinlog) (i : Nat) : List ImgLogEntry := (log.cpuLogs i).contents

section Log

variable {alloc : Allocation} {cpuCount power : UInt32} {log : ImgBinlog}

theorem imgBinlogInit_inv {old start : ImgBinlog} (hpower : power.toNat ≤ 31)
    (hcount : 1 ≤ cpuCount.toNat) (hsmall : cpuCount.toNat ≤ 128)
    (hinit : (imgBinlogInit alloc (some old) cpuCount power).2 = some start) :
    LogInv alloc cpuCount power start ∧ start.contents = fun _ => [] := by
  have haccepted : ¬(cpuCount = 0 ∨ cpuCount > IMG_MAX_CPUS) := by
    rintro (rfl | hlarge)
    · exact absurd hcount (by decide)
    · exact absurd (UInt32.lt_iff_toNat_lt.mp hlarge) (Nat.not_lt.mpr hsmall)
  rw [imgBinlogInit] at hinit
  dsimp only at hinit
  rw [if_neg haccepted] at hinit
  cases hinit
  have hshard := allocShards_start alloc cpuCount (1 <<< power)
  refine ⟨⟨hsmall, rfl, fun i hi => ?_, fun i hi => (hshard i).2 hi⟩, funext fun i => ?_⟩
  · obtain ⟨old, hfresh⟩ := (hshard i).1 hi
    dsimp only
    rw [hfresh]
    exact (freshShard_ready hpower old).1
  · rw [ImgBinlog.contents]
    dsimp only
    by_cases hi : Allocated alloc cpuCount i
    · obtain ⟨old, hfresh⟩ := (hshard i).1 hi
      rw [hfresh]
      exact (freshShard_ready hpower old).2
    · rw [(hshard i).2 hi]
      rfl

-- Replacing a shard by one that is as good.
theorem LogInv.update (hinv : LogInv alloc cpuCount power log) {i : Nat} {c : ImgBinlogCpu}
    (hi : Allocated alloc cpuCount i) (hc : Ready power.toNat c) :
    LogInv alloc cpuCount power { log with cpuLogs := Function.update log.cpuLogs i c } := by
  refine ⟨hinv.small, hinv.count, fun j hj => ?_, fun j hj => ?_⟩
  all_goals dsimp only
  · by_cases h : j = i
    · rw [h, Function.update_self]
      exact hc
    · rw [Function.update_of_ne h]
      exact hinv.ready j hj
  · have hne : j ≠ i := by
      rintro rfl
      exact hj hi
    rw [Function.update_of_ne hne]
    exact hinv.missing j hj

theorem contents_update (log : ImgBinlog) (i : Nat) (c : ImgBinlogCpu) :
    ImgBinlog.contents { log with cpuLogs := Function.update log.cpuLogs i c } =
      Function.update log.contents i c.contents := by
  funext j
  change (Function.update log.cpuLogs i c j).contents = _
  by_cases h : j = i
  · rw [h, Function.update_self, Function.update_self]
  · rw [Function.update_of_ne h, Function.update_of_ne h]
    rfl

-- A write either finds no room and does nothing, or it puts its entry at the end of its
-- own shard. In both cases there is a result.
theorem LogInv.write (hinv : LogInv alloc cpuCount power log) (cpu : UInt32) (now : UInt64)
    (event : UInt32) (arg0 arg1 arg2 : UInt64) :
    (imgBinlogWrite log cpu now event arg0 arg1 arg2 = some (false, log) ∧
      (log.contents cpu.toNat).length = capacity alloc cpuCount power cpu.toNat) ∨
    ∃ log', imgBinlogWrite log cpu now event arg0 arg1 arg2 = some (true, log') ∧
      (log.contents cpu.toNat).length < capacity alloc cpuCount power cpu.toNat ∧
      LogInv alloc cpuCount power log' ∧
      log'.contents = Function.update log.contents cpu.toNat
        (log.contents cpu.toNat ++ [⟨now, event, cpu, arg0, arg1, arg2⟩]) ∧
      ∀ i ≠ cpu.toNat, log'.cpuLogs i = log.cpuLogs i := by
  unfold imgBinlogWrite
  dsimp only
  by_cases halloc : Allocated alloc cpuCount cpu.toNat
  · have hcpu : ¬cpu ≥ log.cpuCount := by
      rw [ge_iff_le, UInt32.le_iff_toNat_le, hinv.count]
      exact Nat.not_le.mpr halloc.1
    have hmax : ¬cpu ≥ IMG_MAX_CPUS := by
      rw [ge_iff_le, UInt32.le_iff_toNat_le]
      exact Nat.not_le.mpr (halloc.1.trans_le hinv.small)
    have hready := hinv.ready _ halloc
    rw [if_neg hcpu, if_neg hmax, capacity, if_pos halloc]
    by_cases hfull :
        ((log.cpuLogs cpu.toNat).tail + 1) &&& (log.cpuLogs cpu.toNat).mask =
          (log.cpuLogs cpu.toNat).head
    · exact .inl ⟨if_pos hfull, hready.full_iff.mp hfull⟩
    · obtain ⟨c, hstore, hready', hcontents⟩ := hready.push hfull ⟨now, event, cpu, arg0, arg1, arg2⟩
      rw [if_neg hfull, hstore]
      refine .inr ⟨_, rfl, ?_, hinv.update halloc hready', ?_, fun i hi => ?_⟩
      · exact Nat.lt_of_le_of_ne hready.length_le fun h => hfull (hready.full_iff.mpr h)
      · rw [contents_update, hcontents]
        rfl
      · exact Function.update_of_ne hi _ _
  · -- no shard, or one whose mask is zero
    have hshard := hinv.missing _ halloc
    have hempty : (log.contents cpu.toNat).length = capacity alloc cpuCount power cpu.toNat := by
      rw [capacity, if_neg halloc, ImgBinlog.contents, hshard]
      rfl
    refine .inl ⟨?_, hempty⟩
    by_cases hcpu : cpu ≥ log.cpuCount
    · exact if_pos hcpu
    · have hmax : ¬cpu ≥ IMG_MAX_CPUS := by
        rw [ge_iff_le, UInt32.le_iff_toNat_le, hinv.count, not_le] at hcpu
        rw [ge_iff_le, UInt32.le_iff_toNat_le]
        exact Nat.not_le.mpr (hcpu.trans_le hinv.small)
      rw [if_neg hcpu, if_neg hmax, hshard]
      exact if_pos (by decide)

theorem LogInv.consume (hinv : LogInv alloc cpuCount power log) {shard n : Nat}
    (hn : n ≤ (log.cpuLogs shard).count) :
    LogInv alloc cpuCount power (log.consume shard n) ∧ n ≤ (log.contents shard).length ∧
      (log.consume shard n).contents =
        Function.update log.contents shard ((log.contents shard).drop n) := by
  unfold ImgBinlog.consume
  dsimp only
  rw [contents_update]
  by_cases halloc : Allocated alloc cpuCount shard
  · have hready := hinv.ready _ halloc
    obtain ⟨hready', hcontents⟩ := hready.consume hn
    refine ⟨hinv.update halloc hready', ?_, by rw [hcontents]; rfl⟩
    rwa [hready.count_eq] at hn
  · -- a shard that is empty stays as it is
    have hshard := hinv.missing _ halloc
    rw [hshard] at hn
    have hzero : n = 0 := Nat.le_zero.mp hn
    have hsame : ({ log.cpuLogs shard with
        head := ((log.cpuLogs shard).head + UInt32.ofNat n) &&& (log.cpuLogs shard).mask } :
          ImgBinlogCpu) = log.cpuLogs shard := by
      rw [hshard, hzero]
      rfl
    rw [hsame, Function.update_eq_self, hzero, List.drop_zero]
    exact ⟨hinv, Nat.zero_le _, rfl⟩

end Log

-- Every run is one of bounded queues of their own.
theorem BinlogRun.refines {alloc : Allocation} {cpuCount power : UInt32} {start log : ImgBinlog}
    {events : History} (hstart : LogInv alloc cpuCount power start)
    (hempty : start.contents = fun _ => []) (run : BinlogRun start events log) :
    LogInv alloc cpuCount power log ∧
      QueueFamily.Run (capacity alloc cpuCount power) events log.contents := by
  induction run with
  | start =>
      rw [hempty]
      exact ⟨hstart, .start⟩
  | write cpu now event arg0 arg1 arg2 _ hwrite ih =>
      obtain ⟨hinv, hrun⟩ := ih
      obtain ⟨hdrop, hfull⟩ | ⟨log', hkeep, hroom, hinv', hcontents, -⟩ :=
        hinv.write cpu now event arg0 arg1 arg2
      · rw [hdrop] at hwrite
        cases hwrite
        exact ⟨hinv, hrun.drop _ hfull⟩
      · rw [hkeep] at hwrite
        cases hwrite
        rw [hcontents]
        exact ⟨hinv', hrun.keep _ hroom⟩
  | consume shard n _ hn ih =>
      obtain ⟨hinv, hrun⟩ := ih
      obtain ⟨hinv', hlength, hcontents⟩ := hinv.consume hn
      rw [hcontents]
      exact ⟨hinv', hrun.take hlength⟩

-- What the log is after some events: each shard holds the entries that it accepted and
-- that were not consumed, and a write has a result, is dropped only for one of the three
-- reasons, and leaves the other shards alone.
structure Fifos (alloc : Allocation) (cpuCount power : UInt32) (events : History)
    (log : ImgBinlog) : Prop where
  contents : ∀ i, (log.cpuLogs i).contents =
    (QueueFamily.accepted i events).drop (QueueFamily.taken i events)
  consumed : ∀ i, QueueFamily.taken i events ≤ (QueueFamily.accepted i events).length
  bounded : ∀ i, (log.cpuLogs i).contents.length ≤ 2 ^ power.toNat - 1
  write : ∀ cpu now event arg0 arg1 arg2, ∃ kept log',
    imgBinlogWrite log cpu now event arg0 arg1 arg2 = some (kept, log') ∧
      (kept = false ↔ cpu ≥ cpuCount ∨
        (log.cpuLogs cpu.toNat).contents.length = 2 ^ power.toNat - 1 ∨
        ¬Allocated alloc cpuCount cpu.toNat) ∧
      (kept = false → log' = log) ∧ ∀ i ≠ cpu.toNat, log'.cpuLogs i = log.cpuLogs i

theorem imgBinlog_fifos {alloc : Allocation} {old start log : ImgBinlog} {cpuCount power : UInt32}
    {events : History} (hcount : 1 ≤ cpuCount.toNat) (hsmall : cpuCount.toNat ≤ 128)
    (hpower : power.toNat ≤ 31)
    (hinit : (imgBinlogInit alloc (some old) cpuCount power).2 = some start)
    (run : BinlogRun start events log) : Fifos alloc cpuCount power events log := by
  obtain ⟨hstart, hempty⟩ := imgBinlogInit_inv hpower hcount hsmall hinit
  obtain ⟨hinv, hrun⟩ := run.refines hstart hempty
  have hcapacity : ∀ i, capacity alloc cpuCount power i ≤ 2 ^ power.toNat - 1 := by
    intro i
    unfold capacity
    split_ifs
    · exact Nat.le_refl _
    · exact Nat.zero_le _
  refine ⟨fun i => (hrun.contents i).2, fun i => (hrun.contents i).1,
    fun i => (hrun.bounded i).trans (hcapacity i), fun cpu now event arg0 arg1 arg2 => ?_⟩
  obtain ⟨hdrop, hfull⟩ | ⟨log', hkeep, hroom, -, -, hothers⟩ :=
    hinv.write cpu now event arg0 arg1 arg2
  · refine ⟨false, log, hdrop, iff_of_true rfl (.inr ?_), fun _ => rfl, fun _ _ => rfl⟩
    by_cases halloc : Allocated alloc cpuCount cpu.toNat
    · rw [capacity, if_pos halloc] at hfull
      exact .inl hfull
    · exact .inr halloc
  · have halloc : Allocated alloc cpuCount cpu.toNat := by
      by_contra hmissing
      rw [capacity, if_neg hmissing] at hroom
      exact absurd hroom (Nat.not_lt_zero _)
    rw [capacity, if_pos halloc] at hroom
    refine ⟨true, log', hkeep, iff_of_false (by decide) ?_, fun h => absurd h (by decide), hothers⟩
    rintro (hcpu | hfull | hmissing)
    · exact absurd halloc.1 (Nat.not_lt.mpr (UInt32.le_iff_toNat_le.mp hcpu))
    · exact absurd hfull (Nat.ne_of_lt hroom)
    · exact hmissing halloc

section HalfAllocated

-- Two shards of two slots, of which the second one gets no memory.

def noEntry : ImgLogEntry := ⟨0, 0, 0, 0, 0, 0⟩

def firstOnly : Allocation := fun i => if i = 0 then some fun _ => noEntry else none

def oldLog : ImgBinlog := { cpuCount := 0, cpuLogs := fun _ => .zero }

def firstOnlyLog : ImgBinlog := (imgBinlogInit firstOnly (some oldLog) 2 1).2.getD oldLog

def someEvents : History :=
  [.put 0 ⟨10, 7, 0, 1, 2, 3⟩ true, .put 0 ⟨11, 8, 0, 1, 2, 3⟩ false,
    .put 1 ⟨12, 9, 1, 1, 2, 3⟩ false, .take 0 1, .put 0 ⟨13, 7, 0, 1, 2, 3⟩ true]

theorem imgBinlog_fifos_firstOnly : imgBinlogInit firstOnly (some oldLog) 2 1 =
    (-1, some firstOnlyLog) ∧
      ∃ log, BinlogRun firstOnlyLog someEvents log ∧ Fifos firstOnly 2 1 someEvents log := by
  have hinit : imgBinlogInit firstOnly (some oldLog) 2 1 = (-1, some firstOnlyLog) := rfl
  have run := ((((@BinlogRun.start firstOnlyLog).write 0 10 7 1 2 3 rfl).write 0 11 8 1 2 3
    rfl).write 1 12 9 1 2 3 rfl).consume 0 1 (by decide)
  have run := run.write 0 13 7 1 2 3 rfl
  exact ⟨hinit, _, run,
    imgBinlog_fifos (by decide) (by decide) (by decide) (congrArg Prod.snd hinit) run⟩

end HalfAllocated

end ImgEngine.Observability
