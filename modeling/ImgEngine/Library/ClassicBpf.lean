import Mathlib.Data.List.Basic
import Mathlib.Tactic.SplitIfs

namespace ImgEngine.Library.ClassicBpf

-- The instructions of a program that compares one word of a packet with constants:
-- BPF_LD | BPF_W | BPF_ABS, BPF_JMP | BPF_JEQ | BPF_K and BPF_RET | BPF_K.
inductive Insn where
  | load (offset : UInt32)
  | jumpEq (k : UInt32) (jt jf : UInt8)
  | ret (k : UInt32)
deriving DecidableEq

abbrev Program := List Insn

-- The word of the packet at an offset.
abbrev Packet := UInt32 → UInt32

structure Machine where
  pc : Nat
  accumulator : UInt32

-- One instruction. A program counter behind the end has no next state.
def step (program : Program) (packet : Packet) (m : Machine) : Option (Machine ⊕ UInt32) :=
  (program[m.pc]?).map fun insn =>
    match insn with
    | .load offset => .inl ⟨m.pc + 1, packet offset⟩
    | .jumpEq k jt jf =>
        .inl ⟨m.pc + 1 + (if m.accumulator = k then jt else jf).toNat, m.accumulator⟩
    | .ret k => .inr k

-- none stands for a program that leaves its end or runs out of fuel.
def runFrom (program : Program) (packet : Packet) : Nat → Machine → Option UInt32
  | 0, _ => none
  | fuel + 1, m =>
      match step program packet m with
      | none => none
      | some (.inl m) => runFrom program packet fuel m
      | some (.inr k) => some k

-- There are no jumps back, so no run is longer than the program.
def run (program : Program) (packet : Packet) : Option UInt32 :=
  runFrom program packet program.length ⟨0, 0⟩

-- What the kernel checks before it takes a program: it has a length that it can have,
-- every jump stays inside, and the last instruction returns.

def maxInsns : Nat := 4096

def InRange (length pc : Nat) : Insn → Prop
  | .jumpEq _ jt jf => pc + 1 + jt.toNat < length ∧ pc + 1 + jf.toNat < length
  | .load _ | .ret _ => True

def Insn.returns : Insn → Bool
  | .ret _ => true
  | .load _ | .jumpEq _ _ _ => false

structure Checked (program : Program) : Prop where
  nonempty : 0 < program.length
  short : program.length ≤ maxInsns
  jumps : ∀ pc insn, program[pc]? = some insn → InRange program.length pc insn
  last : ∀ insn, program[program.length - 1]? = some insn → insn.returns = true

-- A program that loads one word, compares it with one key after another and returns at
-- the first that matches.

def matchKey (hit : UInt32) (key : UInt32) : Program := [.jumpEq key 0 1, .ret hit]

def membership (offset hit miss : UInt32) (keys : List UInt32) : Program :=
  .load offset :: keys.flatMap (matchKey hit) ++ [.ret miss]

section Membership

variable {offset hit miss : UInt32} {keys : List UInt32}

theorem length_matchKeys (hit : UInt32) (keys : List UInt32) :
    (keys.flatMap (matchKey hit)).length = 2 * keys.length := by
  induction keys with
  | nil => rfl
  | cons key keys ih =>
      rw [List.flatMap_cons, List.length_append, ih, List.length_cons, matchKey]
      simp only [List.length_cons, List.length_nil]
      omega

theorem length_membership : (membership offset hit miss keys).length = 2 * keys.length + 2 := by
  rw [membership, List.length_append, List.length_cons, length_matchKeys, List.length_singleton]

-- What stands at the key with a given index, and behind the keys.

theorem matchKeys_getElem? {i : Nat} (hi : i < keys.length) (after : Program) :
    (keys.flatMap (matchKey hit) ++ after)[2 * i]? = some (.jumpEq keys[i] 0 1) ∧
      (keys.flatMap (matchKey hit) ++ after)[2 * i + 1]? = some (.ret hit) := by
  induction keys generalizing i with
  | nil => simp at hi
  | cons key keys ih =>
      rw [List.flatMap_cons, List.append_assoc, matchKey]
      cases i with
      | zero => exact ⟨rfl, rfl⟩
      | succ i =>
          have hrest := ih (Nat.lt_of_succ_lt_succ hi)
          rw [Nat.mul_add_one]
          exact hrest

theorem membership_key (offset hit miss : UInt32) {i : Nat} (hi : i < keys.length) :
    (membership offset hit miss keys)[2 * i + 1]? = some (.jumpEq keys[i] 0 1) ∧
      (membership offset hit miss keys)[2 * i + 2]? = some (.ret hit) := by
  simp only [membership, List.cons_append, List.getElem?_cons_succ]
  exact matchKeys_getElem? hi _

theorem membership_last :
    (membership offset hit miss keys)[2 * keys.length + 1]? = some (.ret miss) := by
  simp only [membership, List.cons_append, List.getElem?_cons_succ]
  rw [List.getElem?_append_right (length_matchKeys hit keys ▸ Nat.le_refl _),
    length_matchKeys, Nat.sub_self]
  rfl

-- From the key with index i on, the machine looks for the word among the keys left.
theorem runFrom_key {packet : Packet} {word : UInt32} (left : Nat) {i fuel : Nat}
    (hleft : i + left = keys.length) (hfuel : 2 * left + 1 ≤ fuel) :
    runFrom (membership offset hit miss keys) packet fuel ⟨2 * i + 1, word⟩ =
      some (if word ∈ keys.drop i then hit else miss) := by
  obtain ⟨fuel, rfl⟩ : ∃ rest, fuel = rest + 1 := ⟨fuel - 1, by omega⟩
  induction left generalizing i fuel with
  | zero =>
      obtain rfl : i = keys.length := hleft
      simp [runFrom, step, membership_last]
  | succ left ih =>
      obtain ⟨fuel, rfl⟩ : ∃ rest, fuel = rest + 1 := ⟨fuel - 1, by omega⟩
      have hi : i < keys.length := by omega
      obtain ⟨hjump, hret⟩ := membership_key offset hit miss hi
      rw [List.drop_eq_getElem_cons hi, runFrom, step, hjump, Option.map_some]
      by_cases hword : word = keys[i]
      · rw [if_pos (List.mem_cons.mpr (.inl hword))]
        simp only [if_pos hword]
        rw [runFrom, step]
        simp [hret]
      · have hpc : 2 * i + 1 + 1 + (1 : UInt8).toNat = 2 * (i + 1) + 1 := by
          rw [show (1 : UInt8).toNat = 1 from rfl]
          omega
        simp only [List.mem_cons, hword, if_false, false_or]
        rw [hpc]
        exact ih (i := i + 1) (by omega) fuel (by omega)

theorem run_membership (packet : Packet) :
    run (membership offset hit miss keys) packet =
      some (if packet offset ∈ keys then hit else miss) := by
  rw [run, length_membership, runFrom]
  simp only [step, membership, List.cons_append, List.getElem?_cons_zero, Option.map_some]
  exact runFrom_key keys.length (i := 0) (Nat.zero_add _) (Nat.le_refl _)

theorem membership_checked (hshort : 2 * keys.length + 2 ≤ maxInsns) :
    Checked (membership offset hit miss keys) := by
  refine ⟨by rw [length_membership]; omega, by rwa [length_membership], fun pc insn hinsn => ?_,
    fun insn hinsn => ?_⟩
  · rcases Nat.lt_or_ge pc (2 * keys.length + 1) with hpc | hpc
    · -- the load, or the jump or the return of a key
      obtain rfl | ⟨i, rfl | rfl⟩ : pc = 0 ∨ ∃ i, pc = 2 * i + 1 ∨ pc = 2 * i + 2 := by
        refine pc.eq_zero_or_pos.imp_right fun hpos => ⟨(pc - 1) / 2, ?_⟩
        omega
      · cases hinsn
        trivial
      · rw [(membership_key _ _ _ (by omega)).1] at hinsn
        cases hinsn
        rw [InRange, length_membership, show (0 : UInt8).toNat = 0 from rfl,
          show (1 : UInt8).toNat = 1 from rfl]
        omega
      · rw [(membership_key _ _ _ (by omega)).2] at hinsn
        cases hinsn
        trivial
    · have hlt := (List.getElem?_eq_some_iff.mp hinsn).1
      rw [length_membership] at hlt
      obtain rfl : pc = 2 * keys.length + 1 := by omega
      rw [membership_last] at hinsn
      cases hinsn
      trivial
  · rw [length_membership, Nat.add_sub_cancel (m := 1), membership_last] at hinsn
    cases hinsn
    rfl

end Membership

end ImgEngine.Library.ClassicBpf
