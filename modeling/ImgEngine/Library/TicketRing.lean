import Mathlib.Data.List.Basic
import Mathlib.Data.Nat.ModEq
import Mathlib.Logic.Function.Basic

namespace ImgEngine.Library.TicketRing

-- A bounded ring whose slots carry sequence numbers. Pushes and pops draw
-- consecutive tickets, and ticket k works on slot k mod size. A slot goes
-- through four stages for each ticket.
inductive Slot (Thread Item : Type) where
  | free (ticket : Nat)
  | claimed (ticket : Nat) (thread : Thread) (item : Item)
  | full (ticket : Nat) (item : Item)
  | draining (ticket : Nat) (thread : Thread) (item : Item)

variable {Thread Item : Type}

def Slot.ticket : Slot Thread Item → Nat
  | free k => k
  | claimed k _ _ => k
  | full k _ => k
  | draining k _ _ => k

-- The sequence number that the slot shows to the threads.
def Slot.seq : Slot Thread Item → Nat
  | free k => k
  | claimed k _ _ => k
  | full k _ => k + 1
  | draining k _ _ => k + 1

structure Ring (Thread Item : Type) where
  -- the items of the claimed push tickets, in ticket order
  pushed : List Item
  -- the number of claimed pop tickets
  popped : Nat
  slot : Nat → Slot Thread Item

def Ring.empty : Ring Thread Item := { pushed := [], popped := 0, slot := .free }

namespace Ring

def setSlot (ring : Ring Thread Item) (i : Nat) (slot : Slot Thread Item) : Ring Thread Item :=
  { ring with slot := Function.update ring.slot i slot }

def claimPush (size : Nat) (ring : Ring Thread Item) (thread : Thread) (item : Item) :
    Ring Thread Item :=
  { ring.setSlot (ring.pushed.length % size) (.claimed ring.pushed.length thread item) with
    pushed := ring.pushed ++ [item] }

def claimPop (size : Nat) (ring : Ring Thread Item) (thread : Thread) (item : Item) :
    Ring Thread Item :=
  { ring.setSlot (ring.popped % size) (.draining ring.popped thread item) with
    popped := ring.popped + 1 }

-- What holds of a slot that is in a given stage.
def Stage (size : Nat) (ring : Ring Thread Item) : Slot Thread Item → Prop
  | .free k => ring.pushed.length ≤ k ∧ k < ring.popped + size
  | .claimed k _ item =>
      ring.popped ≤ k ∧ ring.pushed.length ≤ k + size ∧ ring.pushed[k]? = some item
  | .full k item =>
      ring.popped ≤ k ∧ ring.pushed.length ≤ k + size ∧ ring.pushed[k]? = some item
  | .draining k _ item =>
      k < ring.popped ∧ ring.pushed.length ≤ k + size ∧ ring.pushed[k]? = some item

@[simp] theorem stage_setSlot (size : Nat) (ring : Ring Thread Item) (i : Nat)
    (slot other : Slot Thread Item) :
    Stage size (ring.setSlot i slot) other ↔ Stage size ring other := by
  cases other <;> rfl

structure Inv (size : Nat) (ring : Ring Thread Item) : Prop where
  ordered : ring.popped ≤ ring.pushed.length
  bounded : ring.pushed.length ≤ ring.popped + size
  residue : ∀ i < size, (ring.slot i).ticket % size = i
  stage : ∀ i < size, Stage size ring (ring.slot i)

theorem inv_empty (size : Nat) : Inv size (empty : Ring Thread Item) where
  ordered := Nat.le_refl _
  bounded := Nat.zero_le _
  residue := fun _ hi => Nat.mod_eq_of_lt hi
  stage := fun i hi => ⟨Nat.zero_le i, by simpa [empty] using hi⟩

variable {size : Nat} {ring : Ring Thread Item}

theorem eq_of_modEq {modulus a b : Nat} (h : a ≡ b [MOD modulus]) (hab : a ≤ b)
    (hlt : b < a + modulus) : a = b := by
  have hd := (Nat.modEq_iff_dvd' hab).mp h
  have := Nat.eq_zero_of_dvd_of_lt hd (by omega)
  omega

theorem mod_succ_ne {k : Nat} (hsize : 2 ≤ size) : k % size ≠ (k + 1) % size := by
  intro h
  have h : k ≡ k + 1 [MOD size] := h
  have := eq_of_modEq h (by omega) (by omega)
  omega

-- Sequence numbers are compared modulo the width of a machine word. That does
-- not matter: every number a slot can show is close to the next ticket.
theorem slot_eq_free (hinv : Inv size ring) (hsize : 2 ≤ size) {modulus : Nat}
    (hmodulus : size < modulus)
    (hseq : (ring.slot (ring.pushed.length % size)).seq ≡ ring.pushed.length [MOD modulus]) :
    ring.slot (ring.pushed.length % size) = .free ring.pushed.length := by
  have hi : ring.pushed.length % size < size := Nat.mod_lt _ (by omega)
  have hstage := hinv.stage _ hi
  have hres := hinv.residue _ hi
  have ho := hinv.ordered
  have hb := hinv.bounded
  cases hslot : ring.slot (ring.pushed.length % size) with
  | free k =>
      simp only [hslot, Slot.seq, Stage] at hseq hstage
      rw [eq_of_modEq hseq.symm hstage.1 (by omega)]
  | claimed k t d =>
      simp only [hslot, Slot.seq, Stage] at hseq hstage
      have hk := (List.getElem?_eq_some_iff.mp hstage.2.2).1
      have := eq_of_modEq hseq (by omega) (by omega)
      omega
  | full k d =>
      simp only [hslot, Slot.seq, Slot.ticket, Stage] at hseq hstage hres
      have hk := (List.getElem?_eq_some_iff.mp hstage.2.2).1
      have := eq_of_modEq hseq (by omega) (by omega)
      exact absurd (this ▸ hres) (mod_succ_ne hsize)
  | draining k t d =>
      simp only [hslot, Slot.seq, Slot.ticket, Stage] at hseq hstage hres
      have hk := (List.getElem?_eq_some_iff.mp hstage.2.2).1
      have := eq_of_modEq hseq (by omega) (by omega)
      exact absurd (this ▸ hres) (mod_succ_ne hsize)

theorem slot_eq_full (hinv : Inv size ring) (hsize : 2 ≤ size) {modulus : Nat}
    (hmodulus : size < modulus)
    (hseq : (ring.slot (ring.popped % size)).seq ≡ ring.popped + 1 [MOD modulus]) :
    ∃ item, ring.slot (ring.popped % size) = .full ring.popped item := by
  have hi : ring.popped % size < size := Nat.mod_lt _ (by omega)
  have hstage := hinv.stage _ hi
  have hres := hinv.residue _ hi
  have ho := hinv.ordered
  have hb := hinv.bounded
  have hnot : ∀ k, ring.popped ≤ k → k < ring.popped + size → k ≡ ring.popped + 1 [MOD modulus] →
      k % size ≠ ring.popped % size := by
    intro k hk hlt hmod he
    rcases Nat.eq_or_lt_of_le hk with rfl | hk
    · have := eq_of_modEq hmod (by omega) (by omega)
      omega
    · have := eq_of_modEq hmod.symm (by omega) (by omega)
      exact mod_succ_ne hsize (he.symm.trans (by rw [this]))
  cases hslot : ring.slot (ring.popped % size) with
  | free k =>
      simp only [hslot, Slot.seq, Slot.ticket, Stage] at hseq hstage hres
      exact absurd hres (hnot k (by omega) hstage.2 hseq)
  | claimed k t d =>
      simp only [hslot, Slot.seq, Slot.ticket, Stage] at hseq hstage hres
      have hk := (List.getElem?_eq_some_iff.mp hstage.2.2).1
      exact absurd hres (hnot k hstage.1 (by omega) hseq)
  | full k d =>
      simp only [hslot, Slot.seq, Stage] at hseq hstage
      have hk := (List.getElem?_eq_some_iff.mp hstage.2.2).1
      have := eq_of_modEq (Nat.ModEq.add_right_cancel' 1 hseq).symm hstage.1 (by omega)
      exact ⟨d, by rw [this]⟩
  | draining k t d =>
      simp only [hslot, Slot.seq, Stage] at hseq hstage
      have := eq_of_modEq (Nat.ModEq.add_right_cancel' 1 hseq) (by omega) (by omega)
      omega

-- The slot of a ticket that is pushed and not popped waits for its item or holds it.
theorem slot_pending (hinv : Inv size ring) {n : Nat} (hpopped : ring.popped ≤ n)
    (hpushed : n < ring.pushed.length) :
    ∃ item, ring.slot (n % size) = .full n item ∨
      ∃ thread, ring.slot (n % size) = .claimed n thread item := by
  have hb := hinv.bounded
  have hi : n % size < size := Nat.mod_lt _ (by omega)
  have hstage := hinv.stage _ hi
  have hres := hinv.residue _ hi
  cases hslot : ring.slot (n % size) with
  | free k =>
      simp only [hslot, Stage, Slot.ticket] at hstage hres
      have hmod : n ≡ k [MOD size] := hres.symm
      have := eq_of_modEq hmod (by omega) (by omega)
      omega
  | claimed k t d =>
      simp only [hslot, Stage, Slot.ticket] at hstage hres
      have hk := (List.getElem?_eq_some_iff.mp hstage.2.2).1
      have hmod : k ≡ n [MOD size] := hres
      rcases Nat.le_total k n with h | h
      · exact ⟨d, .inr ⟨t, by rw [eq_of_modEq hmod h (by omega)]⟩⟩
      · exact ⟨d, .inr ⟨t, by rw [eq_of_modEq hmod.symm h (by omega)]⟩⟩
  | full k d =>
      simp only [hslot, Stage, Slot.ticket] at hstage hres
      have hk := (List.getElem?_eq_some_iff.mp hstage.2.2).1
      have hmod : k ≡ n [MOD size] := hres
      rcases Nat.le_total k n with h | h
      · exact ⟨d, .inl (by rw [eq_of_modEq hmod h (by omega)])⟩
      · exact ⟨d, .inl (by rw [eq_of_modEq hmod.symm h (by omega)])⟩
  | draining k t d =>
      simp only [hslot, Stage, Slot.ticket] at hstage hres
      have hmod : k ≡ n [MOD size] := hres
      have := eq_of_modEq hmod (by omega) (by omega)
      omega

-- What the sequence number of a slot says about a ticket of that slot: a claimed
-- ticket lies behind it or is its own, and the next ticket is never behind it.

theorem seq_le (hinv : Inv size ring) {i : Nat} (hi : i < size) :
    (ring.slot i).seq ≤ ring.popped + size := by
  have hb := hinv.bounded
  have hstage := hinv.stage i hi
  cases hslot : ring.slot i with
  | free k =>
      simp only [hslot, Stage, Slot.seq] at hstage ⊢
      omega
  | claimed k t d =>
      simp only [hslot, Stage, Slot.seq] at hstage ⊢
      have hk := (List.getElem?_eq_some_iff.mp hstage.2.2).1
      omega
  | full k d =>
      simp only [hslot, Stage, Slot.seq] at hstage ⊢
      have hk := (List.getElem?_eq_some_iff.mp hstage.2.2).1
      omega
  | draining k t d =>
      simp only [hslot, Stage, Slot.seq] at hstage ⊢
      omega

-- Of two tickets of one slot that are less than a lap apart, neither is ahead.
theorem ticket_le {a b : Nat} (h : a % size = b % size) (hlt : a < b + size) : a ≤ b := by
  rcases Nat.le_total a b with hle | hle
  · exact hle
  · have hmod : b ≡ a [MOD size] := h.symm
    exact Nat.le_of_eq (eq_of_modEq hmod hle hlt).symm

theorem le_seq_of_lt_pushed (hinv : Inv size ring) (hsize : 2 ≤ size) {n : Nat}
    (hn : n < ring.pushed.length) : n ≤ (ring.slot (n % size)).seq := by
  have hi : n % size < size := Nat.mod_lt _ (by omega)
  have hstage := hinv.stage _ hi
  have hres := hinv.residue _ hi
  cases hslot : ring.slot (n % size) with
  | free k =>
      simp only [hslot, Stage, Slot.seq] at hstage ⊢
      omega
  | claimed k t d =>
      simp only [hslot, Stage, Slot.seq, Slot.ticket] at hstage hres ⊢
      exact ticket_le hres.symm (by omega)
  | full k d =>
      simp only [hslot, Stage, Slot.seq, Slot.ticket] at hstage hres ⊢
      exact Nat.le_succ_of_le (ticket_le hres.symm (by omega))
  | draining k t d =>
      simp only [hslot, Stage, Slot.seq, Slot.ticket] at hstage hres ⊢
      exact Nat.le_succ_of_le (ticket_le hres.symm (by omega))

theorem seq_le_pushed (hinv : Inv size ring) (hsize : 2 ≤ size) :
    (ring.slot (ring.pushed.length % size)).seq ≤ ring.pushed.length := by
  have ho := hinv.ordered
  have hi : ring.pushed.length % size < size := Nat.mod_lt _ (by omega)
  have hstage := hinv.stage _ hi
  have hres := hinv.residue _ hi
  cases hslot : ring.slot (ring.pushed.length % size) with
  | free k =>
      simp only [hslot, Stage, Slot.seq, Slot.ticket] at hstage hres ⊢
      exact ticket_le hres (by omega)
  | claimed k t d =>
      simp only [hslot, Stage, Slot.seq] at hstage ⊢
      have hk := (List.getElem?_eq_some_iff.mp hstage.2.2).1
      omega
  | full k d =>
      simp only [hslot, Stage, Slot.seq] at hstage ⊢
      exact (List.getElem?_eq_some_iff.mp hstage.2.2).1
  | draining k t d =>
      simp only [hslot, Stage, Slot.seq] at hstage ⊢
      omega

-- The next push finds its slot taken only by the ticket one lap before.
theorem size_le_pushed (hinv : Inv size ring) (hsize : 2 ≤ size)
    (hseq : (ring.slot (ring.pushed.length % size)).seq < ring.pushed.length) :
    size ≤ ring.pushed.length := by
  have hi : ring.pushed.length % size < size := Nat.mod_lt _ (by omega)
  have hstage := hinv.stage _ hi
  have hres := hinv.residue _ hi
  -- a ticket of this slot that is less than a lap behind would be the next one
  have hlap : ∀ k, k % size = ring.pushed.length % size → k < ring.pushed.length →
      size ≤ ring.pushed.length := by
    intro k hk hlt
    by_contra hsmall
    have := ticket_le hk.symm (by omega)
    omega
  cases hslot : ring.slot (ring.pushed.length % size) with
  | free k =>
      simp only [hslot, Stage, Slot.seq] at hstage hseq
      omega
  | claimed k t d =>
      simp only [hslot, Slot.seq, Slot.ticket] at hseq hres
      exact hlap k hres hseq
  | full k d =>
      simp only [hslot, Slot.seq, Slot.ticket] at hseq hres
      exact hlap k hres (by omega)
  | draining k t d =>
      simp only [hslot, Slot.seq, Slot.ticket] at hseq hres
      exact hlap k hres (by omega)

theorem lt_seq_of_lt_popped (hinv : Inv size ring) (hsize : 2 ≤ size) {n : Nat}
    (hn : n < ring.popped) : n < (ring.slot (n % size)).seq := by
  have ho := hinv.ordered
  have hi : n % size < size := Nat.mod_lt _ (by omega)
  have hstage := hinv.stage _ hi
  have hres := hinv.residue _ hi
  cases hslot : ring.slot (n % size) with
  | free k =>
      simp only [hslot, Stage, Slot.seq] at hstage ⊢
      omega
  | claimed k t d =>
      simp only [hslot, Stage, Slot.seq] at hstage ⊢
      omega
  | full k d =>
      simp only [hslot, Stage, Slot.seq] at hstage ⊢
      omega
  | draining k t d =>
      simp only [hslot, Stage, Slot.seq, Slot.ticket] at hstage hres ⊢
      exact Nat.lt_succ_of_le (ticket_le hres.symm (by omega))

theorem seq_le_popped (hinv : Inv size ring) (hsize : 2 ≤ size) :
    (ring.slot (ring.popped % size)).seq ≤ ring.popped + 1 := by
  have ho := hinv.ordered
  have hb := hinv.bounded
  have hi : ring.popped % size < size := Nat.mod_lt _ (by omega)
  have hstage := hinv.stage _ hi
  have hres := hinv.residue _ hi
  cases hslot : ring.slot (ring.popped % size) with
  | free k =>
      simp only [hslot, Stage, Slot.seq, Slot.ticket] at hstage hres ⊢
      exact Nat.le_succ_of_le (ticket_le hres (by omega))
  | claimed k t d =>
      simp only [hslot, Stage, Slot.seq, Slot.ticket] at hstage hres ⊢
      have hk := (List.getElem?_eq_some_iff.mp hstage.2.2).1
      exact Nat.le_succ_of_le (ticket_le hres (by omega))
  | full k d =>
      simp only [hslot, Stage, Slot.seq, Slot.ticket] at hstage hres ⊢
      have hk := (List.getElem?_eq_some_iff.mp hstage.2.2).1
      exact Nat.succ_le_succ (ticket_le hres (by omega))
  | draining k t d =>
      simp only [hslot, Stage, Slot.seq] at hstage ⊢
      omega

-- Each of the four moves keeps the invariant. The moved slot changes its stage,
-- and what it said about the other slots only gets weaker.

theorem inv_claimPush (hinv : Inv size ring) (hsize : 2 ≤ size)
    (hfree : ring.slot (ring.pushed.length % size) = .free ring.pushed.length)
    (thread : Thread) (item : Item) : Inv size (ring.claimPush size thread item) := by
  have hi : ring.pushed.length % size < size := Nat.mod_lt _ (by omega)
  have hroom := hinv.stage _ hi
  rw [hfree] at hroom
  constructor
  · simp only [claimPush, setSlot, List.length_append, List.length_singleton]
    have := hinv.ordered
    omega
  · simp only [claimPush, setSlot, List.length_append, List.length_singleton]
    have := hroom.2
    omega
  · intro i hlt
    by_cases he : i = ring.pushed.length % size
    · subst he
      simp [claimPush, setSlot, Slot.ticket]
    · simpa [claimPush, setSlot, he] using hinv.residue i hlt
  · intro i hlt
    by_cases he : i = ring.pushed.length % size
    · subst he
      have := hinv.ordered
      simp [claimPush, setSlot, Stage]
      omega
    · have hstage := hinv.stage i hlt
      have hres := hinv.residue i hlt
      have hgrow : ∀ {k : Nat} {d : Item}, ring.pushed[k]? = some d →
          (ring.pushed ++ [item])[k]? = some d := by
        intro k d h
        rw [List.getElem?_append_left (List.getElem?_eq_some_iff.mp h).1, h]
      -- no other slot can be one whole lap behind the claimed ticket
      have hne : ∀ k, k % size = i → ring.pushed.length ≤ k + size →
          ring.pushed.length + 1 ≤ k + size := by
        intro k hk hle
        rcases Nat.eq_or_lt_of_le hle with h | h
        · exact absurd (by rw [← hk, h, Nat.add_mod_right]) he
        · exact h
      simp only [claimPush, setSlot, Function.update_of_ne he]
      cases hslot : ring.slot i with
      | free k =>
          simp only [hslot, Stage, Slot.ticket] at hstage hres ⊢
          have : k ≠ ring.pushed.length := by
            rintro rfl
            exact he hres.symm
          simp only [List.length_append, List.length_singleton]
          omega
      | claimed k t d =>
          simp only [hslot, Stage, Slot.ticket] at hstage hres ⊢
          exact ⟨hstage.1, by simpa using hne k hres hstage.2.1, hgrow hstage.2.2⟩
      | full k d =>
          simp only [hslot, Stage, Slot.ticket] at hstage hres ⊢
          exact ⟨hstage.1, by simpa using hne k hres hstage.2.1, hgrow hstage.2.2⟩
      | draining k t d =>
          simp only [hslot, Stage, Slot.ticket] at hstage hres ⊢
          exact ⟨hstage.1, by simpa using hne k hres hstage.2.1, hgrow hstage.2.2⟩

theorem inv_claimPop (hinv : Inv size ring) (hsize : 2 ≤ size) {item : Item}
    (hfull : ring.slot (ring.popped % size) = .full ring.popped item) (thread : Thread) :
    Inv size (ring.claimPop size thread item) := by
  have hi : ring.popped % size < size := Nat.mod_lt _ (by omega)
  have hitem := hinv.stage _ hi
  rw [hfull] at hitem
  have hlt := (List.getElem?_eq_some_iff.mp hitem.2.2).1
  constructor
  · simp only [claimPop, setSlot]
    omega
  · simp only [claimPop, setSlot]
    have := hinv.bounded
    omega
  · intro i hi
    by_cases he : i = ring.popped % size
    · subst he
      simp [claimPop, setSlot, Slot.ticket]
    · simpa [claimPop, setSlot, he] using hinv.residue i hi
  · intro i hi
    by_cases he : i = ring.popped % size
    · subst he
      simp only [claimPop, setSlot, Function.update_self, Stage]
      exact ⟨Nat.lt_succ_self _, hitem.2.1, hitem.2.2⟩
    · have hstage := hinv.stage i hi
      have hres := hinv.residue i hi
      have hne : ∀ k, k % size = i → ring.popped ≤ k → ring.popped + 1 ≤ k := by
        intro k hk hle
        rcases Nat.eq_or_lt_of_le hle with h | h
        · exact absurd (by rw [← hk, h]) he
        · exact h
      simp only [claimPop, setSlot, Function.update_of_ne he]
      cases hslot : ring.slot i with
      | free k =>
          simp only [hslot, Stage] at hstage ⊢
          omega
      | claimed k t d =>
          simp only [hslot, Stage, Slot.ticket] at hstage hres ⊢
          exact ⟨hne k hres hstage.1, hstage.2⟩
      | full k d =>
          simp only [hslot, Stage, Slot.ticket] at hstage hres ⊢
          exact ⟨hne k hres hstage.1, hstage.2⟩
      | draining k t d =>
          simp only [hslot, Stage] at hstage ⊢
          exact ⟨by omega, hstage.2⟩

-- Publishing and releasing change one slot and no counter.
theorem inv_setSlot (hinv : Inv size ring) (i : Nat) (slot : Slot Thread Item)
    (hres : slot.ticket % size = i) (hstage : Stage size ring slot) :
    Inv size (ring.setSlot i slot) := by
  refine ⟨hinv.ordered, hinv.bounded, ?_, ?_⟩
  · intro j hj
    by_cases he : j = i
    · subst he
      simpa [setSlot] using hres
    · simpa [setSlot, he] using hinv.residue j hj
  · intro j hj
    rw [stage_setSlot]
    by_cases he : j = i
    · subst he
      simpa [setSlot] using hstage
    · simpa [setSlot, he] using hinv.stage j hj

theorem inv_publish (hinv : Inv size ring) {i k : Nat} (hi : i < size) {thread : Thread}
    {item : Item} (hslot : ring.slot i = .claimed k thread item) :
    Inv size (ring.setSlot i (.full k item)) := by
  have hstage := hinv.stage i hi
  have hres := hinv.residue i hi
  rw [hslot] at hstage hres
  exact inv_setSlot hinv i _ hres hstage

theorem inv_release (hinv : Inv size ring) {i k : Nat} (hi : i < size) {thread : Thread}
    {item : Item} (hslot : ring.slot i = .draining k thread item) :
    Inv size (ring.setSlot i (.free (k + size))) := by
  have hstage := hinv.stage i hi
  have hres := hinv.residue i hi
  rw [hslot] at hstage hres
  exact inv_setSlot hinv i _ (by simpa [Slot.ticket] using hres)
    ⟨hstage.2.1, Nat.add_lt_add_right hstage.1 size⟩

end Ring

end ImgEngine.Library.TicketRing
