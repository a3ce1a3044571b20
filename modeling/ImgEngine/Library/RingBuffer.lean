import Mathlib.Data.List.Basic
import Mathlib.Data.Nat.ModEq
import Mathlib.Logic.Function.Basic

namespace ImgEngine.Library.RingBuffer

variable {Item : Type} {size head tail : Nat}

-- A ring of `size` slots between two indices. The slots from head up to tail
-- are in use, and one slot stays free to tell a full ring from an empty one.

def next (size i : Nat) : Nat := (i + 1) % size

def used (size head tail : Nat) : Nat := (tail + size - head) % size

def window (size : Nat) (slot : Nat → Item) (head tail : Nat) : List Item :=
  (List.range (used size head tail)).map fun j => slot ((head + j) % size)

theorem next_lt (hhead : head < size) : next size head < size := Nat.mod_lt _ (by omega)

theorem next_eq (hhead : head < size) :
    next size head = if head + 1 = size then 0 else head + 1 := by
  unfold next
  split_ifs with h
  · rw [h, Nat.mod_self]
  · exact Nat.mod_eq_of_lt (by omega)

theorem used_eq (hhead : head < size) (htail : tail < size) :
    used size head tail = if head ≤ tail then tail - head else tail + size - head := by
  unfold used
  split_ifs with h
  · rw [show tail + size - head = tail - head + size by omega, Nat.add_mod_right]
    exact Nat.mod_eq_of_lt (by omega)
  · exact Nat.mod_eq_of_lt (by omega)

theorem used_lt (hhead : head < size) (tail : Nat) : used size head tail < size :=
  Nat.mod_lt _ (by omega)

theorem used_eq_zero_iff (hhead : head < size) (htail : tail < size) :
    used size head tail = 0 ↔ head = tail := by
  rw [used_eq hhead htail]
  split_ifs <;> omega

theorem next_eq_iff_used (hhead : head < size) (htail : tail < size) :
    next size tail = head ↔ used size head tail = size - 1 := by
  rw [used_eq hhead htail, next_eq htail]
  split_ifs <;> omega

theorem used_push (hhead : head < size) (htail : tail < size) (hroom : next size tail ≠ head) :
    used size head (next size tail) = used size head tail + 1 := by
  rw [used_eq hhead (next_lt htail), used_eq hhead htail, next_eq htail]
  rw [next_eq htail] at hroom
  split_ifs at * <;> omega

theorem used_pop (hhead : head < size) (htail : tail < size) (hne : head ≠ tail) :
    used size head tail = used size (next size head) tail + 1 := by
  rw [used_eq (next_lt hhead) htail, used_eq hhead htail, next_eq hhead]
  split_ifs <;> omega

theorem head_add_used (hhead : head < size) (htail : tail < size) :
    (head + used size head tail) % size = tail := by
  rw [used_eq hhead htail]
  split_ifs with h
  · rw [Nat.add_sub_cancel' h]
    exact Nat.mod_eq_of_lt htail
  · rw [Nat.add_sub_cancel' (by omega), Nat.add_mod_right]
    exact Nat.mod_eq_of_lt htail

theorem used_head_add {j : Nat} (hj : j < size) (hhead : head < size) :
    used size head ((head + j) % size) = j := by
  have hlt : (head + j) % size < size := Nat.mod_lt _ (by omega)
  rw [used_eq hhead hlt]
  rcases Nat.lt_or_ge (head + j) size with h | h
  · rw [Nat.mod_eq_of_lt h]
    split_ifs <;> omega
  · rw [Nat.mod_eq_sub_mod h, Nat.mod_eq_of_lt (by omega)]
    split_ifs <;> omega

@[simp] theorem window_length (slot : Nat → Item) :
    (window size slot head tail).length = used size head tail := by
  simp [window]

theorem window_empty (slot : Nat → Item) (hhead : head < size) :
    window size slot head head = [] := by
  rw [← List.length_eq_zero_iff, window_length, used_eq_zero_iff hhead hhead]

-- A window lists the slots in use and no others.
theorem window_congr {slot slot' : Nat → Item}
    (h : ∀ j < used size head tail, slot' ((head + j) % size) = slot ((head + j) % size)) :
    window size slot' head tail = window size slot head tail := by
  apply List.map_congr_left
  intro j hj
  exact h j (List.mem_range.mp hj)

-- The slot at the tail is not in use.
theorem window_update (hhead : head < size) (slot : Nat → Item) (item : Item) :
    window size (Function.update slot tail item) head tail = window size slot head tail := by
  refine window_congr fun j hj => Function.update_of_ne ?_ _ _
  intro heq
  have hlt := used_lt hhead tail
  have hdistance := used_head_add (show j < size by omega) hhead
  rw [heq] at hdistance
  omega

theorem window_push (hhead : head < size) (htail : tail < size) (hroom : next size tail ≠ head)
    (slot : Nat → Item) :
    window size slot head (next size tail) = window size slot head tail ++ [slot tail] := by
  rw [window, used_push hhead htail hroom, List.range_succ, List.map_append, List.map_singleton,
    head_add_used hhead htail]
  rfl

theorem window_pop (hhead : head < size) (htail : tail < size) (hne : head ≠ tail)
    (slot : Nat → Item) :
    window size slot head tail = slot head :: window size slot (next size head) tail := by
  rw [window, used_pop hhead htail hne, List.range_succ_eq_map, List.map_cons, List.map_map,
    Nat.add_zero, Nat.mod_eq_of_lt hhead, window]
  congr 1
  apply List.map_congr_left
  intro j _
  simp only [Function.comp_apply, next, Nat.mod_add_mod]
  rw [show head + j.succ = head + 1 + j by omega]

-- The head may also move over several slots at once.
theorem window_drop (hhead : head < size) (htail : tail < size) {n : Nat}
    (hn : n ≤ used size head tail) (slot : Nat → Item) :
    window size slot ((head + n) % size) tail = (window size slot head tail).drop n := by
  induction n generalizing head with
  | zero => rw [Nat.add_zero, Nat.mod_eq_of_lt hhead, List.drop_zero]
  | succ n ih =>
      have hne : head ≠ tail := by
        intro h
        rw [(used_eq_zero_iff hhead htail).mpr h] at hn
        omega
      have hused := used_pop hhead htail hne
      have hrest := ih (next_lt hhead) (by omega)
      rw [window_pop hhead htail hne, List.drop_succ_cons, ← hrest, next, Nat.mod_add_mod]
      rw [show head + (n + 1) = head + 1 + n by omega]

end ImgEngine.Library.RingBuffer
