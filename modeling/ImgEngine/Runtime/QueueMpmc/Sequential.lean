import ImgEngine.Runtime.QueueMpmc.Simulation
import Mathlib.Data.Nat.Log

namespace ImgEngine.Runtime.ImgMpmc

open ImgEngine.Library.Interleaving

-- What a bounded queue answers to calls made one after the other.
def fifo (capacity : Nat) : List Ptr → List Op → List Result
  | _, [] => []
  | items, .push data :: ops =>
      if items.length = capacity then .full :: fifo capacity items ops
      else .pushed :: fifo capacity (items ++ [data]) ops
  | [], .pop :: ops => .empty :: fifo capacity [] ops
  | item :: items, .pop :: ops => .popped item :: fifo capacity items ops

-- Such calls to the queue. A compare-exchange may fail spuriously.
inductive Calls : ImgMpmcQueue → List Op → ImgMpmcQueue → List Result → Prop
  | none (q) : Calls q [] q []
  | call {q op q' result ops q'' results} (h : imgMpmc.Returns q (imgMpmc.start op) q' result)
      (rest : Calls q' ops q'' results) : Calls q (op :: ops) q'' (result :: results)

structure ServesFifo (capacity : Nat) (q : ImgMpmcQueue) : Prop where
  -- whatever was called before, a call returns after five accesses at most, unless
  -- a compare-exchange fails spuriously
  returns : ∀ ops q' results, Calls q ops q' results → ∀ op, ∃ next result,
    imgMpmc.alone false 5 q' (imgMpmc.start op) = some (next, result)
  answers : ∀ ops q' results, Calls q ops q' results → results = fifo capacity [] ops

-- The queue between two calls. The items lie in the cells from first on.
structure Holds (k first : Nat) (items : List Ptr) (q : ImgMpmcQueue) : Prop where
  mask : q.mask.toNat = 2 ^ k - 1
  head : q.head = UInt64.ofNat first
  tail : q.tail = UInt64.ofNat (first + items.length)
  length : items.length ≤ 2 ^ k
  full : ∀ i (hi : i < items.length),
    q.cell (UInt64.ofNat (first + i)) = { seq := UInt64.ofNat (first + i + 1), data := items[i] }
  free : ∀ i, items.length ≤ i → i < 2 ^ k →
    (q.cell (UInt64.ofNat (first + i))).seq = UInt64.ofNat (first + i)

section Steps

variable {k first : Nat} {items : List Ptr} {q q' : ImgMpmcQueue} {data : Ptr} {result : Result}

theorem cell_setCell_of_ne (hk : k ≤ 63) (hmask : q.mask.toNat = 2 ^ k - 1) {m n : Nat}
    (h : m % 2 ^ k ≠ n % 2 ^ k) (cell : Cell) :
    (q.setCell (UInt64.ofNat n) cell).cell (UInt64.ofNat m) = q.cell (UInt64.ofNat m) := by
  have hmask' : (q.setCell (UInt64.ofNat n) cell).mask.toNat = 2 ^ k - 1 := hmask
  rw [cell_ofNat hk hmask', setCell_ofNat hk hmask _ _ (Nat.mod_lt _ (Nat.two_pow_pos k)),
    if_neg h, cell_ofNat hk hmask]

-- Positions less than a lap apart have different cells.
theorem mod_ne {size a i j : Nat} (hi : i < size) (hj : j < size) (hij : i ≠ j) :
    (a + i) % size ≠ (a + j) % size := by
  intro h
  have hcong : a + i ≡ a + j [MOD size] := h
  exact hij (Nat.ModEq.eq_of_lt_of_lt (Nat.ModEq.add_left_cancel' a hcong) hi hj)

-- The sequence number of the cell at the tail tells a free cell from one that still
-- holds the item of the lap before.

theorem Holds.tail_free (h : Holds k first items q) (hlt : items.length < 2 ^ k) :
    (q.cell q.tail).seq.toInt64 - q.tail.toInt64 = 0 := by
  rw [toInt64_sub_eq_zero_iff, h.tail]
  exact h.free _ (Nat.le_refl _) hlt

theorem Holds.tail_full (h : Holds k first items q) (hk1 : 1 ≤ k) (hk : k ≤ 62)
    (hfull : items.length = 2 ^ k) : (q.cell q.tail).seq.toInt64 - q.tail.toInt64 < 0 := by
  have hlap : 2 ≤ 2 ^ k := Nat.pow_le_pow_right (n := 2) (by decide) hk1
  have hword : 2 ^ k ≤ 2 ^ 62 := Nat.pow_le_pow_right (by decide) hk
  have hsame : q.cell (UInt64.ofNat (first + 2 ^ k)) = q.cell (UInt64.ofNat (first + 0)) := by
    rw [cell_ofNat (by omega) h.mask, cell_ofNat (by omega) h.mask, Nat.add_mod_right,
      Nat.add_zero]
  rw [h.tail, hfull, hsame, h.full 0 (by omega)]
  exact (toInt64_sub_neg_iff (by omega) (by omega)).mpr (by omega)

theorem Holds.head_full (h : Holds k first items q) (hne : items ≠ []) :
    (q.cell q.head).seq.toInt64 - (q.head + 1).toInt64 = 0 := by
  have hfirst := h.full 0 (List.length_pos_iff.mpr hne)
  rw [Nat.add_zero] at hfirst
  rw [toInt64_sub_eq_zero_iff, h.head, hfirst]
  exact UInt64.ofNat_add first 1

theorem Holds.head_empty (h : Holds k first [] q) :
    (q.cell q.head).seq.toInt64 - (q.head + 1).toInt64 < 0 := by
  have hfirst := h.free 0 (Nat.le_refl _) (Nat.two_pow_pos k)
  have hnext : UInt64.ofNat first + 1 = UInt64.ofNat (first + 1) := (UInt64.ofNat_add first 1).symm
  rw [Nat.add_zero] at hfirst
  rw [h.head, hfirst, hnext]
  exact (toInt64_sub_neg_iff (by omega) (by omega)).mpr (by omega)

-- What a push does to the queue once it has its ticket.
def appended (q : ImgMpmcQueue) (data : Ptr) : ImgMpmcQueue :=
  let q' := { q with tail := q.tail + 1 }
  let q' := q'.setCell q.tail { q'.cell q.tail with data }
  q'.setCell q.tail { q'.cell q.tail with seq := q.tail + 1 }

def removed (q : ImgMpmcQueue) : ImgMpmcQueue :=
  let q' := { q with head := q.head + 1 }
  q'.setCell q.head { q'.cell q.head with seq := q.head + q.mask + 1 }

theorem appended_cell (q : ImgMpmcQueue) (data : Ptr) :
    (appended q data).cell q.tail = { seq := q.tail + 1, data } := by
  simp only [appended, cell_setCell]

theorem appended_cell_of_ne (hk : k ≤ 63) (hmask : q.mask.toNat = 2 ^ k - 1) {m n : Nat}
    (htail : q.tail = UInt64.ofNat n) (h : m % 2 ^ k ≠ n % 2 ^ k) (data : Ptr) :
    (appended q data).cell (UInt64.ofNat m) = q.cell (UInt64.ofNat m) := by
  have hother : ∀ (q' : ImgMpmcQueue) (cell : Cell), q'.mask = q.mask →
      (q'.setCell q.tail cell).cell (UInt64.ofNat m) = q'.cell (UInt64.ofNat m) :=
    fun q' cell hq => htail ▸ cell_setCell_of_ne hk (hq ▸ hmask) h cell
  let claimed := { q with tail := q.tail + 1 }
  let filled := claimed.setCell q.tail { claimed.cell q.tail with data }
  calc (filled.setCell q.tail { filled.cell q.tail with seq := q.tail + 1 }).cell (UInt64.ofNat m)
    _ = filled.cell (UInt64.ofNat m) := hother filled _ rfl
    _ = claimed.cell (UInt64.ofNat m) := hother claimed _ rfl
    _ = q.cell (UInt64.ofNat m) := rfl

theorem Holds.append (h : Holds k first items q) (hk : k ≤ 62) (hlt : items.length < 2 ^ k)
    (data : Ptr) : Holds k first (items ++ [data]) (appended q data) := by
  have hcell : ∀ i < 2 ^ k, i ≠ items.length →
      (appended q data).cell (UInt64.ofNat (first + i)) =
        q.cell (UInt64.ofNat (first + i)) := by
    intro i hi hne
    exact appended_cell_of_ne (by omega) h.mask h.tail (mod_ne hi hlt hne) data
  refine ⟨h.mask, h.head, ?_, ?_, ?_, ?_⟩
  · change q.tail + 1 = _
    rw [h.tail, List.length_append, ← Nat.add_assoc]
    exact (UInt64.ofNat_add _ 1).symm
  · rw [List.length_append]
    exact hlt
  · intro i hi
    rw [List.length_append, List.length_singleton] at hi
    by_cases hlast : i = items.length
    · subst hlast
      have hself := appended_cell q data
      rw [h.tail] at hself
      rw [hself, List.getElem_append_right (Nat.le_refl _)]
      simp only [Nat.sub_self, List.getElem_cons_zero, Cell.mk.injEq, and_true]
      exact (UInt64.ofNat_add _ 1).symm
    · rw [hcell i (by omega) hlast, h.full i (by omega), List.getElem_append_left]
  · intro i hle hi
    rw [List.length_append, List.length_singleton] at hle
    rw [hcell i hi (by omega)]
    exact h.free i (by omega) hi

theorem removed_cell (q : ImgMpmcQueue) :
    ((removed q).cell q.head).seq = q.head + q.mask + 1 := by
  simp only [removed, cell_setCell]

theorem removed_cell_of_ne (hk : k ≤ 63) (hmask : q.mask.toNat = 2 ^ k - 1) {m n : Nat}
    (hhead : q.head = UInt64.ofNat n) (h : m % 2 ^ k ≠ n % 2 ^ k) :
    (removed q).cell (UInt64.ofNat m) = q.cell (UInt64.ofNat m) := by
  let claimed := { q with head := q.head + 1 }
  have hmask' : claimed.mask.toNat = 2 ^ k - 1 := hmask
  calc (removed q).cell (UInt64.ofNat m)
    _ = claimed.cell (UInt64.ofNat m) := by
        rw [removed, hhead]
        exact cell_setCell_of_ne hk hmask' h _
    _ = q.cell (UInt64.ofNat m) := rfl

theorem Holds.remove {item : Ptr} (h : Holds k first (item :: items) q) (hk : k ≤ 62) :
    Holds k (first + 1) items (removed q) := by
  have hlength : items.length + 1 ≤ 2 ^ k := h.length
  have hcell : ∀ i, i + 1 < 2 ^ k →
      (removed q).cell (UInt64.ofNat (first + 1 + i)) =
        q.cell (UInt64.ofNat (first + (i + 1))) := by
    intro i hi
    rw [Nat.add_right_comm, Nat.add_assoc]
    exact removed_cell_of_ne (by omega) h.mask h.head
      (mod_ne (a := first) (j := 0) hi (by omega) (by omega))
  refine ⟨h.mask, ?_, ?_, by omega, ?_, ?_⟩
  · change q.head + 1 = _
    rw [h.head]
    exact (UInt64.ofNat_add _ 1).symm
  · rw [Nat.add_right_comm]
    exact h.tail
  · intro i hi
    rw [hcell i (by omega), h.full (i + 1) (by simpa using hi), Nat.add_right_comm first 1]
    rfl
  · intro i hle hi
    by_cases hlast : i + 1 = 2 ^ k
    · -- the cell that the pop released, for the next lap
      have hself := removed_cell q
      have hmask : q.mask + 1 = UInt64.ofNat (2 ^ k) := uint64_mask_succ (by omega) h.mask
      have hnext : (removed q).cell (UInt64.ofNat (first + 1 + i)) =
          (removed q).cell (UInt64.ofNat first) := by
        have hmask' : (removed q).mask.toNat = 2 ^ k - 1 := h.mask
        rw [cell_ofNat (by omega) hmask', cell_ofNat (by omega) hmask', Nat.add_right_comm,
          Nat.add_assoc, hlast, Nat.add_mod_right]
      rw [h.head, UInt64.add_assoc, hmask, ← UInt64.ofNat_add] at hself
      rw [hnext, hself, Nat.add_right_comm, Nat.add_assoc, hlast]
    · rw [hcell i (by omega), h.free (i + 1) (by simpa using hle) (by omega),
        Nat.add_right_comm, Nat.add_assoc]

-- What loading the sequence number leads to.

theorem ne_zero_of_neg {diff : Int64} (h : diff < 0) : diff ≠ 0 := by
  rintro rfl
  exact absurd h (by decide)

theorem access_ticket (h : (q.cell q.tail).seq.toInt64 - q.tail.toInt64 = 0) (data : Ptr)
    (spurious : Bool) : imgMpmc.access q (.push (.loadSeq data q.tail)) spurious =
      (q, .inl (.push (.exchange data q.tail))) := by
  simp only [imgMpmc, imgMpmcPush, if_pos h]
  rfl

theorem access_full (h : (q.cell q.tail).seq.toInt64 - q.tail.toInt64 < 0) (data : Ptr)
    (spurious : Bool) :
    imgMpmc.access q (.push (.loadSeq data q.tail)) spurious = (q, .inr .full) := by
  simp only [imgMpmc, imgMpmcPush, if_neg (ne_zero_of_neg h), if_pos h]
  rfl

theorem access_item (h : (q.cell q.head).seq.toInt64 - (q.head + 1).toInt64 = 0)
    (spurious : Bool) : imgMpmc.access q (.pop (.loadSeq q.head)) spurious =
      (q, .inl (.pop (.exchange q.head))) := by
  simp only [imgMpmc, imgMpmcPop, if_pos h]
  rfl

theorem access_empty (h : (q.cell q.head).seq.toInt64 - (q.head + 1).toInt64 < 0)
    (spurious : Bool) :
    imgMpmc.access q (.pop (.loadSeq q.head)) spurious = (q, .inr .empty) := by
  simp only [imgMpmc, imgMpmcPop, if_neg (ne_zero_of_neg h), if_pos h]
  rfl

theorem access_claim (data : Ptr) : imgMpmc.access q (.push (.exchange data q.tail)) false =
    ({ q with tail := q.tail + 1 }, .inl (.push (.writeData data q.tail))) := by
  simp [imgMpmc, imgMpmcPush]

theorem access_take : imgMpmc.access q (.pop (.exchange q.head)) false =
    ({ q with head := q.head + 1 }, .inl (.pop (.readData q.head))) := by
  simp [imgMpmc, imgMpmcPop]

-- The points of a call before it has a ticket. A compare-exchange that fails
-- spuriously leads back to the first of them.

def BeforePush (k : Nat) (items : List Ptr) (data : Ptr) (q : ImgMpmcQueue) : Pc → Prop
  | .push (.loadTail data') => data' = data
  | .push (.loadSeq data' pos) => data' = data ∧ pos = q.tail
  | .push (.exchange data' pos) => data' = data ∧ pos = q.tail ∧ items.length < 2 ^ k
  | _ => False

def BeforePop (items : List Ptr) (q : ImgMpmcQueue) : Pc → Prop
  | .pop .loadHead => True
  | .pop (.loadSeq pos) => pos = q.head
  | .pop (.exchange pos) => pos = q.head ∧ items ≠ []
  | _ => False

theorem Holds.push_access (h : Holds k first items q) (hk1 : 1 ≤ k) (hk : k ≤ 62) {p : Pc}
    (hp : BeforePush k items data q p) (spurious : Bool) :
    (∃ p', imgMpmc.access q p spurious = (q, .inl p') ∧ BeforePush k items data q p') ∨
    (items.length = 2 ^ k ∧ imgMpmc.access q p spurious = (q, .inr .full)) ∨
    (items.length < 2 ^ k ∧ imgMpmc.access q p spurious =
      ({ q with tail := q.tail + 1 }, .inl (.push (.writeData data q.tail)))) := by
  cases p with
  | pop p => cases hp
  | push p =>
      cases p with
      | loadTail data' =>
          obtain rfl : data' = data := hp
          exact .inl ⟨.push (.loadSeq data' q.tail), rfl, rfl, rfl⟩
      | loadSeq data' pos =>
          obtain ⟨rfl, rfl⟩ := hp
          obtain hfull | hlt := Nat.eq_or_lt_of_le h.length
          · exact .inr (.inl ⟨hfull, access_full (h.tail_full hk1 hk hfull) data' spurious⟩)
          · exact .inl ⟨.push (.exchange data' q.tail),
              access_ticket (h.tail_free hlt) data' spurious, rfl, rfl, hlt⟩
      | exchange data' pos =>
          obtain ⟨rfl, rfl, hlt⟩ := hp
          cases spurious with
          | true => exact .inl ⟨.push (.loadTail data'), by simp [imgMpmc, imgMpmcPush], rfl⟩
          | false => exact .inr (.inr ⟨hlt, access_claim data'⟩)
      | writeData data' pos => cases hp
      | storeSeq data' pos => cases hp

theorem Holds.pop_access (h : Holds k first items q) {p : Pc} (hp : BeforePop items q p)
    (spurious : Bool) :
    (∃ p', imgMpmc.access q p spurious = (q, .inl p') ∧ BeforePop items q p') ∨
    (items = [] ∧ imgMpmc.access q p spurious = (q, .inr .empty)) ∨
    (items ≠ [] ∧ imgMpmc.access q p spurious =
      ({ q with head := q.head + 1 }, .inl (.pop (.readData q.head)))) := by
  cases p with
  | push p => cases hp
  | pop p =>
      cases p with
      | loadHead => exact .inl ⟨.pop (.loadSeq q.head), rfl, rfl⟩
      | loadSeq pos =>
          obtain rfl : pos = q.head := hp
          by_cases hempty : items = []
          · subst hempty
            exact .inr (.inl ⟨rfl, access_empty h.head_empty spurious⟩)
          · exact .inl ⟨.pop (.exchange q.head), access_item (h.head_full hempty) spurious,
              rfl, hempty⟩
      | exchange pos =>
          obtain ⟨rfl, hne⟩ := hp
          cases spurious with
          | true => exact .inl ⟨.pop .loadHead, by simp [imgMpmc, imgMpmcPop], trivial⟩
          | false => exact .inr (.inr ⟨hne, access_take⟩)
      | readData pos => cases hp
      | storeSeq pos data' => cases hp

-- Every call that returns does what the bounded queue does.

theorem Holds.push_returns {p : Pc} (hret : imgMpmc.Returns q p q' result) :
    Holds k first items q → 1 ≤ k → k ≤ 62 → BeforePush k items data q p →
      (items.length = 2 ^ k ∧ result = .full ∧ q' = q) ∨
      (items.length < 2 ^ k ∧ result = .pushed ∧ q' = appended q data) := by
  induction hret with
  | last spurious haccess =>
      intro h hk1 hk hp
      obtain ⟨p', he, -⟩ | ⟨hfull, he⟩ | ⟨hlt, he⟩ := h.push_access hk1 hk hp spurious
      · rw [he] at haccess
        cases haccess
      · rw [he] at haccess
        cases haccess
        exact .inl ⟨hfull, rfl, rfl⟩
      · rw [he] at haccess
        cases haccess
  | more spurious haccess rest ih =>
      intro h hk1 hk hp
      obtain ⟨p', he, hp'⟩ | ⟨hfull, he⟩ | ⟨hlt, he⟩ := h.push_access hk1 hk hp spurious
      · rw [he] at haccess
        cases haccess
        exact ih h hk1 hk hp'
      · rw [he] at haccess
        cases haccess
      · rw [he] at haccess
        cases haccess
        obtain ⟨rfl, rfl⟩ := (rest.step fun _ => rfl).stop fun _ => rfl
        exact .inr ⟨hlt, rfl, rfl⟩

theorem Holds.pop_returns {p : Pc} (hret : imgMpmc.Returns q p q' result) :
    Holds k first items q → BeforePop items q p →
      (items = [] ∧ result = .empty ∧ q' = q) ∨
      (∃ item rest, items = item :: rest ∧ result = .popped item ∧ q' = removed q) := by
  induction hret with
  | last spurious haccess =>
      intro h hp
      obtain ⟨p', he, -⟩ | ⟨hempty, he⟩ | ⟨hne, he⟩ := h.pop_access hp spurious
      · rw [he] at haccess
        cases haccess
      · rw [he] at haccess
        cases haccess
        exact .inl ⟨hempty, rfl, rfl⟩
      · rw [he] at haccess
        cases haccess
  | more spurious haccess rest ih =>
      intro h hp
      obtain ⟨p', he, hp'⟩ | ⟨hempty, he⟩ | ⟨hne, he⟩ := h.pop_access hp spurious
      · rw [he] at haccess
        cases haccess
        exact ih h hp'
      · rw [he] at haccess
        cases haccess
      · rw [he] at haccess
        cases haccess
        obtain ⟨item, items, rfl⟩ := List.exists_cons_of_ne_nil hne
        obtain ⟨rfl, rfl⟩ := (rest.step fun _ => rfl).stop fun _ => rfl
        have hitem := h.full 0 (Nat.zero_lt_succ _)
        rw [Nat.add_zero, ← h.head] at hitem
        exact .inr ⟨item, items, rfl, congrArg (fun c : Cell => Result.popped c.data) hitem, rfl⟩

-- A call without spurious failures returns after five accesses at most.

theorem alone_push (hdiff : (q.cell q.tail).seq.toInt64 - q.tail.toInt64 = 0) (data : Ptr) :
    imgMpmc.alone false 5 q (imgMpmc.start (.push data)) = some (appended q data, .pushed) := by
  calc imgMpmc.alone false 5 q (imgMpmc.start (.push data))
    _ = imgMpmc.alone false 4 q (.push (.loadSeq data q.tail)) := rfl
    _ = imgMpmc.alone false 3 q (.push (.exchange data q.tail)) :=
        Program.alone_step (access_ticket hdiff data false) 3
    _ = imgMpmc.alone false 2 { q with tail := q.tail + 1 } (.push (.writeData data q.tail)) :=
        Program.alone_step (access_claim data) 2
    _ = some (appended q data, .pushed) := rfl

theorem alone_pop (hdiff : (q.cell q.head).seq.toInt64 - (q.head + 1).toInt64 = 0) :
    imgMpmc.alone false 5 q (imgMpmc.start .pop) =
      some (removed q, .popped (q.cell q.head).data) := by
  calc imgMpmc.alone false 5 q (imgMpmc.start .pop)
    _ = imgMpmc.alone false 4 q (.pop (.loadSeq q.head)) := rfl
    _ = imgMpmc.alone false 3 q (.pop (.exchange q.head)) :=
        Program.alone_step (access_item hdiff false) 3
    _ = imgMpmc.alone false 2 { q with head := q.head + 1 } (.pop (.readData q.head)) :=
        Program.alone_step access_take 2
    _ = some (removed q, .popped (q.cell q.head).data) := rfl

theorem Holds.alone_returns (h : Holds k first items q) (hk1 : 1 ≤ k) (hk : k ≤ 62) (op : Op) :
    ∃ next result, imgMpmc.alone false 5 q (imgMpmc.start op) = some (next, result) := by
  cases op with
  | push data =>
      obtain hfull | hlt := Nat.eq_or_lt_of_le h.length
      · have hstop := access_full (h.tail_full hk1 hk hfull) data false
        exact ⟨q, .full, Program.alone_stop hstop 3⟩
      · exact ⟨_, _, alone_push (h.tail_free hlt) data⟩
  | pop =>
      by_cases hempty : items = []
      · subst hempty
        exact ⟨q, .empty, Program.alone_stop (access_empty h.head_empty false) 3⟩
      · exact ⟨_, _, alone_pop (h.head_full hempty)⟩

theorem Calls.answers {ops : List Op} {results : List Result} (calls : Calls q ops q' results)
    (hk1 : 1 ≤ k) (hk : k ≤ 62) : ∀ {first : Nat} {items : List Ptr}, Holds k first items q →
      results = fifo (2 ^ k) items ops ∧ ∃ first' items', Holds k first' items' q' := by
  induction calls with
  | none q =>
      intro first items h
      exact ⟨rfl, first, items, h⟩
  | @call q op q' result ops q'' results hret rest ih =>
      intro first items h
      cases op with
      | push data =>
          have hbefore : BeforePush k items data q (imgMpmc.start (.push data)) := rfl
          obtain ⟨hfull, rfl, rfl⟩ | ⟨hlt, rfl, rfl⟩ := h.push_returns hret hk1 hk hbefore
          · obtain ⟨rfl, hlast⟩ := ih h
            rw [fifo, if_pos hfull]
            exact ⟨rfl, hlast⟩
          · obtain ⟨rfl, hlast⟩ := ih (h.append hk hlt data)
            rw [fifo, if_neg (Nat.ne_of_lt hlt)]
            exact ⟨rfl, hlast⟩
      | pop =>
          obtain ⟨rfl, rfl, rfl⟩ | ⟨item, items, rfl, rfl, rfl⟩ := h.pop_returns hret trivial
          · obtain ⟨rfl, hlast⟩ := ih h
            exact ⟨rfl, hlast⟩
          · obtain ⟨rfl, hlast⟩ := ih (h.remove hk)
            exact ⟨rfl, hlast⟩

theorem Holds.servesFifo (h : Holds k 0 [] q) (hk1 : 1 ≤ k) (hk : k ≤ 62) :
    ServesFifo (2 ^ k) q := by
  refine ⟨fun ops q' results calls op => ?_, fun ops q' results calls => ?_⟩
  · obtain ⟨-, first', items', h'⟩ := calls.answers hk1 hk h
    exact h'.alone_returns hk1 hk op
  · exact (calls.answers hk1 hk h).1

-- With a single cell the sequence number that a push publishes is that of the next
-- lap's free cell.
theorem Holds.not_servesFifo (h : Holds 0 0 [] q) : ¬ServesFifo 1 q := by
  intro hserves
  have hfirst := alone_push (h.tail_free Nat.zero_lt_one) 1
  have happended := h.append (by decide) Nat.zero_lt_one 1
  have hdiff : ((appended q 1).cell (appended q 1).tail).seq.toInt64 -
      (appended q 1).tail.toInt64 = 0 := by
    have hsame : (appended q 1).cell (UInt64.ofNat 1) = (appended q 1).cell (UInt64.ofNat 0) := by
      rw [cell_ofNat (by decide) happended.mask, cell_ofNat (by decide) happended.mask,
        Nat.pow_zero, Nat.mod_one]
    have hcell := happended.full 0 Nat.zero_lt_one
    rw [toInt64_sub_eq_zero_iff, happended.tail]
    exact congrArg Cell.seq (hsame.trans hcell)
  have hsecond := alone_push hdiff 2
  have calls : Calls q [.push 1, .push 2] _ [.pushed, .pushed] :=
    .call (Program.returns_of_alone hfirst) (.call (Program.returns_of_alone hsecond) (.none _))
  exact absurd (hserves.answers _ _ _ calls) (by decide)

end Steps

-- The initial queue.

theorem alignPow2_rounds {x p result : UInt64} {fuel k : Nat} (hp : p.toNat = 2 ^ k)
    (hk : k ≤ Nat.clog 2 x.toNat) (hx : Nat.clog 2 x.toNat ≤ 63)
    (h : alignPow2 x fuel p = some result) : result.toNat = 2 ^ Nat.clog 2 x.toNat := by
  induction fuel generalizing p k with
  | zero => simp [alignPow2] at h
  | succ fuel ih =>
      simp only [alignPow2, UInt64.lt_iff_toNat_lt, hp] at h
      split_ifs at h with hlt
      · have hnext : k < Nat.clog 2 x.toNat := (Nat.lt_clog_iff_pow_lt (by decide)).mpr hlt
        have hshift : (p <<< 1).toNat = 2 ^ (k + 1) := by
          rw [UInt64.toNat_shiftLeft, hp]
          have hword : 2 ^ (k + 1) < 2 ^ 64 := Nat.pow_lt_pow_right (by decide) (by omega)
          simpa [Nat.shiftLeft_eq, Nat.pow_succ] using hword
        exact ih hshift hnext h
      · have hle := (Nat.clog_le_iff_le_pow (b := 2) (by decide)).mpr (Nat.not_lt.mp hlt)
        rw [← Option.some.inj h, hp, Nat.le_antisymm hk hle]

theorem holds_init {alignedAlloc : UInt64 → Bool} {size : UInt64} {q : ImgMpmcQueue}
    (hsize : size.toNat ≤ 2 ^ 32) (hinit : imgMpmcInit alignedAlloc size = some q) :
    Holds (Nat.clog 2 size.toNat) 0 [] q := by
  have hclog : Nat.clog 2 size.toNat ≤ 32 :=
    (Nat.clog_le_iff_le_pow (by decide)).mpr hsize
  obtain ⟨k, hk, hpow, hrep⟩ := represents_init Unit hinit
  obtain rfl : k = Nat.clog 2 size.toNat := by
    simp only [imgMpmcInit] at hinit
    split_ifs at hinit
    split at hinit
    · cases hinit
    · rename_i size' hrounded
      split_ifs at hinit
      cases hinit
      have hpow' := alignPow2_rounds (k := 0) rfl (Nat.zero_le _) (by omega) hrounded
      exact Nat.pow_right_injective (Nat.le_refl 2) (hpow.symm.trans hpow')
  have hnone : ∀ i, ¬i < ([] : List Ptr).length := fun i => Nat.not_lt_zero i
  refine ⟨hrep.mask, hrep.head, hrep.tail, Nat.zero_le _, fun i hi => absurd hi (hnone i), ?_⟩
  intro i _ hi
  rw [Nat.zero_add, cell_ofNat (by omega) hrep.mask, Nat.mod_eq_of_lt hi]
  exact hrep.seq i hi

-- The queue is a bounded FIFO for every size but 1.
theorem imgMpmc_servesFifo_iff (alignedAlloc : UInt64 → Bool) (size : UInt64) (q : ImgMpmcQueue)
    (hsize : size.toNat ≤ 2 ^ 32) (hinit : imgMpmcInit alignedAlloc size = some q) :
    ServesFifo (2 ^ Nat.clog 2 size.toNat) q ↔ size ≠ 1 := by
  have hholds := holds_init hsize hinit
  constructor
  · rintro hserves rfl
    have hlog : Nat.clog 2 (1 : UInt64).toNat = 0 := Nat.clog_one_right 2
    rw [hlog] at hserves hholds
    exact hholds.not_servesFifo hserves
  · intro hne
    have hzero : size ≠ 0 := by
      rintro rfl
      cases hinit
    have hne' : size.toNat ≠ 1 := fun h => hne (UInt64.toNat_inj.mp h)
    have hzero' : size.toNat ≠ 0 := fun h => hzero (UInt64.toNat_inj.mp h)
    have hlog : Nat.clog 2 size.toNat ≤ 32 := (Nat.clog_le_iff_le_pow (by decide)).mpr hsize
    exact hholds.servesFifo (Nat.clog_pos (by decide) (by omega)) (by omega)

def queueOf (size : UInt64) : ImgMpmcQueue where
  size := size
  mask := size - 1
  cells := initCells size.toNat
  head := 0
  tail := 0

theorem imgMpmc_servesFifo_two :
    imgMpmcInit (fun _ => true) 2 = some (queueOf 2) ∧ ServesFifo 2 (queueOf 2) :=
  ⟨rfl, (imgMpmc_servesFifo_iff (fun _ => true) 2 (queueOf 2) (by decide) rfl).mpr (by decide)⟩

theorem imgMpmc_overwrites_one :
    imgMpmcInit (fun _ => true) 1 = some (queueOf 1) ∧ ¬ServesFifo 1 (queueOf 1) :=
  have hholds : Holds 0 0 [] (queueOf 1) := by
    have hinit : imgMpmcInit (fun _ => true) 1 = some (queueOf 1) := rfl
    have h := holds_init (by decide) hinit
    rwa [show Nat.clog 2 (1 : UInt64).toNat = 0 from Nat.clog_one_right 2] at h
  ⟨rfl, hholds.not_servesFifo⟩

end ImgEngine.Runtime.ImgMpmc
