import Mathlib.Data.List.Perm.Basic
import Mathlib.Logic.Function.Basic

namespace ImgEngine.Library.TaskBag

open scoped List

variable {Worker Task : Type}

-- A shelf of tasks for each worker and one that they share, each in order of arrival.
structure Bag (Worker Task : Type) where
  shelf : Worker → List Task
  shared : List Task

namespace Bag

variable [DecidableEq Worker]

def items (bag : Bag Worker Task) (workers : List Worker) : List Task :=
  workers.flatMap bag.shelf ++ bag.shared

def setShelf (bag : Bag Worker Task) (worker : Worker) (tasks : List Task) : Bag Worker Task :=
  { bag with shelf := Function.update bag.shelf worker tasks }

-- A task goes on the worker's shelf, and on the shared one when that is full.
def put (room sharedRoom : Nat) (bag : Bag Worker Task) (worker : Worker) (task : Task) :
    Option (Bag Worker Task) :=
  if (bag.shelf worker).length = room then
    if bag.shared.length = sharedRoom then none
    else some { bag with shared := bag.shared ++ [task] }
  else some (bag.setShelf worker (bag.shelf worker ++ [task]))

-- The oldest task of a shelf, and the bag without it.

def take (bag : Bag Worker Task) (worker : Worker) : Option (Task × Bag Worker Task) :=
  match bag.shelf worker with
  | [] => none
  | task :: tasks => some (task, bag.setShelf worker tasks)

def takeShared (bag : Bag Worker Task) : Option (Task × Bag Worker Task) :=
  match bag.shared with
  | [] => none
  | task :: tasks => some (task, { bag with shared := tasks })

-- The oldest task of the first shelf that is not empty, and of the shared one when
-- every shelf is.
def steal (bag : Bag Worker Task) (order : List Worker) : Option (Task × Bag Worker Task) :=
  match order.find? fun worker => !(bag.shelf worker).isEmpty with
  | some worker => bag.take worker
  | none => bag.takeShared

variable {bag bag' : Bag Worker Task} {worker : Worker} {workers order : List Worker} {task : Task}
  {tasks : List Task}

@[simp] theorem setShelf_shelf_self (bag : Bag Worker Task) (worker : Worker) (tasks : List Task) :
    (bag.setShelf worker tasks).shelf worker = tasks := Function.update_self ..

theorem setShelf_shelf_of_ne {other : Worker} (h : other ≠ worker) (tasks : List Task) :
    (bag.setShelf worker tasks).shelf other = bag.shelf other := Function.update_of_ne h _ _

omit [DecidableEq Worker] in
theorem items_eq_nil_iff :
    bag.items workers = [] ↔ (∀ worker ∈ workers, bag.shelf worker = []) ∧ bag.shared = [] := by
  rw [items, List.append_eq_nil_iff, List.flatMap_eq_nil_iff]

theorem take_cons (h : bag.shelf worker = task :: tasks) :
    bag.take worker = some (task, bag.setShelf worker tasks) := by
  rw [take, h]

omit [DecidableEq Worker] in
theorem takeShared_cons (h : bag.shared = task :: tasks) :
    bag.takeShared = some (task, { bag with shared := tasks }) := by
  rw [takeShared, h]

-- A thief who goes through the shelves one by one.

theorem steal_nil (bag : Bag Worker Task) : bag.steal [] = bag.takeShared := rfl

theorem steal_cons_of_empty (h : bag.shelf worker = []) (order : List Worker) :
    bag.steal (worker :: order) = bag.steal order := by
  simp [steal, h]

theorem steal_cons_of_cons (h : bag.shelf worker = task :: tasks) (order : List Worker) :
    bag.steal (worker :: order) = some (task, bag.setShelf worker tasks) := by
  simp [steal, h, take_cons h]

-- The worker whose task the thief takes is in the order, or the task was shared.
theorem steal_cases (h : bag.steal order = some (task, bag')) :
    (∃ worker ∈ order, ∃ tasks, bag.shelf worker = task :: tasks ∧
      bag' = bag.setShelf worker tasks) ∨
    ∃ tasks, bag.shared = task :: tasks ∧ bag' = { bag with shared := tasks } := by
  induction order with
  | nil =>
      cases hshared : bag.shared with
      | nil => simp [steal_nil, takeShared, hshared] at h
      | cons first tasks =>
          rw [steal_nil, takeShared_cons hshared] at h
          cases h
          exact .inr ⟨tasks, rfl, rfl⟩
  | cons worker order ih =>
      cases hshelf : bag.shelf worker with
      | nil =>
          rw [steal_cons_of_empty hshelf] at h
          obtain ⟨other, hother, hrest⟩ | hrest := ih h
          · exact .inl ⟨other, List.mem_cons_of_mem _ hother, hrest⟩
          · exact .inr hrest
      | cons first tasks =>
          rw [steal_cons_of_cons hshelf] at h
          cases h
          exact .inl ⟨worker, List.mem_cons_self, tasks, hshelf, rfl⟩

theorem steal_eq_none_iff :
    bag.steal order = none ↔ (∀ worker ∈ order, bag.shelf worker = []) ∧ bag.shared = [] := by
  induction order with
  | nil => cases hshared : bag.shared <;> simp [steal_nil, takeShared, hshared]
  | cons worker order ih =>
      cases hshelf : bag.shelf worker with
      | nil => rw [steal_cons_of_empty hshelf, ih, List.forall_mem_cons, and_iff_right hshelf]
      | cons first tasks => simp [steal_cons_of_cons hshelf, hshelf]

-- No operation loses or invents a task.

theorem items_setShelf (bag : Bag Worker Task) (hnodup : workers.Nodup)
    (hworker : worker ∈ workers) (tasks : List Task) :
    (bag.setShelf worker tasks).items workers ++ bag.shelf worker ~ bag.items workers ++ tasks := by
  have hothers : ∀ others : List Worker, worker ∉ others →
      others.flatMap (Function.update bag.shelf worker tasks) = others.flatMap bag.shelf := by
    intro others hnot
    refine List.flatMap_congr fun other hother => Function.update_of_ne ?_ _ _
    rintro rfl
    exact hnot hother
  obtain ⟨before, after, rfl⟩ := List.append_of_mem hworker
  have hbefore : worker ∉ before := fun hmem =>
    (List.nodup_append.mp hnodup).2.2 worker hmem worker List.mem_cons_self rfl
  have hafter : worker ∉ after := (List.nodup_cons.mp (List.nodup_append.mp hnodup).2.1).1
  simp only [items, setShelf, List.flatMap_append, List.flatMap_cons, hothers before hbefore,
    hothers after hafter, Function.update_self]
  classical
  rw [List.perm_iff_count]
  intro x
  simp only [List.count_append]
  omega

theorem items_put {room sharedRoom : Nat} (hnodup : workers.Nodup) (hworker : worker ∈ workers)
    (h : bag.put room sharedRoom worker task = some bag') :
    bag'.items workers ~ task :: bag.items workers := by
  simp only [put] at h
  split_ifs at h
  · cases h
    rw [items, items, ← List.append_assoc]
    exact List.perm_append_singleton _ _
  · cases h
    have hset := items_setShelf bag hnodup hworker (bag.shelf worker ++ [task])
    have hmove : bag.items workers ++ (bag.shelf worker ++ [task]) ~
        (task :: bag.items workers) ++ bag.shelf worker := by
      rw [← List.append_assoc]
      exact List.perm_append_singleton _ _
    exact (List.perm_append_right_iff _).mp (hset.trans hmove)

theorem items_cons_setShelf (hnodup : workers.Nodup) (hworker : worker ∈ workers)
    (hshelf : bag.shelf worker = task :: tasks) :
    task :: (bag.setShelf worker tasks).items workers ~ bag.items workers := by
  have hset := items_setShelf bag hnodup hworker tasks
  rw [hshelf] at hset
  exact (List.perm_append_right_iff _).mp (List.perm_middle.symm.trans hset)

theorem items_take (hnodup : workers.Nodup) (hworker : worker ∈ workers)
    (h : bag.take worker = some (task, bag')) :
    task :: bag'.items workers ~ bag.items workers := by
  cases hshelf : bag.shelf worker with
  | nil => simp [take, hshelf] at h
  | cons first tasks =>
      rw [take_cons hshelf] at h
      cases h
      exact items_cons_setShelf hnodup hworker hshelf

theorem items_steal (hnodup : workers.Nodup) (horder : order ⊆ workers)
    (h : bag.steal order = some (task, bag')) :
    task :: bag'.items workers ~ bag.items workers := by
  obtain ⟨worker, hworker, tasks, hshelf, rfl⟩ | ⟨tasks, hshared, rfl⟩ := steal_cases h
  · exact items_cons_setShelf hnodup (horder hworker) hshelf
  · rw [items, items, hshared]
    exact List.perm_middle.symm

end Bag

-- The workers after self in a circle of n, with self last.
def cyclic (n self : Nat) : List Nat := (List.range n).map fun i => (self + i + 1) % n

theorem mem_cyclic {n self worker : Nat} (hself : self < n) :
    worker ∈ cyclic n self ↔ worker < n := by
  rw [cyclic, List.mem_map]
  constructor
  · rintro ⟨i, -, rfl⟩
    exact Nat.mod_lt _ (by omega)
  · intro hworker
    by_cases hlater : self < worker
    · refine ⟨worker - self - 1, List.mem_range.mpr (by omega), ?_⟩
      rw [show self + (worker - self - 1) + 1 = worker by omega, Nat.mod_eq_of_lt hworker]
    · refine ⟨n + worker - self - 1, List.mem_range.mpr (by omega), ?_⟩
      rw [show self + (n + worker - self - 1) + 1 = worker + n by omega, Nat.add_mod_right,
        Nat.mod_eq_of_lt hworker]

end ImgEngine.Library.TaskBag
