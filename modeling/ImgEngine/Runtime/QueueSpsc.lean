import ImgEngine.Core.Word
import ImgEngine.Library.Interleaving
import ImgEngine.Library.RingBuffer

namespace ImgEngine.Runtime

open ImgEngine.Library.Interleaving
open ImgEngine.Library.RingBuffer
open scoped List

-- struct img_queue
structure ImgQueue where
  buffer : UInt32 → Ptr
  capacity : UInt32
  mask : UInt32
  head : UInt32
  tail : UInt32

-- The queue when malloc and calloc find memory.
def imgQueueCreate (power : UInt32) : ImgQueue :=
  let capacity := 1 <<< power
  { buffer := fun _ => 0, capacity, mask := capacity - 1, head := 0, tail := 0 }

namespace ImgSpsc

inductive Op where
  | push (data : Ptr)
  | pop
  deriving DecidableEq

-- Where a thread stands in img_queue_push: before loading tail, before loading
-- head, before writing the slot, and before storing tail.
inductive PushPc where
  | loadTail (data : Ptr)
  | loadHead (data : Ptr) (t : UInt32)
  | writeSlot (data : Ptr) (t : UInt32)
  | storeTail (data : Ptr) (t : UInt32)
  deriving DecidableEq

-- The same points of img_queue_pop.
inductive PopPc where
  | loadHead
  | loadTail (h : UInt32)
  | readSlot (h : UInt32)
  | storeHead (h : UInt32) (data : Ptr)
  deriving DecidableEq

inductive Pc where
  | push (pc : PushPc)
  | pop (pc : PopPc)
  deriving DecidableEq

-- The return values: true and false of push, the pointer and the early NULL of pop.
inductive Result where
  | pushed
  | full
  | popped (data : Ptr)
  | empty
  deriving DecidableEq

end ImgSpsc

open ImgSpsc

def ImgQueue.next (q : ImgQueue) (i : UInt32) : UInt32 := (i + 1) &&& q.mask

-- One access of img_queue_push.
def imgQueuePush (q : ImgQueue) : PushPc → ImgQueue × (PushPc ⊕ Result)
  | .loadTail data => (q, .inl (.loadHead data q.tail))
  | .loadHead data t =>
      if q.next t = q.head then (q, .inr .full) else (q, .inl (.writeSlot data t))
  | .writeSlot data t =>
      ({ q with buffer := Function.update q.buffer t data }, .inl (.storeTail data t))
  | .storeTail _ t => ({ q with tail := q.next t }, .inr .pushed)

-- One access of img_queue_pop.
def imgQueuePop (q : ImgQueue) : PopPc → ImgQueue × (PopPc ⊕ Result)
  | .loadHead => (q, .inl (.loadTail q.head))
  | .loadTail h => if h = q.tail then (q, .inr .empty) else (q, .inl (.readSlot h))
  | .readSlot h => (q, .inl (.storeHead h (q.buffer h)))
  | .storeHead h data => ({ q with head := q.next h }, .inr (.popped data))

def imgSpsc : Program ImgQueue Op Pc Result Unit where
  start
    | .push data => .push (.loadTail data)
    | .pop => .pop .loadHead
  access q pc _ :=
    match pc with
    | .push pc =>
        let (q, outcome) := imgQueuePush q pc
        (q, outcome.map .push id)
    | .pop pc =>
        let (q, outcome) := imgQueuePop q pc
        (q, outcome.map .pop id)

@[simp] theorem imgSpsc_push (q : ImgQueue) (p : PushPc) (choice : Unit) :
    imgSpsc.access q (.push p) choice =
      ((imgQueuePush q p).1, (imgQueuePush q p).2.map .push id) := rfl

@[simp] theorem imgSpsc_pop (q : ImgQueue) (p : PopPc) (choice : Unit) :
    imgSpsc.access q (.pop p) choice =
      ((imgQueuePop q p).1, (imgQueuePop q p).2.map .pop id) := rfl

namespace ImgSpsc

-- The two threads of the contract. The producer only pushes, and never a null
-- pointer, and the consumer only pops.
inductive Role where
  | producer
  | consumer
  deriving DecidableEq

def Contract (_ : Config Role ImgQueue Pc) : Turn Role Op Unit → Prop
  | .call .producer (.push data) => data ≠ 0
  | .call .consumer .pop => True
  | .call _ _ => False
  | .access _ _ => True

instance (config : Config Role ImgQueue Pc) : ∀ turn, Decidable (Contract config turn)
  | .call .producer (.push data) => inferInstanceAs (Decidable (data ≠ 0))
  | .call .producer .pop => inferInstanceAs (Decidable False)
  | .call .consumer (.push _) => inferInstanceAs (Decidable False)
  | .call .consumer .pop => inferInstanceAs (Decidable True)
  | .access _ _ => inferInstanceAs (Decidable True)

def idle (q : ImgQueue) : Config Role ImgQueue Pc := { shared := q, pc := fun _ => none }

abbrev History := List (Event Role Op Pc Result)

-- The pointers whose push returned true, and those that a pop returned.

def pushReturn : Event Role Op Pc Result → Option Ptr
  | .access _ (.push (.storeTail data _)) (.inr .pushed) => some data
  | _ => none

def popReturn : Event Role Op Pc Result → Option Ptr
  | .access _ (.pop (.storeHead _ _)) (.inr (.popped data)) => some data
  | _ => none

def accepted (events : History) : List Ptr := events.filterMap pushReturn

def delivered (events : History) : List Ptr := events.filterMap popReturn

-- The load of head after which a push returns false.
def FindsFull : Event Role Op Pc Result → Prop
  | .access _ (.push (.loadHead _ _)) (.inr .full) => True
  | _ => False

-- The load of tail after which a pop returns NULL.
def FindsEmpty : Event Role Op Pc Result → Prop
  | .access _ (.pop (.loadTail _)) (.inr .empty) => True
  | _ => False

structure BoundedFifo (capacity : Nat) (events : History) : Prop where
  inOrder : delivered events <+: accepted events
  bounded : (accepted events).length ≤ (delivered events).length + capacity
  full : ∀ before event after, events = before ++ event :: after → FindsFull event →
    (accepted before).length = (delivered before).length + capacity
  empty : ∀ before event after, events = before ++ event :: after → FindsEmpty event →
    accepted before = delivered before

-- A store is fresh when what its thread has loaded still holds of the ring: a
-- slot is written outside of the part in use, and an index is stored over the
-- value that was loaded from it, with the pointer in its slot.

def FreshPush (q : ImgQueue) : PushPc → Prop
  | .writeSlot _ t => (q.tail - q.head) &&& q.mask ≤ (t - q.head) &&& q.mask
  | .storeTail data t => t = q.tail ∧ q.next t ≠ q.head ∧ q.buffer t = data
  | _ => True

def FreshPop (q : ImgQueue) : PopPc → Prop
  | .storeHead h data => h = q.head ∧ h ≠ q.tail ∧ q.buffer h = data
  | _ => True

instance (q : ImgQueue) : ∀ p, Decidable (FreshPush q p)
  | .loadTail _ | .loadHead _ _ => inferInstanceAs (Decidable True)
  | .writeSlot _ t =>
      inferInstanceAs (Decidable ((q.tail - q.head) &&& q.mask ≤ (t - q.head) &&& q.mask))
  | .storeTail data t =>
      inferInstanceAs (Decidable (t = q.tail ∧ q.next t ≠ q.head ∧ q.buffer t = data))

instance (q : ImgQueue) : ∀ p, Decidable (FreshPop q p)
  | .loadHead | .loadTail _ | .readSlot _ => inferInstanceAs (Decidable True)
  | .storeHead h data =>
      inferInstanceAs (Decidable (h = q.head ∧ h ≠ q.tail ∧ q.buffer h = data))

-- The pointer that one access adds to the ring or takes out of it.

def PushPc.data : PushPc → Ptr
  | .loadTail data | .loadHead data _ | .writeSlot data _ | .storeTail data _ => data

def pushed (p : PushPc) : PushPc ⊕ Result → List Ptr
  | .inr .pushed => [p.data]
  | _ => []

def popped : PopPc ⊕ Result → List Ptr
  | .inr (.popped data) => [data]
  | _ => []

-- What the ring holds between head and tail.
def contents (k : Nat) (q : ImgQueue) : List Ptr :=
  window (2 ^ k) (fun i => q.buffer (UInt32.ofNat i)) q.head.toNat q.tail.toNat

-- The indices of a ring of 2^k slots are in range.
structure Ready (k : Nat) (q : ImgQueue) : Prop where
  small : k ≤ 30
  mask : q.mask.toNat = 2 ^ k - 1
  head : q.head.toNat < 2 ^ k
  tail : q.tail.toNat < 2 ^ k

end ImgSpsc

end ImgEngine.Runtime
