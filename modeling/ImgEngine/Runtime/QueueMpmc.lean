import ImgEngine.Core.Word
import ImgEngine.Library.Interleaving

namespace ImgEngine.Runtime

open ImgEngine.Library.Interleaving
open scoped List

-- cell_t
structure Cell where
  seq : UInt64
  data : Ptr

-- img_mpmc_queue_t
structure ImgMpmcQueue where
  size : UInt64
  mask : UInt64
  cells : UInt64 → Cell
  head : UInt64
  tail : UInt64

-- The loop of align_pow2. It does not end above 2^63, where the shift
-- overflows to 0, so running out of fuel means that it never returns.
def alignPow2 (x : UInt64) : Nat → UInt64 → Option UInt64
  | 0, _ => none
  | fuel + 1, p => if p < x then alignPow2 x fuel (p <<< 1) else some p

-- The loop that numbers the cells after memset has cleared them.
def initCells (count : Nat) : UInt64 → Cell :=
  (List.range count).foldl
    (fun cells i => Function.update cells (UInt64.ofNat i) { seq := UInt64.ofNat i, data := 0 })
    (fun _ => { seq := 0, data := 0 })

-- sizeof(cell_t)
def cellBytes : UInt64 := 16

-- none stands for the result -1. `alignedAlloc` says for which sizes
-- aligned_alloc finds memory.
def imgMpmcInit (alignedAlloc : UInt64 → Bool) (size : UInt64) : Option ImgMpmcQueue :=
  if size = 0 then none
  else
    match alignPow2 size 65 1 with
    | none => none
    | some size =>
        if alignedAlloc (cellBytes * size) then
          some { size, mask := size - 1, cells := initCells size.toNat, head := 0, tail := 0 }
        else none

namespace ImgMpmc

inductive Op where
  | push (data : Ptr)
  | pop
  deriving DecidableEq

-- Where a thread stands in img_mpmc_push: before loading tail, before loading
-- the cell's seq, before the compare-exchange, before writing cell->data, and
-- before storing seq.
inductive PushPc where
  | loadTail (data : Ptr)
  | loadSeq (data : Ptr) (pos : UInt64)
  | exchange (data : Ptr) (pos : UInt64)
  | writeData (data : Ptr) (pos : UInt64)
  | storeSeq (data : Ptr) (pos : UInt64)
  deriving DecidableEq

-- The same points of img_mpmc_pop.
inductive PopPc where
  | loadHead
  | loadSeq (pos : UInt64)
  | exchange (pos : UInt64)
  | readData (pos : UInt64)
  | storeSeq (pos : UInt64) (data : Ptr)
  deriving DecidableEq

inductive Pc where
  | push (pc : PushPc)
  | pop (pc : PopPc)
  deriving DecidableEq

-- The return values: 0 and -1 of push, the pointer and the early NULL of pop.
inductive Result where
  | pushed
  | full
  | popped (data : Ptr)
  | empty
  deriving DecidableEq

end ImgMpmc

open ImgMpmc

def ImgMpmcQueue.cell (q : ImgMpmcQueue) (pos : UInt64) : Cell := q.cells (pos &&& q.mask)

def ImgMpmcQueue.setCell (q : ImgMpmcQueue) (pos : UInt64) (cell : Cell) : ImgMpmcQueue :=
  { q with cells := Function.update q.cells (pos &&& q.mask) cell }

-- One access of img_mpmc_push. A spurious compare-exchange fails although the
-- tail is unchanged.
def imgMpmcPush (q : ImgMpmcQueue) (spurious : Bool) :
    PushPc → ImgMpmcQueue × (PushPc ⊕ Result)
  | .loadTail data => (q, .inl (.loadSeq data q.tail))
  | .loadSeq data pos =>
      let diff := (q.cell pos).seq.toInt64 - pos.toInt64
      if diff = 0 then (q, .inl (.exchange data pos))
      else if diff < 0 then (q, .inr .full)
      else (q, .inl (.loadTail data))
  | .exchange data pos =>
      if q.tail = pos ∧ ¬spurious then ({ q with tail := pos + 1 }, .inl (.writeData data pos))
      else (q, .inl (.loadTail data))
  | .writeData data pos =>
      (q.setCell pos { q.cell pos with data }, .inl (.storeSeq data pos))
  | .storeSeq _ pos =>
      (q.setCell pos { q.cell pos with seq := pos + 1 }, .inr .pushed)

-- One access of img_mpmc_pop.
def imgMpmcPop (q : ImgMpmcQueue) (spurious : Bool) :
    PopPc → ImgMpmcQueue × (PopPc ⊕ Result)
  | .loadHead => (q, .inl (.loadSeq q.head))
  | .loadSeq pos =>
      let diff := (q.cell pos).seq.toInt64 - (pos + 1).toInt64
      if diff = 0 then (q, .inl (.exchange pos))
      else if diff < 0 then (q, .inr .empty)
      else (q, .inl .loadHead)
  | .exchange pos =>
      if q.head = pos ∧ ¬spurious then ({ q with head := pos + 1 }, .inl (.readData pos))
      else (q, .inl .loadHead)
  | .readData pos => (q, .inl (.storeSeq pos (q.cell pos).data))
  | .storeSeq pos data =>
      (q.setCell pos { q.cell pos with seq := pos + q.mask + 1 }, .inr (.popped data))

def imgMpmc : Program ImgMpmcQueue Op Pc Result Bool where
  start
    | .push data => .push (.loadTail data)
    | .pop => .pop .loadHead
  access q pc spurious :=
    match pc with
    | .push pc =>
        let (q, outcome) := imgMpmcPush q spurious pc
        (q, outcome.map .push id)
    | .pop pc =>
        let (q, outcome) := imgMpmcPop q spurious pc
        (q, outcome.map .pop id)

-- A queue no thread has entered yet.
def ImgMpmc.idle (Thread : Type) (q : ImgMpmcQueue) : Config Thread ImgMpmcQueue Pc :=
  { shared := q, pc := fun _ => none }

namespace ImgMpmc

variable {Thread : Type}

-- What the threads did, read off the history. Tickets are the positions that
-- successful compare-exchanges claimed.

abbrev History (Thread : Type) := List (Event Thread Op Pc Result)

def pushCall : Event Thread Op Pc Result → Option (Thread × Ptr)
  | .call thread (.push data) => some (thread, data)
  | _ => none

def pushClaim : Event Thread Op Pc Result → Option (Thread × UInt64 × Ptr)
  | .access thread (.push (.exchange data pos)) (.inl (.push (.writeData _ _))) =>
      some (thread, pos, data)
  | _ => none

def popClaim : Event Thread Op Pc Result → Option (Thread × UInt64)
  | .access thread (.pop (.exchange pos)) (.inl (.pop (.readData _))) => some (thread, pos)
  | _ => none

def popReturn : Event Thread Op Pc Result → Option (Thread × UInt64 × Ptr)
  | .access thread (.pop (.storeSeq pos _)) (.inr (.popped data)) => some (thread, pos, data)
  | _ => none

-- The store of seq that ends the push with ticket pos.
def Publishes (pos : UInt64) : Event Thread Op Pc Result → Prop
  | .access _ (.push (.storeSeq _ pos')) _ => pos' = pos
  | _ => False

-- The read of cell->data by the pop with ticket pos.
def Reads (pos : UInt64) : Event Thread Op Pc Result → Prop
  | .access _ (.pop (.readData pos')) _ => pos' = pos
  | _ => False

-- A write of cell->data in the cell with index i.
def Overwrites (q : ImgMpmcQueue) (i : UInt64) : Event Thread Op Pc Result → Prop
  | .access _ (.push (.writeData _ pos)) _ => pos &&& q.mask = i
  | _ => False

-- A successful compare-exchange is fresh when the cell still shows the sequence
-- number that the thread loaded before it.
def FreshExchange (q : ImgMpmcQueue) : Pc → Prop
  | .push (.exchange _ pos) => q.tail = pos → (q.cell pos).seq = pos
  | .pop (.exchange pos) => q.head = pos → (q.cell pos).seq = pos + 1
  | _ => True

instance (q : ImgMpmcQueue) : ∀ p, Decidable (FreshExchange q p)
  | .push (.exchange _ pos) => inferInstanceAs (Decidable (q.tail = pos → (q.cell pos).seq = pos))
  | .push (.loadTail _) | .push (.loadSeq _ _) | .push (.writeData _ _) | .push (.storeSeq _ _) =>
      inferInstanceAs (Decidable True)
  | .pop (.exchange pos) =>
      inferInstanceAs (Decidable (q.head = pos → (q.cell pos).seq = pos + 1))
  | .pop .loadHead | .pop (.loadSeq _) | .pop (.readData _) | .pop (.storeSeq _ _) =>
      inferInstanceAs (Decidable True)

-- The pointers that a thread passed to img_mpmc_push, in order.
def calledBy [DecidableEq Thread] (thread : Thread) (events : History Thread) : List Ptr :=
  ((events.filterMap pushCall).filter (fun c => c.1 = thread)).map (fun c => c.2)

-- Those for which it got a ticket.
def claimedBy [DecidableEq Thread] (thread : Thread) (events : History Thread) : List Ptr :=
  ((events.filterMap pushClaim).filter (fun c => c.1 = thread)).map (fun c => c.2.2)

def pushTickets (events : History Thread) : List UInt64 :=
  (events.filterMap pushClaim).map (fun c => c.2.1)

def popTickets (events : History Thread) : List UInt64 :=
  (events.filterMap popClaim).map (fun c => c.2)

structure ExactlyOnce [DecidableEq Thread] (q : ImgMpmcQueue) (events : History Thread) :
    Prop where
  -- either side claims the tickets 0, 1, 2, … in this order, so no ticket twice
  pushed : ∃ n < 2 ^ 63, pushTickets events = (List.range n).map UInt64.ofNat
  popped : ∃ n < 2 ^ 63, popTickets events = (List.range n).map UInt64.ofNat
  -- a pop that returns had claimed its ticket and returns what the push with
  -- the same ticket stored, and no two pops return for one ticket
  returned : ∀ thread pos data, (thread, pos, data) ∈ events.filterMap popReturn →
    (thread, pos) ∈ events.filterMap popClaim ∧
      ∃ pusher, (pusher, pos, data) ∈ events.filterMap pushClaim
  returnedOnce : ((events.filterMap popReturn).map (fun c => c.2.1)).Nodup
  notTwice : ∀ data, ((events.filterMap popReturn).map (fun c => c.2.2)).count data ≤
    ((events.filterMap pushClaim).map (fun c => c.2.2)).count data
  -- a thread claims tickets only for what it pushes, and in the order of its calls
  called : ∀ thread, claimedBy thread events <+ calledBy thread events
  inOrder : ∀ thread pos₁ data₁ pos₂ data₂,
    [(thread, pos₁, data₁), (thread, pos₂, data₂)] <+ events.filterMap pushClaim →
    pos₂ ∈ popTickets events → [pos₁, pos₂] <+ popTickets events
  -- between the publication of a cell and its read nobody writes the cell's data
  stable : ∀ pos before publish between overwrite after,
    events = before ++ publish :: (between ++ overwrite :: after) →
    Publishes pos publish → Overwrites q (pos &&& q.mask) overwrite →
    ∃ read ∈ between, Reads pos read

end ImgMpmc

end ImgEngine.Runtime
