import ImgEngine.Runtime.QueueMpmc
import Mathlib.Logic.Equiv.Defs

namespace ImgEngine.Observability

open ImgEngine.Library.Interleaving
open scoped List

def logRingSize : UInt64 := 1024

def logMsgSize : Nat := 256

abbrev LogMsg := Fin logMsgSize → UInt8

-- log_cell_t
structure LogCell where
  seq : UInt64
  msg : LogMsg

-- log_ring_t
structure LogRing where
  size : UInt64
  mask : UInt64
  cells : UInt64 → LogCell
  head : UInt64
  tail : UInt64

-- sizeof(log_cell_t)
def logCellBytes : UInt64 := 264

-- logger.c has its own copy of align_pow2, which is that of the MPMC queue.
def alignPow2 (x : UInt64) : Option UInt64 := Runtime.alignPow2 x 65 1

-- The loop that numbers the cells. Their messages stay as the memory has them.
def numberCells (memory : UInt64 → LogCell) (count : Nat) : UInt64 → LogCell :=
  (List.range count).foldl
    (fun cells i => Function.update cells (UInt64.ofNat i)
      { cells (UInt64.ofNat i) with seq := UInt64.ofNat i })
    memory

-- none stands for a logger that does not start. `alignedAlloc` says for which
-- sizes aligned_alloc finds memory, and what lies in it.
def imgLoggerInit (alignedAlloc : UInt64 → Option (UInt64 → LogCell)) : Option LogRing :=
  match alignPow2 logRingSize with
  | none => none
  | some size =>
      match alignedAlloc (logCellBytes * size) with
      | none => none
      | some memory =>
          some { size, mask := size - 1, cells := numberCells memory size.toNat,
                 head := 0, tail := 0 }

namespace ImgLogger

-- A pop is given the buffer it copies to, with what lies in it.
inductive Op where
  | push (msg : LogMsg)
  | pop (out : LogMsg)

-- Where a thread stands in log_ring_push: before loading tail, before loading
-- the cell's seq, before the compare-exchange, and in memcpy with the bytes that
-- it has still to copy. With none left it stands before storing seq.
inductive PushPc where
  | loadTail (msg : LogMsg)
  | loadSeq (msg : LogMsg) (pos : UInt64)
  | exchange (msg : LogMsg) (pos : UInt64)
  | copy (msg : LogMsg) (pos : UInt64) (todo : List (Fin logMsgSize))

-- The same points of log_ring_pop.
inductive PopPc where
  | loadHead (out : LogMsg)
  | loadSeq (out : LogMsg) (pos : UInt64)
  | exchange (out : LogMsg) (pos : UInt64)
  | copy (out : LogMsg) (pos : UInt64) (todo : List (Fin logMsgSize))

inductive Pc where
  | push (pc : PushPc)
  | pop (pc : PopPc)

-- The return values: 0 and -1 of push, 0 of pop with what it copied, and the -1
-- of pop before and after its compare-exchange.
inductive Result where
  | pushed
  | full
  | popped (out : LogMsg)
  | empty
  | missed

-- What the machine leaves open: whether a compare-exchange fails although the
-- counter is unchanged, and in which order memcpy takes the bytes.
structure Choice where
  spurious : Bool
  order : Equiv.Perm (Fin logMsgSize)

def Choice.bytes (choice : Choice) : List (Fin logMsgSize) :=
  (List.finRange logMsgSize).map choice.order

end ImgLogger

open ImgLogger

def LogRing.cell (q : LogRing) (pos : UInt64) : LogCell := q.cells (pos &&& q.mask)

def LogRing.setCell (q : LogRing) (pos : UInt64) (cell : LogCell) : LogRing :=
  { q with cells := Function.update q.cells (pos &&& q.mask) cell }

-- One access of log_ring_push.
def logRingPush (q : LogRing) (choice : Choice) : PushPc → LogRing × (PushPc ⊕ Result)
  | .loadTail msg => (q, .inl (.loadSeq msg q.tail))
  | .loadSeq msg pos =>
      let diff := (q.cell pos).seq.toInt64 - pos.toInt64
      if diff = 0 then (q, .inl (.exchange msg pos))
      else if diff < 0 then (q, .inr .full)
      else (q, .inl (.loadTail msg))
  | .exchange msg pos =>
      if q.tail = pos ∧ ¬choice.spurious then
        ({ q with tail := pos + 1 }, .inl (.copy msg pos choice.bytes))
      else (q, .inl (.loadTail msg))
  | .copy msg pos (i :: todo) =>
      let cell := q.cell pos
      (q.setCell pos { cell with msg := Function.update cell.msg i (msg i) },
        .inl (.copy msg pos todo))
  | .copy _ pos [] => (q.setCell pos { q.cell pos with seq := pos + 1 }, .inr .pushed)

-- One access of log_ring_pop. A sequence number ahead of the position goes the
-- way of an equal one.
def logRingPop (q : LogRing) (choice : Choice) : PopPc → LogRing × (PopPc ⊕ Result)
  | .loadHead out => (q, .inl (.loadSeq out q.head))
  | .loadSeq out pos =>
      let diff := (q.cell pos).seq.toInt64 - (pos + 1).toInt64
      if diff < 0 then (q, .inr .empty) else (q, .inl (.exchange out pos))
  | .exchange out pos =>
      if q.head = pos ∧ ¬choice.spurious then
        ({ q with head := pos + 1 }, .inl (.copy out pos choice.bytes))
      else (q, .inr .missed)
  | .copy out pos (i :: todo) =>
      (q, .inl (.copy (Function.update out i ((q.cell pos).msg i)) pos todo))
  | .copy out pos [] =>
      (q.setCell pos { q.cell pos with seq := pos + q.mask + 1 }, .inr (.popped out))

def logRing : Program LogRing Op Pc Result Choice where
  start
    | .push msg => .push (.loadTail msg)
    | .pop out => .pop (.loadHead out)
  access q pc choice :=
    match pc with
    | .push pc =>
        let (q, outcome) := logRingPush q choice pc
        (q, outcome.map .push id)
    | .pop pc =>
        let (q, outcome) := logRingPop q choice pc
        (q, outcome.map .pop id)

@[simp] theorem logRing_push (q : LogRing) (p : PushPc) (choice : Choice) :
    logRing.access q (.push p) choice =
      ((logRingPush q choice p).1, (logRingPush q choice p).2.map .push id) := rfl

@[simp] theorem logRing_pop (q : LogRing) (p : PopPc) (choice : Choice) :
    logRing.access q (.pop p) choice =
      ((logRingPop q choice p).1, (logRingPop q choice p).2.map .pop id) := rfl

namespace ImgLogger

variable {Thread : Type}

-- Any thread logs, and only the logger's own thread pops.
def Contract (consumer : Thread) (_ : Config Thread LogRing Pc) : Turn Thread Op Choice → Prop
  | .call thread (.pop _) => thread = consumer
  | .call _ (.push _) => True
  | .access _ _ => True

instance [DecidableEq Thread] (consumer : Thread) (config : Config Thread LogRing Pc) :
    ∀ turn, Decidable (Contract consumer config turn)
  | .call thread (.pop _) => inferInstanceAs (Decidable (thread = consumer))
  | .call _ (.push _) => inferInstanceAs (Decidable True)
  | .access _ _ => inferInstanceAs (Decidable True)

-- A ring no thread has entered yet.
def idle (Thread : Type) (q : LogRing) : Config Thread LogRing Pc :=
  { shared := q, pc := fun _ => none }

abbrev History (Thread : Type) := List (Event Thread Op Pc Result)

-- What the threads did, read off the history. A ticket is the position that a
-- successful compare-exchange claimed.

def pushCall : Event Thread Op Pc Result → Option (Thread × LogMsg)
  | .call thread (.push msg) => some (thread, msg)
  | _ => none

def pushClaim : Event Thread Op Pc Result → Option (Thread × UInt64 × LogMsg)
  | .access thread (.push (.exchange msg pos)) (.inl (.push (.copy _ _ _))) =>
      some (thread, pos, msg)
  | _ => none

def pushReturn : Event Thread Op Pc Result → Option (Thread × UInt64 × LogMsg)
  | .access thread (.push (.copy msg pos _)) (.inr .pushed) => some (thread, pos, msg)
  | _ => none

def popReturn : Event Thread Op Pc Result → Option (UInt64 × LogMsg)
  | .access _ (.pop (.copy _ pos _)) (.inr (.popped out)) => some (pos, out)
  | _ => none

-- The tickets with their messages, in the order of the claims.
def claims (events : History Thread) : List (UInt64 × LogMsg) :=
  (events.filterMap pushClaim).map (fun c => c.2)

-- What a successful pop copied out, with its ticket.
def delivered (events : History Thread) : List (UInt64 × LogMsg) := events.filterMap popReturn

-- The messages that one thread passed in, those for which it got a ticket, and
-- those whose push returned 0, in order.

def calledBy [DecidableEq Thread] (thread : Thread) (events : History Thread) : List LogMsg :=
  ((events.filterMap pushCall).filter (fun c => c.1 = thread)).map (fun c => c.2)

def claimedBy [DecidableEq Thread] (thread : Thread) (events : History Thread) :
    List (UInt64 × LogMsg) :=
  ((events.filterMap pushClaim).filter (fun c => c.1 = thread)).map (fun c => c.2)

def acceptedBy [DecidableEq Thread] (thread : Thread) (events : History Thread) :
    List (UInt64 × LogMsg) :=
  ((events.filterMap pushReturn).filter (fun c => c.1 = thread)).map (fun c => c.2)

structure Delivers [DecidableEq Thread] (events : History Thread) : Prop where
  -- the pushes claim the tickets 0, 1, 2, … in this order
  tickets : ∃ n < 2 ^ 63, (claims events).map (fun c => c.1) = (List.range n).map UInt64.ofNat
  -- a claimed message is one that its thread passed in, and an accepted one was claimed
  called : ∀ thread, (claimedBy thread events).map (fun c => c.2) <+ calledBy thread events
  accepted : ∀ thread, acceptedBy thread events <+ claimedBy thread events
  -- the pops return the first of these tickets with their messages, in order
  inOrder : delivered events <+: claims events

-- A pop that finds a sequence number ahead of its position.
def Ahead (q : LogRing) : Pc → Prop
  | .pop (.loadSeq _ pos) => 0 < (q.cell pos).seq.toInt64 - (pos + 1).toInt64
  | _ => False

end ImgLogger

end ImgEngine.Observability
