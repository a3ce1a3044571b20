import ImgEngine.Library.Subprogram
import ImgEngine.Observability.LogRing

namespace ImgEngine.Observability

open ImgEngine.Library.Interleaving

inductive ImgLogLevel where
  | debug
  | info
  | warn
  | error
deriving DecidableEq

def ImgLogLevel.val : ImgLogLevel → Nat
  | .debug => 0
  | .info => 1
  | .warn => 2
  | .error => 3

-- What vsnprintf leaves in a buffer for a formatted text, of which it keeps all but the
-- bytes that do not fit with the null byte. No conversion fails.
def vsnprintf (text : List UInt8) (buffer : LogMsg) : LogMsg := fun i =>
  let kept := text.take (logMsgSize - 1)
  match kept[i.val]? with
  | some byte => byte
  | none => if i.val = kept.length then 0 else buffer i

-- The bytes that fwrite is given, as many as strnlen counts.
def printable (buffer : LogMsg) : List UInt8 := (List.ofFn buffer).takeWhile (· ≠ 0)

-- The variables of the logger, what its thread has written to stdout, whether the thread
-- is over, and whether the cells are freed. stdout takes every byte.
structure Logger where
  ring : LogRing
  running : Bool
  printed : List UInt8
  finished : Bool
  freed : Bool

-- The logger after img_logger_init.
def Logger.started (ring : LogRing) : Logger where
  ring := ring
  running := true
  printed := []
  finished := false
  freed := false

namespace ImgLog

-- A call of img_log_write has the formatted text. The buffers of img_log_write and
-- logger_loop lie on the stack with whatever is there.
inductive Op where
  | write (level : ImgLogLevel) (text : List UInt8) (stack : LogMsg)
  | loop (stack : LogMsg)
  | shutdown

-- img_log_write stands before its test of the level or in log_ring_push. logger_loop
-- stands before its test of g_running, in log_ring_pop, after it with its result, and
-- between fwrite and fputc. img_logger_shutdown stands before each of its lines.
inductive Pc where
  | enter (level : ImgLogLevel) (text : List UInt8) (stack : LogMsg)
  | push (pc : ImgLogger.PushPc)
  | test (buffer : LogMsg)
  | pop (pc : ImgLogger.PopPc)
  | checked (result : ImgLogger.Result) (buffer : LogMsg)
  | newline (buffer : LogMsg)
  | stop
  | join
  | free

-- img_log_write ignores what log_ring_push returns.
inductive Result where
  | skipped
  | wrote (result : ImgLogger.Result)
  | ended
  | shut

end ImgLog

def ImgLogger.PopPc.out : ImgLogger.PopPc → LogMsg
  | .loadHead out | .loadSeq out _ | .exchange out _ | .copy out _ _ => out

open ImgLog

-- One access of img_log_write, logger_loop or img_logger_shutdown.
def logAccess (s : Logger) (pc : Pc) (choice : ImgLogger.Choice) : Logger × (Pc ⊕ Result) :=
  match pc with
  | .enter level text stack =>
      if level.val < ImgLogLevel.info.val then (s, .inr .skipped)
      else (s, .inl (.push (.loadTail (vsnprintf text stack))))
  | .push pc =>
      let (ring, outcome) := logRingPush s.ring choice pc
      ({ s with ring }, outcome.map .push .wrote)
  | .test buffer =>
      if s.running then (s, .inl (.pop (.loadHead buffer)))
      else ({ s with finished := true }, .inr .ended)
  | .pop pc =>
      let (ring, outcome) := logRingPop s.ring choice pc
      match outcome with
      | .inl pc' => ({ s with ring }, .inl (.pop pc'))
      | .inr result => ({ s with ring }, .inl (.checked result pc.out))
  | .checked (.popped _) buffer =>
      ({ s with printed := s.printed ++ printable buffer }, .inl (.newline buffer))
  | .checked _ buffer => (s, .inl (.test buffer))
  | .newline buffer => ({ s with printed := s.printed ++ [10] }, .inl (.test buffer))
  | .stop => ({ s with running := false }, .inl .join)
  | .join => if s.finished then (s, .inl .free) else (s, .inl .join)
  | .free => ({ s with freed := true }, .inr .shut)

def logger : Program Logger Op Pc Result ImgLogger.Choice where
  start
    | .write level text stack => .enter level text stack
    | .loop stack => .test stack
    | .shutdown => .stop
  access := logAccess

namespace ImgLog

def Pc.writing : Pc → Bool
  | .enter _ _ _ | .push _ => true
  | _ => false

variable {Thread : Type}

-- The thread that img_logger_init creates runs the loop once. One other thread shuts the
-- logger down, once, and nobody is or gets inside img_log_write when it frees the cells.
def Contract (consumer owner : Thread) (config : Config Thread Logger Pc) :
    Turn Thread Op ImgLogger.Choice → Prop
  | .call thread (.write _ _ _) => thread ≠ consumer ∧ config.shared.freed = false
  | .call thread (.loop _) => thread = consumer ∧ config.shared.finished = false
  | .call thread .shutdown =>
      thread = owner ∧ thread ≠ consumer ∧ config.shared.running = true
  | .access thread _ =>
      (∃ pc, config.pc thread = some pc ∧ pc = .free) →
        ∀ other pc, config.pc other = some pc → pc.writing = false

abbrev History (Thread : Type) := List (Event Thread Op Pc Result)

-- The texts that a thread passes to img_log_write at a level that is logged, as far as
-- they can be printed.

def lineOf (text : List UInt8) : List UInt8 := (text.take (logMsgSize - 1)).takeWhile (· ≠ 0)

def writeCall : Event Thread Op Pc Result → Option (Thread × List UInt8)
  | .call thread (.write level text _) =>
      if level.val < ImgLogLevel.info.val then none else some (thread, lineOf text)
  | _ => none

def writtenBy [DecidableEq Thread] (thread : Thread) (events : History Thread) :
    List (List UInt8) :=
  ((events.filterMap writeCall).filter (fun c => c.1 = thread)).map (fun c => c.2)

-- The messages that got a ticket, in the order of the tickets.

def claimed : Event Thread Op Pc Result → Option (Thread × List UInt8)
  | .access thread (.push (.exchange msg _)) (.inl (.push (.copy _ _ _))) =>
      some (thread, printable msg)
  | _ => none

def logged (events : History Thread) : List (Thread × List UInt8) := events.filterMap claimed

def loggedBy [DecidableEq Thread] (thread : Thread) (events : History Thread) :
    List (List UInt8) :=
  ((logged events).filter (fun c => c.1 = thread)).map (fun c => c.2)

def line (entry : Thread × List UInt8) : List UInt8 := entry.2 ++ [10]

-- What the thread has popped and not yet printed.
def owed : Option Pc → List UInt8
  | some (.checked (.popped _) buffer) => printable buffer ++ [10]
  | some (.newline _) => [10]
  | _ => []

end ImgLog

end ImgEngine.Observability
