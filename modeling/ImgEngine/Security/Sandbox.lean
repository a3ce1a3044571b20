import ImgEngine.Library.ClassicBpf
import Mathlib.Logic.Function.Basic

namespace ImgEngine.Security.Sandbox

open ImgEngine.Library.ClassicBpf

-- The system calls of the policy, in the order of the filter.
inductive Sys where
  | read
  | write
  | readv
  | writev
  | pread64
  | pwrite64
  | openat
  | close
  | fstat
  | lseek
  | stat
  | mmap
  | munmap
  | mprotect
  | mremap
  | brk
  | clone
  | clone3
  | futex
  | setRobustList
  | getRobustList
  | schedGetaffinity
  | schedSetaffinity
  | ioUringSetup
  | ioUringEnter
  | ioUringRegister
  | clockGettime
  | clockNanosleep
  | nanosleep
  | exit
  | exitGroup
  | getpid
  | gettid
  | tgkill
  | getcpu
  | rtSigaction
  | rtSigprocmask
  | rtSigreturn
  | sigaltstack
  | prctl
deriving DecidableEq

-- The numbers on x86-64.
def Sys.nr : Sys → UInt32
  | .read => 0
  | .write => 1
  | .readv => 19
  | .writev => 20
  | .pread64 => 17
  | .pwrite64 => 18
  | .openat => 257
  | .close => 3
  | .fstat => 5
  | .lseek => 8
  | .stat => 4
  | .mmap => 9
  | .munmap => 11
  | .mprotect => 10
  | .mremap => 25
  | .brk => 12
  | .clone => 56
  | .clone3 => 435
  | .futex => 202
  | .setRobustList => 273
  | .getRobustList => 274
  | .schedGetaffinity => 204
  | .schedSetaffinity => 203
  | .ioUringSetup => 425
  | .ioUringEnter => 426
  | .ioUringRegister => 427
  | .clockGettime => 228
  | .clockNanosleep => 230
  | .nanosleep => 35
  | .exit => 60
  | .exitGroup => 231
  | .getpid => 39
  | .gettid => 186
  | .tgkill => 234
  | .getcpu => 309
  | .rtSigaction => 13
  | .rtSigprocmask => 14
  | .rtSigreturn => 15
  | .sigaltstack => 131
  | .prctl => 157

def allowedSyscalls : List Sys :=
  [.read, .write, .readv, .writev, .pread64, .pwrite64,
   .openat, .close, .fstat, .lseek, .stat,
   .mmap, .munmap, .mprotect, .mremap, .brk,
   .clone, .clone3, .futex, .setRobustList, .getRobustList, .schedGetaffinity, .schedSetaffinity,
   .ioUringSetup, .ioUringEnter, .ioUringRegister,
   .clockGettime, .clockNanosleep, .nanosleep,
   .exit, .exitGroup, .getpid, .gettid, .tgkill, .getcpu,
   .rtSigaction, .rtSigprocmask, .rtSigreturn, .sigaltstack,
   .prctl]

def Allowed (nr : UInt32) : Prop := nr ∈ allowedSyscalls.map Sys.nr

instance (nr : UInt32) : Decidable (Allowed nr) := inferInstanceAs (Decidable (_ ∈ _))

def SECCOMP_RET_KILL : UInt32 := 0
def SECCOMP_RET_ALLOW : UInt32 := 0x7fff0000

-- struct seccomp_data
structure SeccompData where
  nr : UInt32
  arch : UInt32
  instructionPointer : UInt64
  args : Fin 6 → UInt64

def lowWord (x : UInt64) : UInt32 := x.toUInt32

def highWord (x : UInt64) : UInt32 := (x >>> 32).toUInt32

-- nr is at offset 0, arch at 4, instruction_pointer at 8, and the arguments are from
-- offset 16 on.
def SeccompData.packet (data : SeccompData) : Packet := fun offset =>
  if offset = 0 then data.nr
  else if offset = 4 then data.arch
  else if offset = 8 then lowWord data.instructionPointer
  else if offset = 12 then highWord data.instructionPointer
  else
    let arg := data.args (Fin.ofNat 6 ((offset.toNat - 16) / 8))
    if offset % 8 = 0 then lowWord arg else highWord arg

-- The macro of sandbox.c.
def ALLOW (nr : UInt32) : Program := [.jumpEq nr 0 1, .ret SECCOMP_RET_ALLOW]

def filter : Program :=
  .load 0 :: allowedSyscalls.flatMap (fun sys => ALLOW sys.nr) ++ [.ret SECCOMP_RET_KILL]

-- prog.len is an unsigned short.
def progLen : UInt16 := UInt16.ofNat filter.length

-- What a thread has of the kernel: its filters, the newest first, and whether it may
-- install one.
structure Task where
  filters : List Program
  noNewPrivs : Bool

-- The action is the part of the result above SECCOMP_RET_DATA. As a signed number it is
-- the smaller the stricter it is.
def action (result : UInt32) : Int32 := (result &&& 0xffff0000).toInt32

def stricter (a b : UInt32) : UInt32 := if action b < action a then b else a

-- All filters look at the call. One that does not return counts as a kill.
def verdict (filters : List Program) (data : SeccompData) : UInt32 :=
  filters.foldl (fun result program =>
    stricter result ((run program data.packet).getD SECCOMP_RET_KILL)) SECCOMP_RET_ALLOW

-- Whether the call is made.
def Passes (result : UInt32) : Prop := action result = action SECCOMP_RET_ALLOW

instance (result : UInt32) : Decidable (Passes result) := inferInstanceAs (Decidable (_ = _))

section Process

variable {Tid : Type} [DecidableEq Tid]

-- What a call does to the tasks. prctl has the operations PR_SET_NO_NEW_PRIVS and
-- PR_SET_SECCOMP, and the engine has one filter to install.
inductive Effect (Tid : Type) where
  | plain
  | spawn (child : Tid)
  | setNoNewPrivs
  | setSeccomp

omit [DecidableEq Tid] in
def Effect.Fits (nr : UInt32) : Effect Tid → Prop
  | .plain => True
  | .spawn _ => nr = Sys.clone.nr ∨ nr = Sys.clone3.nr
  | .setNoNewPrivs | .setSeccomp => nr = Sys.prctl.nr

-- A system call that a thread tries to make.
structure Attempt (Tid : Type) where
  thread : Tid
  data : SeccompData
  effect : Effect Tid
  fits : effect.Fits data.nr

-- The threads that are running, with the calls that have been made so far.
structure Process (Tid : Type) where
  task : Tid → Option Task
  made : List (Tid × UInt32)

-- A new thread starts with the filters of the one that creates it. Without
-- no_new_privs no filter is taken.
def affect (tasks : Tid → Option Task) (thread : Tid) (task : Task) :
    Effect Tid → Tid → Option Task
  | .plain => tasks
  | .spawn child => Function.update tasks child (some task)
  | .setNoNewPrivs => Function.update tasks thread (some { task with noNewPrivs := true })
  | .setSeccomp =>
      if task.noNewPrivs then
        Function.update tasks thread (some { task with filters := filter :: task.filters })
      else tasks

-- SECCOMP_RET_KILL ends the thread and no other.
def Process.attempt (process : Process Tid) (attempt : Attempt Tid) : Process Tid :=
  match process.task attempt.thread with
  | none => process
  | some task =>
      if Passes (verdict task.filters attempt.data) then
        { task := affect process.task attempt.thread task attempt.effect
          made := process.made ++ [(attempt.thread, attempt.data.nr)] }
      else { process with task := Function.update process.task attempt.thread none }

def Process.run (process : Process Tid) (attempts : List (Attempt Tid)) : Process Tid :=
  attempts.foldl Process.attempt process

-- A process with one thread and no filter.
def Process.start (main : Tid) : Process Tid where
  task := Function.update (fun _ => none) main (some ⟨[], false⟩)
  made := []

-- The two calls of prctl in img_security_enter_sandbox, as the filters see them.
structure PrctlCalls where
  noNewPrivs : SeccompData
  seccomp : SeccompData
  noNewPrivs_nr : noNewPrivs.nr = Sys.prctl.nr
  seccomp_nr : seccomp.nr = Sys.prctl.nr

def imgSecurityEnterSandbox (thread : Tid) (calls : PrctlCalls) : List (Attempt Tid) :=
  [{ thread, data := calls.noNewPrivs, effect := .setNoNewPrivs, fits := calls.noNewPrivs_nr },
   { thread, data := calls.seccomp, effect := .setSeccomp, fits := calls.seccomp_nr }]

-- What the sandbox is for: a running thread makes the calls of the policy, and the first
-- other one that it tries ends it.

structure Confined (Tid : Type) where
  running : Tid → Bool
  made : List (Tid × UInt32)

def Confined.attempt (confined : Confined Tid) (attempt : Attempt Tid) : Confined Tid :=
  if confined.running attempt.thread = false then confined
  else if Allowed attempt.data.nr then
    { running :=
        match attempt.effect with
        | .spawn child => Function.update confined.running child true
        | .plain | .setNoNewPrivs | .setSeccomp => confined.running
      made := confined.made ++ [(attempt.thread, attempt.data.nr)] }
  else { confined with running := Function.update confined.running attempt.thread false }

def Confined.run (confined : Confined Tid) (attempts : List (Attempt Tid)) : Confined Tid :=
  attempts.foldl Confined.attempt confined

-- The thread that has entered the sandbox, on its own.
def Confined.entered (main : Tid) : Confined Tid where
  running := Function.update (fun _ => false) main true
  made := [(main, Sys.prctl.nr), (main, Sys.prctl.nr)]

omit [DecidableEq Tid] in
def Process.confined (process : Process Tid) : Confined Tid where
  running thread := (process.task thread).isSome
  made := process.made

end Process

end ImgEngine.Security.Sandbox
