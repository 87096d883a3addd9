import Timeshare.Clock
import Timeshare.Console
import Timeshare.Mailbox
import Timeshare.Mutex
import Timeshare.Platform

/-!
# The kernel and its steps

The kernel owns its tables and the machine it runs on.  A handler serves a
request and may be refused; what it changed before the refusal stays changed.
A step is never refused; it ends with a result or with a fault.
-/

namespace Timeshare

open Journal (Event)

/-- A kernel on a machine of type `P`. -/
structure Kernel (P : Type) where
  platform : P
  config : Config
  clock : Clock
  tasks : Tasks
  mutexes : MutexTable
  mailboxes : MailboxTable
  console : Console

/-- A change of the kernel that may fault. -/
abbrev Step (P : Type) := EStateM Fault (Kernel P)

/-- A change of the kernel that may also be refused. -/
abbrev Handler (P : Type) := EStateM Stop (Kernel P)

namespace Kernel

variable {P : Type} [Platform P] {ε α : Type}

/-- Set up a kernel on a machine.  Seconds are counted in ticks, so there must
be ticks in a second. -/
def new (platform : P) (config : Config) : Except Fault (Kernel P) :=
  if config.ticksPerSecond = 0 then .error (.breach .zeroTickRate)
  else
    .ok {
      platform := Platform.log .initializing platform
      config
      clock := .zero
      tasks := .empty
      mutexes := .empty
      mailboxes := .empty
      console := .ofShowStats config.showStats }

/-- The process that has the processor. -/
def current (k : Kernel P) : Option Pid := k.tasks.current

/-- The registers with which a process resumes. -/
def context? (k : Kernel P) (pid : Pid) : Option Frame := (k.tasks.table.get? pid).map (·.context)

/-- Report an event to the machine. -/
def report (event : Event) : EStateM ε (Kernel P) Unit :=
  modify fun k => { k with platform := Platform.log event k.platform }

/-- Carry out an operation on tables and report its events. -/
def perform (r : Run ε α) : EStateM ε (Kernel P) α := fun k =>
  let k := { k with platform := r.events.foldl (fun p event => Platform.log event p) k.platform }
  match r.outcome with
  | .ok a => .ok a k
  | .error e => .error e k

/-- A checked step. -/
def check (r : Except ε α) : EStateM ε (Kernel P) α := fun k =>
  match r with
  | .ok a => .ok a k
  | .error e => .error e k

/-- Change the machine. -/
def onPlatform (f : P → α × P) : EStateM ε (Kernel P) α := fun k =>
  let (a, platform) := f k.platform
  .ok a { k with platform }

/-- Stop at a broken invariant. -/
def breach (what : Breach) : Step P α := throw (.breach what)

/-- Turn the request down. -/
def refuse (reason : Refusal) : Handler P α := throw (.refused reason)

/-- A step, as a part of a handler. -/
def orFault (step : Step P α) : Handler P α := fun k =>
  match step k with
  | .ok a k => .ok a k
  | .error f k => .error (.fault f) k

/-- Serve a request whose refusal is a result. -/
def attempt (handler : Handler P α) : Step P (Except Refusal α) := fun k =>
  match handler k with
  | .ok a k => .ok (.ok a) k
  | .error (.refused reason) k => .ok (.error reason) k
  | .error (.fault f) k => .error f k

instance : MonadLift (Step P) (Handler P) := ⟨orFault⟩

end Kernel

end Timeshare
