import Timeshare.Text.Layout

/-!
# Requests the kernel turns down

A refusal is an ordinary answer: the process that asked gets a negative result
and the system runs on.  A refused access to the memory of a process is
reported with its first address and its length.
-/

namespace Timeshare

/-- An access to process memory that the machine cannot map. -/
structure MemoryFault where
  /-- The first address of the access. -/
  address : UInt64
  /-- The length of the access in bytes. -/
  size : Nat
  deriving DecidableEq

/-- The wording of a memory fault. -/
def MemoryFault.message (fault : MemoryFault) : String :=
  "bad user access at " ++ Text.address fault.address ++ " (+" ++ toString fault.size ++ " bytes)"

/-- The reasons for which the kernel turns a request down. -/
inductive Refusal where
  /-- Every place of the process table is taken. -/
  | tableFull
  /-- Every mutex is allocated. -/
  | noFreeMutex
  /-- The buffer of the mailbox is full. -/
  | mailboxFull
  /-- No allocated mutex has this number. -/
  | invalidMutex (id : UInt64)
  /-- No mailbox has this number. -/
  | invalidMailbox (id : UInt64)
  /-- The caller does not own the mutex it unlocks. -/
  | notOwner
  /-- The mutex is locked. -/
  | mutexHeld
  /-- The pointer is null or not mapped. -/
  | badAddress (address : UInt64)
  /-- The call needs a calling process and there is none. -/
  | noCurrentProcess
  /-- The idle process cannot exit. -/
  | idleProcess
  deriving DecidableEq

namespace Refusal

/-- The wording of a refusal. -/
def message : Refusal → String
  | tableFull => "process table full"
  | noFreeMutex => "no free mutex"
  | mailboxFull => "mailbox full"
  | invalidMutex id => s!"invalid mutex id {id}"
  | invalidMailbox id => s!"invalid mailbox id {id}"
  | notOwner => "caller does not own the mutex"
  | mutexHeld => "mutex is held"
  | badAddress address => "bad user address " ++ Text.address address
  | noCurrentProcess => "no current process"
  | idleProcess => "cannot exit the idle process"

/-- The name of a refusal in reports. -/
def name : Refusal → String
  | tableFull => "TableFull"
  | noFreeMutex => "NoFreeMutex"
  | mailboxFull => "MailboxFull"
  | invalidMutex _ => "InvalidMutex"
  | invalidMailbox _ => "InvalidMailbox"
  | notOwner => "NotOwner"
  | mutexHeld => "MutexHeld"
  | badAddress _ => "BadAddress"
  | noCurrentProcess => "NoCurrentProcess"
  | idleProcess => "IdleProcess"

/-- The refusal with a given name, about `value` where it is about a value. -/
def ofName? (name : String) (value : UInt64) : Option Refusal :=
  match name with
  | "TableFull" => some tableFull
  | "NoFreeMutex" => some noFreeMutex
  | "MailboxFull" => some mailboxFull
  | "InvalidMutex" => some (invalidMutex value)
  | "InvalidMailbox" => some (invalidMailbox value)
  | "NotOwner" => some notOwner
  | "MutexHeld" => some mutexHeld
  | "BadAddress" => some (badAddress value)
  | "NoCurrentProcess" => some noCurrentProcess
  | "IdleProcess" => some idleProcess
  | _ => none

/-- Every refusal is found by its name. -/
theorem isSome_ofName?_name (refusal : Refusal) (value : UInt64) :
    (ofName? refusal.name value).isSome := by
  cases refusal <;> rfl

/-- The result a refused call hands back to its caller. -/
def sentinel (_ : Refusal) : Int64 := -1

/-- A faulting access is refused for its address. -/
def ofMemoryFault (fault : MemoryFault) : Refusal := badAddress fault.address

end Refusal

end Timeshare
