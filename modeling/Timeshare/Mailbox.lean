import Timeshare.Message
import Timeshare.Tasks

/-!
# Mailboxes

Every mailbox buffers messages and keeps the processes that wait for one.  A
process waits only on a mailbox without messages, and the next message goes
straight to the oldest of them.
-/

namespace Timeshare

/-- Buffered messages and waiting receivers. -/
structure Mailbox where
  buffer : Ring Message bufferCapacity
  /-- Who waits for a message, the oldest first. -/
  waiting : Ring Pid queueCapacity

/-- A mailbox without messages and without receivers. -/
def Mailbox.empty : Mailbox := ⟨.empty, .empty⟩

/-- A message for a receiver that was waiting, to be written at `destination`
in the receiver's memory. -/
structure Handoff where
  receiver : Pid
  destination : UInt64
  message : Message
  deriving DecidableEq

/-- The outcome of receiving. -/
inductive Received where
  /-- The oldest buffered message. -/
  | message (message : Message)
  /-- There was none, and the receiver has to wait. -/
  | blocked
  deriving DecidableEq

/-- The index of a mailbox. -/
abbrev MailboxId : Type := Fin mailboxCapacity

/-- The mailboxes. -/
structure MailboxTable where
  boxes : Vector Mailbox mailboxCapacity

namespace MailboxTable

/-- Empty mailboxes. -/
def empty : MailboxTable := ⟨Vector.replicate mailboxCapacity .empty⟩

instance : Inhabited MailboxTable := ⟨empty⟩

/-- The mailbox with a given number. -/
def find? (table : MailboxTable) (id : UInt64) : Option (MailboxId × Mailbox) :=
  if h : id.toNat < mailboxCapacity then some (⟨id.toNat, h⟩, table.boxes[id.toNat]) else none

/-- The mailbox with a given number. -/
def get? (table : MailboxTable) (id : UInt64) : Option Mailbox := (table.find? id).map (·.2)

/-- Replace a mailbox. -/
def put (table : MailboxTable) (id : MailboxId) (mailbox : Mailbox) : MailboxTable :=
  ⟨table.boxes.set id mailbox⟩

/-- Send a message, stamped with its sender and its time.  If somebody waits,
the message is handed over and the receiver is queued.  The result is the
stamped message and the hand-over. -/
def send (table : MailboxTable) (id : UInt64) (message : Message) (sender : Pid) (now : UInt64)
    (tasks : Tasks) : Run Stop ((Message × Option Handoff) × MailboxTable × Tasks) :=
  match table.find? id with
  | none => Run.refuse (.invalidMailbox id)
  | some (index, mailbox) =>
      let stamped :=
        { message with sender := sender.number, timeSent := now, timeReceived := 0 }
      match mailbox.buffer.push stamped with
      | none => do
          Run.report (.mailboxFull id)
          Run.refuse .mailboxFull
      | some buffer =>
          match mailbox.waiting.pop with
          | none => return ((stamped, none), table.put index { mailbox with buffer }, tasks)
          | some (receiver, waiting) => do
              let slot ← tasks.table.expect receiver
              match (tasks.table.block slot).destination with
              | none => Run.stop (.fault (.breach (.noDestination receiver id)))
              | some destination => do
                  let tasks ←
                    (tasks.modify slot fun p => { p with destination := none }).enqueue slot
                  match buffer.pop with
                  | none => Run.stop (.fault (.breach (.messageLost id)))
                  | some (oldest, buffer) => do
                      Run.report (.delivered id sender receiver)
                      let message := { oldest with timeReceived := now }
                      return ((stamped, some { receiver, destination, message }),
                        table.put index { buffer, waiting }, tasks)

/-- Receive the oldest message of a mailbox.  If there is none, the receiver
waits, and the message will be written at `destination`. -/
def receive (table : MailboxTable) (id : UInt64) (receiver : Pid) (destination now : UInt64)
    (tasks : Tasks) : Run Stop (Received × MailboxTable × Tasks) :=
  match table.find? id with
  | none => Run.refuse (.invalidMailbox id)
  | some (index, mailbox) =>
      match mailbox.buffer.pop with
      | some (message, buffer) =>
          return (.message { message with timeReceived := now },
            table.put index { mailbox with buffer }, tasks)
      | none =>
          match mailbox.waiting.push receiver with
          | none => Run.stop (.fault (.breach (.mailboxQueueFull receiver id)))
          | some waiting => do
              let slot ← tasks.table.expect receiver
              let tasks ←
                (tasks.modify slot fun p => { p with destination := some destination }).park receiver
              Run.report (.mailboxEmpty receiver id)
              return (.blocked, table.put index { mailbox with waiting }, tasks)

end MailboxTable

end Timeshare
