import Timeshare.Proofs.Mailbox
import Timeshare.Proofs.Stepwise.Tasks

/-!
# Mailboxes, step by step

A message is buffered first and handed over then, if somebody waits for it; a receiver is
queued on the mailbox before it gets an address for its message and is parked.  A full
buffer takes nothing, so the sender is refused before anything was changed.
-/

namespace Timeshare

namespace MailboxTable

/-- Change a mailbox. -/
def alter (table : MailboxTable) (index : MailboxId) (f : Mailbox → Mailbox) : MailboxTable :=
  table.put index (f (table.box index))

theorem alter_put (table : MailboxTable) (index : MailboxId) (mailbox : Mailbox)
    (f : Mailbox → Mailbox) :
    (table.put index mailbox).alter index f = table.put index (f mailbox) := by
  rw [alter, box_put_self]
  simp [put]

theorem alter_of_find? {table : MailboxTable} {id : UInt64} {index : MailboxId} {mailbox : Mailbox}
    (hfind : table.find? id = some (index, mailbox)) (f : Mailbox → Mailbox) :
    table.alter index f = table.put index (f mailbox) :=
  congrArg (fun found => table.put index (f found)) (find?_eq_some hfind).2

end MailboxTable

namespace Kernel.Stepwise

variable {P : Type} {α : Type} {k : Kernel P}

/-- Change a mailbox. -/
def changeMailbox (index : MailboxId) (f : Mailbox → Mailbox) : Handler P Unit :=
  modify fun k => { k with mailboxes := k.mailboxes.alter index f }

@[simp] theorem changeMailbox_bind (index : MailboxId) (f : Mailbox → Mailbox)
    (next : Unit → Handler P α) :
    (changeMailbox index f >>= next) k =
      next () { k with mailboxes := k.mailboxes.alter index f } := rfl

variable [Platform P]

/-- Buffer a message, stamped with its sender and its time, and hand the oldest message over
if somebody waits. -/
def send (id : UInt64) (message : Message) (sender : Pid) (now : UInt64) :
    Handler P (Message × Option Handoff) := do
  match (← get).mailboxes.find? id with
  | none => refuse (.invalidMailbox id)
  | some (index, mailbox) =>
      let stamped := { message with sender := sender.number, timeSent := now, timeReceived := 0 }
      match mailbox.buffer.push stamped with
      | none => do
          report (.mailboxFull id)
          refuse .mailboxFull
      | some buffer => do
          changeMailbox index fun mailbox => { mailbox with buffer }
          match mailbox.waiting.pop with
          | none => return (stamped, none)
          | some (receiver, waiting) => do
              changeMailbox index fun mailbox => { mailbox with waiting }
              let slot ← placeOf receiver
              let destination := ((← get).tasks.table.block slot).destination
              changeBlock slot fun p => { p with destination := none }
              match destination with
              | none => throw (.fault (.breach (.noDestination receiver id)))
              | some destination => do
                  enqueue slot
                  match buffer.pop with
                  | none => throw (.fault (.breach (.messageLost id)))
                  | some (oldest, buffer) => do
                      changeMailbox index fun mailbox => { mailbox with buffer }
                      let message := { oldest with timeReceived := now }
                      report (.delivered id sender receiver)
                      return (stamped, some { receiver, destination, message })

/-- Take the oldest message of a mailbox, or let the receiver wait for one. -/
def receive (id : UInt64) (receiver : Pid) (destination now : UInt64) : Handler P Received := do
  match (← get).mailboxes.find? id with
  | none => refuse (.invalidMailbox id)
  | some (index, mailbox) =>
      match mailbox.buffer.pop with
      | some (message, buffer) => do
          changeMailbox index fun mailbox => { mailbox with buffer }
          return .message { message with timeReceived := now }
      | none =>
          match mailbox.waiting.push receiver with
          | none => throw (.fault (.breach (.mailboxQueueFull receiver id)))
          | some waiting => do
              changeMailbox index fun mailbox => { mailbox with waiting }
              let slot ← placeOf receiver
              changeBlock slot fun p => { p with destination := some destination }
              park receiver slot
              report (.mailboxEmpty receiver id)
              return .blocked

theorem agrees_send (id : UInt64) (message : Message) (sender : Pid) (now : UInt64) (k : Kernel P) :
    Agrees (send id message sender now k)
      (carry (k.mailboxes.send id message sender now k.tasks) (·.1)
        (fun made k => { k with mailboxes := made.2.1, tasks := made.2.2 }) k) := by
  unfold send MailboxTable.send
  rw [get_bind]
  cases hfind : k.mailboxes.find? id with
  | none => exact .of_eq rfl
  | some found =>
      obtain ⟨index, mailbox⟩ := found
      dsimp only
      cases hpush : mailbox.buffer.push
        { message with sender := sender.number, timeSent := now, timeReceived := 0 } with
      | none => exact .of_eq rfl
      | some buffer =>
          dsimp only
          rw [changeMailbox_bind, MailboxTable.alter_of_find? hfind]
          cases hpop : mailbox.waiting.pop with
          | none => exact .of_eq rfl
          | some found =>
              obtain ⟨receiver, waiting⟩ := found
              dsimp only
              rw [changeMailbox_bind, MailboxTable.alter_put, placeOf_bind]
              dsimp only [ProcessTable.expect]
              cases hreceiver : k.tasks.table.find? receiver with
              | none => exact .fault rfl
              | some slot =>
                  dsimp only
                  rw [get_bind, changeBlock_bind, Run.lift_ok_bind]
                  dsimp only
                  cases hdestination : (k.tasks.table.block slot).destination with
                  | none => exact .fault rfl
                  | some destination =>
                      dsimp only
                      rw [enqueue_bind]
                      dsimp only
                      cases henqueue : (k.tasks.modify slot fun p =>
                          { p with destination := none }).enqueue slot with
                      | error fault => exact .fault rfl
                      | ok tasks =>
                          dsimp only
                          rw [Run.lift_ok_bind]
                          cases holdest : buffer.pop with
                          | none => exact .fault rfl
                          | some found =>
                              obtain ⟨oldest, rest⟩ := found
                              dsimp only
                              rw [changeMailbox_bind, report_bind, MailboxTable.alter_put]
                              exact .of_eq rfl

theorem agrees_receive (id : UInt64) (receiver : Pid) (destination now : UInt64) (k : Kernel P) :
    Agrees (receive id receiver destination now k)
      (carry (k.mailboxes.receive id receiver destination now k.tasks) (·.1)
        (fun made k => { k with mailboxes := made.2.1, tasks := made.2.2 }) k) := by
  unfold receive MailboxTable.receive
  rw [get_bind]
  cases hfind : k.mailboxes.find? id with
  | none => exact .of_eq rfl
  | some found =>
      obtain ⟨index, mailbox⟩ := found
      dsimp only
      cases hpop : mailbox.buffer.pop with
      | some found =>
          obtain ⟨message, buffer⟩ := found
          dsimp only
          rw [changeMailbox_bind, MailboxTable.alter_of_find? hfind]
          exact .of_eq rfl
      | none =>
          dsimp only
          cases hpush : mailbox.waiting.push receiver with
          | none => exact .fault rfl
          | some waiting =>
              dsimp only
              rw [changeMailbox_bind, MailboxTable.alter_of_find? hfind, placeOf_bind]
              dsimp only [ProcessTable.expect]
              cases hreceiver : k.tasks.table.find? receiver with
              | none => exact .fault rfl
              | some slot =>
                  dsimp only
                  rw [changeBlock_bind, Run.lift_ok_bind, park_bind ?found]
                  case found =>
                    exact (ProcessTable.find?_modify rfl rfl receiver).trans hreceiver
                  dsimp only
                  cases hpark : (k.tasks.modify slot fun p =>
                      { p with destination := some destination }).park receiver with
                  | error fault => exact .fault rfl
                  | ok tasks => exact .of_eq rfl

end Kernel.Stepwise

end Timeshare
