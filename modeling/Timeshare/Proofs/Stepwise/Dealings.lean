import Timeshare.Proofs.Stepwise.Mailbox
import Timeshare.Proofs.Stepwise.Mutex
import Timeshare.Proofs.Tasks.Places
import Timeshare.Proofs.TicketPool
import Timeshare.Proofs.Traffic

/-!
# Dealings with a kernel's own tables

A kernel that serves requests step by step deals with its tables as it would with tables
that are passed on: what was asked and answered, and the table behind it, are dealings.
A refused request is not taken out of the kernel's tables again, it has not changed them.
-/

namespace Timeshare.Kernel

variable {P : Type} [Platform P] {Request Answer Table : Type}

/-- How a kernel serves the requests of a desk on its own tables. -/
structure Counter (P : Type) [Platform P] (desk : Desk Request Answer Table) where
  view : Kernel P → Table
  keep : Table → Kernel P → Kernel P
  work : Request → Handler P Answer
  view_keep : ∀ table k, view (keep table k) = table
  view_platform : ∀ k p, view { k with platform := p } = view k
  agrees : ∀ request k, Agrees (work request k)
    (carry (desk.serve (view k) request k.tasks) (·.1)
      (fun made k => keep made.2.1 { k with tasks := made.2.2 }) k)

namespace Counter

variable {desk : Desk Request Answer Table}

/-- The kernel behind requests to an empty table.  Whatever leaves the table alone may happen
in between. -/
inductive Worked (counter : Counter P desk) : Dealings Request Answer → Kernel P → Prop
  | start {k : Kernel P} (hempty : counter.view k = desk.empty) : Worked counter [] k
  | apart {log : Dealings Request Answer} {k k' : Kernel P} (hworked : Worked counter log k)
      (hsame : counter.view k' = counter.view k) : Worked counter log k'
  | served {log : Dealings Request Answer} {k k' : Kernel P} {request : Request} {answer : Answer}
      (hworked : Worked counter log k) (hadmits : desk.Admits log request)
      (hwork : counter.work request k = .ok answer k') :
      Worked counter (log ++ [(request, .ok answer)]) k'
  | refused {log : Dealings Request Answer} {k k' : Kernel P} {request : Request}
      {reason : Refusal} (hworked : Worked counter log k) (hadmits : desk.Admits log request)
      (hwork : counter.work request k = .error (.refused reason) k') :
      Worked counter (log ++ [(request, .error reason)]) k'

/-- Requests served step by step are dealings with the table that the kernel is left with. -/
theorem Worked.dealt {counter : Counter P desk} {log : Dealings Request Answer} {k : Kernel P}
    (hworked : counter.Worked log k) : desk.Dealt log (counter.view k) := by
  induction hworked with
  | start hempty => exact hempty ▸ .start
  | apart _ hsame ih => exact hsame ▸ ih
  | @served log k k' request answer _ hadmits hwork ih =>
      have hcarry := (counter.agrees request k).ok_iff.1 hwork
      obtain ⟨p, ⟨_, after, t'⟩, hserve, rfl, rfl⟩ := (leads_carry ..).of_ok hcarry
      rw [counter.view_keep]
      exact ih.served hadmits hserve
  | @refused log k k' request reason _ hadmits hwork ih =>
      have hcarry := (counter.agrees request k).refused_iff.1 hwork
      obtain ⟨p, hserve, rfl⟩ := (leads_carry ..).of_error hcarry
      rw [counter.view_platform]
      exact ih.refused hadmits hserve

end Counter

/-! ## The tables of a kernel -/

/-- Serve a request for mutexes. -/
def Stepwise.serveMutex : MutexRequest → Handler P Nat
  | .alloc => do
      let index ← alloc
      return index.val
  | .release id => do
      release id
      return 0
  | .lock id caller => lock id caller
  | .unlock id caller => unlock id caller

/-- Serve a request for mail. -/
def Stepwise.serveMail : MailRequest → Handler P MailAnswer
  | .send id message sender now => do
      let (_, handoff) ← send id message sender now
      return .sent handoff
  | .receive id receiver destination now => do
      let received ← receive id receiver destination now
      return .received received

/-- Serve a request to the tasks.  Passes and writes are never refused, and are carried out as
they are. -/
def Stepwise.serveTasks : Tasks.Request → Handler P (Option Pid)
  | .create entry name now => do
      let pid ← create entry name now
      return some pid
  | .destroy target => do
      destroy target
      return none
  | .pass now slice => do
      let pass := Run.orFault ((← get).tasks.reschedule now slice)
      let _ ← carry pass (·.1) fun made k => { k with tasks := made.2 }
      return none
  | .write pid written => do
      let write := liftM ((← get).tasks.amend pid fun p => .ok (written.apply p))
      carry write (fun _ => ()) fun tasks k => { k with tasks }
      return none

/-- The mutexes of a kernel. -/
def mutexCounter : Counter P MutexTable.desk where
  view k := k.mutexes
  keep mutexes k := { k with mutexes }
  work := Stepwise.serveMutex
  view_keep _ _ := rfl
  view_platform _ _ := rfl
  agrees request k := by
    cases request with
    | alloc => exact (Stepwise.agrees_alloc k).answer _ (fun _ => rfl) fun _ _ => rfl
    | release id => exact (Stepwise.agrees_release id k).answer _ (fun _ => rfl) fun _ _ => rfl
    | lock id caller => exact Stepwise.agrees_lock id caller k
    | unlock id caller => exact Stepwise.agrees_unlock id caller k

/-- The mailboxes of a kernel. -/
def mailCounter : Counter P MailboxTable.desk where
  view k := k.mailboxes
  keep mailboxes k := { k with mailboxes }
  work := Stepwise.serveMail
  view_keep _ _ := rfl
  view_platform _ _ := rfl
  agrees request k := by
    cases request with
    | send id message sender now =>
        exact (Stepwise.agrees_send id message sender now k).answer _ (fun _ => rfl) fun _ _ => rfl
    | receive id receiver destination now =>
        exact (Stepwise.agrees_receive id receiver destination now k).answer _ (fun _ => rfl)
          fun _ _ => rfl

/-- The processes of a kernel. -/
def tasksCounter : Counter P Tasks.desk where
  view k := k.tasks
  keep tasks k := { k with tasks }
  work := Stepwise.serveTasks
  view_keep _ _ := rfl
  view_platform _ _ := rfl
  agrees request k := by
    cases request with
    | create entry name now =>
        exact (Stepwise.agrees_create entry name now k).answer _ (fun _ => rfl) fun _ _ => rfl
    | destroy target =>
        exact (Stepwise.agrees_destroy target k).answer _ (fun _ => rfl) fun _ _ => rfl
    | pass now slice => exact (Agrees.refl _).answer _ (fun _ => rfl) fun _ _ => rfl
    | write pid written => exact (Agrees.refl _).answer _ (fun _ => rfl) fun _ _ => rfl

/-! ## What the requests leave -/

variable {k : Kernel P}

/-- The mutexes of a kernel answer like a pool of tickets, and stand for it. -/
theorem run_of_worked {log : Dealings MutexRequest Nat} (hworked : mutexCounter.Worked log k) :
    TicketPool.run (log.map (·.1)) = (log.map (·.2), k.mutexes.pool) :=
  MutexTable.run_of_dealt hworked.dealt

/-- In every mailbox of a kernel messages and receivers are matched in their order. -/
theorem paired_of_worked {log : Dealings MailRequest MailAnswer}
    (hworked : mailCounter.Worked log k) (index : MailboxId) :
    MailboxTable.Paired log k.mailboxes index :=
  MailboxTable.paired_of_dealt hworked.dealt index

/-- The places of a kernel are kept in order. -/
theorem kept_of_worked {log : Dealings Tasks.Request (Option Pid)}
    (hworked : tasksCounter.Worked log k) : Tasks.Kept log k.tasks :=
  Tasks.kept_of_dealt hworked.dealt

end Timeshare.Kernel
