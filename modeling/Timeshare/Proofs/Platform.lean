import Mathlib.Logic.Relation
import Timeshare.Kernel.Basic

/-!
# What the kernel does to its machine

The kernel changes its machine only by the operations of `Platform`.  Whatever
each operation keeps is kept by every step of the kernel, and the steps are
described with the machine left open up to that.
-/

namespace Timeshare.Platform

variable {P : Type} [Platform P]

/-- One operation on the machine. -/
inductive Operation : P → P → Prop
  | enableLine (line : UInt8) (p : P) : Operation p (Platform.enableLine line p)
  | acknowledge (line : UInt8) (p : P) : Operation p (Platform.acknowledge line p)
  | pollKey (p : P) : Operation p (Platform.pollKey p).2
  | clearScreen (p : P) : Operation p (Platform.clearScreen p)
  | paint (row column : Nat) (style : Style) (text : String) (p : P) :
      Operation p (Platform.paint row column style text p).2
  | halt (p : P) : Operation p (Platform.halt p)
  | writeMemory (address : UInt64) (data : List UInt8) (p : P) :
      Operation p (Platform.writeMemory address data p).2
  | log (event : Journal.Event) (p : P) : Operation p (Platform.log event p)

/-- Any number of operations on the machine. -/
abbrev Reaches : P → P → Prop := Relation.ReflTransGen Operation

/-- What every operation keeps is kept by any number of them. -/
theorem Reaches.keeps {Q : P → Prop} (hkeep : ∀ p q, Operation p q → Q p → Q q) {p q : P}
    (hreach : Reaches p q) (hp : Q p) : Q q := by
  induction hreach with
  | refl => exact hp
  | tail _ hstep ih => exact hkeep _ _ hstep ih

theorem reaches_log_all (events : List Journal.Event) (p : P) :
    Reaches p (events.foldl (fun p event => Platform.log event p) p) := by
  induction events generalizing p with
  | nil => exact .refl
  | cons event rest ih => exact .head (.log event p) (ih _)

end Timeshare.Platform
