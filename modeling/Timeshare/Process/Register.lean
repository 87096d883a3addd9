import Timeshare.Process.Frame

/-!
# Registers by name

The registers of a frame, for tools that show a frame or change one register
of it.
-/

namespace Timeshare

/-- A register: its name, and how a frame gives and takes its value. -/
structure Register where
  name : String
  value : Frame → UInt64
  assign : UInt64 → Frame → Frame

namespace Register

/-- Every register of a frame, in the order in which the frame holds them. -/
def all : List Register :=
  [⟨"r15", (·.r15), fun v f => { f with r15 := v }⟩,
   ⟨"r14", (·.r14), fun v f => { f with r14 := v }⟩,
   ⟨"r13", (·.r13), fun v f => { f with r13 := v }⟩,
   ⟨"r12", (·.r12), fun v f => { f with r12 := v }⟩,
   ⟨"r11", (·.r11), fun v f => { f with r11 := v }⟩,
   ⟨"r10", (·.r10), fun v f => { f with r10 := v }⟩,
   ⟨"r9", (·.r9), fun v f => { f with r9 := v }⟩,
   ⟨"r8", (·.r8), fun v f => { f with r8 := v }⟩,
   ⟨"rbp", (·.rbp), fun v f => { f with rbp := v }⟩,
   ⟨"rdi", (·.rdi), fun v f => { f with rdi := v }⟩,
   ⟨"rsi", (·.rsi), fun v f => { f with rsi := v }⟩,
   ⟨"rdx", (·.rdx), fun v f => { f with rdx := v }⟩,
   ⟨"rcx", (·.rcx), fun v f => { f with rcx := v }⟩,
   ⟨"rbx", (·.rbx), fun v f => { f with rbx := v }⟩,
   ⟨"rax", (·.rax), fun v f => { f with rax := v }⟩,
   ⟨"vector", (·.vector), fun v f => { f with vector := v }⟩,
   ⟨"error_code", (·.errorCode), fun v f => { f with errorCode := v }⟩,
   ⟨"rip", (·.rip), fun v f => { f with rip := v }⟩,
   ⟨"cs", (·.cs), fun v f => { f with cs := v }⟩,
   ⟨"rflags", (·.rflags), fun v f => { f with rflags := v }⟩,
   ⟨"rsp", (·.rsp), fun v f => { f with rsp := v }⟩,
   ⟨"ss", (·.ss), fun v f => { f with ss := v }⟩]

/-- A register reads back what was assigned to it. -/
theorem value_assign (r : Register) (h : r ∈ all) (v : UInt64) (f : Frame) :
    r.value (r.assign v f) = v := by
  simp only [all, List.mem_cons, List.not_mem_nil, or_false] at h
  rcases h with rfl | rfl | rfl | rfl | rfl | rfl | rfl | rfl | rfl | rfl | rfl | rfl | rfl |
    rfl | rfl | rfl | rfl | rfl | rfl | rfl | rfl | rfl <;> rfl

end Register

end Timeshare
