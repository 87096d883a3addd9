import Timeshare.Proofs.Kernel.Course
import Timeshare.Proofs.Machine.Screen

/-!
# What the panel leaves on the screen

Painting the panel changes the screen and nothing else of the kernel.  A cell that the panel
reaches shows the panel, whatever was there before; a cell that it does not reach stays as it
was.  So the screen behind any number of panels shows in each cell the newest panel that
reached it, and it is the screen of the last one alone exactly if the earlier ones left nothing
but blanks in the cells that the last one does not reach.
-/

namespace Timeshare.Kernel

open Machine (Simulated Screen Cell)
open Machine.Screen (rows columns)

variable {P : Type} {k k' : Kernel P}

/-! ## Texts on the screen -/

/-- The cell that a text leaves at a place, if it reaches the place. -/
def Span.cell? (span : Span) (row : Fin rows) (column : Fin columns) : Option Cell :=
  Screen.inked? span.row span.column span.style span.text.toList row column

namespace Panel

/-- The cell that texts leave at a place, if they reach it.  Later texts cover earlier ones. -/
def topmost? : List Span → Fin rows → Fin columns → Option Cell
  | [], _, _ => none
  | span :: rest, row, column => (topmost? rest row column).or (span.cell? row column)

theorem topmost?_append (below above : List Span) (row : Fin rows) (column : Fin columns) :
    topmost? (below ++ above) row column
      = (topmost? above row column).or (topmost? below row column) := by
  induction below with
  | nil => simp [topmost?]
  | cons span rest ih => rw [List.cons_append, topmost?, ih, Option.or_assoc, topmost?]

theorem topmost?_eq_none {spans : List Span} {row : Fin rows} {column : Fin columns}
    (h : ∀ span ∈ spans, span.cell? row column = none) : topmost? spans row column = none := by
  induction spans with
  | nil => rfl
  | cons span rest ih =>
      rw [topmost?, ih fun other hother => h other (List.mem_cons_of_mem _ hother),
        h span List.mem_cons_self]
      rfl

/-- Of lines in consecutive rows, the one in the row of a cell is the one that can reach it. -/
theorem topmost?_lines {α : Type} (line : α → Nat → Span) (hrow : ∀ a i, (line a i).row = i + 1)
    (items : List α) (first : Nat) (row : Fin rows) (column : Fin columns) :
    topmost? ((items.zipIdx first).map fun item => line item.1 item.2) row column
      = if first < row.val then
          (items[row.val - first - 1]?).bind fun a => (line a (row.val - 1)).cell? row column
        else none := by
  induction items generalizing first with
  | nil => simp [topmost?]
  | cons a rest ih =>
      rw [List.zipIdx_cons, List.map_cons, topmost?, ih]
      have hother (h : row.val ≠ first + 1) : (line a first).cell? row column = none :=
        if_neg fun hreach => h (hreach.1.trans (hrow a first))
      rcases Nat.lt_trichotomy row.val (first + 1) with hlt | heq | hgt
      · rw [if_neg (by omega), if_neg (by omega), hother (by omega)]
        rfl
      · simp [heq]
      · obtain ⟨distance, hdistance⟩ : ∃ distance, row.val - first - 1 = distance + 1 :=
          ⟨row.val - first - 2, by omega⟩
        rw [if_pos (by omega), if_pos (by omega), hother (by omega), Option.or_none, hdistance,
          List.getElem?_cons_succ, show row.val - (first + 1) - 1 = distance by omega]

/-! ## What the panel reaches -/

/-- What the panel of a kernel shows in a cell, if it reaches the cell. -/
def cell? (k : Kernel P) (row : Fin rows) (column : Fin columns) : Option Cell :=
  (spans k).toOption.bind fun spans => topmost? spans row column

/-- The cell of the process in the place of the row, if its line is that long. -/
def processCell? (k : Kernel P) (row : Fin rows) (column : Fin columns) : Option Cell :=
  (k.tasks.table.live[row.val - 1]?).bind fun slot =>
    (processSpan k slot (row.val - 1)).cell? row column

/-- The cell of the mutex in the place of the row, if its line is that long. -/
def mutexCell? (k : Kernel P) (row : Fin rows) (column : Fin columns) : Option Cell :=
  (k.mutexes.allocated[row.val - 1]?).bind fun entry =>
    (mutexSpan entry (row.val - 1)).cell? row column

theorem cell?_eq (hrate : k.config.ticksPerSecond ≠ 0) {row : Fin rows} (hrow : 0 < row.val)
    (column : Fin columns) :
    cell? k row column
      = (topmost? (dividers (max k.tasks.table.size k.mutexes.allocated.length + 1)) row column).or
          ((mutexCell? k row column).or ((processCell? k row column).or
            (topmost? (heads (k.clock.now / k.config.ticksPerSecond)) row column))) := by
  rw [cell?, spans_eq hrate]
  show topmost? _ row column = _
  rw [topmost?_append, topmost?_append, topmost?_append, topmost?_lines mutexSpan fun _ _ => rfl,
    topmost?_lines (processSpan k) fun _ _ => rfl, if_pos hrow, if_pos hrow]
  rfl

theorem heads_out_of_reach (seconds : UInt64) {row : Fin rows} {column : Fin columns}
    (hrow : 0 < row.val) (hcolumn : column.val < 72) :
    topmost? (heads seconds) row column = none := by
  refine topmost?_eq_none fun span hspan => ?_
  simp only [heads, List.mem_cons, List.not_mem_nil, or_false] at hspan
  rcases hspan with rfl | rfl | rfl | rfl
  · exact if_neg fun hreach => hrow.ne' hreach.1
  · exact if_neg fun hreach => hrow.ne' hreach.1
  · exact if_neg fun hreach => hrow.ne' hreach.1
  · exact Screen.inked?_of_lt hcolumn

theorem dividers_out_of_reach (count : Nat) (row : Fin rows) {column : Fin columns}
    (hleft : column.val ≠ 48) (hright : column.val ≠ 70) :
    topmost? (dividers count) row column = none := by
  refine topmost?_eq_none fun span hspan => ?_
  simp only [dividers, dividerColumns, List.mem_flatMap, List.mem_map, List.mem_cons,
    List.not_mem_nil, or_false] at hspan
  obtain ⟨divided, _, at', hat, rfl⟩ := hspan
  rcases Nat.lt_or_gt_of_ne (show column.val ≠ at' by omega) with hlt | hgt
  · exact Screen.inked?_of_lt hlt
  · -- a divider is one character wide
    have hbehind : "║".toList[column.val - at']? = none :=
      List.getElem?_eq_none (show 1 ≤ column.val - at' by omega)
    rw [Span.cell?, Screen.inked?, hbehind]
    split <;> rfl

/-- In front of the dividers each row shows the live process in its place, and no row shows
another one. -/
theorem cell?_eq_processCell? (hrate : k.config.ticksPerSecond ≠ 0) {row : Fin rows}
    {column : Fin columns} (hrow : 0 < row.val) (hcolumn : column.val < 48) :
    cell? k row column = processCell? k row column := by
  have hmutex : mutexCell? k row column = none := by
    rw [mutexCell?]
    cases k.mutexes.allocated[row.val - 1]? with
    | none => rfl
    | some entry => exact Screen.inked?_of_lt (show column.val < 50 by omega)
  rw [cell?_eq hrate hrow, dividers_out_of_reach _ _ (by omega) (by omega), hmutex,
    heads_out_of_reach _ hrow (by omega)]
  simp

/-- Between the dividers each row shows the allocated mutex in its place, and where its line
leaves room the end of a long line of a process. -/
theorem cell?_eq_mutexCell? (hrate : k.config.ticksPerSecond ≠ 0) {row : Fin rows}
    {column : Fin columns} (hrow : 0 < row.val) (hleft : 48 < column.val)
    (hright : column.val < 70) :
    cell? k row column = (mutexCell? k row column).or (processCell? k row column) := by
  rw [cell?_eq hrate hrow, dividers_out_of_reach _ _ (by omega) (by omega),
    heads_out_of_reach _ hrow (by omega)]
  simp

end Panel

/-! ## Painting over earlier panels -/

/-- The kernel with another screen. -/
def withScreen (k : Kernel Simulated) (screen : Screen) : Kernel Simulated :=
  { k with platform := { k.platform with screen } }

theorem paintAll_eq (spans : List Span) (k : Kernel Simulated) :
    ∃ screen, paintAll spans k = .ok () (k.withScreen screen) ∧ ∀ row column,
      screen.cellAt row column
        = (Panel.topmost? spans row column).getD (k.platform.screen.cellAt row column) := by
  induction spans generalizing k with
  | nil => exact ⟨k.platform.screen, rfl, fun _ _ => rfl⟩
  | cons span rest ih =>
      obtain ⟨screen, hpaint, hcells⟩ :=
        ih (k.withScreen (k.platform.screen.paint span.row span.column span.style span.text))
      refine ⟨screen, hpaint, fun row column => ?_⟩
      rw [hcells, Panel.topmost?, Option.getD_or]
      exact congrArg _ (Screen.cellAt_paint ..)

/-- With ticks in a second the panel can be painted.  It changes the screen alone, and there
the cells that it reaches. -/
theorem exists_paintStats {k : Kernel Simulated} (hrate : k.config.ticksPerSecond ≠ 0) :
    ∃ screen, paintStats k = .ok () (k.withScreen screen) ∧ ∀ row column,
      screen.cellAt row column
        = (Panel.cell? k row column).getD (k.platform.screen.cellAt row column) := by
  obtain ⟨spans, hspans⟩ : ∃ spans, Panel.spans k = .ok spans := ⟨_, Panel.spans_eq hrate⟩
  obtain ⟨screen, hpaint, hcells⟩ := paintAll_eq spans k
  refine ⟨screen, ?_, ?_⟩
  · unfold paintStats
    rw [get_bind, hspans, check_bind]
    exact hpaint
  · unfold Panel.cell?
    rw [hspans]
    exact hcells

/-- Without ticks in a second there is no panel to paint. -/
theorem rate_of_paintStats {k k' : Kernel Simulated} (hpaint : paintStats k = .ok () k') :
    k.config.ticksPerSecond ≠ 0 := by
  intro hzero
  have hspans : Panel.spans k = .error (.arithmetic .divide) := by
    have hseconds : k.clock.seconds k.config.ticksPerSecond = .error (.arithmetic .divide) :=
      if_pos hzero
    unfold Panel.spans
    rw [hseconds]
    rfl
  unfold paintStats at hpaint
  rw [get_bind, hspans, check_bind] at hpaint
  contradiction

/-- The kernels whose panels were painted since the screen was blank, the newest first, and the
screen behind them. -/
inductive PaintedBy : List (Kernel Simulated) → Screen → Prop
  | blank : PaintedBy [] .blank
  | paint {past : List (Kernel Simulated)} {k k' : Kernel Simulated}
      (hpast : PaintedBy past k.platform.screen) (hpaint : paintStats k = .ok () k') :
      PaintedBy (k :: past) k'.platform.screen

/-- What the newest panel that reached a cell left there. -/
def lastShown (painted : List (Kernel Simulated)) (row : Fin rows) (column : Fin columns) : Cell :=
  (painted.findSome? fun k => Panel.cell? k row column).getD .blank

theorem lastShown_cons (k : Kernel Simulated) (past : List (Kernel Simulated)) (row : Fin rows)
    (column : Fin columns) :
    lastShown (k :: past) row column
      = (Panel.cell? k row column).getD (lastShown past row column) := by
  unfold lastShown
  cases hcell : Panel.cell? k row column <;> simp [hcell]

/-- Each cell shows the newest panel that reached it. -/
theorem PaintedBy.cellAt {painted : List (Kernel Simulated)} {screen : Screen}
    (h : PaintedBy painted screen) (row : Fin rows) (column : Fin columns) :
    screen.cellAt row column = lastShown painted row column := by
  induction h with
  | blank => exact Screen.cellAt_blank row column
  | paint hpast hpaint ih =>
      obtain ⟨screen, hscreen, hcells⟩ := exists_paintStats (rate_of_paintStats hpaint)
      rw [hpaint] at hscreen
      injection hscreen with _ heq
      rw [heq, lastShown_cons, ← ih]
      exact hcells row column

/-- What painting the panel of a kernel over earlier panels leaves. -/
structure Repainted (past : List (Kernel Simulated)) (k k' : Kernel Simulated) : Prop where
  /-- Nothing but the screen has changed. -/
  others : k' = k.withScreen k'.platform.screen
  /-- A cell shows the panel where the panel reaches it, and else the earlier ones. -/
  newest : ∀ row column, k'.platform.screen.cellAt row column = lastShown (k :: past) row column
  /-- There is one row for each live process. -/
  process : ∀ (row : Fin rows) (column : Fin columns), 0 < row.val → column.val < 48 →
    Panel.cell? k row column = Panel.processCell? k row column
  /-- There is one row for each allocated mutex. -/
  mutex : ∀ (row : Fin rows) (column : Fin columns), 0 < row.val → 48 < column.val →
    column.val < 70 →
      Panel.cell? k row column
        = (Panel.mutexCell? k row column).or (Panel.processCell? k row column)

/-- The panel is painted over whatever earlier panels have left on the screen.  It is what it
would be on a blank screen exactly if they left nothing but blanks in the cells that the present
panel does not reach; the text that they left there stays. -/
theorem repainted_over_earlier_panels {past : List (Kernel Simulated)} {k : Kernel Simulated}
    (hpast : PaintedBy past k.platform.screen) (hrate : k.config.ticksPerSecond ≠ 0) :
    ∃ k' fresh, paintStats k = .ok () k' ∧ Repainted past k k' ∧
      paintStats (k.withScreen .blank) = .ok () fresh ∧
      (k'.platform.screen = fresh.platform.screen ↔ ∀ row column,
        Panel.cell? k row column = none → lastShown past row column = .blank) := by
  obtain ⟨screen, hpaint, hcells⟩ := exists_paintStats hrate
  obtain ⟨fresh, hfresh, hblank⟩ := exists_paintStats (k := k.withScreen .blank) hrate
  simp only [hpast.cellAt] at hcells
  refine ⟨_, _, hpaint, ⟨rfl, fun row column => ?_, fun row column => ?_, fun row column => ?_⟩,
    hfresh, fun hsame row column hunreached => ?_, fun hleft => ?_⟩
  · rw [lastShown_cons]
    exact hcells row column
  · exact Panel.cell?_eq_processCell? hrate
  · exact Panel.cell?_eq_mutexCell? hrate
  · -- an unreached cell shows what is left of earlier panels, and on the blank screen a blank
    have hcell := congrArg (fun s => s.cellAt row column) hsame
    dsimp only [withScreen] at hcell
    rw [hcells, hblank, hunreached] at hcell
    have hfreshCell : Panel.cell? (k.withScreen .blank) row column = none := hunreached
    rw [hfreshCell] at hcell
    exact hcell.trans (Screen.cellAt_blank row column)
  · refine Screen.eq_of_cellAt fun row column => ?_
    show screen.cellAt row column = fresh.cellAt row column
    have hsame : Panel.cell? (k.withScreen .blank) row column = Panel.cell? k row column := rfl
    rw [hcells, hblank, hsame]
    cases hcell : Panel.cell? k row column with
    | none => exact (hleft row column hcell).trans (Screen.cellAt_blank row column).symm
    | some cell => rfl

/-- The panel of four processes is painted, the last of them is destroyed, and the panel is painted
again. -/
theorem repainted_over_earlier_panels_behind_exit :
    ∃ (k₀ k₁ : Kernel Simulated) (tasks : Tasks),
      paintStats k₀ = .ok () k₁ ∧ PaintedBy [k₀] k₁.platform.screen ∧
      k₁.config.ticksPerSecond ≠ 0 ∧ (k₁.tasks.destroy (some ⟨3⟩)).outcome = .ok tasks ∧
      ∃ k' fresh, paintStats { k₁ with tasks } = .ok () k' ∧
        Repainted [k₀] { k₁ with tasks } k' ∧
        paintStats (withScreen { k₁ with tasks } .blank) = .ok () fresh ∧
        (k'.platform.screen = fresh.platform.screen ↔ ∀ row column,
          Panel.cell? { k₁ with tasks } row column = none →
            lastShown [k₀] row column = .blank) := by
  obtain ⟨_, k, _, hcheck⟩ := exists_course []
    (fun _ k => decide (k.config.ticksPerSecond ≠ 0) &&
      (k.tasks.destroy (some ⟨3⟩)).outcome.toOption.isSome) (by decide +kernel)
  obtain ⟨hrate, hgone⟩ := (Bool.and_eq_true ..).mp hcheck
  replace hrate : k.config.ticksPerSecond ≠ 0 := of_decide_eq_true hrate
  obtain ⟨tasks, hdestroy⟩ := Option.isSome_iff_exists.1 hgone
  obtain ⟨screen, hpaint, _⟩ := exists_paintStats (k := k.withScreen .blank) hrate
  have hpainted : PaintedBy [k.withScreen .blank] screen := .paint .blank hpaint
  exact ⟨k.withScreen .blank, k.withScreen screen, tasks, hpaint, hpainted, hrate,
    toOption_eq_some_iff.1 hdestroy,
    repainted_over_earlier_panels (k := { k.withScreen screen with tasks }) hpainted hrate⟩

/-- Destroying a process does not change the screen. -/
theorem exists_exit {k : Kernel Simulated} {pid : Option Pid} {tasks : Tasks}
    (hdestroy : (k.tasks.destroy pid).outcome = .ok tasks) :
    ∃ p, p.screen = k.platform.screen ∧ exit pid k = .ok () { k with platform := p, tasks } := by
  have hlog (events : List Journal.Event) (p : Simulated) :
      (events.foldl (fun p event => Platform.log event p) p).screen = p.screen := by
    induction events generalizing p with
    | nil => rfl
    | cons event rest ih => exact ih _
  refine ⟨_, hlog (k.tasks.destroy pid).events k.platform, ?_⟩
  show EStateM.bind (perform (k.tasks.destroy pid)) _ k = _
  unfold EStateM.bind perform
  rw [hdestroy]
  rfl

/-- A process that is gone is still shown in the row below the panel, where there is nothing if
the screen is blanked first. -/
theorem gone_process_still_shown :
    ∃ (k₀ k₁ k₂ k₃ fresh : Kernel Simulated),
      Course [⟨k₂, .paint, k₃⟩, ⟨k₁, .exit (some ⟨3⟩), k₂⟩, ⟨k₀, .paint, k₁⟩] k₃ ∧
      k₂.tasks.table.get? ⟨3⟩ = none ∧ paintStats (k₂.withScreen .blank) = .ok () fresh ∧
      ∀ i : Fin 5,
        (k₃.platform.screen.cellAt 4 (.ofNat 80 (31 + i))).char = ['t', 'h', 'i', 'r', 'd'].get i ∧
        fresh.platform.screen.cellAt 4 (.ofNat 80 (31 + i)) = .blank := by
  have htrial : trial.any (fun r =>
      decide (r.2.config.ticksPerSecond ≠ 0) &&
        (r.2.tasks.destroy (some ⟨3⟩)).outcome.toOption.any fun (tasks : Tasks) =>
          decide ((tasks.table.get? ⟨3⟩).isNone ∧ ∀ i : Fin 5,
            Panel.cell? r.2 4 (.ofNat 80 (31 + i))
              = some ⟨['t', 'h', 'i', 'r', 'd'].get i, .plain⟩ ∧
            Panel.cell? { r.2 with tasks } 4 (.ofNat 80 (31 + i)) = none)) = true := by
    decide +kernel
  obtain ⟨⟨_, k₀⟩, hbooted, hcheck⟩ := (Option.any_eq_true ..).1 htrial
  have hcourse : Course [] k₀ := course_of_trial hbooted
  obtain ⟨hrate, hany⟩ := (Bool.and_eq_true ..).mp hcheck
  replace hrate : k₀.config.ticksPerSecond ≠ 0 := of_decide_eq_true hrate
  obtain ⟨tasks, htasks, hcells⟩ := (Option.any_eq_true ..).1 hany
  obtain ⟨hgone, hcells⟩ := of_decide_eq_true hcells
  obtain ⟨screen₁, hfirst, hcells₁⟩ := exists_paintStats hrate
  obtain ⟨p, hscreen, hexit⟩ := exists_exit (k := k₀.withScreen screen₁)
    (toOption_eq_some_iff.1 htasks)
  obtain ⟨screen₃, hsecond, hcells₃⟩ := exists_paintStats
    (k := { k₀.withScreen screen₁ with platform := p, tasks }) hrate
  obtain ⟨fresh, hfresh, hcellsFresh⟩ := exists_paintStats
    (k := withScreen { k₀.withScreen screen₁ with platform := p, tasks } .blank) hrate
  have hexited : Deed.carryOut (.exit (some ⟨3⟩)) (k₀.withScreen screen₁)
      = .ok () { k₀.withScreen screen₁ with platform := p, tasks } := by
    show EStateM.map _ (attempt (exit (some ⟨3⟩))) (k₀.withScreen screen₁) = _
    unfold EStateM.map attempt
    rw [hexit]
  have hpainted : Course [⟨k₀, .paint, k₀.withScreen screen₁⟩] (k₀.withScreen screen₁) :=
    hcourse.step (show Deed.carryOut .paint k₀ = _ from hfirst)
  refine ⟨k₀, _, _, _, _,
    (hpainted.step hexited).step (show Deed.carryOut .paint _ = _ from hsecond),
    Option.isNone_iff_eq_none.1 hgone, hfresh, fun i => ?_⟩
  obtain ⟨hname, hunreached⟩ := hcells i
  -- which cells a panel reaches does not depend on the platform
  have hsecondUnreached : Panel.cell? { k₀.withScreen screen₁ with platform := p, tasks } 4
      (.ofNat 80 (31 + i)) = none := hunreached
  have hfreshUnreached : Panel.cell? (withScreen
      { k₀.withScreen screen₁ with platform := p, tasks } .blank) 4 (.ofNat 80 (31 + i)) = none :=
    hunreached
  constructor
  · show (screen₃.cellAt 4 (.ofNat 80 (31 + i))).char = _
    rw [hcells₃, hsecondUnreached]
    show (p.screen.cellAt 4 (.ofNat 80 (31 + i))).char = _
    rw [hscreen]
    show (screen₁.cellAt 4 (.ofNat 80 (31 + i))).char = _
    rw [hcells₁, hname]
    rfl
  · show fresh.cellAt 4 (.ofNat 80 (31 + i)) = _
    rw [hcellsFresh, hfreshUnreached]
    exact Screen.cellAt_blank ..

end Timeshare.Kernel
