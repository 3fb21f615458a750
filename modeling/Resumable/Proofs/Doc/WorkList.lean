import Resumable.Proofs.Doc.Exact
import Resumable.Proofs.Doc.Laid

/-!
# Printing from a work list

A document can be printed turn by turn. What is still to be printed stands on a work list, the
next document first, and each document there has its own indentation and its own flag. A turn
takes the first one from the list: it writes a text or a line, or it puts the parts of the
document back in its place. Whether a group is flat is told by `Gauge`, which looks at the rest
of the list.

The page is the one that `print` comes to by recursion. So what holds of the pages of trees and
of the width of their lines holds of those of the work list.
-/

namespace Resumable.Doc

variable {α : Type}

/-! ## Parts -/

/-- The documents that stand one after the other in a document. -/
def parts : Doc α → List (Doc α)
  | .empty => []
  | .append first second => first :: second.parts
  | doc => [doc]

theorem parts_concat (docs : List (Doc α)) : (concat docs).parts = docs := by
  induction docs with
  | nil => rfl
  | cons doc docs ih => exact congrArg (doc :: ·) ih

theorem measureAll_cons_congr {rest rest' : List (Item α)} (item : Item α)
    (h : ∀ room, measureAll rest room = measureAll rest' room) (room : Int) :
    measureAll (item :: rest) room = measureAll (item :: rest') room := by
  simp only [measureAll, h]

/-- The parts of a document are measured like the document. -/
theorem measureAll_parts (flat : Bool) (doc : Doc α) (rest : List (Item α)) (room : Int) :
    measureAll (doc.parts.map (Item.mk flat) ++ rest) room =
      measureAll (⟨flat, doc⟩ :: rest) room := by
  induction doc generalizing room with
  | empty => rfl
  | append first second _ ih =>
    rw [measureAll_append]
    exact measureAll_cons_congr _ ih room
  | _ => rfl

/-- Of what comes after a document, printing only depends on how it is measured. -/
theorem print_congr {width : Int} {doc : Doc α} {indent : Int} {flat : Bool}
    {rest rest' : List (Item α)} {cursor : Cursor}
    (h : ∀ room, measureAll rest room = measureAll rest' room) :
    print width doc indent flat rest cursor = print width doc indent flat rest' cursor := by
  induction doc generalizing indent flat rest rest' cursor with
  | append first second ihfirst ihsecond =>
    simp only [print, ihfirst (measureAll_cons_congr ⟨flat, second⟩ h), ihsecond h]
  | nest depth body ih => exact ih h
  | group body ih =>
    simp only [print, ih h, fits_congr (measureAll_cons_congr ⟨true, body⟩ h)]
  | _ => rfl

/-! ## The work list -/

/-- A document that is still to be printed. -/
structure Task where
  indent : Int
  flat : Bool
  doc : Doc Empty

/-- What the fit test looks at. -/
def Task.item (task : Task) : Item Empty :=
  ⟨task.flat, task.doc⟩

/-- Printing under way: the tasks that are left, the next one first, and the page so far. -/
structure WorkList where
  todo : List Task
  cursor : Cursor := {}

namespace WorkList

/-- Only the document itself is to be printed. -/
def start (doc : Doc Empty) : WorkList :=
  { todo := [⟨0, false, doc⟩] }

/-- One turn of printing: the page, or how it goes on. -/
def turn (width : Int) (work : WorkList) : String ⊕ WorkList :=
  match work.todo with
  | [] => .inl work.cursor.text
  | ⟨indent, flat, doc⟩ :: todo =>
      match doc with
      | .empty => .inr { work with todo }
      | .text content => .inr { todo, cursor := work.cursor.write content }
      | .line =>
          let cursor := if flat then work.cursor.write " " else work.cursor.newline indent
          .inr { todo, cursor }
      | .append first second =>
          .inr { work with todo := (first :: second.parts).map (Task.mk indent flat) ++ todo }
      | .nest depth body => .inr { work with todo := ⟨indent + depth, flat, body⟩ :: todo }
      | .group body =>
          let gauge : Gauge := ⟨width - work.cursor.column, [⟨true, body⟩], todo.map Task.item, 0⟩
          .inr { work with todo := ⟨indent, flat || gauge.answer, body⟩ :: todo }
      | .hole label => nomatch label

/-- All parts of a concatenation take its place at once, in order. -/
theorem turn_concat (width indent : Int) (flat : Bool) (docs : List (Doc Empty)) (todo : List Task)
    (cursor : Cursor) :
    turn width ⟨⟨indent, flat, concat docs⟩ :: todo, cursor⟩ =
      .inr ⟨docs.map (Task.mk indent flat) ++ todo, cursor⟩ := by
  cases docs with
  | nil => rfl
  | cons doc docs =>
    have hparts := parts_concat docs
    simp only [concat, List.foldr_cons, turn] at hparts ⊢
    rw [hparts]

/-- At most so many turns are left before the page is finished. -/
def turnsLeft (work : WorkList) : Nat :=
  (work.todo.map fun task => Gauge.turnsOf task.doc).sum

theorem turnsOf_parts_le (doc : Doc Empty) :
    (doc.parts.map Gauge.turnsOf).sum ≤ Gauge.turnsOf doc := by
  induction doc with
  | append first second _ ih =>
    simp only [parts, Gauge.turnsOf, List.map_cons, List.sum_cons]
    omega
  | _ => simp [parts, Gauge.turnsOf]

/-- The tasks, printed by recursion one after the other. -/
def printAll (width : Int) : List Task → Cursor → Except (Fault Empty) Cursor
  | [], cursor => .ok cursor
  | task :: tasks, cursor => do
      let cursor ← task.doc.print width task.indent task.flat (tasks.map Task.item) cursor
      printAll width tasks cursor

/-- The parts of a document are printed like the document. -/
theorem printAll_parts (width indent : Int) (flat : Bool) (doc : Doc Empty) (tasks : List Task)
    (cursor : Cursor) :
    printAll width (doc.parts.map (Task.mk indent flat) ++ tasks) cursor =
      printAll width (⟨indent, flat, doc⟩ :: tasks) cursor := by
  induction doc generalizing cursor with
  | append first second _ ih =>
    -- while the first part is printed, the parts of the second one stand for it
    have hrest : (second.parts.map (Task.mk indent flat) ++ tasks).map Task.item =
        second.parts.map (Item.mk flat) ++ tasks.map Task.item := by
      simp only [List.map_append, List.map_map]
      rfl
    simp only [parts, List.map_cons, List.cons_append, printAll, print, hrest, ih,
      print_congr (measureAll_parts flat second (tasks.map Task.item)), bind_assoc]
  | _ => rfl

/-- What a turn keeps while printing goes on: the page it will come to. -/
structure Keeps (width : Int) (work next : WorkList) : Prop where
  printAll : printAll width next.todo next.cursor = printAll width work.todo work.cursor
  turnsLeft : next.turnsLeft < work.turnsLeft

theorem keeps_of_turn_inr {width : Int} {work next : WorkList} (h : work.turn width = .inr next) :
    work.Keeps width next := by
  obtain ⟨_ | ⟨⟨indent, flat, doc⟩, todo⟩, cursor⟩ := work
  · cases h
  cases doc with
  | empty | text content | line | nest depth body =>
    cases h
    exact ⟨rfl, by simp [turnsLeft, Gauge.turnsOf]⟩
  | append first second =>
    cases h
    refine ⟨printAll_parts width indent flat (.append first second) todo cursor, ?_⟩
    have hparts : (second.parts.map fun part => Gauge.turnsOf part).sum ≤ Gauge.turnsOf second :=
      turnsOf_parts_le second
    simp only [turnsLeft, Gauge.turnsOf, List.map_append, List.map_cons, List.map_map,
      Function.comp_def, List.sum_append, List.sum_cons]
    omega
  | group body =>
    cases h
    refine ⟨?_, by simp [turnsLeft, Gauge.turnsOf]⟩
    cases flat with
    | true => rfl
    | false =>
      have hfits := Gauge.fits_eq_answer
        ⟨width - cursor.column, [⟨true, body⟩], todo.map Task.item, 0⟩
      simp only [Gauge.ahead, List.drop_zero, List.cons_append, List.nil_append] at hfits
      simp only [printAll, print, Bool.false_eq_true, if_false, hfits, ok_bind, Bool.false_or]
  | hole label => exact label.elim

/-- The page that printing comes to. -/
def run (width : Int) (work : WorkList) : String :=
  match _hturn : work.turn width with
  | .inl page => page
  | .inr next => next.run width
termination_by work.turnsLeft
decreasing_by exact (keeps_of_turn_inr ‹_›).turnsLeft

/-- Turn by turn, the tasks come to the page that they are printed to by recursion. -/
theorem text_eq_run {width : Int} {work : WorkList} {cursor : Cursor}
    (h : printAll width work.todo work.cursor = .ok cursor) : cursor.text = work.run width := by
  fun_induction run width work with
  | case1 work page hturn =>
    obtain ⟨_ | ⟨task, todo⟩, _⟩ := work
    · cases h
      cases hturn
      rfl
    · -- there is a turn for each document
      obtain ⟨indent, flat, doc⟩ := task
      cases doc with
      | hole label => exact label.elim
      | _ => cases hturn
  | case2 work next hturn ih => exact ih ((keeps_of_turn_inr hturn).printAll ▸ h)

/-- A work list and recursion print a document alike. -/
theorem pretty_eq_run (doc : Doc Empty) (width : Int) :
    doc.pretty width = (start doc).run width := by
  have hlayout := layout_eq_pretty doc width
  simp only [layout, bind_eq_ok, pure_eq_ok] at hlayout
  obtain ⟨cursor, hprint, htext⟩ := hlayout
  have hall : printAll width (start doc).todo (start doc).cursor = .ok cursor := by
    simp only [start, printAll, List.map_nil, hprint, ok_bind]
  rw [← htext, text_eq_run hall]

end WorkList

/-- A document without holes is always printed from the work list, and the text is the whole
document, piece by piece and in order, under one choice for its groups. Recursion comes to the
same text. -/
theorem layout_eq_page_of_choice (doc : Doc Empty) (width : Int) :
    ∃ choice : Choice false doc,
      (WorkList.start doc).run width = choice.page 0 ∧ doc.layout width = .ok (choice.page 0) := by
  obtain ⟨choice, hchoice⟩ := (pretty_laid doc width).exists_choice
  refine ⟨choice, ?_, ?_⟩
  · rw [← WorkList.pretty_eq_run, hchoice]
  · rw [layout_eq_pretty, hchoice]

end Resumable.Doc
