import Resumable.Doc.Layout
import Resumable.Proofs.Except

/-!
# The fit test, one document at a time

`fits` walks over the items with the room that is left. Each equation here says
what one document at the head of the items takes from the room. A flat document
takes the length of its one line, and that line is what is printed for it.
-/

namespace Resumable.Doc

variable {α : Type} {room : Int} {flat : Bool} {rest : List (Item α)}

/-! ## What each document takes -/

theorem fits_nil : fits room ([] : List (Item α)) = .ok (decide (0 ≤ room)) := by
  by_cases h : room < 0
  · simp [fits, h]
  · simp [fits, h, measureAll, Int.not_lt.1 h]

theorem fits_of_neg (h : room < 0) : fits room rest = .ok false :=
  if_pos h

/-- Items that are measured alike fit alike. -/
theorem fits_congr {rest' : List (Item α)} (h : ∀ room, measureAll rest room = measureAll rest' room) :
    fits room rest = fits room rest' := by
  rw [fits, fits, h]

@[simp] theorem fits_empty : fits room (⟨flat, .empty⟩ :: rest) = fits room rest :=
  fits_congr fun _ => rfl

/-- An item that takes a number of columns leaves the others to the rest. -/
theorem fits_take {item : Item α} {length : Nat}
    (h : ∀ room, item.doc.measure item.flat room = .ok (.take room length)) :
    fits room (item :: rest) = fits (room - length) rest := by
  by_cases hneg : room < 0
  · rw [fits_of_neg hneg, fits_of_neg (by omega)]
  · rw [fits, if_neg hneg, measureAll, h, ok_bind, Fit.take]
    by_cases hlt : room < length
    · rw [if_pos hlt, fits_of_neg (by omega)]
      rfl
    · rw [if_neg hlt, fits, if_neg (by omega)]

@[simp] theorem fits_text {content : String} :
    fits room (⟨flat, .text content⟩ :: rest) = fits (room - content.length) rest :=
  fits_take fun _ => rfl

@[simp] theorem fits_flatLine : fits room (⟨true, .line⟩ :: rest) = fits (room - 1) rest :=
  fits_take fun _ => rfl

/-- Nothing that comes after a broken line matters. -/
@[simp] theorem fits_brokenLine :
    fits room (⟨false, .line⟩ :: rest) = .ok (decide (0 ≤ room)) := by
  by_cases h : room < 0
  · simp [fits, h]
  · rw [fits, if_neg h, decide_eq_true (Int.not_lt.1 h)]
    rfl

theorem measureAll_append {first second : Doc α} (room : Int) :
    measureAll (⟨flat, .append first second⟩ :: rest) room =
      measureAll (⟨flat, first⟩ :: ⟨flat, second⟩ :: rest) room := by
  simp only [measureAll, measure]
  cases first.measure flat room with
  | error fault => rfl
  | ok fit => cases fit <;> rfl

@[simp] theorem fits_append {first second : Doc α} :
    fits room (⟨flat, .append first second⟩ :: rest) =
      fits room (⟨flat, first⟩ :: ⟨flat, second⟩ :: rest) :=
  fits_congr measureAll_append

@[simp] theorem fits_nest {depth : Int} {body : Doc α} :
    fits room (⟨flat, .nest depth body⟩ :: rest) = fits room (⟨flat, body⟩ :: rest) :=
  fits_congr fun _ => rfl

@[simp] theorem fits_group {body : Doc α} :
    fits room (⟨flat, .group body⟩ :: rest) = fits room (⟨flat, body⟩ :: rest) :=
  fits_congr fun _ => rfl

/-! ## Documents without holes -/

/-- Nothing is wrong with a document that has no holes. -/
theorem exists_ok {β : Type} (result : Except (Fault Empty) β) : ∃ value, result = .ok value := by
  cases result with
  | ok value => exact ⟨value, rfl⟩
  | error fault => cases fault <;> contradiction

theorem layout_eq_pretty (doc : Doc Empty) (width : Int) :
    doc.layout width = .ok (doc.pretty width) := by
  obtain ⟨page, hpage⟩ := exists_ok (doc.layout width)
  rw [pretty, hpage]

/-- A document on one line. -/
def oneLine : Doc Empty → String
  | .empty => ""
  | .text content => content
  | .line => " "
  | .append first second => first.oneLine ++ second.oneLine
  | .nest _ body => body.oneLine
  | .group body => body.oneLine
  | .hole label => nomatch label

theorem fits_flat (doc : Doc Empty) {room : Int} {rest : List (Item Empty)} :
    fits room (⟨true, doc⟩ :: rest) = fits (room - doc.oneLine.length) rest := by
  induction doc generalizing room rest with
  | empty => simp [oneLine]
  | text content => simp [oneLine]
  | line => exact fits_flatLine
  | append first second ihfirst ihsecond =>
    rw [fits_append, ihfirst, ihsecond, oneLine, String.length_append, Nat.cast_add, Int.sub_sub]
  | nest depth body ih => rw [fits_nest, ih, oneLine]
  | group body ih => rw [fits_group, ih, oneLine]
  | hole label => exact nomatch label

theorem write_write (cursor : Cursor) (s t : String) :
    (cursor.write s).write t = cursor.write (s ++ t) := by
  simp [Cursor.write, String.append_assoc, Int.add_assoc]

theorem print_flat (width : Int) (doc : Doc Empty) (indent : Int) (rest : List (Item Empty))
    (cursor : Cursor) : print width doc indent true rest cursor = .ok (cursor.write doc.oneLine) := by
  induction doc generalizing indent rest cursor with
  | empty => simp [print, oneLine, Cursor.write]
  | text content => rfl
  | line => rfl
  | append first second ihfirst ihsecond =>
    rw [print, ihfirst, ok_bind, ihsecond, write_write, oneLine]
  | nest depth body ih => exact ih (indent + depth) rest cursor
  | group body ih => exact ih indent rest cursor
  | hole label => exact nomatch label

end Resumable.Doc
