import Resumable.Proofs.Doc.Fit

/-!
# What the fit test counts

`firstLine` is the text that some items print up to the first line that is broken, with the
groups among them under the flag of their item. The fit test is exact: the items fit if and
only if that text has no more characters than there is room.

The test can be made without putting the item on the stack of those that follow it: `Gauge`
works on a stack of its own, takes over an item from below whenever that stack is empty, and
stops as soon as no room is left. It gives the same answer, and the stack below stays as it is.
-/

namespace Resumable.Doc

/-! ## The first line -/

/-- A piece of what is printed. -/
inductive Printed where
  | text (content : String)
  | newline
  deriving Repr, DecidableEq

/-- What a document prints if its groups are under the same flag. -/
def printed (flat : Bool) : Doc Empty → List Printed
  | .empty => []
  | .text content => [.text content]
  | .line => if flat then [.text " "] else [.newline]
  | .append first second => first.printed flat ++ second.printed flat
  | .nest _ body => body.printed flat
  | .group body => body.printed flat
  | .hole label => nomatch label

/-- The text before the first new line. -/
def lineOf : List Printed → String
  | [] => ""
  | .text content :: more => content ++ lineOf more
  | .newline :: _ => ""

/-- What some items print, one after the other, before the first line that is broken. -/
def firstLine (items : List (Item Empty)) : String :=
  lineOf (items.flatMap fun item => item.doc.printed item.flat)

variable {room : Int} {flat : Bool} {rest : List (Item Empty)}

theorem firstLine_text (content : String) :
    firstLine (⟨flat, .text content⟩ :: rest) = content ++ firstLine rest := rfl

theorem firstLine_flatLine : firstLine (⟨true, .line⟩ :: rest) = " " ++ firstLine rest := rfl

theorem firstLine_brokenLine : firstLine (⟨false, .line⟩ :: rest) = "" := rfl

theorem firstLine_append (first second : Doc Empty) :
    firstLine (⟨flat, .append first second⟩ :: rest) =
      firstLine (⟨flat, first⟩ :: ⟨flat, second⟩ :: rest) := by
  simp only [firstLine, List.flatMap_cons, printed, List.append_assoc]

/-- If the test counts the first line of the items that follow, it counts that of a document
and of those items. -/
theorem fits_cons_eq_decide (doc : Doc Empty)
    (h : ∀ room, fits room rest = .ok (decide (((firstLine rest).length : Int) ≤ room))) :
    fits room (⟨flat, doc⟩ :: rest) =
      .ok (decide (((firstLine (⟨flat, doc⟩ :: rest)).length : Int) ≤ room)) := by
  induction doc generalizing room rest with
  | empty => exact fits_empty.trans (h room)
  | text content =>
    rw [fits_text, h, firstLine_text, String.length_append, Nat.cast_add]
    simp only [le_sub_iff_add_le']
  | line =>
    cases flat with
    | true =>
      have hblank : " ".length = 1 := by decide
      rw [fits_flatLine, h, firstLine_flatLine, String.length_append, Nat.cast_add, hblank]
      simp only [le_sub_iff_add_le', Nat.cast_one]
    | false =>
      rw [fits_brokenLine, firstLine_brokenLine]
      rfl
  | append first second ihfirst ihsecond =>
    rw [fits_append, firstLine_append]
    exact ihfirst fun room => ihsecond h
  | nest depth body ih => exact fits_nest.trans (ih h)
  | group body ih => exact fits_group.trans (ih h)
  | hole label => exact nomatch label

/-- The items fit if their first line has no more characters than there is room. -/
theorem fits_eq_decide (room : Int) (items : List (Item Empty)) :
    fits room items = .ok (decide (((firstLine items).length : Int) ≤ room)) := by
  induction items generalizing room with
  | nil => exact fits_nil
  | cons item items ih => exact fits_cons_eq_decide item.doc ih

/-! ## The test on two stacks -/

/-- The fit test under way: the room that is left, a stack of its own and the work stack,
both with the top first, and how many items of the work stack it has taken over. -/
structure Gauge where
  room : Int
  stack : List (Item Empty)
  work : List (Item Empty)
  taken : Nat

namespace Gauge

/-- One turn of the test: its answer, or how it goes on. -/
def turn (gauge : Gauge) : Bool ⊕ Gauge :=
  if gauge.room < 0 then .inl false
  else
    match gauge.stack with
    | [] =>
        match gauge.work[gauge.taken]? with
        | none => .inl true
        | some item => .inr { gauge with stack := [item], taken := gauge.taken + 1 }
    | ⟨_, .empty⟩ :: stack => .inr { gauge with stack }
    | ⟨_, .text content⟩ :: stack =>
        .inr { gauge with room := gauge.room - content.length, stack }
    | ⟨true, .line⟩ :: stack => .inr { gauge with room := gauge.room - 1, stack }
    | ⟨false, .line⟩ :: _ => .inl true
    | ⟨flat, .append first second⟩ :: stack =>
        .inr { gauge with stack := ⟨flat, first⟩ :: ⟨flat, second⟩ :: stack }
    | ⟨flat, .nest _ body⟩ :: stack => .inr { gauge with stack := ⟨flat, body⟩ :: stack }
    | ⟨flat, .group body⟩ :: stack => .inr { gauge with stack := ⟨flat, body⟩ :: stack }
    | ⟨_, .hole label⟩ :: _ => nomatch label

/-- The test comes to an answer, turn by turn, and leaves the work stack as given. -/
inductive Answers : Gauge → Bool → List (Item Empty) → Prop where
  | now {gauge : Gauge} {answer : Bool} (answered : gauge.turn = .inl answer) :
      Answers gauge answer gauge.work
  | later {gauge next : Gauge} {answer : Bool} {work : List (Item Empty)}
      (goes_on : gauge.turn = .inr next) (answers : Answers next answer work) :
      Answers gauge answer work

/-- The items that are still to be looked at, in order. -/
def ahead (gauge : Gauge) : List (Item Empty) :=
  gauge.stack ++ gauge.work.drop gauge.taken

/-- At most so many turns are spent on a document. -/
def turnsOf : Doc Empty → Nat
  | .append first second => turnsOf first + turnsOf second + 1
  | .nest _ body => turnsOf body + 1
  | .group body => turnsOf body + 1
  | _ => 1

/-- At most so many turns are left. To take over an item is a turn of its own. -/
def turnsLeft (gauge : Gauge) : Nat :=
  (gauge.stack.map fun item => turnsOf item.doc).sum +
    ((gauge.work.drop gauge.taken).map fun item => turnsOf item.doc + 1).sum

/-- What a turn that does not answer keeps: the answer and the work stack. -/
structure Keeps (gauge next : Gauge) : Prop where
  fits : fits next.room next.ahead = fits gauge.room gauge.ahead
  work : next.work = gauge.work
  turnsLeft : next.turnsLeft < gauge.turnsLeft

theorem fits_of_turn_inl {gauge : Gauge} {answer : Bool} (h : gauge.turn = .inl answer) :
    fits gauge.room gauge.ahead = .ok answer := by
  obtain ⟨room, stack, work, taken⟩ := gauge
  unfold turn at h
  split_ifs at h with hroom
  · cases h
    exact fits_of_neg hroom
  · -- an answer is given where nothing is left to take over, and at a broken line
    dsimp only at hroom h
    split at h
    · split at h
      · rename_i hnone
        cases h
        rw [ahead, List.drop_eq_nil_of_le (List.getElem?_eq_none_iff.1 hnone), List.append_nil,
          fits_nil, decide_eq_true (Int.not_lt.1 hroom)]
      · cases h
    · cases h
    · cases h
    · cases h
    · cases h
      rw [ahead, List.cons_append, fits_brokenLine, decide_eq_true (Int.not_lt.1 hroom)]
    · cases h
    · cases h
    · cases h
    · contradiction

theorem keeps_of_turn_inr {gauge next : Gauge} (h : gauge.turn = .inr next) :
    gauge.Keeps next := by
  obtain ⟨room, stack, work, taken⟩ := gauge
  unfold turn at h
  split_ifs at h with hroom
  dsimp only at h
  split at h
  · split at h
    · cases h
    · -- the item that is taken over is the next one ahead
      rename_i item hitem
      cases h
      obtain ⟨hlt, hget⟩ := List.getElem?_eq_some_iff.1 hitem
      have hdrop : work.drop taken = item :: work.drop (taken + 1) := by
        rw [List.drop_eq_getElem_cons hlt, hget]
      exact ⟨by simp [ahead, hdrop], rfl, by simp [turnsLeft, hdrop]⟩
  · cases h
    exact ⟨fits_empty.symm, rfl, by simp [turnsLeft, turnsOf]⟩
  · cases h
    exact ⟨fits_text.symm, rfl, by simp [turnsLeft, turnsOf]⟩
  · cases h
    exact ⟨fits_flatLine.symm, rfl, by simp [turnsLeft, turnsOf]⟩
  · cases h
  · -- two items are put on the stack for one, but both are smaller
    cases h
    refine ⟨fits_append.symm, rfl, ?_⟩
    simp only [turnsLeft, turnsOf, List.map_cons, List.sum_cons]
    omega
  · cases h
    exact ⟨fits_nest.symm, rfl, by simp [turnsLeft, turnsOf]⟩
  · cases h
    exact ⟨fits_group.symm, rfl, by simp [turnsLeft, turnsOf]⟩
  · contradiction

/-- The answer that the test comes to. -/
def answer (gauge : Gauge) : Bool :=
  match _hturn : gauge.turn with
  | .inl answer => answer
  | .inr next => next.answer
termination_by gauge.turnsLeft
decreasing_by exact (keeps_of_turn_inr ‹_›).turnsLeft

theorem answers (gauge : Gauge) : gauge.Answers gauge.answer gauge.work := by
  rw [answer]
  split
  · next answer hturn => exact .now hturn
  · next next hturn =>
    have hnext := answers next
    rw [(keeps_of_turn_inr hturn).work] at hnext
    exact .later hturn hnext
termination_by gauge.turnsLeft
decreasing_by exact (keeps_of_turn_inr ‹_›).turnsLeft

/-- The test comes to the answer that holds of the items ahead. -/
theorem Answers.fits_eq {gauge : Gauge} {answer : Bool} {work : List (Item Empty)}
    (h : gauge.Answers answer work) : fits gauge.room gauge.ahead = .ok answer := by
  induction h with
  | now hturn => exact fits_of_turn_inl hturn
  | later hturn _ ih => exact (keeps_of_turn_inr hturn).fits ▸ ih

theorem fits_eq_answer (gauge : Gauge) : fits gauge.room gauge.ahead = .ok gauge.answer :=
  gauge.answers.fits_eq

end Gauge

/-- The fit test is exact: an item and those that follow it fit in the room if and only if
they print no more characters than that before the first line that is broken. A test that
takes the items from the work stack as it needs them says the same, whatever it takes, and
leaves the work stack unchanged. -/
theorem fits_exact (room : Int) (item : Item Empty) (rest : List (Item Empty)) :
    let count := (firstLine (item :: rest)).length
    fits room (item :: rest) = .ok (decide ((count : Int) ≤ room)) ∧
      Gauge.Answers ⟨room, [item], rest, 0⟩ (decide ((count : Int) ≤ room)) rest := by
  have hcount := fits_eq_decide room (item :: rest)
  let gauge : Gauge := ⟨room, [item], rest, 0⟩
  have hanswer := Except.ok.inj (gauge.fits_eq_answer.symm.trans hcount)
  exact ⟨hcount, hanswer ▸ gauge.answers⟩

end Resumable.Doc
