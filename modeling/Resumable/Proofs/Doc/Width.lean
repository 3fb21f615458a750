import Resumable.Proofs.Doc.Fit
import Resumable.Proofs.Text.Lines

/-!
# Lines that keep to the width

A line with a blank after something else than blanks has a flat group on it, and a
group is only flat if it and all that follows up to the next line break fits. Later
groups on the line are not decided yet and count as broken, so while printing goes on
the rest of the line either still fits or is tested again.
-/

namespace Resumable.Text

/-- Some blank of the line comes after a character that is no blank. -/
def Spaced (line : List Char) : Prop :=
  ∃ before after : List Char, line = before ++ ' ' :: after ∧ ∃ c ∈ before, c ≠ ' '

theorem not_spaced_replicate (n : Nat) : ¬ Spaced (List.replicate n ' ') := by
  rintro ⟨before, after, heq, c, hc, hne⟩
  have hmem : c ∈ List.replicate n ' ' := heq ▸ List.mem_append_left _ hc
  exact hne (List.eq_of_mem_replicate hmem)

theorem Spaced.of_append {line content : List Char} (h : Spaced (line ++ content))
    (hcontent : ' ' ∉ content) : Spaced line := by
  obtain ⟨before, after, heq, hbefore⟩ := h
  obtain ⟨blank, rfl, hrest⟩ | ⟨more, rfl, hrest⟩ := List.append_eq_append_iff.1 heq
  · exact absurd (hrest ▸ List.mem_append_right _ List.mem_cons_self) hcontent
  · cases more with
    | nil => exact absurd (List.nil_append content ▸ hrest ▸ List.mem_cons_self) hcontent
    | cons c more =>
      obtain ⟨rfl, -⟩ := List.cons.inj hrest
      exact ⟨before, more, rfl, hbefore⟩

end Resumable.Text

namespace Resumable.Doc

open Text (Spaced printedLines)

variable {α : Type}

/-- No nest goes to the left, and texts have no blanks and no line feeds. -/
def Plain : Doc α → Prop
  | .empty | .line | .hole _ => True
  | .text content => ' ' ∉ content.toList ∧ '\n' ∉ content.toList
  | .append first second => first.Plain ∧ second.Plain
  | .nest depth body => 0 ≤ depth ∧ body.Plain
  | .group body => body.Plain

/-! ## The page at the cursor -/

/-- The page so far has some finished lines, and printing goes on at the end of one more. -/
structure Cursor.Shows (cursor : Cursor) (finished : List (List Char)) (line : List Char) :
    Prop where
  text : cursor.text.toList = finished.flatMap (· ++ ['\n']) ++ line
  column : cursor.column = line.length
  finished_single : ∀ done ∈ finished, '\n' ∉ done
  line_single : '\n' ∉ line

namespace Cursor.Shows

variable {cursor : Cursor} {finished : List (List Char)} {line : List Char}

theorem start : Shows {} [] [] :=
  ⟨rfl, rfl, by simp, by simp⟩

theorem write (h : cursor.Shows finished line) {content : String} (hcontent : '\n' ∉ content.toList) :
    (cursor.write content).Shows finished (line ++ content.toList) where
  text := by rw [Cursor.write, String.toList_append, h.text, List.append_assoc]
  column := by
    rw [Cursor.write, h.column, List.length_append, String.length_toList, Nat.cast_add]
  finished_single := h.finished_single
  line_single := by simp [h.line_single, hcontent]

theorem newline (h : cursor.Shows finished line) {indent : Int} (hindent : 0 ≤ indent) :
    (cursor.newline indent).Shows (finished ++ [line]) (List.replicate indent.toNat ' ') where
  text := by simp [Cursor.newline, h.text]
  column := by
    rw [Cursor.newline, List.length_replicate, Int.toNat_of_nonneg hindent]
  finished_single := by simpa [or_imp, forall_and] using ⟨h.finished_single, h.line_single⟩
  line_single := by simp

theorem printedLines_eq (h : cursor.Shows finished line) :
    printedLines cursor.text.toList = finished ++ [line] := by
  rw [h.text, Text.printedLines_finished h.finished_single, Text.printedLines_single h.line_single]

end Cursor.Shows

/-! ## The invariant of printing -/

/-- The finished lines keep to the width if they are spaced. So will the line at the
cursor: if it is spaced already, or the items start inside a flat group, then there is
room for the items up to the next line break. -/
structure Honours (width : Int) (cursor : Cursor) (flat : Bool) (items : List (Item α))
    (finished : List (List Char)) (line : List Char) : Prop where
  shows : cursor.Shows finished line
  finished_within : ∀ done ∈ finished, Spaced done → (done.length : Int) ≤ width
  room : flat = true ∨ Spaced line → fits (width - cursor.column) items = .ok true

namespace Honours

variable {width : Int} {cursor : Cursor} {flat : Bool} {items items' rest : List (Item α)}
  {finished : List (List Char)} {line : List Char}

theorem congr (h : Honours width cursor flat items finished line)
    (heq : ∀ room, fits room items = fits room items') :
    Honours width cursor flat items' finished line :=
  ⟨h.shows, h.finished_within, fun hline => heq _ ▸ h.room hline⟩

/-- Outside flat groups less is asked for. -/
theorem unflat (h : Honours width cursor true items finished line) :
    Honours width cursor false items finished line :=
  ⟨h.shows, h.finished_within, fun _ => h.room (.inl rfl)⟩

theorem write {item : Item α} {content : String}
    (h : Honours width cursor flat (item :: rest) finished line)
    (hitem : ∀ room, fits room (item :: rest) = fits (room - content.length) rest)
    (hsingle : '\n' ∉ content.toList) (hblank : flat = true ∨ ' ' ∉ content.toList) :
    Honours width (cursor.write content) flat rest finished (line ++ content.toList) where
  shows := h.shows.write hsingle
  finished_within := h.finished_within
  room hline := by
    have hbefore : flat = true ∨ Spaced line := by
      rcases hblank with hflat | hblank
      · exact .inl hflat
      · exact hline.imp_right fun hspaced => hspaced.of_append hblank
    rw [Cursor.write, ← Int.sub_sub, ← hitem]
    exact h.room hbefore

/-- A line break finishes the line in time. -/
theorem newline (h : Honours width cursor false (⟨false, .line⟩ :: rest) finished line)
    {indent : Int} (hindent : 0 ≤ indent) :
    Honours width (cursor.newline indent) false rest (finished ++ [line])
      (List.replicate indent.toNat ' ') where
  shows := h.shows.newline hindent
  finished_within := by
    intro done hdone hspaced
    rcases List.mem_append.1 hdone with hdone | hdone
    · exact h.finished_within done hdone hspaced
    · obtain rfl := List.mem_singleton.1 hdone
      have hroom := h.room (.inr hspaced)
      rw [fits_brokenLine, Except.ok.injEq, decide_eq_true_iff, h.shows.column] at hroom
      omega
  room hline := by
    rcases hline with hflat | hspaced
    · cases hflat
    · exact absurd hspaced (Text.not_spaced_replicate _)

end Honours

theorem print_honours {width : Int} {doc : Doc α} (hplain : doc.Plain) {indent : Int}
    (hindent : 0 ≤ indent) {flat : Bool} {rest : List (Item α)} {cursor cursor' : Cursor}
    {finished : List (List Char)} {line : List Char}
    (h : Honours width cursor flat (⟨flat, doc⟩ :: rest) finished line)
    (hprint : print width doc indent flat rest cursor = .ok cursor') :
    ∃ finished' line', Honours width cursor' flat rest finished' line' := by
  induction doc generalizing indent flat rest cursor cursor' finished line with
  | empty =>
    cases hprint
    exact ⟨_, _, h.congr fun _ => fits_empty⟩
  | text content =>
    cases hprint
    exact ⟨_, _, h.write (fun _ => fits_text) hplain.2 (.inr hplain.1)⟩
  | line =>
    cases flat with
    | true =>
      cases hprint
      exact ⟨_, _, h.write (fun _ => fits_flatLine) (by decide) (.inl rfl)⟩
    | false =>
      cases hprint
      exact ⟨_, _, h.newline hindent⟩
  | append first second ihfirst ihsecond =>
    simp only [print, bind_eq_ok] at hprint
    obtain ⟨middle, hfirst, hsecond⟩ := hprint
    obtain ⟨_, _, hmiddle⟩ := ihfirst hplain.1 hindent (h.congr fun _ => fits_append) hfirst
    exact ihsecond hplain.2 hindent hmiddle hsecond
  | nest depth body ih =>
    exact ih hplain.2 (Int.add_nonneg hindent hplain.1) (h.congr fun _ => fits_nest) hprint
  | group body ih =>
    have hbody := h.congr fun _ => fits_group
    cases flat with
    | true => exact ih hplain hindent hbody hprint
    | false =>
      simp only [print, Bool.false_eq_true, if_false, bind_eq_ok] at hprint
      obtain ⟨fit, hfit, hprint⟩ := hprint
      cases fit with
      | true =>
        -- The test that made the group flat is what the invariant asks for inside it.
        obtain ⟨_, _, hafter⟩ := ih hplain hindent
          ⟨h.shows, h.finished_within, fun _ => hfit⟩ hprint
        exact ⟨_, _, hafter.unflat⟩
      | false => exact ih hplain hindent hbody hprint
  | hole label => cases hprint

/-- A spaced line of a page keeps to the width. -/
theorem layout_honours {doc : Doc α} (hplain : doc.Plain) {width : Int} {page : String}
    (h : doc.layout width = .ok page) {line : List Char}
    (hline : line ∈ printedLines page.toList) (hspaced : Spaced line) :
    (line.length : Int) ≤ width := by
  simp only [layout, bind_eq_ok, pure_eq_ok] at h
  obtain ⟨cursor, hprint, rfl⟩ := h
  have hstart : Honours width {} false [⟨false, doc⟩] [] [] := by
    refine ⟨.start, by simp, ?_⟩
    rintro (hflat | hspaced)
    · cases hflat
    · exact absurd hspaced (Text.not_spaced_replicate 0)
  obtain ⟨finished, last, hend⟩ := print_honours hplain le_rfl hstart hprint
  rw [hend.shows.printedLines_eq, List.mem_append, List.mem_singleton] at hline
  rcases hline with hline | rfl
  · exact hend.finished_within line hline hspaced
  · have hroom := hend.room (.inr hspaced)
    rw [fits_nil, Except.ok.injEq, decide_eq_true_iff, hend.shows.column] at hroom
    omega

end Resumable.Doc
