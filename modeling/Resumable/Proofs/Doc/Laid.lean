import Resumable.Proofs.Doc.Fit

/-!
# Legal layouts

`Laid` says which texts a document may be printed as, whatever fits: each group
is flat or broken, and everything inside a flat group is flat. Printing always
gives one of these texts. `Choice` spells out which groups are flat.
-/

namespace Resumable.Doc

variable {α : Type}

/-- A text is a legal layout of a document at an indentation, within a flat group
or not. -/
inductive Laid : (indent : Int) → (flat : Bool) → Doc α → String → Prop where
  | empty {indent : Int} {flat : Bool} : Laid indent flat .empty ""
  | text {indent : Int} {flat : Bool} {content : String} : Laid indent flat (.text content) content
  | flatLine {indent : Int} : Laid indent true .line " "
  | brokenLine {indent : Int} :
      Laid indent false .line ("\n" ++ String.ofList (List.replicate indent.toNat ' '))
  | append {indent : Int} {flat : Bool} {first second : Doc α} {s t : String}
      (first_laid : Laid indent flat first s) (second_laid : Laid indent flat second t) :
      Laid indent flat (.append first second) (s ++ t)
  | nest {indent depth : Int} {flat : Bool} {body : Doc α} {s : String}
      (body_laid : Laid (indent + depth) flat body s) : Laid indent flat (.nest depth body) s
  | flatGroup {indent : Int} {flat : Bool} {body : Doc α} {s : String}
      (body_laid : Laid indent true body s) : Laid indent flat (.group body) s
  | brokenGroup {indent : Int} {body : Doc α} {s : String}
      (body_laid : Laid indent false body s) : Laid indent false (.group body) s

theorem Laid.of_group {indent : Int} {flat : Bool} {body : Doc α} {s : String}
    (h : Laid indent flat (.group body) s) : ∃ flat', Laid indent flat' body s := by
  cases h with
  | flatGroup hbody => exact ⟨true, hbody⟩
  | brokenGroup hbody => exact ⟨false, hbody⟩

/-- What printing adds to the page is a legal layout. -/
theorem print_laid {width : Int} {doc : Doc α} {indent : Int} {flat : Bool}
    {rest : List (Item α)} {cursor cursor' : Cursor}
    (h : print width doc indent flat rest cursor = .ok cursor') :
    ∃ s, cursor'.text = cursor.text ++ s ∧ Laid indent flat doc s := by
  induction doc generalizing indent flat rest cursor cursor' with
  | empty =>
    cases h
    exact ⟨"", by simp, .empty⟩
  | text content =>
    cases h
    exact ⟨content, rfl, .text⟩
  | line =>
    cases flat with
    | true =>
      cases h
      exact ⟨" ", rfl, .flatLine⟩
    | false =>
      cases h
      exact ⟨_, String.append_assoc, .brokenLine⟩
  | append first second ihfirst ihsecond =>
    simp only [print, bind_eq_ok] at h
    obtain ⟨middle, hfirst, hsecond⟩ := h
    obtain ⟨s, hs, hlaid⟩ := ihfirst hfirst
    obtain ⟨t, ht, hlaid'⟩ := ihsecond hsecond
    exact ⟨s ++ t, by rw [ht, hs, String.append_assoc], .append hlaid hlaid'⟩
  | nest depth body ih =>
    obtain ⟨s, hs, hlaid⟩ := ih h
    exact ⟨s, hs, .nest hlaid⟩
  | group body ih =>
    cases flat with
    | true =>
      obtain ⟨s, hs, hlaid⟩ := ih h
      exact ⟨s, hs, .flatGroup hlaid⟩
    | false =>
      simp only [print, Bool.false_eq_true, if_false, bind_eq_ok] at h
      obtain ⟨fit, -, hbody⟩ := h
      obtain ⟨s, hs, hlaid⟩ := ih hbody
      cases fit with
      | true => exact ⟨s, hs, .flatGroup hlaid⟩
      | false => exact ⟨s, hs, .brokenGroup hlaid⟩
  | hole label => cases h

theorem layout_laid {doc : Doc α} {width : Int} {page : String}
    (h : doc.layout width = .ok page) : Laid 0 false doc page := by
  simp only [layout, bind_eq_ok, pure_eq_ok] at h
  obtain ⟨cursor, hprint, rfl⟩ := h
  obtain ⟨s, hs, hlaid⟩ := print_laid hprint
  have htext : cursor.text = s := by simpa using hs
  exact htext ▸ hlaid

/-- A document without holes is printed as one of its legal layouts. -/
theorem pretty_laid (doc : Doc Empty) (width : Int) : Laid 0 false doc (doc.pretty width) :=
  layout_laid (layout_eq_pretty doc width)

/-! ## Choices -/

/-- Flat or broken for each group of a document, which itself stands inside a flat
group or not. Inside a flat group every group is flat. -/
inductive Choice : (flat : Bool) → Doc α → Type where
  | empty {flat : Bool} : Choice flat .empty
  | text {flat : Bool} (content : String) : Choice flat (.text content)
  | line {flat : Bool} : Choice flat .line
  | append {flat : Bool} {first second : Doc α} (first_choice : Choice flat first)
      (second_choice : Choice flat second) : Choice flat (.append first second)
  | nest {flat : Bool} {body : Doc α} (depth : Int) (body_choice : Choice flat body) :
      Choice flat (.nest depth body)
  | group {flat : Bool} {body : Doc α} (decided : Bool) (inherited : flat = true → decided = true)
      (body_choice : Choice decided body) : Choice flat (.group body)

/-- The document from left to right under a choice. A line is a blank inside a flat
group; elsewhere it is a line break and the depths of the nests around it, added up,
in blanks (none if the sum is negative). -/
def Choice.page {flat : Bool} {doc : Doc α} (depths : Int) : Choice flat doc → String
  | .empty => ""
  | .text content => content
  | .line => if flat then " " else "\n" ++ String.ofList (List.replicate depths.toNat ' ')
  | .append first second => first.page depths ++ second.page depths
  | .nest depth body => body.page (depths + depth)
  | .group _ _ body => body.page depths

theorem Laid.exists_choice {indent : Int} {flat : Bool} {doc : Doc α} {s : String}
    (h : Laid indent flat doc s) : ∃ choice : Choice flat doc, choice.page indent = s := by
  induction h with
  | empty => exact ⟨.empty, rfl⟩
  | text => exact ⟨.text _, rfl⟩
  | flatLine => exact ⟨.line, rfl⟩
  | brokenLine => exact ⟨.line, rfl⟩
  | append _ _ ihfirst ihsecond =>
    obtain ⟨first, rfl⟩ := ihfirst
    obtain ⟨second, rfl⟩ := ihsecond
    exact ⟨.append first second, rfl⟩
  | nest _ ih =>
    obtain ⟨body, rfl⟩ := ih
    exact ⟨.nest _ body, rfl⟩
  | flatGroup _ ih =>
    obtain ⟨body, rfl⟩ := ih
    exact ⟨.group true (fun _ => rfl) body, rfl⟩
  | brokenGroup _ ih =>
    obtain ⟨body, rfl⟩ := ih
    exact ⟨.group false id body, rfl⟩

end Resumable.Doc
