import Resumable.Source.Spot
import Resumable.Text.Lines

/-!
# Illustrations

An illustration is of a spot in a text. When it is drawn, it shows the line on which the
spot starts, and below it marks the part of the spot that is on that line, with a caption.
-/

namespace Resumable.Report

open Source (Spot)

/-- A row of characters, filled up with blanks on the left. -/
def alignRight (width : Nat) (cs : List Char) : List Char :=
  List.replicate (width - cs.length) ' ' ++ cs

/-- The margin before a line: its number in six columns, of which at least one is
blank. -/
def margin (row : Nat) : List Char :=
  alignRight 6 (' ' :: (Nat.repr row).toList) ++ [' ', '|']

/-- Blanks below a row of characters. Tabs are kept, so that both rows advance
alike. -/
def blanksBelow (cs : List Char) : List Char :=
  cs.map fun c => if c = '\t' then c else ' '

/-- A spot to be shown, in the text that it refers to. -/
structure Illustration where
  source : String
  spot : Spot
  caption : String
  deriving Repr, DecidableEq

/-- Illustrate a spot. -/
def illustrate (source : String) (spot : Spot) (caption : String) : Illustration :=
  ⟨source, spot, caption⟩

/-- The line of a spot and the marks below it. -/
def Illustration.text (picture : Illustration) : String :=
  let spot := picture.spot
  let place := Text.locate 1 spot.start (Text.splitLines picture.source.toList)
  let width := max 1 (min (spot.stop - spot.start) (place.line.length - place.column))
  let before := margin place.row ++ place.line.take place.column
  String.ofList (margin place.row ++ Text.trimEnd place.line ++ ['\n'] ++
    blanksBelow before ++ List.replicate width '^' ++ [' ']) ++ picture.caption

end Resumable.Report
