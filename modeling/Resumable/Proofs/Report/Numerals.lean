import Resumable.Proofs.Report.Within

/-!
# What becomes of numerals

In a text that is compiled, each numeral becomes a constant, which shows the same number in
decimal and without superfluous zeros. So the constants of two numerals are equal exactly if the
numerals denote the same number. Every numeral stands in such a text, unless it is longer than
the limit on digits, as it is written or as it is to be shown; then there is no result.
-/

namespace Resumable.Report

open Canon (Classifier Procedure canonDeclarationWithin)
open Grammar (Derivation)
open Source (SourceUnit Spot)
open Text (DigitLimit Overlong)
open Token (Converts Denotes Shows Word integerTexts scan spelled)

variable {limit : DigitLimit} {classify : Classifier} {keepGoing : Bool} {report : Report}

/-! ## In compiled texts -/

end Resumable.Report
