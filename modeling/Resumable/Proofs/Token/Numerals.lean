import Resumable.Proofs.Canon.Constants
import Resumable.Proofs.Text.Positional

/-!
# Numerals among tokens

A numeral in a text is decimal, or hexadecimal after a zero and an `x`. To convert it to the
decimal numeral of its number, it is read and the number is shown. Within a limit on digits
either may fail: a decimal numeral is not read if it is too long, however many of its digits are
zeros, and a number is not shown if its numeral is too long.
-/

namespace Resumable.Token

open Text (DecimalNumeral DigitLimit Overlong positional)

/-! ## Numerals in a text -/

/-- The number that a numeral denotes in the base it is written in. -/
inductive Denotes : List Char → Nat → Prop where
  | decimal {digits : List Char} (matched : Pattern.decimal.Matches digits) :
      Denotes digits (positional 10 digits)
  | hexadecimal {text : List Char} (matched : Pattern.hexadecimal.Matches text) :
      Denotes text (positional 16 (text.drop 2))

/-- A numeral is read as the number that it denotes. -/
theorem Denotes.number_eq {text : List Char} {value : Nat} (h : Denotes text value) :
    number text = value := by
  cases h with
  | decimal matched =>
    cases matched with
    | decimal _ digit =>
      rw [number_of_decimal digit, Text.numeralValue_eq_positional 10 fun c hc =>
        Text.isHexadecimal_of_isDecimal (digit c hc)]
  | hexadecimal matched =>
    cases matched with
    | hexadecimal base _ digit =>
      rw [number_of_hexadecimal base, Text.numeralValue_eq_positional 16 digit]
      rfl

theorem Denotes.spellable {text : List Char} {value : Nat} (h : Denotes text value) :
    Word.Spellable ⟨.integer, text⟩ := by
  cases h with
  | decimal matched => exact spellable_decimal matched
  | hexadecimal matched => exact spellable_hexadecimal matched

/-- An integer that is scanned is a numeral. -/
theorem Genuine.exists_denotes {text : List Char} {token : Token} (h : Genuine text token)
    (hkind : token.kind = .integer) : ∃ value, Denotes token.text value := by
  obtain ⟨htext, pattern, hmunched, hreads⟩ := h
  have hmatched : pattern.Matches token.text := htext ▸ hmunched.2.matched
  cases pattern with
  | decimal => exact ⟨_, .decimal hmatched⟩
  | hexadecimal => exact ⟨_, .hexadecimal hmatched⟩
  | word =>
    have hname := hreads.2.1 (by rw [hkind]; decide)
    exact absurd (hkind.symm.trans hname) (by decide)
  | arrow | mark =>
    have hlength := hmatched.length_le_two (by decide)
    rw [← show token.kind.text.toList = token.text from hreads, hkind] at hlength
    exact absurd hlength (by decide)
  | blanks | comment | stray => exact hreads.elim
  | singleQuoted | doubleQuoted => exact absurd (hkind.symm.trans hreads.1) (by decide)

/-- An atom is the decimal numeral of the number that a numeral denotes. -/
def Shows (text : List Char) (atom : String) : Prop :=
  ∃ value, Denotes text value ∧ DecimalNumeral atom.toList value

theorem Denotes.shows_repr {text : List Char} {value : Nat} (h : Denotes text value) :
    Shows text (number text).repr := by
  rw [h.number_eq]
  exact ⟨value, h, Text.decimalNumeral_repr value⟩

/-- Numerals are shown alike exactly if they denote the same number. -/
theorem Shows.eq_iff {text text' : List Char} {atom atom' : String} (h : Shows text atom)
    (h' : Shows text' atom') :
    atom = atom' ↔ ∃ value, Denotes text value ∧ Denotes text' value := by
  obtain ⟨value, hdenotes, hnumeral⟩ := h
  obtain ⟨value', hdenotes', hnumeral'⟩ := h'
  constructor
  · rintro rfl
    obtain rfl : value = value' := hnumeral.value.symm.trans hnumeral'.value
    exact ⟨value, hdenotes, hdenotes'⟩
  · rintro ⟨same, hsame, hsame'⟩
    obtain rfl : value = same := hdenotes.number_eq.symm.trans hsame.number_eq
    obtain rfl : value' = value := hdenotes'.number_eq.symm.trans hsame'.number_eq
    exact String.toList_inj.1 (hnumeral.unique hnumeral')

theorem Shows.unique {text : List Char} {atom atom' : String} (h : Shows text atom)
    (h' : Shows text atom') : atom = atom' := by
  have hvalue : ∃ value, Denotes text value := h.imp fun _ hshown => hshown.1
  exact (h.eq_iff h').2 (hvalue.imp fun _ hdenotes => ⟨hdenotes, hdenotes⟩)

/-- The numerals among some tokens. -/
def integerTexts (tokens : List Token) : List (List Char) :=
  (tokens.filter (·.kind = .integer)).map (·.text)

theorem leaf?_of_integer {token : Token} (h : token.kind = .integer) :
    leaf? token = some (.integer (number token.text) (some token.spot)) := by
  rw [leaf?, h]
  rfl

section Within

variable {limit : DigitLimit} {token : Token}

theorem unreadable?_of_decimal (hkind : token.kind = .integer)
    (h : Pattern.decimal.Matches token.text) :
    token.unreadable? limit = limit.reading? token.text.length := by
  cases h with
  | decimal _ digit =>
    rw [unreadable?, if_pos hkind]
    split
    · next _ htext => exact absurd (digit 'x' (by simp [htext])) (by decide)
    · next _ htext => exact absurd (digit 'X' (by simp [htext])) (by decide)
    · rfl

theorem unreadable?_of_hexadecimal (h : Pattern.hexadecimal.Matches token.text) :
    token.unreadable? limit = none := by
  obtain ⟨kind, text, spot⟩ := token
  cases h with
  | hexadecimal base => rcases base with rfl | rfl <;> simp [unreadable?]

theorem unreadable?_of_ne (hkind : token.kind ≠ .integer) : token.unreadable? limit = none :=
  if_neg hkind

/-- What a numeral is converted to within a limit on digits, or why it is not. -/
inductive Converts (limit : DigitLimit) (text : List Char) : Except Overlong String → Prop where
  | shown {atom : String} (shows : Shows text atom)
      (read : Pattern.decimal.Matches text → limit.Allows text.length)
      (short : limit.Allows atom.length) : Converts limit text (.ok atom)
  | unread {most : Nat} (decimal : Pattern.decimal.Matches text) (bound : limit = some most)
      (long : most < text.length) : Converts limit text (.error (.numeral most text.length))
  | unshown {atom : String} {most : Nat} (shows : Shows text atom)
      (read : Pattern.decimal.Matches text → limit.Allows text.length) (bound : limit = some most)
      (long : most < atom.length) : Converts limit text (.error (.number most))

theorem Converts.unique {text : List Char} {result result' : Except Overlong String}
    (h : Converts limit text result) (h' : Converts limit text result') : result = result' := by
  -- what a numeral is, how long it is and how long its numeral is decide the case
  cases h with
  | shown shows read short =>
    cases h' with
    | shown shows' => rw [shows.unique shows']
    | unread decimal bound long => exact absurd (read decimal _ bound) (by omega)
    | unshown shows' _ bound long =>
      rw [← shows.unique shows'] at long
      exact absurd (short _ bound) (by omega)
  | unread decimal bound long =>
    cases h' with
    | shown _ read => exact absurd (read decimal _ bound) (by omega)
    | unread _ bound' =>
      cases bound.symm.trans bound'
      rfl
    | unshown _ read => exact absurd (read decimal _ bound) (by omega)
  | unshown shows read bound long =>
    cases h' with
    | shown shows' _ short =>
      rw [shows.unique shows'] at long
      exact absurd (short _ bound) (by omega)
    | unread decimal bound' long' => exact absurd (read decimal _ bound') (by omega)
    | unshown _ _ bound' =>
      cases bound.symm.trans bound'
      rfl

/-- A numeral is read, and its number is shown. -/
def converted (limit : DigitLimit) (token : Token) : Except Overlong String :=
  match token.unreadable? limit with
  | some overlong => .error overlong
  | none => limit.shown (number token.text)

theorem converted_eq_ok_iff {atom : String} :
    token.converted limit = .ok atom ↔
      token.unreadable? limit = none ∧ limit.shown (number token.text) = .ok atom := by
  unfold converted
  cases token.unreadable? limit <;> simp

/-- Reading and showing converts each numeral. -/
theorem Denotes.converts {value : Nat} (h : Denotes token.text value)
    (hkind : token.kind = .integer) : Converts limit token.text (token.converted limit) := by
  unfold converted
  split
  · next overlong hunreadable =>
    cases h with
    | decimal matched =>
      rw [unreadable?_of_decimal hkind matched] at hunreadable
      obtain ⟨most, hlimit, hlong, rfl⟩ := DigitLimit.reading?_eq_some_iff.1 hunreadable
      exact .unread matched hlimit hlong
    | hexadecimal matched =>
      rw [unreadable?_of_hexadecimal matched] at hunreadable
      cases hunreadable
  · next hreadable =>
    have hread : Pattern.decimal.Matches token.text → limit.Allows token.text.length := by
      intro hmatched
      rw [unreadable?_of_decimal hkind hmatched] at hreadable
      exact DigitLimit.reading?_eq_none_iff.1 hreadable
    cases hshown : limit.shown (number token.text) with
    | ok atom =>
      obtain ⟨rfl, hshort⟩ := DigitLimit.shown_eq_ok_iff.1 hshown
      exact .shown h.shows_repr hread hshort
    | error overlong =>
      obtain ⟨most, hlimit, hlong, rfl⟩ := DigitLimit.shown_eq_error_iff.1 hshown
      exact .unshown h.shows_repr hread hlimit hlong

/-- A numeral that is converted within a limit. -/
def Short (limit : DigitLimit) (text : List Char) : Prop :=
  ∃ atom, Converts limit text (.ok atom)

theorem Denotes.short {text : List Char} {value : Nat} (h : Denotes text value)
    (hread : limit.Allows text.length) (hshown : limit.Allows (number text).repr.length) :
    Short limit text :=
  ⟨_, .shown h.shows_repr (fun _ => hread) hshown⟩

theorem Short.converts {text : List Char} {atom : String} (h : Short limit text)
    (hshows : Shows text atom) : Converts limit text (.ok atom) := by
  obtain ⟨shown, hconverts⟩ := h
  cases hconverts with
  | shown shows read short =>
    obtain rfl := hshows.unique shows
    exact .shown shows read short

theorem Denotes.short_iff {value : Nat} (h : Denotes token.text value)
    (hkind : token.kind = .integer) :
    Short limit token.text ↔ ∃ atom, token.converted limit = .ok atom := by
  constructor
  · rintro ⟨atom, hconverts⟩
    exact ⟨atom, (h.converts hkind).unique hconverts⟩
  · rintro ⟨atom, hconverted⟩
    exact ⟨atom, hconverted ▸ h.converts hkind⟩

end Within

end Resumable.Token
