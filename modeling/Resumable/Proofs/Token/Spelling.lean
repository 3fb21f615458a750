import Resumable.Proofs.Token.Partition

/-!
# Texts that are made of words

A text of words with a blank after each of them is scanned as just these words.
The words may be names, reserved words, numerals and marks.
-/

namespace Resumable.Token

open Grammar (Terminal)
open Source (Spot)

/-! ## Names and numerals -/

/-- The text of a name: a word that is not reserved. -/
structure Identifier (text : String) : Prop where
  word : Pattern.word.Matches text.toList
  unreserved : ∀ kind : Terminal, kind.Reserved → text.toList ≠ kind.spelling

theorem Identifier.ofWord_eq {text : String} (h : Identifier text) :
    Terminal.ofWord text.toList = .name :=
  Terminal.ofWord_eq_name fun hreserved =>
    h.unreserved _ hreserved (Terminal.eq_spelling_of_reserved hreserved)

theorem matches_word_of_all {cs : List Char} (hne : cs ≠ []) (h : cs.all startsWord = true) :
    Pattern.word.Matches cs := by
  obtain ⟨c, tail, rfl⟩ := List.exists_cons_of_ne_nil hne
  rw [List.all_cons, Bool.and_eq_true, List.all_eq_true] at h
  exact .word h.1 fun d hd => by simp [continuesWord, h.2 d hd]

theorem identifier_of_ofWord {text : String} (hword : Pattern.word.Matches text.toList)
    (hname : Terminal.ofWord text.toList = .name) : Identifier text := by
  refine ⟨hword, fun kind hreserved hspelling => ?_⟩
  rw [hspelling, Terminal.ofWord_spelling hreserved] at hname
  subst hname
  exact absurd hreserved (by decide)

/-- Arrows and marks are too short for the text of most kinds. -/
theorem Pattern.Matches.length_le_two {pattern : Pattern} {piece : List Char}
    (h : pattern.Matches piece) (hmark : pattern = .arrow ∨ pattern = .mark) :
    piece.length ≤ 2 := by
  rcases hmark with rfl | rfl
  · cases h
    exact le_rfl
  · cases h
    exact one_le_two

/-- A token that is a name has the text of a name. -/
theorem Genuine.identifier {text : List Char} {token : Token} (h : Genuine text token)
    (hkind : token.kind = .name) : Identifier (.ofList token.text) := by
  obtain ⟨htext, pattern, hmunched, hreads⟩ := h
  have hmatched : pattern.Matches token.text := htext ▸ hmunched.2.matched
  cases pattern with
  | word =>
    refine ⟨by rwa [String.toList_ofList], fun kind hreserved hspelling => ?_⟩
    rw [String.toList_ofList, Terminal.eq_spelling_iff hreserved] at hspelling
    rw [← (hreads.1 kind hreserved).2 hspelling, hkind] at hreserved
    exact absurd hreserved (by decide)
  | arrow | mark =>
    have hlength := hmatched.length_le_two (by decide)
    rw [← show token.kind.text.toList = token.text from hreads, hkind] at hlength
    exact absurd hlength (by decide)
  | blanks | comment | stray => exact hreads.elim
  | decimal | hexadecimal | singleQuoted | doubleQuoted =>
    exact absurd (hkind.symm.trans hreads.1) (by decide)

theorem genuine_of_mem_scan {text : String} {token : Token} (h : token ∈ (scan text).tokens) :
    Genuine text.toList token :=
  (scanFrom_partition text.toList 0 ⟨0, 0⟩ (Nat.zero_le _)).1 token h

theorem isDecimal_of_isDigit {c : Char} (h : c.isDigit = true) : isDecimal c = true := by
  simpa [isDecimal, Char.isDigit, Char.le_def] using h

theorem numeralValue_ten {digits : List Char} (h : ∀ c ∈ digits, c.isDigit = true) (value : Nat) :
    digits.foldl (fun value digit => value * 10 + Text.digitValue digit) value =
      Nat.ofDigitChars 10 digits value := by
  induction digits generalizing value with
  | nil => rfl
  | cons c digits ih =>
    obtain ⟨hc, hdigits⟩ := List.forall_mem_cons.1 h
    have hvalue : Text.digitValue c = c.toNat - '0'.toNat := if_pos hc
    rw [List.foldl_cons, ih hdigits, Nat.ofDigitChars_cons, hvalue, Nat.mul_comm]

/-- The decimal numeral of a number is read as that number. -/
theorem number_repr (value : Nat) : number value.repr.toList = value := by
  have hdigits : ∀ c ∈ Nat.toDigits 10 value, c.isDigit = true := fun c hc =>
    Nat.isDigit_of_mem_toDigits (by decide) (by decide) hc
  rw [Nat.toList_repr, number_of_decimal fun c hc => isDecimal_of_isDigit (hdigits c hc),
    Text.numeralValue, numeralValue_ten hdigits, Nat.ofDigitChars_ten_toDigits]

/-! ## Words -/

/-- A kind of tokens and the text of one of them. -/
structure Word where
  kind : Terminal
  text : List Char

/-- A token without its place. -/
def word (token : Token) : Word :=
  ⟨token.kind, token.text⟩

/-- A character that no match with a blank in it starts with. -/
def Solid (c : Char) : Prop :=
  Text.isAsciiBlank c = false ∧ c ≠ '/' ∧ c ≠ '\'' ∧ c ≠ '"'

instance (c : Char) : Decidable (Solid c) :=
  inferInstanceAs (Decidable (_ ∧ _))

/-- A word that is a token wherever a blank follows it. -/
def Word.Spellable (word : Word) : Prop :=
  ∃ pattern c tail, word.text = c :: tail ∧ Solid c ∧
    pattern.lexeme word.text = .token word.kind ∧ ∀ rest, Longest pattern word.text (' ' :: rest)

theorem solid_of_continuesWord {c : Char} (h : continuesWord c = true) : Solid c := by
  refine ⟨?_, ?_, ?_, ?_⟩
  · simp only [continuesWord, startsWord, isDecimal, Bool.or_eq_true, Bool.and_eq_true,
      decide_eq_true_eq, beq_iff_eq, Char.le_def, UInt32.le_iff_toNat_le] at h
    simp only [Text.isAsciiBlank, Text.inRanges, Char.toNat]
    rcases h with ((h | h) | rfl) | h
    · grind
    · grind
    · grind
    · grind
  all_goals
    rintro rfl
    exact absurd h (by decide)

theorem continuesWord_of_isHexadecimal {c : Char} (h : isHexadecimal c = true) :
    continuesWord c = true := by
  simp only [isHexadecimal, continuesWord, startsWord, Bool.or_eq_true, Bool.and_eq_true,
    decide_eq_true_eq, Char.le_def] at h ⊢
  grind

/-- A match that starts with a solid character goes on with solid ones. -/
theorem Pattern.Matches.solid_tail {pattern : Pattern} {c : Char} {tail : List Char}
    (h : pattern.Matches (c :: tail)) (hsolid : Solid c) : ∀ d ∈ tail, Solid d := by
  obtain ⟨hblank, hslash, hsingle, hdouble⟩ := hsolid
  intro d hd
  cases h with
  | blanks _ blank =>
    have hc := blank c List.mem_cons_self
    rw [hblank] at hc
    cases hc
  | comment => exact absurd rfl hslash
  | word _ continues => exact solid_of_continuesWord (continues d hd)
  | decimal _ digit =>
    have hdigit := digit d (List.mem_cons_of_mem _ hd)
    exact solid_of_continuesWord (by simp [continuesWord, hdigit])
  | hexadecimal base _ digit =>
    rcases List.mem_cons.1 hd with rfl | hd
    · rcases base with rfl | rfl <;> decide
    · exact solid_of_continuesWord (continuesWord_of_isHexadecimal (digit d hd))
  | singleQuoted => exact absurd rfl hsingle
  | doubleQuoted => exact absurd rfl hdouble
  | arrow =>
    obtain rfl := List.mem_singleton.1 hd
    decide
  | mark => cases hd
  | stray => cases hd

/-- A word that a pattern matches first is the longest match before a blank. -/
theorem Pattern.Matches.longest {pattern : Pattern} {c : Char} {tail : List Char}
    (h : pattern.Matches (c :: tail)) (hsolid : Solid c)
    (hfirst : ∀ {other : Pattern}, other.Matches (c :: tail) → pattern.rank ≤ other.rank)
    (rest : List Char) : Longest pattern (c :: tail) (' ' :: rest) := by
  refine h.longest_of_extension hfirst fun {other d more} hmore hother => ?_
  -- a longer match has the blank in it
  obtain rfl : d = ' ' := (List.cons_prefix_cons.1 hmore).1
  have hspace := hother.solid_tail hsolid ' ' (List.mem_append_right _ List.mem_cons_self)
  exact absurd hspace (by decide)

theorem Pattern.Matches.not_blanks {pattern : Pattern} {c : Char} {tail : List Char}
    (h : pattern.Matches (c :: tail)) (hsolid : Solid c) :
    pattern ≠ .blanks ∧ pattern ≠ .comment := by
  constructor
  · rintro rfl
    cases h with
    | blanks _ blank => simpa [hsolid.1] using blank c List.mem_cons_self
  · rintro rfl
    cases h
    exact hsolid.2.1 rfl

theorem spellable_word {c : Char} {tail : List Char} (h : Pattern.word.Matches (c :: tail)) :
    Word.Spellable ⟨.ofWord (c :: tail), c :: tail⟩ := by
  have hsolid : Solid c := by
    cases h with
    | word starts => exact solid_of_continuesWord (by simp [continuesWord, starts])
  refine ⟨.word, c, tail, rfl, hsolid, rfl, h.longest hsolid fun {other} hother => ?_⟩
  obtain ⟨hblanks, hcomment⟩ := hother.not_blanks hsolid
  cases other <;> first | contradiction | decide

theorem not_startsWord_of_isDecimal {c : Char} (h : isDecimal c = true) : startsWord c = false := by
  have hline : c ≠ '_' := by
    rintro rfl
    exact absurd h (by decide)
  simp only [isDecimal, Bool.and_eq_true, decide_eq_true_eq, Char.le_def] at h
  simp only [startsWord, Bool.or_eq_false_iff, Bool.and_eq_false_iff, decide_eq_false_iff_not,
    Char.le_def, beq_eq_false_iff_ne]
  grind

theorem Pattern.Matches.not_word {pattern : Pattern} {c : Char} {tail : List Char}
    (h : pattern.Matches (c :: tail)) (hc : isDecimal c = true) : pattern ≠ .word := by
  rintro rfl
  cases h with
  | word starts => simp [not_startsWord_of_isDecimal hc] at starts

theorem spellable_decimal {digits : List Char} (h : Pattern.decimal.Matches digits) :
    Word.Spellable ⟨.integer, digits⟩ := by
  cases h with
  | decimal nonempty digit =>
    obtain ⟨c, tail, rfl⟩ := List.exists_cons_of_ne_nil nonempty
    have hc : isDecimal c = true := digit c List.mem_cons_self
    have hsolid : Solid c := solid_of_continuesWord (by simp [continuesWord, hc])
    refine ⟨.decimal, c, tail, rfl, hsolid, rfl,
      (Pattern.Matches.decimal nonempty digit).longest hsolid fun {other} hother => ?_⟩
    obtain ⟨hblanks, hcomment⟩ := hother.not_blanks hsolid
    have hword := hother.not_word hc
    cases other <;> first | contradiction | decide

theorem spellable_hexadecimal {text : List Char} (h : Pattern.hexadecimal.Matches text) :
    Word.Spellable ⟨.integer, text⟩ := by
  cases h with
  | @hexadecimal x digits base nonempty digit =>
    have hsolid : Solid '0' := by decide
    refine ⟨.hexadecimal, '0', x :: digits, rfl, hsolid, rfl,
      (Pattern.Matches.hexadecimal base nonempty digit).longest hsolid fun {other} hother => ?_⟩
    obtain ⟨hblanks, hcomment⟩ := hother.not_blanks hsolid
    have hword := hother.not_word (by decide)
    -- the letter for the base is no decimal digit
    have hdecimal : other ≠ .decimal := by
      rintro rfl
      cases hother with
      | decimal _ digit =>
        have hx := digit x (by simp)
        rcases base with rfl | rfl <;> exact absurd hx (by decide)
    cases other <;> first | contradiction | decide

theorem solid_of_ofMark? {c : Char} {kind : Terminal} (h : Terminal.ofMark? c = some kind) :
    Solid c ∧ continuesWord c = false := by
  unfold Terminal.ofMark? at h
  split at h <;> cases h <;> decide

theorem spellable_mark {c : Char} {kind : Terminal} (h : Terminal.ofMark? c = some kind) :
    Word.Spellable ⟨kind, [c]⟩ := by
  obtain ⟨hsolid, hword⟩ := solid_of_ofMark? h
  have hmark : Pattern.mark.Matches [c] := .mark (by simp [isMark, h])
  refine ⟨.mark, c, [], rfl, hsolid, by simp [Pattern.lexeme, h],
    hmark.longest hsolid fun {other} hother => ?_⟩
  obtain ⟨hblanks, hcomment⟩ := hother.not_blanks hsolid
  simp only [continuesWord, Bool.or_eq_false_iff] at hword
  generalize hcs : [c] = cs at hother
  cases hother with
  | blanks | comment => contradiction
  | word starts =>
    cases hcs
    simp [hword.1] at starts
  | decimal _ digit =>
    subst hcs
    simpa [hword.2] using digit c List.mem_cons_self
  | hexadecimal | singleQuoted | doubleQuoted | arrow => simp at hcs
  | mark => exact le_rfl
  | stray => decide

theorem Identifier.spellable {text : String} (h : Identifier text) :
    Word.Spellable ⟨.name, text.toList⟩ := by
  have hword := h.word
  have hname := h.ofWord_eq
  generalize text.toList = cs at hword hname
  cases cs with
  | nil => cases hword
  | cons c tail => exact hname ▸ spellable_word hword

theorem spellable_repr (value : Nat) : Word.Spellable ⟨.integer, value.repr.toList⟩ := by
  rw [Nat.toList_repr]
  refine spellable_decimal (.decimal Nat.toDigits_ne_nil fun c hc => ?_)
  exact isDecimal_of_isDigit (Nat.isDigit_of_mem_toDigits (by decide) (by decide) hc)

theorem matches_spelling {kind : Terminal} (h : kind.Reserved) :
    Pattern.word.Matches kind.spelling := by
  have hall : kind.spelling ≠ [] ∧ kind.spelling.all startsWord = true := by
    revert h
    cases kind <;> decide +kernel
  exact matches_word_of_all hall.1 hall.2

/-- Reserved words and marks are written in one way. -/
theorem spellable_spelling {kind : Terminal}
    (h : kind ∉ [Terminal.name, .integer, .shortString, .arrow]) :
    Word.Spellable ⟨kind, kind.spelling⟩ := by
  by_cases hreserved : kind.Reserved
  · have hword := matches_spelling hreserved
    have hkind := Terminal.ofWord_spelling hreserved
    generalize kind.spelling = cs at hword hkind
    cases cs with
    | nil => cases hword
    | cons c tail => exact hkind ▸ spellable_word hword
  · have hmark : kind.spelling = [kind.spelling.headI] ∧
        Terminal.ofMark? kind.spelling.headI = some kind := by
      revert h hreserved
      cases kind <;> decide +kernel
    rw [hmark.1]
    exact spellable_mark hmark.2

/-! ## The text of some words -/

/-- Words with a blank after each of them. -/
def spelled (words : List Word) : List Char :=
  words.flatMap fun word => word.text ++ [' ']

/-- What starts with a blank is matched as blanks, or as one stray character. -/
theorem Pattern.Matches.of_blank {pattern : Pattern} {c : Char} {tail : List Char}
    (h : pattern.Matches (c :: tail)) (hblank : Text.isAsciiBlank c = true) :
    pattern = .blanks ∧ (∀ d ∈ c :: tail, Text.isAsciiBlank d = true) ∨
      pattern = .stray ∧ tail = [] := by
  have hsolid : ¬ Solid c := fun hsolid => by simp [hsolid.1] at hblank
  cases h with
  | blanks _ blank => exact .inl ⟨rfl, blank⟩
  | stray => exact .inr ⟨rfl, rfl⟩
  | word starts => exact absurd (solid_of_continuesWord (by simp [continuesWord, starts])) hsolid
  | decimal _ digit =>
    have hc := digit c List.mem_cons_self
    exact absurd (solid_of_continuesWord (by simp [continuesWord, hc])) hsolid
  | mark known =>
    obtain ⟨kind, hkind⟩ := Option.isSome_iff_exists.1 known
    exact absurd (solid_of_ofMark? hkind).1 hsolid
  | comment | hexadecimal | singleQuoted | doubleQuoted | arrow =>
    exact absurd hblank (by decide)

/-- Blanks are matched up to the first character that is not blank. -/
theorem longest_blanks {piece rest : List Char} (hne : piece ≠ [])
    (hblank : ∀ c ∈ piece, Text.isAsciiBlank c = true)
    (hrest : ∀ c ∈ rest.head?, Text.isAsciiBlank c = false) : Longest .blanks piece rest := by
  have hmatched : Pattern.blanks.Matches piece := .blanks hne hblank
  obtain ⟨c, tail, rfl⟩ := List.exists_cons_of_ne_nil hne
  refine hmatched.longest_of_extension (fun _ => Nat.zero_le _) ?_
  rintro other d more ⟨others, rfl⟩ hother
  rcases hother.of_blank (hblank c List.mem_cons_self) with ⟨-, hall⟩ | ⟨-, hnil⟩
  · have hd := hall d (by simp)
    rw [hrest d rfl] at hd
    cases hd
  · simp at hnil

theorem longest_blank {rest : List Char} (h : ∀ c ∈ rest.head?, Solid c) :
    Longest .blanks [' '] rest := by
  have hspace : Text.isAsciiBlank ' ' = true := by decide
  exact longest_blanks (List.cons_ne_nil _ _) (by simpa using hspace) fun c hc => (h c hc).1

theorem head_spelled {words : List Word} (h : ∀ word ∈ words, word.Spellable) :
    ∀ c ∈ (spelled words).head?, Solid c := by
  cases words with
  | nil => simp [spelled]
  | cons word words =>
    obtain ⟨⟨pattern, c, tail, htext, hsolid, -⟩, -⟩ := List.forall_mem_cons.1 h
    simpa [spelled, htext] using hsolid

/-- Words with blanks between them are scanned one by one. -/
theorem scanFrom_spelled {words : List Word} (h : ∀ word ∈ words, word.Spellable) (position : Nat)
    (last : Spot) :
    (scanFrom position last 0 (spelled words)).tokens.map Token.word = words ∧
      ∃ spot, (scanFrom position last 0 (spelled words)).ending = .finished spot := by
  induction words generalizing position last with
  | nil => exact ⟨rfl, last, rfl⟩
  | cons word words ih =>
    obtain ⟨⟨pattern, c, tail, htext, hsolid, hlexeme, hlongest⟩, hwords⟩ :=
      List.forall_mem_cons.1 h
    have hspelled : spelled (word :: words) = c :: tail ++ ' ' :: spelled words := by
      simp [spelled, htext]
    have hblank : ∀ position last, scanFrom position last 0 (' ' :: spelled words) =
        scanFrom (position + 1) (spotAt position [' ']) 0 (spelled words) :=
      (longest_blank (head_spelled hwords)).scanFrom_eq
    have hword : word = ⟨word.kind, c :: tail⟩ := by rw [← htext]
    rw [htext] at hlongest hlexeme
    rw [hspelled, (hlongest _).scanFrom_eq]
    simp only [hlexeme, hblank, Scan.cons, List.map_cons]
    obtain ⟨htokens, hending⟩ := ih hwords _ _
    exact ⟨List.cons_eq_cons.2 ⟨hword.symm, htokens⟩, hending⟩

/-- Words that can be spelled are the words of a text. -/
theorem exists_scan {words : List Word} (h : ∀ word ∈ words, word.Spellable) :
    ∃ text, (scan text).tokens.map Token.word = words ∧
      ∃ spot, (scan text).ending = .finished spot := by
  refine ⟨.ofList (spelled words), ?_⟩
  rw [scan, String.toList_ofList]
  exact scanFrom_spelled h 0 ⟨0, 0⟩

end Resumable.Token
