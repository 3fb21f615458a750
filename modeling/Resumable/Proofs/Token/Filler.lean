import Resumable.Proofs.Token.Spelling

/-!
# Room between tokens

Blanks and comments that end with their line can be put in wherever a token starts or
ends. The scan of the new text finds the same tokens: those before the place stay where
they are, and the others are moved on by as much as was put in.
-/

namespace Resumable.Token

open Grammar (Terminal)
open Source (Spot)

/-! ## What can be put in -/

/-- Blanks, and comments up to the end of their line. -/
inductive Filler : List Char → Prop where
  | nil : Filler []
  | blank {c : Char} {more : List Char} (blank : Text.isAsciiBlank c = true) (rest : Filler more) :
      Filler (c :: more)
  | comment {body more : List Char} (line : ∀ c ∈ body, c ≠ '\n') (rest : Filler more) :
      Filler ('/' :: '/' :: (body ++ '\n' :: more))

/-- A text with something put in at a position. -/
def fill (text : String) (position : Nat) (filler : List Char) : String :=
  .ofList (text.toList.take position ++ (filler ++ text.toList.drop position))

/-- A spot after so many more characters. -/
def shift (count : Nat) (spot : Spot) : Spot :=
  ⟨spot.start + count, spot.stop + count⟩

/-- Where a spot is after so many characters were put in at a position. -/
def makeRoom (position count : Nat) (spot : Spot) : Spot :=
  if spot.start < position then spot else shift count spot

/-- A token in another place. -/
def moved (move : Spot → Spot) (token : Token) : Token :=
  { token with spot := move token.spot }

theorem Filler.head_not_solid {filler : List Char} (h : Filler filler) (hne : filler ≠ [])
    (rest : List Char) : ∀ c ∈ (filler ++ rest).head?, ¬ Solid c := by
  cases h with
  | nil => exact absurd rfl hne
  | blank blank => simp [Solid, blank]
  | comment =>
    rintro _ ⟨⟩
    decide

/-! ## Cutting a text -/

/-- A text that starts at a position, and has some more text after it, is cut into pieces.
Each of them wins where it starts, and these are the tokens among them. -/
inductive Cut (after : List Char) : Nat → List Char → List Token → Prop where
  | nil (position : Nat) : Cut after position [] []
  | dropped {position : Nat} {pattern : Pattern} {piece rest : List Char} {tokens : List Token}
      (longest : Longest pattern piece (rest ++ after)) (lexeme : pattern.lexeme piece = .dropped)
      (more : Cut after (position + piece.length) rest tokens) :
      Cut after position (piece ++ rest) tokens
  | token {position : Nat} {pattern : Pattern} {piece rest : List Char} {tokens : List Token}
      {kind : Terminal} (longest : Longest pattern piece (rest ++ after))
      (lexeme : pattern.lexeme piece = .token kind)
      (more : Cut after (position + piece.length) rest tokens) :
      Cut after position (piece ++ rest) (⟨kind, piece, spotAt position piece⟩ :: tokens)

theorem Longest.exists_cons {pattern : Pattern} {piece rest : List Char}
    (h : Longest pattern piece rest) : ∃ c tail, piece = c :: tail :=
  List.exists_cons_of_ne_nil (List.length_pos_iff.1 h.matched.length_pos)

/-- A text that can be cut is scanned to the end. -/
theorem Cut.scanFrom_eq {position : Nat} {cs : List Char} {tokens : List Token}
    (h : Cut [] position cs tokens) (last : Spot) :
    ∃ last', scanFrom position last 0 cs = ⟨tokens, .finished last'⟩ := by
  induction h generalizing last with
  | nil => exact ⟨last, rfl⟩
  | dropped longest lexeme _ ih =>
    rw [List.append_nil] at longest
    obtain ⟨c, tail, rfl⟩ := longest.exists_cons
    rw [longest.scanFrom_eq, lexeme]
    exact ih _
  | @token position _ piece _ _ _ longest lexeme _ ih =>
    rw [List.append_nil] at longest
    obtain ⟨c, tail, rfl⟩ := longest.exists_cons
    obtain ⟨last', hlast⟩ := ih (spotAt position (c :: tail))
    refine ⟨last', ?_⟩
    rw [longest.scanFrom_eq, lexeme]
    exact congrArg (Scan.cons _) hlast

/-- A text that is scanned to the end is cut into its tokens. -/
theorem cut_scanFrom {position : Nat} {last last' : Spot} {cs : List Char}
    (h : (scanFrom position last 0 cs).ending = .finished last') :
    Cut [] position cs (scanFrom position last 0 cs).tokens := by
  -- on the length, since the scan goes on after a whole piece
  induction hlength : cs.length using Nat.strong_induction_on generalizing position last cs with
  | _ length ih =>
    cases cs with
    | nil => exact .nil position
    | cons c cs =>
      obtain ⟨pattern, piece, rest, hpiece, -, hlongest⟩ := exists_longest c cs
      obtain ⟨d, tail, rfl⟩ := hlongest.exists_cons
      rw [hpiece] at h hlength ⊢
      rw [hlongest.scanFrom_eq] at h ⊢
      have hless : rest.length < length := by
        rw [← hlength, List.length_append, List.length_cons]
        omega
      have hall : Longest pattern (d :: tail) (rest ++ []) := by rwa [List.append_nil]
      cases hlexeme : pattern.lexeme (d :: tail) with
      | dropped =>
        simp only [hlexeme] at h ⊢
        exact .dropped hall hlexeme (ih _ hless h rfl)
      | token kind =>
        simp only [hlexeme] at h ⊢
        exact .token hall hlexeme (ih _ hless h rfl)
      | stray => simp [hlexeme] at h

theorem Cut.start_bounds {after : List Char} {position : Nat} {cs : List Char}
    {tokens : List Token} (h : Cut after position cs tokens) :
    ∀ token ∈ tokens, position ≤ token.spot.start ∧ token.spot.start < position + cs.length := by
  induction h with
  | nil => simp
  | dropped _ _ _ ih =>
    intro token htoken
    have hbounds := ih token htoken
    rw [List.length_append]
    omega
  | token longest _ _ ih =>
    have hpos := longest.matched.length_pos
    rw [List.forall_mem_cons, List.length_append]
    refine ⟨⟨le_rfl, ?_⟩, fun token htoken => ?_⟩
    · simp only [spotAt]
      omega
    · have hbounds := ih token htoken
      omega

/-- A text is cut in the same way wherever it stands. -/
theorem Cut.shifted {after : List Char} {position : Nat} {cs : List Char} {tokens : List Token}
    (h : Cut after position cs tokens) (count : Nat) :
    Cut after (position + count) cs (tokens.map (moved (shift count))) := by
  induction h with
  | nil => exact .nil _
  | dropped longest lexeme _ ih =>
    rw [Nat.add_right_comm] at ih
    exact .dropped longest lexeme ih
  | @token position _ piece _ _ kind longest lexeme _ ih =>
    have hspot : shift count (spotAt position piece) = spotAt (position + count) piece := by
      simp only [shift, spotAt, Nat.add_right_comm]
    rw [Nat.add_right_comm] at ih
    rw [List.map_cons, moved, hspot]
    exact .token longest lexeme ih

theorem Cut.cons {after : List Char} {position : Nat} {pattern : Pattern} {token : Token}
    {rest : List Char} {tokens : List Token} (longest : Longest pattern token.text (rest ++ after))
    (lexeme : pattern.lexeme token.text = .token token.kind)
    (spot : token.spot = spotAt position token.text)
    (more : Cut after (position + token.text.length) rest tokens) :
    Cut after position (token.text ++ rest) (token :: tokens) := by
  have htoken : token = ⟨token.kind, token.text, spotAt position token.text⟩ := by rw [← spot]
  rw [htoken]
  exact .token longest lexeme more

/-- A text that is cut, with its tokens, before and after one of them. -/
structure Around (after : List Char) (position : Nat) (cs : List Char) (tokens : List Token)
    (token : Token) (front rest : List Char) (before others : List Token) : Prop where
  text : cs = front ++ (token.text ++ rest)
  tokens : tokens = before ++ token :: others
  spot : token.spot = spotAt (position + front.length) token.text
  cut_front : Cut (token.text ++ (rest ++ after)) position front before
  reads : ∃ pattern, Longest pattern token.text (rest ++ after) ∧
    pattern.lexeme token.text = .token token.kind
  cut_rest : Cut after (position + front.length + token.text.length) rest others

theorem Around.back {after : List Char} {position : Nat} {cs : List Char} {tokens : List Token}
    {token : Token} {front rest : List Char} {before others : List Token}
    (h : Around after position cs tokens token front rest before others) :
    Cut after (position + front.length) (token.text ++ rest) (token :: others) := by
  obtain ⟨pattern, hlongest, hlexeme⟩ := h.reads
  exact .cons hlongest hlexeme h.spot h.cut_rest

/-- A text is cut before and after each of its tokens. -/
theorem Cut.exists_around {after : List Char} {position : Nat} {cs : List Char}
    {tokens : List Token} (h : Cut after position cs tokens) {token : Token}
    (hmem : token ∈ tokens) :
    ∃ front rest before others,
      Around after position cs tokens token front rest before others := by
  have hlength : ∀ (position : Nat) (piece front : List Char),
      position + piece.length + front.length = position + (piece ++ front).length := by
    intro position piece front
    rw [List.length_append, Nat.add_assoc]
  induction h with
  | nil => cases hmem
  | @dropped position _ piece _ _ longest lexeme _ ih =>
    obtain ⟨front, rest, before, others, rfl, rfl, hspot, hfront, htoken, hrest⟩ := ih hmem
    rw [hlength position piece front] at hspot hrest
    refine ⟨piece ++ front, rest, before, others, by simp, rfl, hspot, ?_, htoken, hrest⟩
    exact .dropped (by simpa using longest) lexeme hfront
  | @token position first piece tail tokens kind longest lexeme more ih =>
    rcases List.mem_cons.1 hmem with rfl | hmem
    · exact ⟨[], tail, [], tokens, rfl, rfl, rfl, .nil position, ⟨first, longest, lexeme⟩, more⟩
    · obtain ⟨front, rest, before, others, rfl, rfl, hspot, hfront, htoken, hrest⟩ := ih hmem
      rw [hlength position piece front] at hspot hrest
      refine ⟨piece ++ front, rest, _ :: before, others, by simp, rfl, hspot, ?_, htoken, hrest⟩
      exact .token (by simpa using longest) lexeme hfront

/-! ## Blanks and comments -/

theorem head_dropWhile_blank (cs : List Char) :
    ∀ c ∈ (cs.dropWhile Text.isAsciiBlank).head?, Text.isAsciiBlank c = false := by
  intro c hc
  simpa [Option.mem_def.1 hc] using List.head?_dropWhile_not Text.isAsciiBlank cs

/-- The blanks at the start of a text are one piece. -/
theorem Cut.skip_blanks {position : Nat} {cs : List Char} {tokens : List Token}
    (h : Cut [] position cs tokens) :
    Cut [] (position + (cs.takeWhile Text.isAsciiBlank).length) (cs.dropWhile Text.isAsciiBlank)
      tokens := by
  have hcs : cs.takeWhile Text.isAsciiBlank ++ cs.dropWhile Text.isAsciiBlank = cs :=
    List.takeWhile_append_dropWhile
  have hrest := head_dropWhile_blank cs
  have hblank : ∀ c ∈ cs.takeWhile Text.isAsciiBlank, Text.isAsciiBlank c = true :=
    fun _ => List.mem_takeWhile_imp
  generalize cs.takeWhile Text.isAsciiBlank = blanks at hcs hblank ⊢
  generalize cs.dropWhile Text.isAsciiBlank = rest at hcs hrest ⊢
  by_cases hne : blanks = []
  · subst hne
    subst hcs
    exact h
  · have hlongest := longest_blanks hne hblank hrest
    cases h with
    | nil => exact absurd (List.append_eq_nil_iff.1 hcs).1 hne
    | dropped longest lexeme more =>
      rw [List.append_nil] at longest
      obtain ⟨-, rfl, rfl⟩ := hlongest.unique longest hcs
      exact more
    | token longest lexeme more =>
      rw [List.append_nil] at longest
      obtain ⟨rfl, -, -⟩ := hlongest.unique longest hcs
      cases lexeme

/-- Blanks before a text make no difference, whether or not it starts with blanks itself. -/
theorem Cut.blanks {position : Nat} {blanks cs : List Char} {tokens : List Token}
    (hblank : ∀ c ∈ blanks, Text.isAsciiBlank c = true)
    (h : Cut [] (position + blanks.length) cs tokens) : Cut [] position (blanks ++ cs) tokens := by
  by_cases hne : blanks = []
  · subst hne
    exact h
  · have hcs : blanks ++ cs = (blanks ++ cs.takeWhile Text.isAsciiBlank) ++
        cs.dropWhile Text.isAsciiBlank := by
      rw [List.append_assoc, List.takeWhile_append_dropWhile]
    have hlongest : Longest .blanks (blanks ++ cs.takeWhile Text.isAsciiBlank)
        (cs.dropWhile Text.isAsciiBlank ++ []) := by
      rw [List.append_nil]
      refine longest_blanks (by simp [hne]) ?_ (head_dropWhile_blank cs)
      rw [List.forall_mem_append]
      exact ⟨hblank, fun _ => List.mem_takeWhile_imp⟩
    rw [hcs]
    refine .dropped hlongest rfl ?_
    rw [List.length_append, ← Nat.add_assoc]
    exact h.skip_blanks

/-- What starts with a slash is matched as a comment, or as one stray character. -/
theorem Pattern.Matches.of_slash {pattern : Pattern} {tail : List Char}
    (h : pattern.Matches ('/' :: tail)) :
    pattern = .comment ∧ (∀ c ∈ tail, c ≠ '\n') ∨ pattern = .stray ∧ tail = [] := by
  cases h with
  | comment line => exact .inl ⟨rfl, by simpa using line⟩
  | stray => exact .inr ⟨rfl, rfl⟩
  | blanks _ blank => exact absurd (blank '/' List.mem_cons_self) (by decide)
  | word starts => exact absurd starts (by decide)
  | decimal _ digit => exact absurd (digit '/' List.mem_cons_self) (by decide)
  | mark known => exact absurd known (by decide)

/-- A comment goes on to the end of its line. -/
theorem longest_comment {body rest : List Char} (hline : ∀ c ∈ body, c ≠ '\n')
    (hrest : ∀ c ∈ rest.head?, c = '\n') : Longest .comment ('/' :: '/' :: body) rest := by
  refine (Pattern.Matches.comment hline).longest_of_extension (fun {other} hother => ?_) ?_
  · rcases hother.of_slash with ⟨rfl, -⟩ | ⟨rfl, -⟩ <;> decide
  · rintro other d more ⟨others, rfl⟩ hother
    rcases hother.of_slash with ⟨-, hall⟩ | ⟨-, hnil⟩
    · exact hall d (by simp) (hrest d rfl)
    · cases hnil

theorem Longest.comment_line {piece rest : List Char} (h : Longest .comment piece rest) :
    ∀ c ∈ rest.head?, c = '\n' := by
  intro c hc
  obtain ⟨tail, rfl⟩ := List.head?_eq_some_iff.1 hc
  cases h.matched with
  | @comment body line =>
    by_contra hne
    have hlonger : Pattern.comment.Matches ('/' :: '/' :: (body ++ [c])) :=
      .comment (List.forall_mem_append.2 ⟨line, by simpa using hne⟩)
    have hle := h.longest hlonger ⟨tail, by simp⟩
    simp at hle

theorem Cut.blank {position : Nat} {c : Char} {cs : List Char} {tokens : List Token}
    (hblank : Text.isAsciiBlank c = true) (h : Cut [] (position + 1) cs tokens) :
    Cut [] position (c :: cs) tokens := by
  have hall : ∀ d ∈ [c], Text.isAsciiBlank d = true := by simpa using hblank
  exact Cut.blanks hall h

/-- What is put in before a text makes no difference. -/
theorem Filler.cut {filler : List Char} (h : Filler filler) {position : Nat} {cs : List Char}
    {tokens : List Token} (hcut : Cut [] (position + filler.length) cs tokens) :
    Cut [] position (filler ++ cs) tokens := by
  induction h generalizing position with
  | nil => exact hcut
  | @blank c more blank _ ih =>
    rw [List.length_cons, Nat.add_comm more.length, ← Nat.add_assoc] at hcut
    exact Cut.blank blank (ih hcut)
  | @comment body more line _ ih =>
    have hlongest : Longest .comment ('/' :: '/' :: body) ('\n' :: (more ++ cs) ++ []) :=
      longest_comment line (by simp)
    have hlength : position + ('/' :: '/' :: (body ++ '\n' :: more)).length =
        position + ('/' :: '/' :: body).length + 1 + more.length := by
      simp only [List.length_cons, List.length_append]
      omega
    rw [hlength] at hcut
    have hcs : ('/' :: '/' :: (body ++ '\n' :: more)) ++ cs =
        ('/' :: '/' :: body) ++ '\n' :: (more ++ cs) := by simp
    rw [hcs]
    exact .dropped hlongest rfl (Cut.blank (by decide) (ih hcut))

/-! ## Tokens before what is put in -/

/-- What starts with a quotation mark is matched up to the next one, or as one stray
character. -/
theorem Pattern.Matches.of_quote {pattern : Pattern} {mark : Char} {tail : List Char}
    (hmark : mark = '\'' ∨ mark = '"') (h : pattern.Matches (mark :: tail)) :
    (∃ content, Quotable mark content ∧ tail = content ++ [mark]) ∨ tail = [] := by
  have hquote : Text.isAsciiBlank mark = false ∧ startsWord mark = false ∧
      isDecimal mark = false := by
    rcases hmark with rfl | rfl <;> decide
  cases h with
  | singleQuoted plain => exact .inl ⟨_, plain, rfl⟩
  | doubleQuoted plain => exact .inl ⟨_, plain, rfl⟩
  | mark | stray => exact .inr rfl
  | blanks _ blank =>
    have hblank := blank mark List.mem_cons_self
    simp [hquote.1] at hblank
  | word starts => simp [hquote.2.1] at starts
  | decimal _ digit =>
    have hdigit := digit mark List.mem_cons_self
    simp [hquote.2.2] at hdigit
  | comment | hexadecimal | arrow => exact absurd hmark (by decide)

/-- Nothing matches a quoted text and more. -/
theorem Pattern.Matches.quoted_eq_nil {pattern : Pattern} {mark : Char} {content more : List Char}
    (hmark : mark = '\'' ∨ mark = '"')
    (h : pattern.Matches (mark :: (content ++ [mark]) ++ more)) : more = [] := by
  rcases h.of_quote hmark with ⟨content', plain, heq⟩ | heq
  · rcases List.eq_nil_or_concat more with rfl | ⟨init, last, rfl⟩
    · rfl
    · -- the mark that ends the first content would be in the other one
      have hcontent : content ++ [mark] ++ init ++ [last] = content' ++ [mark] := by simpa using heq
      obtain rfl := List.append_inj_left' hcontent rfl
      exact absurd rfl (plain mark (by simp)).1
  · simp at heq

/-- What matches a token and more goes on with solid characters. -/
theorem Pattern.Matches.solid_more {pattern other : Pattern} {piece more : List Char}
    {kind : Terminal} (h : pattern.Matches piece) (hlexeme : pattern.lexeme piece = .token kind)
    (hother : other.Matches (piece ++ more)) : ∀ d ∈ more, Solid d := by
  have hstart : ∀ {c : Char} {tail : List Char}, piece = c :: tail → Solid c →
      ∀ d ∈ more, Solid d := by
    rintro c tail rfl hsolid d hd
    exact hother.solid_tail hsolid d (List.mem_append_right _ hd)
  cases h with
  | blanks | comment | stray => cases hlexeme
  | word starts => exact hstart rfl (solid_of_continuesWord (by simp [continuesWord, starts]))
  | decimal nonempty digit =>
    obtain ⟨c, tail, rfl⟩ := List.exists_cons_of_ne_nil nonempty
    have hc : isDecimal c = true := digit c List.mem_cons_self
    exact hstart rfl (solid_of_continuesWord (by simp [continuesWord, hc]))
  | hexadecimal | arrow => exact hstart rfl (by decide)
  | mark known =>
    obtain ⟨kind, hkind⟩ := Option.isSome_iff_exists.1 known
    exact hstart rfl (solid_of_ofMark? hkind).1
  | singleQuoted =>
    obtain rfl := hother.quoted_eq_nil (.inl rfl)
    simp
  | doubleQuoted =>
    obtain rfl := hother.quoted_eq_nil (.inr rfl)
    simp

/-- A token stays the longest match when the text after it changes from some place on, if
no match can go over that place. -/
theorem Longest.swap {pattern : Pattern} {piece common old new : List Char} {kind : Terminal}
    (h : Longest pattern piece (common ++ old)) (hlexeme : pattern.lexeme piece = .token kind)
    (hnew : ∀ c ∈ new.head?, ¬ Solid c) : Longest pattern piece (common ++ new) := by
  refine h.matched.longest_of_extension h.first fun {other d more} hmore hother => ?_
  have hcommon : d :: more <+: common := by
    rcases List.prefix_or_prefix_of_prefix hmore (List.prefix_append common new) with
      hcommon | ⟨extra, hextra⟩
    · exact hcommon
    · -- a match that goes over the place has the first new character in it
      rw [← hextra] at hmore hother ⊢
      cases extra with
      | nil => simp
      | cons c extra =>
        obtain ⟨others, rfl⟩ : c :: extra <+: new := (List.prefix_append_right_inj _).1 hmore
        have hsolid := h.matched.solid_more hlexeme hother c (by simp)
        exact absurd hsolid (hnew c rfl)
  have hbefore : piece ++ d :: more <+: piece ++ (common ++ old) :=
    (List.prefix_append_right_inj _).2 (hcommon.trans (List.prefix_append _ _))
  have hle := h.longest hother hbefore
  simp at hle

theorem Pattern.Matches.of_dropped {pattern : Pattern} {piece : List Char}
    (h : pattern.Matches piece) (hlexeme : pattern.lexeme piece = .dropped) :
    pattern = .blanks ∨ pattern = .comment := by
  rcases h.lexeme_cases with ⟨hpattern, -⟩ | ⟨kind, htoken, -⟩ | ⟨-, hstray⟩
  · exact hpattern
  · simp [hlexeme] at htoken
  · simp [hlexeme] at hstray

/-- The tokens in front stay when the text changes from some place after them on, if a
comment just before that place did not end there. -/
theorem Cut.swap {common old new : List Char} {position : Nat} {front : List Char}
    {before others : List Token} (h : Cut (common ++ old) position front before)
    (hnew : ∀ c ∈ new.head?, ¬ Solid c) (hplace : common ≠ [] ∨ ∃ c ∈ old.head?, c ≠ '\n')
    (hrest : Cut [] (position + front.length) (common ++ new) others) :
    Cut [] position (front ++ (common ++ new)) (before ++ others) := by
  induction h with
  | nil => exact hrest
  | @dropped position pattern piece rest tokens longest lexeme _ ih =>
    rw [List.length_append, ← Nat.add_assoc] at hrest
    have hcut := ih hrest
    rw [List.append_assoc]
    rcases longest.matched.of_dropped lexeme with rfl | rfl
    · cases longest.matched with
      | blanks _ blank => exact Cut.blanks blank hcut
    · -- the comment ends with its line, and the end of the line is still there
      have hline := longest.comment_line
      have hnext : ∀ c ∈ (rest ++ (common ++ new)).head?, c = '\n' := by
        cases rest with
        | cons d rest => exact hline
        | nil =>
          cases common with
          | cons d common => exact hline
          | nil =>
            obtain ⟨c, hc, hne⟩ := hplace.resolve_left (absurd rfl)
            exact absurd (hline c hc) hne
      have hcomment : Longest .comment piece (rest ++ (common ++ new) ++ []) := by
        rw [List.append_nil]
        cases longest.matched with
        | comment line => exact longest_comment line hnext
      exact .dropped hcomment rfl hcut
  | token longest lexeme _ ih =>
    rw [List.length_append, ← Nat.add_assoc] at hrest
    rw [List.append_assoc]
    refine .token ?_ lexeme (ih hrest)
    rw [← List.append_assoc] at longest
    simpa using longest.swap lexeme hnew

/-! ## Texts with something put in -/

/-- The text is cut in two where something is put in, with tokens on either side. -/
structure Filled (filler : List Char) (position : Nat) (cs : List Char) (tokens : List Token)
    (front back : List Char) (before others : List Token) : Prop where
  text : cs = front ++ back
  place : position = front.length
  tokens : tokens = before ++ others
  starts_lt : ∀ token ∈ before, token.spot.start < position
  le_starts : ∀ token ∈ others, position ≤ token.spot.start
  cut : Cut [] 0 (front ++ (filler ++ back)) (before ++ others.map (moved (shift filler.length)))

section Filled

variable {filler cs : List Char} {tokens : List Token} {token : Token}

theorem Longest.head_ne_newline {pattern : Pattern} {piece rest : List Char} {kind : Terminal}
    (h : Longest pattern piece rest) (hlexeme : pattern.lexeme piece = .token kind) :
    ∃ c ∈ (piece ++ rest).head?, c ≠ '\n' := by
  obtain ⟨c, tail, rfl⟩ := h.exists_cons
  refine ⟨c, rfl, ?_⟩
  rintro rfl
  rcases h.matched.of_blank (by decide) with ⟨rfl, -⟩ | ⟨rfl, -⟩ <;> cases hlexeme

/-- Something is put in before a token. -/
theorem Cut.exists_filled_start (h : Cut [] 0 cs tokens) (hmem : token ∈ tokens)
    (hfiller : Filler filler) (hne : filler ≠ []) :
    ∃ front back before others,
      Filled filler token.spot.start cs tokens front back before others := by
  obtain ⟨front, rest, before, others, haround⟩ := h.exists_around hmem
  obtain ⟨pattern, hlongest, hlexeme⟩ := haround.reads
  have hplace : token.spot.start = 0 + front.length := congrArg Spot.start haround.spot
  refine ⟨front, token.text ++ rest, before, token :: others, haround.text, by omega,
    haround.tokens, ?_, ?_, ?_⟩
  · intro other hother
    have hbounds := haround.cut_front.start_bounds other hother
    omega
  · intro other hother
    have hbounds := haround.back.start_bounds other hother
    omega
  · have hback := hfiller.cut (haround.back.shifted filler.length)
    have hfront : Cut ([] ++ (token.text ++ (rest ++ []))) 0 front before := haround.cut_front
    exact hfront.swap (hfiller.head_not_solid hne _) (.inr (hlongest.head_ne_newline hlexeme)) hback

/-- Something is put in after a token. -/
theorem Cut.exists_filled_stop (h : Cut [] 0 cs tokens) (hmem : token ∈ tokens)
    (hfiller : Filler filler) (hne : filler ≠ []) :
    ∃ front back before others,
      Filled filler token.spot.stop cs tokens front back before others := by
  obtain ⟨front, rest, before, others, haround⟩ := h.exists_around hmem
  obtain ⟨pattern, hlongest, hlexeme⟩ := haround.reads
  have hstart : token.spot.start = 0 + front.length := congrArg Spot.start haround.spot
  have hplace : token.spot.stop = 0 + front.length + token.text.length :=
    congrArg Spot.stop haround.spot
  have hpos := hlongest.matched.length_pos
  refine ⟨front ++ token.text, rest, before ++ [token], others, ?_, ?_, ?_, ?_, ?_, ?_⟩
  · rw [haround.text, List.append_assoc]
  · rw [List.length_append]
    omega
  · rw [haround.tokens, List.append_assoc, List.singleton_append]
  · rw [List.forall_mem_append]
    refine ⟨fun other hother => ?_, ?_⟩
    · have hbounds := haround.cut_front.start_bounds other hother
      omega
    · rw [List.forall_mem_singleton]
      omega
  · intro other hother
    have hbounds := haround.cut_rest.start_bounds other hother
    omega
  · have hnew := hfiller.head_not_solid hne rest
    -- the token ends where it did: no match goes on into what is put in
    have hfilled : Longest pattern token.text (filler ++ rest) := by
      rw [← List.nil_append (rest ++ [])] at hlongest
      exact hlongest.swap hlexeme hnew
    have hrest : Cut [] (0 + front.length + token.text.length) (filler ++ rest)
        (others.map (moved (shift filler.length))) :=
      hfiller.cut (haround.cut_rest.shifted filler.length)
    have hback := Cut.cons (by rwa [List.append_nil]) hlexeme haround.spot hrest
    have hcut := haround.cut_front.swap hnew (.inl (List.length_pos_iff.1 hpos)) hback
    simpa using hcut

end Filled

theorem map_makeRoom {before others : List Token} {position : Nat}
    (hbefore : ∀ token ∈ before, token.spot.start < position)
    (hothers : ∀ token ∈ others, position ≤ token.spot.start) (count : Nat) :
    (before ++ others).map (moved (makeRoom position count)) =
      before ++ others.map (moved (shift count)) := by
  rw [List.map_append]
  congr 1
  · refine (List.map_congr_left fun token htoken => ?_).trans (List.map_id _)
    rw [moved, makeRoom, if_pos (hbefore token htoken)]
    rfl
  · refine List.map_congr_left fun token htoken => ?_
    rw [moved, makeRoom, if_neg (not_lt.2 (hothers token htoken))]
    rfl

/-- Blanks and comments next to a token only move the tokens after them. -/
theorem scan_fill {text : String} {last : Spot} (hscan : (scan text).ending = .finished last)
    {token : Token} (hmem : token ∈ (scan text).tokens) {position : Nat}
    (hposition : position = token.spot.start ∨ position = token.spot.stop) {filler : List Char}
    (hfiller : Filler filler) (hne : filler ≠ []) :
    ∃ last', scan (fill text position filler) =
      ⟨(scan text).tokens.map (moved (makeRoom position filler.length)), .finished last'⟩ := by
  have hcut : Cut [] 0 text.toList (scan text).tokens := cut_scanFrom hscan
  obtain ⟨front, back, before, others, h⟩ : ∃ front back before others,
      Filled filler position text.toList (scan text).tokens front back before others := by
    rcases hposition with rfl | rfl
    · exact hcut.exists_filled_start hmem hfiller hne
    · exact hcut.exists_filled_stop hmem hfiller hne
  have htext : (fill text position filler).toList = front ++ (filler ++ back) := by
    rw [fill, String.toList_ofList, h.text, h.place, List.take_left, List.drop_left]
  rw [scan, htext, h.tokens, map_makeRoom h.starts_lt h.le_starts]
  exact h.cut.scanFrom_eq ⟨0, 0⟩

end Resumable.Token
