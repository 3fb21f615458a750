import Resumable.Proofs.Token.Matching

/-!
# How a text is cut into tokens

The tokens of a text are the longest matches at the places where they start. What
is between them is blank or in comments, and the scan breaks off where only the
pattern for stray characters matches.
-/

namespace Resumable.Grammar.Terminal

/-! ## Reserved words -/

/-- A reserved word is a kind of tokens that is shown in capitals. -/
def Reserved (kind : Terminal) : Prop :=
  kind.text.toList.all Char.isUpper = true

instance (kind : Terminal) : Decidable kind.Reserved :=
  inferInstanceAs (Decidable (_ = true))

/-- How a reserved word is written in a text. -/
def spelling (kind : Terminal) : List Char :=
  kind.text.toList.map Char.toLower

theorem ofWord_spelling {kind : Terminal} (h : kind.Reserved) : ofWord kind.spelling = kind := by
  revert h
  cases kind <;> decide +kernel

theorem eq_spelling_of_reserved {word : List Char} (h : (ofWord word).Reserved) :
    word = (ofWord word).spelling := by
  have hword : word = (String.ofList word).toList := String.toList_ofList.symm
  unfold ofWord at h ⊢
  split at h
  case h_16 => exact absurd h (by decide)
  all_goals
    rename_i heq
    rw [hword, heq]
    decide +kernel

theorem ofWord_eq_iff {word : List Char} {kind : Terminal} (h : kind.Reserved) :
    ofWord word = kind ↔ word = kind.spelling := by
  constructor
  · rintro rfl
    exact eq_spelling_of_reserved h
  · rintro rfl
    exact ofWord_spelling h

theorem ofWord_eq_name {word : List Char} (h : ¬ (ofWord word).Reserved) : ofWord word = .name := by
  unfold ofWord at h ⊢
  split at h
  case h_16 => rfl
  all_goals exact absurd (by decide) h

/-- A word with a small letter and no capital. -/
def LowerCase (word : List Char) : Prop :=
  (∃ c ∈ word, c.isLower = true) ∧ ∀ c ∈ word, c.isUpper = false

/-- A reserved word is written in small letters. -/
theorem eq_spelling_iff {word : List Char} {kind : Terminal} (h : kind.Reserved) :
    word = kind.spelling ↔ LowerCase word ∧ word.map Char.toUpper = kind.text.toList := by
  have hupper : ∀ c ∈ kind.text.toList, c.isUpper = true := List.all_eq_true.1 h
  constructor
  · rintro rfl
    refine ⟨⟨?_, ?_⟩, ?_⟩
    · obtain ⟨c, hc⟩ : ∃ c, c ∈ kind.text.toList := by
        have hne : kind.text.toList ≠ [] := by cases kind <;> decide
        exact List.exists_mem_of_ne_nil _ hne
      exact ⟨c.toLower, List.mem_map_of_mem hc, by simp [Char.isAlpha, hupper c hc]⟩
    · simp [spelling]
    · rw [spelling, List.map_map]
      refine (List.map_congr_left fun c hc => ?_).trans (List.map_id _)
      have hc := Char.not_isLower_of_isUpper (hupper c hc)
      rw [Function.comp_apply, Char.toUpper_toLower_eq_toUpper, Char.toUpper_eq_of_not_isLower hc]
      rfl
  · rintro ⟨⟨-, hlower⟩, hword⟩
    rw [spelling, ← hword, List.map_map]
    refine ((List.map_congr_left fun c hc => ?_).trans (List.map_id _)).symm
    have hc : ¬ c.isUpper = true := by simp [hlower c hc]
    rw [Function.comp_apply, Char.toLower_toUpper_eq_toLower, Char.toLower_eq_of_not_isUpper hc]
    rfl

end Resumable.Grammar.Terminal

namespace Resumable.Token

open Grammar (Terminal)
open Source (Spot)

/-! ## One piece of a scan -/

theorem scanFrom_skip (position : Nat) (last : Spot) {skip : Nat} {cs : List Char}
    (h : skip ≤ cs.length) :
    scanFrom position last skip cs = scanFrom (position + skip) last 0 (cs.drop skip) := by
  induction cs generalizing position skip with
  | nil =>
    obtain rfl : skip = 0 := Nat.le_zero.1 h
    rfl
  | cons c cs ih =>
    cases skip with
    | zero => rfl
    | succ skip =>
      rw [scanFrom, ih (position + 1) (Nat.le_of_succ_le_succ h), List.drop_succ_cons]
      congr 1
      omega

/-- The spot of a piece that starts at a position. -/
def spotAt (position : Nat) (piece : List Char) : Spot :=
  ⟨position, position + piece.length⟩

/-- A scan goes on after the piece that wins, unless that is a stray character. -/
theorem Longest.scanFrom_eq {pattern : Pattern} {c : Char} {tail rest : List Char}
    (h : Longest pattern (c :: tail) rest) (position : Nat) (last : Spot) :
    scanFrom position last 0 (c :: tail ++ rest) =
      let spot := spotAt position (c :: tail)
      match pattern.lexeme (c :: tail) with
      | .dropped => scanFrom spot.stop spot 0 rest
      | .token kind => (scanFrom spot.stop spot 0 rest).cons ⟨kind, c :: tail, spot⟩
      | .stray => ⟨[], .stray c spot⟩ := by
  have hlongest := h.longest_eq
  have hrest : ∀ last, scanFrom (position + 1) last tail.length (tail ++ rest) =
      scanFrom (position + (tail.length + 1)) last 0 rest := by
    intro last
    rw [scanFrom_skip _ _ (by simp), List.drop_left, Nat.add_assoc, Nat.add_comm 1]
  have htake : (c :: (tail ++ rest)).take (tail.length + 1) = c :: tail := by simp
  rw [List.cons_append] at hlongest ⊢
  cases hlexeme : pattern.lexeme (c :: tail) with
  | dropped | token | stray =>
    simp only [scanFrom, hlongest, List.length_cons, htake, Nat.add_sub_cancel, hrest, spotAt,
      hlexeme]

/-! ## What a token is -/

/-- The kind and the meaning of a token, by the pattern that its text matches. -/
def Reads (token : Token) : Pattern → Prop
  | .word =>
      (∀ kind : Terminal, kind.Reserved → (token.kind = kind ↔
        Terminal.LowerCase token.text ∧ token.text.map Char.toUpper = kind.text.toList)) ∧
      (¬ token.kind.Reserved → token.kind = .name) ∧
      token.keyword = ⟨.ofList token.text, some token.spot⟩ ∧
      token.name = ⟨.ofList token.text, some token.spot⟩
  | .decimal =>
      token.kind = .integer ∧
      token.integer = .integer (Text.numeralValue 10 token.text) (some token.spot)
  | .hexadecimal =>
      token.kind = .integer ∧
      token.integer = .integer (Text.numeralValue 16 (token.text.drop 2)) (some token.spot)
  | .singleQuoted =>
      token.kind = .shortString ∧ ∃ content, token.text = '\'' :: (content ++ ['\'']) ∧
        token.string = .string (.ofList content) (some token.spot)
  | .doubleQuoted =>
      token.kind = .shortString ∧ ∃ content, token.text = '"' :: (content ++ ['"']) ∧
        token.string = .string (.ofList content) (some token.spot)
  | .arrow | .mark => token.kind.text.toList = token.text
  | .blanks | .comment | .stray => False

theorem reads_word (word : List Char) (spot : Spot) : Reads ⟨.ofWord word, word, spot⟩ .word := by
  refine ⟨fun kind hkind => ?_, Terminal.ofWord_eq_name, rfl, rfl⟩
  rw [Terminal.ofWord_eq_iff hkind, Terminal.eq_spelling_iff hkind]

theorem number_of_decimal {digits : List Char} (h : ∀ d ∈ digits, isDecimal d = true) :
    number digits = Text.numeralValue 10 digits := by
  unfold number
  split
  · exact absurd (h 'x' (by simp)) (by decide)
  · exact absurd (h 'X' (by simp)) (by decide)
  · rfl

theorem number_of_hexadecimal {x : Char} (h : x = 'x' ∨ x = 'X') (digits : List Char) :
    number ('0' :: x :: digits) = Text.numeralValue 16 digits := by
  rcases h with rfl | rfl <;> rfl

theorem text_of_ofMark? {c : Char} {kind : Terminal} (h : Terminal.ofMark? c = some kind) :
    kind.text.toList = [c] := by
  unfold Terminal.ofMark? at h
  split at h <;> cases h <;> decide

/-- What becomes of a piece: it is dropped, it is a token, or it is stray. -/
theorem Pattern.Matches.lexeme_cases {pattern : Pattern} {piece : List Char}
    (h : pattern.Matches piece) :
    (pattern = .blanks ∨ pattern = .comment) ∧ pattern.lexeme piece = .dropped ∨
    (∃ kind, pattern.lexeme piece = .token kind ∧ ∀ spot, Reads ⟨kind, piece, spot⟩ pattern) ∨
    pattern = .stray ∧ pattern.lexeme piece = .stray := by
  cases h with
  | blanks => exact .inl ⟨.inl rfl, rfl⟩
  | comment => exact .inl ⟨.inr rfl, rfl⟩
  | word => exact .inr (.inl ⟨_, rfl, reads_word _⟩)
  | decimal _ digit =>
    refine .inr (.inl ⟨.integer, rfl, fun spot => ⟨rfl, ?_⟩⟩)
    rw [Token.integer, number_of_decimal digit]
  | @hexadecimal x digits base =>
    refine .inr (.inl ⟨.integer, rfl, fun spot => ⟨rfl, ?_⟩⟩)
    rw [Token.integer, number_of_hexadecimal base]
    rfl
  | @singleQuoted content =>
    exact .inr (.inl ⟨.shortString, rfl, fun spot => ⟨rfl, content, rfl, by simp [Token.string]⟩⟩)
  | @doubleQuoted content =>
    exact .inr (.inl ⟨.shortString, rfl, fun spot => ⟨rfl, content, rfl, by simp [Token.string]⟩⟩)
  | arrow =>
    have harrow : Terminal.arrow.text.toList = ['=', '>'] := by decide
    exact .inr (.inl ⟨.arrow, rfl, fun _ => harrow⟩)
  | @mark c known =>
    obtain ⟨kind, hkind⟩ := Option.isSome_iff_exists.1 known
    exact .inr (.inl ⟨kind, by simp [Pattern.lexeme, hkind], fun _ => text_of_ofMark? hkind⟩)
  | stray => exact .inr (.inr ⟨rfl, rfl⟩)

/-! ## Spots in a text -/

/-- The piece of a text at a spot. -/
def slice (text : List Char) (spot : Spot) : List Char :=
  (text.drop spot.start).take (spot.stop - spot.start)

/-- The piece of a text at a spot wins where it starts. -/
def Munched (text : List Char) (pattern : Pattern) (spot : Spot) : Prop :=
  spot.stop ≤ text.length ∧ Longest pattern (slice text spot) (text.drop spot.stop)

/-- The text from one position up to another is cut into blanks and comments. -/
inductive Ignorable (text : List Char) : Nat → Nat → Prop where
  | nothing (position : Nat) : Ignorable text position position
  | more {start next stop : Nat} {pattern : Pattern} (munched : Munched text pattern ⟨start, next⟩)
      (dropped : pattern = .blanks ∨ pattern = .comment) (rest : Ignorable text next stop) :
      Ignorable text start stop

/-- What is before, between and after some tokens can be ignored. -/
def Covered (text : List Char) (start : Nat) : List Token → Nat → Prop
  | [], stop => Ignorable text start stop
  | token :: tokens, stop =>
      Ignorable text start token.spot.start ∧ Covered text token.spot.stop tokens stop

/-- The character at a position is matched by the pattern for stray ones, and by no
other. -/
structure OnlyStray (text : List Char) (position : Nat) (c : Char) : Prop where
  character : [c] <+: text.drop position
  stray : Pattern.stray.Matches [c]
  only : ∀ {pattern : Pattern} {piece : List Char}, pattern.Matches piece →
    piece <+: text.drop position → pattern = .stray

section Spots

variable {text : List Char}

theorem Munched.start_lt {pattern : Pattern} {spot : Spot} (h : Munched text pattern spot) :
    spot.start < spot.stop := by
  have hpos := h.2.matched.length_pos
  rw [slice, List.length_take] at hpos
  omega

theorem Munched.slice_append {pattern : Pattern} {spot : Spot} (h : Munched text pattern spot) :
    slice text spot ++ text.drop spot.stop = text.drop spot.start := by
  have hstop : spot.stop = spot.start + (spot.stop - spot.start) := by
    have := h.start_lt
    omega
  rw [slice]
  nth_rewrite 2 [hstop]
  rw [← List.drop_drop, List.take_append_drop]

theorem Munched.unique {pattern other : Pattern} {start stop stop' : Nat}
    (h : Munched text pattern ⟨start, stop⟩) (h' : Munched text other ⟨start, stop'⟩) :
    pattern = other ∧ stop = stop' := by
  have htext := h.slice_append.trans h'.slice_append.symm
  obtain ⟨hpattern, -, hrest⟩ := h.2.unique h'.2 htext
  have hlength := congrArg List.length hrest
  have hle := h.1
  have hle' := h'.1
  simp only [List.length_drop] at hlength hle hle'
  exact ⟨hpattern, by omega⟩

/-- A piece that wins in the rest of a text wins in the text. -/
theorem Longest.munched {pattern : Pattern} {piece rest : List Char} {position : Nat}
    (h : Longest pattern piece rest) (hrest : text.drop position = piece ++ rest) :
    Munched text pattern (spotAt position piece) ∧ slice text (spotAt position piece) = piece ∧
      text.drop (spotAt position piece).stop = rest := by
  have hpos := h.matched.length_pos
  have hlength := congrArg List.length hrest
  rw [List.length_drop, List.length_append] at hlength
  have hslice : slice text (spotAt position piece) = piece := by
    simp [slice, spotAt, hrest]
  have hdrop : text.drop (spotAt position piece).stop = rest := by
    simp [spotAt, ← List.drop_drop, hrest]
  refine ⟨⟨?_, ?_⟩, hslice, hdrop⟩
  · simp only [spotAt]
    omega
  · rwa [hslice, hdrop]

theorem Ignorable.le {start stop : Nat} (h : Ignorable text start stop) : start ≤ stop := by
  induction h with
  | nothing => exact le_rfl
  | more munched _ _ ih => exact munched.start_lt.le.trans ih

theorem Ignorable.trans {start middle stop : Nat} (h : Ignorable text start middle)
    (hrest : Ignorable text middle stop) : Ignorable text start stop := by
  induction h with
  | nothing => exact hrest
  | more munched dropped _ ih => exact .more munched dropped (ih hrest)

/-- Of two ways to ignore what follows a position, the longer one goes on where the
shorter one ends. -/
theorem Ignorable.rest {start middle stop : Nat} (h : Ignorable text start middle)
    (h' : Ignorable text start stop) (hle : middle ≤ stop) : Ignorable text middle stop := by
  induction h with
  | nothing => exact h'
  | @more start next middle pattern munched _ hmiddle ih =>
    have hlt : start < next := munched.start_lt
    have hge := hmiddle.le
    cases h' with
    | nothing => omega
    | more munched' _ hrest =>
      obtain ⟨-, rfl⟩ := munched.unique munched'
      exact ih hrest hle

theorem Covered.ignore {start middle stop : Nat} {tokens : List Token}
    (h : Ignorable text start middle) (hrest : Covered text middle tokens stop) :
    Covered text start tokens stop := by
  cases tokens with
  | nil => exact h.trans hrest
  | cons token tokens => exact ⟨h.trans hrest.1, hrest.2⟩

theorem Covered.rest {start middle stop : Nat} {tokens : List Token}
    (h : Covered text start tokens middle) (h' : Covered text start tokens stop)
    (hle : middle ≤ stop) : Ignorable text middle stop := by
  induction tokens generalizing start with
  | nil => exact Ignorable.rest h h' hle
  | cons token tokens ih => exact ih h.2 h'.2

/-- Nothing that can be ignored starts with a stray character. -/
theorem OnlyStray.eq_of_ignorable {start stop : Nat} {c : Char} (h : OnlyStray text start c)
    (hrest : Ignorable text start stop) : stop = start := by
  cases hrest with
  | nothing => rfl
  | more munched dropped _ =>
    have hprefix : slice text ⟨start, _⟩ <+: text.drop start := ⟨_, munched.slice_append⟩
    obtain rfl := h.only munched.2.matched hprefix
    simp at dropped

theorem OnlyStray.lt_length {position : Nat} {c : Char} (h : OnlyStray text position c) :
    position < text.length := by
  have hlength := h.character.length_le
  simp only [List.length_singleton, List.length_drop] at hlength
  omega

theorem OnlyStray.character_unique {position : Nat} {c d : Char} (h : OnlyStray text position c)
    (h' : OnlyStray text position d) : c = d := by
  obtain ⟨rest, hrest⟩ := h.character
  obtain ⟨rest', hrest'⟩ := h'.character
  rw [← hrest'] at hrest
  exact (List.cons.inj hrest).1

/-- A stray character wins only where no other pattern matches. -/
theorem Longest.onlyStray {c : Char} {rest : List Char} {position : Nat}
    (h : Longest .stray [c] rest) (hrest : text.drop position = c :: rest) :
    OnlyStray text position c := by
  refine ⟨⟨rest, hrest.symm⟩, h.matched, fun {pattern piece} hmatched hpiece => ?_⟩
  rw [hrest] at hpiece
  have hone : piece = [c] := by
    have hle := h.longest hmatched hpiece
    have hpos := hmatched.length_pos
    obtain ⟨d, rfl⟩ := List.length_eq_one_iff.1 (le_antisymm hle hpos)
    obtain ⟨others, hothers⟩ := hpiece
    rw [(List.cons.inj hothers).1]
  subst hone
  have hrank := h.first hmatched
  cases pattern <;> first | rfl | exact absurd hrank (by decide)

end Spots

/-! ## The whole scan -/

/-- A token is the longest match where it starts, and it is read from that. -/
def Genuine (text : List Char) (token : Token) : Prop :=
  token.text = slice text token.spot ∧
    ∃ pattern, Munched text pattern token.spot ∧ Reads token pattern

/-- A scan that ends at a position. -/
def EndsAt (text : List Char) (position : Nat) : Ending → Prop
  | .finished _ => position = text.length
  | .stray c spot => OnlyStray text position c ∧ spot = ⟨position, position + 1⟩

/-- Each piece of a scan is a token or can be ignored, up to the end. -/
theorem scanFrom_partition (text : List Char) (position : Nat) (last : Spot)
    (hposition : position ≤ text.length) :
    (∀ token ∈ (scanFrom position last 0 (text.drop position)).tokens, Genuine text token) ∧
    ∃ stop, Covered text position (scanFrom position last 0 (text.drop position)).tokens stop ∧
      EndsAt text stop (scanFrom position last 0 (text.drop position)).ending := by
  -- by the length of the rest of the text, since one piece is taken from it at a time
  induction hlength : text.length - position using Nat.strong_induction_on
    generalizing position last with
  | _ length ih =>
    cases hdrop : text.drop position with
    | nil =>
      have hend : position = text.length := by
        have := List.drop_eq_nil_iff.1 hdrop
        omega
      exact ⟨by simp [scanFrom], position, .nothing position, hend⟩
    | cons c cs =>
      obtain ⟨pattern, piece, rest, hpiece, -, hlongest⟩ := exists_longest c cs
      obtain ⟨hmunched, hslice, hrest⟩ := hlongest.munched (hdrop.trans hpiece)
      obtain ⟨tail, rfl⟩ : ∃ tail, piece = c :: tail := by
        cases piece with
        | nil => exact absurd hlongest.matched.length_pos (lt_irrefl 0)
        | cons d tail => exact ⟨tail, by rw [(List.cons.inj hpiece).1]⟩
      have hless : text.length - (spotAt position (c :: tail)).stop < length := by
        have hlt : position < (spotAt position (c :: tail)).stop := hmunched.start_lt
        have hle := hmunched.1
        omega
      have hnext := ih _ hless _ (spotAt position (c :: tail)) hmunched.1 rfl
      rw [hrest] at hnext
      obtain ⟨htokens, stop, hcovered, hends⟩ := hnext
      rw [hpiece, hlongest.scanFrom_eq position last]
      rcases hlongest.matched.lexeme_cases with
        ⟨hdropped, hlexeme⟩ | ⟨kind, hlexeme, hreads⟩ | ⟨rfl, hlexeme⟩
      · rw [hlexeme]
        exact ⟨htokens, stop, hcovered.ignore (.more hmunched hdropped (.nothing _)), hends⟩
      · rw [hlexeme]
        refine ⟨List.forall_mem_cons.2 ⟨?_, htokens⟩, stop, ⟨.nothing position, hcovered⟩, hends⟩
        exact ⟨hslice.symm, pattern, hmunched, hreads _⟩
      · rw [hlexeme]
        obtain rfl : tail = [] := by
          cases hlongest.matched
          rfl
        exact ⟨by simp, position, .nothing position, hlongest.onlyStray (hdrop.trans hpiece), rfl⟩

theorem Covered.pairwise {text : List Char} {start stop : Nat} {tokens : List Token}
    (h : Covered text start tokens stop) (hgenuine : ∀ token ∈ tokens, Genuine text token) :
    (∀ token ∈ tokens, start ≤ token.spot.start) ∧
      tokens.Pairwise fun token next => token.spot.stop ≤ next.spot.start := by
  induction tokens generalizing start with
  | nil => simp
  | cons token tokens ih =>
    obtain ⟨⟨-, pattern, hmunched, -⟩, hothers⟩ := List.forall_mem_cons.1 hgenuine
    obtain ⟨hafter, hpairwise⟩ := ih h.2 hothers
    have hstart := h.1.le
    have hlt := hmunched.start_lt
    refine ⟨List.forall_mem_cons.2 ⟨hstart, fun next hnext => ?_⟩,
      List.pairwise_cons.2 ⟨hafter, hpairwise⟩⟩
    have := hafter next hnext
    omega

/-- The end of a scan is where no more of the text is covered. -/
theorem EndsAt.unique {text : List Char} {tokens : List Token} {start stop stop' : Nat}
    {ending ending' : Ending} (hcovered : Covered text start tokens stop)
    (hends : EndsAt text stop ending) (hcovered' : Covered text start tokens stop')
    (hends' : EndsAt text stop' ending') : stop = stop' := by
  have hle : ∀ {stop stop' : Nat} {ending : Ending}, Covered text start tokens stop →
      EndsAt text stop ending → Covered text start tokens stop' → stop' ≤ text.length →
      stop ≤ stop' → stop = stop' := by
    intro stop stop' ending hcovered hends hcovered' hlength hle
    cases ending with
    | finished last => exact le_antisymm hle (hends.symm ▸ hlength)
    | stray c spot => exact (hends.1.eq_of_ignorable (hcovered.rest hcovered' hle)).symm
  have hlength : ∀ {stop : Nat} {ending : Ending}, EndsAt text stop ending →
      stop ≤ text.length := by
    intro stop ending hends
    cases ending with
    | finished last => exact hends.le
    | stray c spot => exact hends.1.lt_length.le
  rcases le_total stop stop' with h | h
  · exact hle hcovered hends hcovered' (hlength hends') h
  · exact (hle hcovered' hends' hcovered (hlength hends) h).symm

/-- A scan cuts a text into tokens, each the longest match where it starts, and into
blanks and comments before, between and after them. It is broken off exactly where
what has been covered so far is followed by a stray character. -/
theorem scan_partitions (text : String) :
    (∀ token ∈ (scan text).tokens, token.spot.start < token.spot.stop ∧
      token.spot.stop ≤ text.toList.length ∧ Genuine text.toList token) ∧
    ((scan text).tokens.Pairwise fun token next => token.spot.stop ≤ next.spot.start) ∧
    ((∃ last, (scan text).ending = .finished last) ↔
      Covered text.toList 0 (scan text).tokens text.toList.length) ∧
    ∀ c spot, (scan text).ending = .stray c spot ↔
      ∃ position, Covered text.toList 0 (scan text).tokens position ∧
        OnlyStray text.toList position c ∧ spot = ⟨position, position + 1⟩ := by
  obtain ⟨hgenuine, stop, hcovered, hends⟩ :=
    scanFrom_partition text.toList 0 ⟨0, 0⟩ (Nat.zero_le _)
  rw [List.drop_zero, ← scan] at hgenuine hcovered hends
  refine ⟨fun token htoken => ?_, (hcovered.pairwise hgenuine).2, ?_, fun c spot => ?_⟩
  · obtain ⟨pattern, hmunched, -⟩ := (hgenuine token htoken).2
    exact ⟨hmunched.start_lt, hmunched.1, hgenuine token htoken⟩
  · constructor
    · rintro ⟨last, hlast⟩
      rw [hlast] at hends
      exact hends ▸ hcovered
    · intro hall
      have hfinished : EndsAt text.toList text.toList.length (.finished ⟨0, 0⟩) := rfl
      obtain rfl := EndsAt.unique hcovered hends hall hfinished
      cases hending : (scan text).ending with
      | finished last => exact ⟨last, rfl⟩
      | stray c spot =>
        rw [hending] at hends
        exact absurd hends.1.lt_length (lt_irrefl _)
  · constructor
    · intro hstray
      rw [hstray] at hends
      exact ⟨stop, hcovered, hends.1, hends.2⟩
    · rintro ⟨position, hposition, honly, rfl⟩
      have hstray : EndsAt text.toList position (.stray c ⟨position, position + 1⟩) := ⟨honly, rfl⟩
      obtain rfl := EndsAt.unique hcovered hends hposition hstray
      cases hending : (scan text).ending with
      | finished last =>
        rw [hending] at hends
        obtain rfl : stop = text.toList.length := hends
        exact absurd honly.lt_length (lt_irrefl _)
      | stray d spot =>
        rw [hending] at hends
        rw [hends.2, hends.1.character_unique honly]

end Resumable.Token
