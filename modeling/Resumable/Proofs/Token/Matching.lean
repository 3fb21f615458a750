import Mathlib
import Resumable.Token.Scan

/-!
# What the patterns match

`Matches` says which texts a pattern matches, one rule for each pattern and
without any scanning. The reach of a pattern is the length of its longest match
at the start of a text. The pattern that wins there has the longest match of all,
and comes first among those that tie.
-/

namespace Resumable.Token

/-- Characters that may stand between two marks. -/
def Quotable (mark : Char) (content : List Char) : Prop :=
  ∀ c ∈ content, c ≠ mark ∧ c ≠ '\n'

/-- The texts that a pattern matches. -/
inductive Pattern.Matches : Pattern → List Char → Prop where
  | blanks {cs : List Char} (nonempty : cs ≠ []) (blank : ∀ c ∈ cs, Text.isAsciiBlank c = true) :
      Matches .blanks cs
  | comment {body : List Char} (line : ∀ c ∈ body, c ≠ '\n') : Matches .comment ('/' :: '/' :: body)
  | word {c : Char} {body : List Char} (starts : startsWord c = true)
      (continues : ∀ d ∈ body, continuesWord d = true) : Matches .word (c :: body)
  | decimal {digits : List Char} (nonempty : digits ≠ [])
      (digit : ∀ d ∈ digits, isDecimal d = true) : Matches .decimal digits
  | hexadecimal {x : Char} {digits : List Char} (base : x = 'x' ∨ x = 'X') (nonempty : digits ≠ [])
      (digit : ∀ d ∈ digits, isHexadecimal d = true) : Matches .hexadecimal ('0' :: x :: digits)
  | singleQuoted {content : List Char} (plain : Quotable '\'' content) :
      Matches .singleQuoted ('\'' :: (content ++ ['\'']))
  | doubleQuoted {content : List Char} (plain : Quotable '"' content) :
      Matches .doubleQuoted ('"' :: (content ++ ['"']))
  | arrow : Matches .arrow ['=', '>']
  | mark {c : Char} (known : isMark c = true) : Matches .mark [c]
  | stray {c : Char} (inLine : endsLine c = false) : Matches .stray [c]

theorem Pattern.Matches.length_pos {pattern : Pattern} {piece : List Char}
    (h : pattern.Matches piece) : 0 < piece.length := by
  cases h with
  | blanks nonempty => exact List.length_pos_iff.2 nonempty
  | decimal nonempty => exact List.length_pos_iff.2 nonempty
  | _ => simp

/-! ## The reach of a pattern -/

theorem length_le_takeWhile {p : Char → Bool} {piece : List Char} (h : ∀ c ∈ piece, p c = true)
    (rest : List Char) : piece.length ≤ ((piece ++ rest).takeWhile p).length := by
  rw [List.takeWhile_append_of_pos h, List.length_append]
  exact Nat.le_add_right _ _

theorem takeWhile_of_boundary {p : Char → Bool} {body rest : List Char} {c : Char}
    (h : ∀ d ∈ body, p d = true) (hc : p c = false) : (body ++ c :: rest).takeWhile p = body := by
  rw [List.takeWhile_append_of_pos h, List.takeWhile_cons_of_neg (by simp [hc]), List.append_nil]

theorem quotedReach_quoted {mark : Char} {content : List Char} (h : Quotable mark content)
    (rest : List Char) : quotedReach mark (mark :: (content ++ mark :: rest)) = content.length + 2 := by
  have hcontent : (content ++ mark :: rest).takeWhile (fun d => d != mark && d != '\n') = content :=
    takeWhile_of_boundary (fun d hd => by simp [h d hd]) (by simp)
  simp [quotedReach, hcontent]

/-- No match is longer than the reach of its pattern. -/
theorem Pattern.Matches.le_reach {pattern : Pattern} {piece : List Char}
    (h : pattern.Matches piece) (rest : List Char) :
    piece.length ≤ pattern.reach (piece ++ rest) := by
  cases h with
  | blanks _ blank => exact length_le_takeWhile blank rest
  | @comment body line =>
    have hline : ∀ c ∈ body, (c != '\n') = true := by simpa using line
    have hbody := length_le_takeWhile hline rest
    simpa [Pattern.reach] using hbody
  | word starts continues =>
    have hbody := length_le_takeWhile continues rest
    simpa [Pattern.reach, starts] using hbody
  | decimal _ digit => exact length_le_takeWhile digit rest
  | @hexadecimal x digits base nonempty digit =>
    have hdigits := length_le_takeWhile digit rest
    have hpos := List.length_pos_iff.2 nonempty
    simp only [List.cons_append, Pattern.reach, if_pos base, List.length_cons]
    split <;> omega
  | singleQuoted plain => simp [Pattern.reach, quotedReach_quoted plain]
  | doubleQuoted plain => simp [Pattern.reach, quotedReach_quoted plain]
  | arrow => simp [Pattern.reach]
  | mark known => simp [Pattern.reach, known]
  | stray inLine => simp [Pattern.reach, inLine]

theorem exists_takeWhile (p : Char → Bool) (cs : List Char) :
    ∃ piece rest, cs = piece ++ rest ∧ piece.length = (cs.takeWhile p).length ∧
      ∀ c ∈ piece, p c = true :=
  ⟨cs.takeWhile p, cs.dropWhile p, List.takeWhile_append_dropWhile.symm, rfl,
    fun _ => List.mem_takeWhile_imp⟩

/-- Where a quoted text has a reach, it is that of a content and its two marks. -/
theorem exists_quoted {mark : Char} {cs : List Char} (h : 0 < quotedReach mark cs) :
    ∃ content rest, cs = mark :: (content ++ mark :: rest) ∧
      content.length + 2 = quotedReach mark cs ∧ Quotable mark content := by
  cases cs with
  | nil => simp [quotedReach] at h
  | cons c cs =>
    by_cases hc : c = mark
    · subst hc
      obtain ⟨content, rest, rfl, hlength, hcontent⟩ :=
        exists_takeWhile (fun d => d != c && d != '\n') cs
      have hplain : Quotable c content := by
        intro d hd
        simpa using hcontent d hd
      simp only [quotedReach, if_true, ← hlength, List.drop_left] at h
      cases rest with
      | nil => simp at h
      | cons d rest =>
        by_cases hd : d = c
        · subst hd
          exact ⟨content, rest, rfl, (quotedReach_quoted hplain rest).symm, hplain⟩
        · simp [hd] at h
    · simp [quotedReach, hc] at h

/-- The reach of a pattern is the length of a match. -/
theorem Pattern.exists_match {pattern : Pattern} {cs : List Char} (h : 0 < pattern.reach cs) :
    ∃ piece rest, cs = piece ++ rest ∧ piece.length = pattern.reach cs ∧ pattern.Matches piece := by
  unfold Pattern.reach at h ⊢
  split at h
  · obtain ⟨piece, rest, hcs, hlength, hblank⟩ := exists_takeWhile Text.isAsciiBlank cs
    rw [← hlength] at h
    exact ⟨piece, rest, hcs, hlength, .blanks (List.length_pos_iff.1 h) hblank⟩
  · rename_i cs
    obtain ⟨body, rest, rfl, hlength, hline⟩ := exists_takeWhile (· != '\n') cs
    exact ⟨'/' :: '/' :: body, rest, rfl, congrArg (· + 2) hlength, .comment (by simpa using hline)⟩
  · rename_i c cs
    split at h
    · rename_i hstarts
      obtain ⟨body, rest, rfl, hlength, hcontinues⟩ := exists_takeWhile continuesWord cs
      exact ⟨c :: body, rest, rfl, by simp [hstarts, ← hlength], .word hstarts hcontinues⟩
    · cases h
  · obtain ⟨digits, rest, hcs, hlength, hdigit⟩ := exists_takeWhile isDecimal cs
    rw [← hlength] at h
    exact ⟨digits, rest, hcs, hlength, .decimal (List.length_pos_iff.1 h) hdigit⟩
  · rename_i x cs
    split at h
    · rename_i hbase
      obtain ⟨digits, rest, rfl, hlength, hdigit⟩ := exists_takeWhile isHexadecimal cs
      rw [← hlength] at h ⊢
      cases digits with
      | nil => cases h
      | cons d digits =>
        exact ⟨'0' :: x :: d :: digits, rest, rfl, by simp [hbase],
          .hexadecimal hbase (List.cons_ne_nil _ _) hdigit⟩
    · cases h
  · obtain ⟨content, rest, rfl, hlength, hplain⟩ := exists_quoted h
    exact ⟨'\'' :: (content ++ ['\'']), rest, by simp, by simp [← hlength], .singleQuoted hplain⟩
  · obtain ⟨content, rest, rfl, hlength, hplain⟩ := exists_quoted h
    exact ⟨'"' :: (content ++ ['"']), rest, by simp, by simp [← hlength], .doubleQuoted hplain⟩
  · rename_i cs
    exact ⟨['=', '>'], cs, rfl, rfl, .arrow⟩
  · rename_i c cs
    split at h
    · rename_i hknown
      exact ⟨[c], cs, rfl, by simp [hknown], .mark hknown⟩
    · cases h
  · rename_i c cs
    split at h
    · cases h
    · rename_i hline
      exact ⟨[c], cs, rfl, by simp [hline], .stray (Bool.eq_false_iff.2 hline)⟩
  · cases h

/-! ## The pattern that wins -/

/-- The place of a pattern in the order of precedence. -/
def Pattern.rank (pattern : Pattern) : Nat :=
  Pattern.all.idxOf pattern

theorem Pattern.mem_all (pattern : Pattern) : pattern ∈ Pattern.all := by
  cases pattern <;> decide

theorem Pattern.rank_injective {pattern other : Pattern} (h : pattern.rank = other.rank) :
    pattern = other :=
  (List.idxOf_inj pattern.mem_all).1 h

/-- A piece at the start of a text is the longest match of any pattern there, and
the pattern is the first one that matches it. -/
structure Longest (pattern : Pattern) (piece rest : List Char) : Prop where
  matched : pattern.Matches piece
  longest : ∀ {other : Pattern} {longer : List Char}, other.Matches longer →
    longer <+: piece ++ rest → longer.length ≤ piece.length
  first : ∀ {other : Pattern}, other.Matches piece → pattern.rank ≤ other.rank

/-- A match that cannot be extended is the longest one. -/
theorem Pattern.Matches.longest_of_extension {pattern : Pattern} {piece rest : List Char}
    (h : pattern.Matches piece)
    (hfirst : ∀ {other : Pattern}, other.Matches piece → pattern.rank ≤ other.rank)
    (hextension : ∀ {other : Pattern} {d : Char} {more : List Char}, d :: more <+: rest →
      ¬ other.Matches (piece ++ d :: more)) : Longest pattern piece rest := by
  refine ⟨h, fun {other longer} hother hlonger => ?_, hfirst⟩
  by_contra hlength
  obtain ⟨more, rfl⟩ : ∃ more, longer = piece ++ more :=
    (List.prefix_of_prefix_length_le (List.prefix_append _ _) hlonger (by omega)).imp
      fun _ => Eq.symm
  cases more with
  | nil => simp at hlength
  | cons d more => exact hextension ((List.prefix_append_right_inj _).1 hlonger) hother

/-- The same text is not matched in two ways. -/
theorem Longest.unique {pattern other : Pattern} {piece rest piece' rest' : List Char}
    (h : Longest pattern piece rest) (h' : Longest other piece' rest')
    (htext : piece ++ rest = piece' ++ rest') :
    pattern = other ∧ piece = piece' ∧ rest = rest' := by
  have hle : piece.length ≤ piece'.length :=
    h'.longest h.matched (htext ▸ List.prefix_append _ _)
  have hge : piece'.length ≤ piece.length :=
    h.longest h'.matched (htext ▸ List.prefix_append _ _)
  obtain ⟨rfl, rfl⟩ := List.append_inj htext (le_antisymm hle hge)
  have hrank := le_antisymm (h.first h'.matched) (h'.first h.matched)
  exact ⟨Pattern.rank_injective hrank, rfl, rfl⟩

/-- What a row of patterns does to the best match so far. -/
theorem foldl_better (cs : List Char) (patterns : List Pattern) (best : Pattern × Nat) :
    (∀ other ∈ patterns, other.reach cs ≤ (patterns.foldl (Pattern.better cs) best).2) ∧
    best.2 ≤ (patterns.foldl (Pattern.better cs) best).2 ∧
    (patterns.foldl (Pattern.better cs) best = best ∨
      ∃ before pattern after, patterns = before ++ pattern :: after ∧
        patterns.foldl (Pattern.better cs) best = (pattern, pattern.reach cs) ∧
        best.2 < pattern.reach cs ∧ ∀ other ∈ before, other.reach cs < pattern.reach cs) := by
  induction patterns generalizing best with
  | nil => simp
  | cons first patterns ih =>
    rw [List.foldl_cons]
    by_cases hbetter : best.2 < first.reach cs
    · -- the first pattern is the best match so far
      have hstep : Pattern.better cs best first = (first, first.reach cs) := if_pos hbetter
      obtain ⟨hall, hge, hfound⟩ := ih (first, first.reach cs)
      rw [hstep]
      refine ⟨List.forall_mem_cons.2 ⟨hge, hall⟩, hbetter.le.trans hge, .inr ?_⟩
      rcases hfound with hsame | ⟨before, pattern, after, rfl, hlast, hlt, hbefore⟩
      · exact ⟨[], first, patterns, rfl, hsame, hbetter, by simp⟩
      · exact ⟨first :: before, pattern, after, rfl, hlast, hbetter.trans hlt,
          List.forall_mem_cons.2 ⟨hlt, hbefore⟩⟩
    · have hstep : Pattern.better cs best first = best := if_neg hbetter
      have hfirst : first.reach cs ≤ best.2 := not_lt.1 hbetter
      obtain ⟨hall, hge, hfound⟩ := ih best
      rw [hstep]
      refine ⟨List.forall_mem_cons.2 ⟨hfirst.trans hge, hall⟩, hge, ?_⟩
      rcases hfound with hsame | ⟨before, pattern, after, rfl, hlast, hlt, hbefore⟩
      · exact .inl hsame
      · exact .inr ⟨first :: before, pattern, after, rfl, hlast, hlt,
          List.forall_mem_cons.2 ⟨hfirst.trans_lt hlt, hbefore⟩⟩

theorem isAsciiBlank_of_endsLine {c : Char} (h : endsLine c = true) :
    Text.isAsciiBlank c = true := by
  simp only [endsLine, Text.isAsciiBlank, Text.inRanges] at h ⊢
  grind

/-- Every character is matched: what ends a line is blank. -/
theorem exists_reach_pos (c : Char) (cs : List Char) :
    ∃ pattern : Pattern, 0 < pattern.reach (c :: cs) := by
  by_cases hline : endsLine c = true
  · have hblank : Pattern.blanks.Matches [c] :=
      .blanks (List.cons_ne_nil _ _) (by simp [isAsciiBlank_of_endsLine hline])
    exact ⟨.blanks, hblank.le_reach cs⟩
  · exact ⟨.stray, (Pattern.Matches.stray (Bool.eq_false_iff.2 hline)).le_reach cs⟩

theorem mem_before_of_rank_lt {before after : List Pattern} {pattern other : Pattern}
    (hall : Pattern.all = before ++ pattern :: after) (hlt : other.rank < pattern.rank) :
    other ∈ before := by
  have hpattern : pattern ∉ before := by
    have hnodup : Pattern.all.Nodup := by decide
    rw [hall] at hnodup
    exact fun hmem => (List.nodup_append.1 hnodup).2.2 _ hmem _ List.mem_cons_self rfl
  have hrank : pattern.rank = before.length := by
    rw [Pattern.rank, hall, List.idxOf_append_of_notMem hpattern, List.idxOf_cons_self,
      Nat.add_zero]
  by_contra hother
  rw [hrank, Pattern.rank, hall, List.idxOf_append_of_notMem hother] at hlt
  omega

/-- At the start of any text some pattern wins. -/
theorem exists_longest (c : Char) (cs : List Char) :
    ∃ pattern piece rest, c :: cs = piece ++ rest ∧
      Pattern.longest (c :: cs) = (pattern, piece.length) ∧ Longest pattern piece rest := by
  obtain ⟨hreach, -, hfound⟩ := foldl_better (c :: cs) Pattern.all (.stray, 0)
  obtain ⟨any, hany⟩ := exists_reach_pos c cs
  rcases hfound with hnone | ⟨before, pattern, after, hall, hlongest, hpos, hbefore⟩
  · have hle := hreach any any.mem_all
    rw [hnone] at hle
    omega
  · obtain ⟨piece, rest, htext, hlength, hmatched⟩ := Pattern.exists_match hpos
    have hle : ∀ {other : Pattern} {longer : List Char}, other.Matches longer →
        longer <+: piece ++ rest → longer.length ≤ other.reach (c :: cs) := by
      rintro other longer hother ⟨others, hlonger⟩
      rw [htext, ← hlonger]
      exact hother.le_reach others
    refine ⟨pattern, piece, rest, htext, by rw [hlength]; exact hlongest, hmatched, ?_, ?_⟩
    · intro other longer hother hlonger
      have hmost := hreach other other.mem_all
      rw [hlongest] at hmost
      rw [hlength]
      exact (hle hother hlonger).trans hmost
    · intro other hother
      by_contra hrank
      have hless := hbefore other (mem_before_of_rank_lt hall (not_le.1 hrank))
      have hsame := hle hother (List.prefix_append piece rest)
      omega

theorem Longest.longest_eq {pattern : Pattern} {piece rest : List Char}
    (h : Longest pattern piece rest) :
    Pattern.longest (piece ++ rest) = (pattern, piece.length) := by
  have hpos := h.matched.length_pos
  cases piece with
  | nil => cases hpos
  | cons c piece =>
    obtain ⟨other, piece', rest', htext, hlongest, h'⟩ := exists_longest c (piece ++ rest)
    obtain ⟨rfl, rfl, rfl⟩ := h.unique h' htext
    exact hlongest

end Resumable.Token
