import Resumable.Proofs.Token.Spelling

/-!
# Positional notation

A row of digits denotes the sum of its digits, each times the power of the base that belongs
to its place. Reading the digits from left to right gives that number, in any base. A number
has exactly one decimal numeral without superfluous zeros. Numerals are read and shown if a
limit on digits allows their length.
-/

namespace Resumable.Text

open Token (isDecimal isHexadecimal)

/-! ## Digits -/

/-- The digits, each at the place of its value. -/
def digitTable : List Char :=
  ['0', '1', '2', '3', '4', '5', '6', '7', '8', '9', 'a', 'b', 'c', 'd', 'e', 'f']

/-- The place of a digit in the table. A capital letter counts as the small one. -/
def digitPlace (c : Char) : Nat :=
  digitTable.idxOf c.toLower

/-- The number that a row of digits denotes in a base. The last digit counts once, the one
before it `base` times, and so on. -/
def positional (base : Nat) (digits : List Char) : Nat :=
  Nat.ofDigits base (digits.reverse.map digitPlace)

/-- What holds of the ASCII characters, one by one, holds of each hexadecimal digit. -/
theorem of_isHexadecimal (property : Char → Prop)
    (hascii : ∀ n < 128, isHexadecimal (Char.ofNat n) = true → property (Char.ofNat n))
    {c : Char} (h : isHexadecimal c = true) : property c := by
  have hlt : c.toNat < 128 := by
    simp only [isHexadecimal, isDecimal, Bool.or_eq_true, Bool.and_eq_true, decide_eq_true_eq,
      Char.le_def, UInt32.le_iff_toNat_le] at h
    have hcode : c.toNat = c.val.toNat := rfl
    have hnine : ('9' : Char).val.toNat = 57 := rfl
    have hf : ('f' : Char).val.toNat = 102 := rfl
    have hF : ('F' : Char).val.toNat = 70 := rfl
    omega
  have hc := hascii c.toNat hlt
  rw [Char.ofNat_toNat] at hc
  exact hc h

theorem isHexadecimal_of_isDecimal {c : Char} (h : isDecimal c = true) :
    isHexadecimal c = true := by
  simp [isHexadecimal, h]

theorem digitValue_eq_digitPlace {c : Char} (h : isHexadecimal c = true) :
    digitValue c = digitPlace c :=
  of_isHexadecimal (fun c => digitValue c = digitPlace c) (by decide +kernel) h

theorem digitPlace_lt_ten {c : Char} (h : isDecimal c = true) : digitPlace c < 10 :=
  of_isHexadecimal (fun c => isDecimal c = true → digitPlace c < 10) (by decide +kernel)
    (isHexadecimal_of_isDecimal h) h

/-- A decimal digit is told by its place. -/
theorem digitChar_digitPlace {c : Char} (h : isDecimal c = true) :
    (digitPlace c).digitChar = c :=
  of_isHexadecimal (fun c => isDecimal c = true → (digitPlace c).digitChar = c)
    (by decide +kernel) (isHexadecimal_of_isDecimal h) h

/-! ## Reading from left to right -/

/-- Reading digits from left to right gives the number that they denote. -/
theorem numeralValue_eq_positional (base : Nat) {digits : List Char}
    (h : ∀ c ∈ digits, isHexadecimal c = true) :
    numeralValue base digits = positional base digits := by
  have hplaces : numeralValue base digits =
      digits.foldl (fun value digit => digitPlace digit + base * value) 0 := by
    refine List.foldl_ext _ _ _ fun value digit hdigit => ?_
    rw [digitValue_eq_digitPlace (h digit hdigit), Nat.mul_comm, Nat.add_comm]
  rw [hplaces, positional, Nat.ofDigits_eq_foldr, List.foldr_map, List.foldr_reverse]
  rfl

/-! ## Decimal numerals -/

/-- The decimal numeral of a number: one digit at least, and no zero before other digits. -/
structure DecimalNumeral (text : List Char) (number : Nat) : Prop where
  nonempty : text ≠ []
  digits : ∀ c ∈ text, isDecimal c = true
  value : positional 10 text = number
  unpadded : text.head? = some '0' → text = ['0']

theorem positional_zero : positional 10 ['0'] = 0 := by
  decide

/-- A numeral that does not start with a zero has the digits of its number. -/
theorem DecimalNumeral.places_eq {text : List Char} {number : Nat}
    (h : DecimalNumeral text number) (hhead : text.head? ≠ some '0') :
    text.reverse.map digitPlace = Nat.digits 10 number := by
  rw [← h.value, positional, Nat.digits_ofDigits 10 (by decide)]
  · intro place hplace
    obtain ⟨c, hc, rfl⟩ := List.mem_map.1 hplace
    exact digitPlace_lt_ten (h.digits c (List.mem_reverse.1 hc))
  · -- the place that counts most is that of the first digit, which is not a zero
    intro hne
    obtain ⟨c, tail, rfl⟩ := List.exists_cons_of_ne_nil h.nonempty
    have hc : isDecimal c = true := h.digits c List.mem_cons_self
    have hlast : ((c :: tail).reverse.map digitPlace).getLast hne = digitPlace c := by simp
    rw [hlast]
    intro hzero
    have hchar := digitChar_digitPlace hc
    rw [hzero] at hchar
    exact hhead (by rw [List.head?_cons, ← hchar]; rfl)

/-- The text of a numeral is told by the places of its digits. -/
theorem eq_of_places_eq {text text' : List Char} (h : ∀ c ∈ text, isDecimal c = true)
    (h' : ∀ c ∈ text', isDecimal c = true)
    (hplaces : text.reverse.map digitPlace = text'.reverse.map digitPlace) : text = text' := by
  have hchars : ∀ {cs : List Char}, (∀ c ∈ cs, isDecimal c = true) →
      (cs.reverse.map digitPlace).map Nat.digitChar = cs.reverse := by
    intro cs hcs
    rw [List.map_map]
    refine (List.map_congr_left fun c hc => ?_).trans (List.map_id _)
    exact digitChar_digitPlace (hcs c (List.mem_reverse.1 hc))
  rw [← List.reverse_inj, ← hchars h, ← hchars h', hplaces]

theorem DecimalNumeral.eq_zero_iff {text : List Char} {number : Nat}
    (h : DecimalNumeral text number) : text.head? = some '0' ↔ number = 0 := by
  constructor
  · intro hhead
    rw [← h.value, h.unpadded hhead, positional_zero]
  · rintro rfl
    by_contra hhead
    have hplaces := h.places_eq hhead
    rw [Nat.digits_zero, List.map_eq_nil_iff, List.reverse_eq_nil_iff] at hplaces
    exact h.nonempty hplaces

/-- A number has at most one decimal numeral. -/
theorem DecimalNumeral.unique {text text' : List Char} {number : Nat}
    (h : DecimalNumeral text number) (h' : DecimalNumeral text' number) : text = text' := by
  by_cases hzero : number = 0
  · rw [h.unpadded (h.eq_zero_iff.2 hzero), h'.unpadded (h'.eq_zero_iff.2 hzero)]
  · have hplaces := h.places_eq (mt h.eq_zero_iff.1 hzero)
    have hplaces' := h'.places_eq (mt h'.eq_zero_iff.1 hzero)
    exact eq_of_places_eq h.digits h'.digits (hplaces.trans hplaces'.symm)

theorem eq_zero_of_head_toDigits {number : Nat} (h : (Nat.toDigits 10 number).head? = some '0') :
    number = 0 := by
  induction number using Nat.strong_induction_on with
  | _ number ih =>
    -- the first digit of a number is that of its quotient, down to a single digit
    rw [Nat.toDigits_eq_if (by decide)] at h
    split_ifs at h with hlt
    · have hdigit : number.digitChar = '0' := by simpa using h
      have hall : ∀ n < 10, n.digitChar = '0' → n = 0 := by decide
      exact hall number hlt hdigit
    · rw [List.head?_append_of_ne_nil _ Nat.toDigits_ne_nil] at h
      have hquotient := ih (number / 10) (by omega) h
      omega

/-- The text that is printed for a number is its decimal numeral. -/
theorem decimalNumeral_repr (number : Nat) : DecimalNumeral number.repr.toList number := by
  have hdigits : ∀ c ∈ number.repr.toList, isDecimal c = true := by
    rw [Nat.toList_repr]
    exact fun c hc => Token.isDecimal_of_isDigit
      (Nat.isDigit_of_mem_toDigits (by decide) (by decide) hc)
  refine ⟨?_, hdigits, ?_, fun hhead => ?_⟩
  · rw [Nat.toList_repr]
    exact Nat.toDigits_ne_nil
  · rw [← numeralValue_eq_positional 10 fun c hc => isHexadecimal_of_isDecimal (hdigits c hc),
      ← Token.number_of_decimal hdigits, Token.number_repr]
  · rw [Nat.toList_repr] at hhead
    rw [eq_zero_of_head_toDigits hhead]
    decide

/-! ## Long numerals -/

namespace DigitLimit

variable {limit : DigitLimit}

/-- So many digits are not more than the limit, if there is one. -/
def Allows (limit : DigitLimit) (digits : Nat) : Prop :=
  ∀ most, limit = some most → digits ≤ most

instance (limit : DigitLimit) (digits : Nat) : Decidable (limit.Allows digits) :=
  match limit with
  | none => isTrue fun _ h => by cases h
  | some most => decidable_of_iff (digits ≤ most) (by simp [Allows])

theorem reading?_eq_none_iff {digits : Nat} :
    limit.reading? digits = none ↔ limit.Allows digits := by
  cases limit with
  | none => simp [reading?, Allows]
  | some most => simp [reading?, Allows]

theorem reading?_eq_some_iff {digits : Nat} {overlong : Overlong} :
    limit.reading? digits = some overlong ↔
      ∃ most, limit = some most ∧ most < digits ∧ overlong = .numeral most digits := by
  cases limit with
  | none => simp [reading?]
  | some most => simp [reading?, eq_comm]

theorem shown_eq_ok_iff {value : Int} {text : String} :
    limit.shown value = .ok text ↔
      text = value.repr ∧ limit.Allows value.natAbs.repr.length := by
  cases limit with
  | none => simp [shown, Allows, eq_comm]
  | some most =>
    by_cases hlength : value.natAbs.repr.length ≤ most
    · simp [shown, Allows, hlength, eq_comm]
    · simp [shown, Allows, hlength]

theorem shown_eq_error_iff {value : Int} {overlong : Overlong} :
    limit.shown value = .error overlong ↔
      ∃ most, limit = some most ∧ most < value.natAbs.repr.length ∧ overlong = .number most := by
  cases limit with
  | none => simp [shown]
  | some most =>
    by_cases hlength : value.natAbs.repr.length ≤ most
    · simp [shown, hlength]
    · simp [shown, hlength, Nat.lt_of_not_le hlength, eq_comm]

end DigitLimit

end Resumable.Text
