import Mathlib.Data.List.TakeWhile
import TypedWorkflow.Text.Numeral

/-!
# The grammar of numerals

Which texts denote a number is said twice, by the readers and by the grammar here: a signed 64-bit
integer is an optional sign and digits whose value is in range, a floating-point number an optional
sign and a decimal number or one of the words for infinity and NaN. The two agree on every text.

## Main definitions

* `Text.DenotesInt64`, `Text.DenotesFloat`: the grammar.
* `Text.toInt64?_isSome_iff`, `Text.isFloat_iff`: the readers accept what it derives.
-/

namespace TypedWorkflow.Text

/-! ## Grammar -/

/-- An optional sign, and whether it is a minus. -/
inductive Sign : Bool → List Char → Prop where
  | absent : Sign false []
  | plus : Sign false ['+']
  | minus : Sign true ['-']

/-- One decimal digit or more. -/
def Digits (cs : List Char) : Prop :=
  cs ≠ [] ∧ ∀ c ∈ cs, c.isDigit = true

/-- The value of digits behind a sign. -/
def signedValue (negative : Bool) (digits : List Char) : Int :=
  if negative then -(digitsValue digits : Int) else digitsValue digits

/-- A signed 64-bit integer: an optional sign and digits, with a value in range. -/
def DenotesInt64 (cs : List Char) : Prop :=
  ∃ negative sign digits, Sign negative sign ∧ cs = sign ++ digits ∧ Digits digits ∧
    int64Min ≤ signedValue negative digits ∧ signedValue negative digits ≤ int64Max

/-- An exponent, which may be absent. -/
inductive Exponent : List Char → Prop where
  | absent : Exponent []
  | present {e : Char} {negative : Bool} {sign digits : List Char} (he : e = 'e' ∨ e = 'E')
      (hsign : Sign negative sign) (hdigits : Digits digits) : Exponent (e :: (sign ++ digits))

/-- An unsigned decimal number: digits, or digits around a point of which one side may be empty,
and an exponent. -/
inductive Decimal : List Char → Prop where
  | whole {digits exponent : List Char} (hdigits : Digits digits) (hexp : Exponent exponent) :
      Decimal (digits ++ exponent)
  | point {whole fraction exponent : List Char} (hwhole : ∀ c ∈ whole, c.isDigit = true)
      (hfraction : ∀ c ∈ fraction, c.isDigit = true) (hne : whole ≠ [] ∨ fraction ≠ [])
      (hexp : Exponent exponent) : Decimal (whole ++ '.' :: (fraction ++ exponent))

/-- A floating-point number: an optional sign, then a decimal number or a word in any case. -/
def DenotesFloat (cs : List Char) : Prop :=
  ∃ negative sign magnitude, Sign negative sign ∧ cs = sign ++ magnitude ∧
    (Decimal magnitude ∨
      String.ofList (magnitude.map Char.toLower) ∈ ["inf", "infinity", "nan"])

/-! ## Signs and digits -/

/-- A text that does not start with a sign. -/
def Unsigned (cs : List Char) : Prop :=
  ∀ c rest, cs = c :: rest → c ≠ '-' ∧ c ≠ '+'

theorem splitSign_append {negative : Bool} {sign cs : List Char} (hsign : Sign negative sign)
    (hcs : Unsigned cs) : splitSign (sign ++ cs) = (negative, cs) := by
  cases hsign with
  | plus => rfl
  | minus => rfl
  | absent =>
    cases cs with
    | nil => rfl
    | cons c rest =>
      obtain ⟨hminus, hplus⟩ := hcs c rest rfl
      simp [splitSign, hminus, hplus]

theorem exists_sign_append (cs : List Char) :
    ∃ sign, Sign (splitSign cs).1 sign ∧ cs = sign ++ (splitSign cs).2 := by
  unfold splitSign
  split
  · exact ⟨['-'], .minus, rfl⟩
  · exact ⟨['+'], .plus, rfl⟩
  · exact ⟨[], .absent, rfl⟩

theorem Digits.unsigned {cs : List Char} (h : Digits cs) : Unsigned cs := by
  rintro c rest rfl
  have hdigit := h.2 c (by simp)
  constructor <;> rintro rfl <;> simp at hdigit

theorem digits_iff (cs : List Char) :
    Digits cs ↔ (!cs.isEmpty && cs.all Char.isDigit) = true := by
  simp [Digits]

/-- The reader of integers looks at what follows the sign only. -/
theorem toInt64?_isSome_iff_splitSign (cs : List Char) :
    (toInt64? cs).isSome = true ↔ Digits (splitSign cs).2 ∧
      int64Min ≤ signedValue (splitSign cs).1 (splitSign cs).2 ∧
      signedValue (splitSign cs).1 (splitSign cs).2 ≤ int64Max := by
  unfold toInt64? signedValue
  obtain ⟨negative, digits⟩ := splitSign cs
  have hshape : (digits.isEmpty || !digits.all Char.isDigit) = true ↔ ¬ Digits digits := by
    simp [Digits, Classical.or_iff_not_imp_left]
  by_cases hdigits : Digits digits
  · simp only [hshape, hdigits, not_true_eq_false, if_false, true_and]
    split <;> simp_all
  · simp [hshape, hdigits]

theorem toInt64?_isSome_iff (cs : List Char) : (toInt64? cs).isSome = true ↔ DenotesInt64 cs := by
  rw [toInt64?_isSome_iff_splitSign]
  constructor
  · intro h
    obtain ⟨sign, hsign, hcs⟩ := exists_sign_append cs
    exact ⟨_, sign, _, hsign, hcs, h⟩
  · rintro ⟨negative, sign, digits, hsign, rfl, hdigits, hrange⟩
    rw [splitSign_append hsign hdigits.unsigned]
    exact ⟨hdigits, hrange⟩

/-! ## Decimal numbers -/

theorem isExponent_iff (cs : List Char) : isExponent cs = true ↔ Exponent cs := by
  constructor
  · intro h
    cases cs with
    | nil => exact .absent
    | cons e rest =>
      obtain ⟨sign, hsign, hrest⟩ := exists_sign_append rest
      simp only [isExponent, Bool.and_assoc, Bool.and_eq_true, Bool.or_eq_true, beq_iff_eq] at h
      rw [hrest]
      exact .present h.1 hsign ((digits_iff _).2 (by simpa using h.2))
  · intro h
    cases h with
    | absent => rfl
    | present he hsign hdigits =>
      have hshape := (digits_iff _).1 hdigits
      simp_all [isExponent, splitSign_append hsign hdigits.unsigned]

/-- Digits end where a text that is empty or starts with no digit begins. -/
theorem spanDigits_append {digits rest : List Char} (hdigits : ∀ c ∈ digits, c.isDigit = true)
    (hrest : ∀ c ∈ rest.head?, c.isDigit = false) :
    spanDigits (digits ++ rest) = (digits, rest) := by
  have hnone : rest.takeWhile Char.isDigit = [] ∧ rest.dropWhile Char.isDigit = rest := by
    cases rest with
    | nil => simp
    | cons c rest => simp [hrest c (by simp)]
  simp [spanDigits, List.takeWhile_append_of_pos hdigits, List.dropWhile_append_of_pos hdigits,
    hnone]

theorem Exponent.head_not_digit {cs : List Char} (h : Exponent cs) :
    ∀ c ∈ cs.head?, c.isDigit = false := by
  cases h with
  | absent => simp
  | present he => rcases he with rfl | rfl <;> simp

theorem decimal_of_isUnsignedFloat {cs : List Char} (h : isUnsignedFloat cs = true) :
    Decimal cs := by
  have hcs : cs = cs.takeWhile Char.isDigit ++ cs.dropWhile Char.isDigit := by simp
  have hwhole : ∀ c ∈ cs.takeWhile Char.isDigit, c.isDigit = true := fun c hc =>
    List.mem_takeWhile_imp hc
  simp only [isUnsignedFloat, spanDigits] at h
  split at h
  · next rest hrest =>
    have hsplit : rest = rest.takeWhile Char.isDigit ++ rest.dropWhile Char.isDigit := by simp
    simp only [Bool.and_eq_true, Bool.not_eq_true', Bool.and_eq_false_iff,
      List.isEmpty_eq_false_iff, isExponent_iff] at h
    rw [hcs, hrest, hsplit]
    exact .point hwhole (fun c hc => List.mem_takeWhile_imp hc) h.1 h.2
  · simp only [Bool.and_eq_true, Bool.not_eq_true', List.isEmpty_eq_false_iff,
      isExponent_iff] at h
    rw [hcs]
    exact .whole ⟨h.1, hwhole⟩ h.2

theorem Decimal.isUnsignedFloat {cs : List Char} (h : Decimal cs) :
    isUnsignedFloat cs = true := by
  cases h with
  | whole hdigits hexp =>
    have hspan := spanDigits_append hdigits.2 hexp.head_not_digit
    have hexp' := (isExponent_iff _).2 hexp
    simp only [Text.isUnsignedFloat, hspan]
    split
    · next hpoint => cases hexp; next he _ _ => simp_all
    · simp_all [Digits]
  | @point whole fraction exponent hwhole hfraction hne hexp =>
    have houter : spanDigits (whole ++ '.' :: (fraction ++ exponent)) =
        (whole, '.' :: (fraction ++ exponent)) := spanDigits_append hwhole (by simp)
    have hinner := spanDigits_append hfraction hexp.head_not_digit
    have hexp' := (isExponent_iff _).2 hexp
    simp only [Text.isUnsignedFloat, houter, hinner, hexp']
    simpa [Classical.or_iff_not_imp_left] using hne

theorem isUnsignedFloat_iff (cs : List Char) : isUnsignedFloat cs = true ↔ Decimal cs :=
  ⟨decimal_of_isUnsignedFloat, Decimal.isUnsignedFloat⟩

theorem Decimal.unsigned {cs : List Char} (h : Decimal cs) : Unsigned cs := by
  cases h with
  | whole hdigits _ =>
    obtain ⟨d, ds, rfl⟩ := List.exists_cons_of_ne_nil hdigits.1
    rintro c rest ⟨⟩
    exact hdigits.unsigned d ds rfl
  | @point whole fraction exponent hwhole _ _ _ =>
    cases whole with
    | nil =>
      rintro c rest ⟨⟩
      decide
    | cons d ds =>
      rintro c rest ⟨⟩
      have hdigit := hwhole d (by simp)
      constructor <;> rintro rfl <;> simp at hdigit

/-- The words do not start with a sign. -/
theorem unsigned_of_word {cs : List Char}
    (h : String.ofList (cs.map Char.toLower) ∈ ["inf", "infinity", "nan"]) : Unsigned cs := by
  rintro c rest rfl
  constructor
  all_goals
    rintro rfl
    simp [String.ext_iff] at h

theorem isFloat_iff_splitSign (cs : List Char) :
    isFloat cs = true ↔ Decimal (splitSign cs).2 ∨
      String.ofList ((splitSign cs).2.map Char.toLower) ∈ ["inf", "infinity", "nan"] := by
  rw [isFloat, Bool.or_eq_true, isUnsignedFloat_iff, List.contains_iff_mem]

theorem isFloat_iff (cs : List Char) : isFloat cs = true ↔ DenotesFloat cs := by
  rw [isFloat_iff_splitSign]
  constructor
  · intro h
    obtain ⟨sign, hsign, hcs⟩ := exists_sign_append cs
    exact ⟨_, sign, _, hsign, hcs, h⟩
  · rintro ⟨negative, sign, magnitude, hsign, rfl, h⟩
    rw [splitSign_append hsign (h.elim Decimal.unsigned unsigned_of_word)]
    exact h

end TypedWorkflow.Text
