import RecordMapping.Number.Literal
import RecordMapping.Proofs.Calendar.Reading
import RecordMapping.Proofs.Number.Nearest

/-!
# The grammar of numerals

A numeral is a sign, digits with at most one point among them and at least one digit, and an
exponent: a mark, a sign and digits. The sign and the exponent may be missing. The readers of
literals and of integers accept the texts of numerals and nothing else, and find the number that is
denoted.

* `Numeral`: the syntax of a numeral, with its text and its value;
* `readInt?_eq_some_iff`: what is read as an integer;
* `Numeral.read?_text`, `Numeral.exists_of_read?`: the texts of numerals are those that are read as
  literals.
-/

namespace RecordMapping.Number

open Text

/-! ## The grammar -/

/-- A sign in front of digits. -/
inductive Sign where
  | none
  | plus
  | minus
deriving DecidableEq, Repr

namespace Sign

def text : Sign → List Char
  | none => []
  | plus => ['+']
  | minus => ['-']

def negative : Sign → Bool
  | minus => true
  | _ => false

theorem mem_text {sign : Sign} {c : Char} (h : c ∈ sign.text) : c = '+' ∨ c = '-' := by
  cases sign with
  | none => exact absurd h List.not_mem_nil
  | plus => exact .inl (List.mem_singleton.mp h)
  | minus => exact .inr (List.mem_singleton.mp h)

end Sign

/-- Digits. -/
def AllDigits (cs : List Char) : Prop := ∀ c ∈ cs, isDigit c = true

/-- An exponent: `e` or `E`, a sign and at least one digit. -/
structure Power where
  upper : Bool
  sign : Sign
  digits : List Char
  all_digits : AllDigits digits
  digits_ne : digits ≠ []

namespace Power

def text (p : Power) : List Char := (if p.upper then 'E' else 'e') :: (p.sign.text ++ p.digits)

def value (p : Power) : ℤ := if p.sign.negative then -ofDigits p.digits else ofDigits p.digits

/-- The text of an exponent that may be missing. -/
def optionText : Option Power → List Char
  | none => []
  | some p => p.text

/-- The value of an exponent that may be missing. -/
def optionValue : Option Power → ℤ
  | none => 0
  | some p => p.value

end Power

/-- The text of a point with the digits behind it, if there is a point. -/
def pointText : Option (List Char) → List Char
  | none => []
  | some ds => '.' :: ds

/-- A numeral. There is a point if there is a `fraction?`, which may have no digits. -/
structure Numeral where
  sign : Sign
  whole : List Char
  fraction? : Option (List Char)
  power? : Option Power
  whole_digits : AllDigits whole
  fraction_digits : AllDigits (fraction?.getD [])
  digits_ne : whole ≠ [] ∨ fraction?.getD [] ≠ []

namespace Numeral

variable (n : Numeral)

/-- The digits behind the point. -/
def fraction : List Char := n.fraction?.getD []

/-- The power of ten by which the digits are scaled. -/
def exponent : ℤ := Power.optionValue n.power?

/-- The numeral, written out. -/
def text : List Char :=
  n.sign.text ++ (n.whole ++ (pointText n.fraction? ++ Power.optionText n.power?))

/-- The number that a numeral denotes. -/
def value : ℚ :=
  withSign n.sign.negative
    ((ofDigits n.whole + ofDigits n.fraction / 10 ^ n.fraction.length) * 10 ^ n.exponent)

/-- Signed digits, with neither point nor exponent. -/
def IsInteger : Prop := n.fraction? = none ∧ n.power? = none

end Numeral

/-! ## Signs and digits -/

/-- A text that does not begin with a sign. -/
def Unsigned (cs : List Char) : Prop := ∀ c, cs.head? = some c → c ≠ '+' ∧ c ≠ '-'

theorem readSign_append (sign : Sign) {cs : List Char} (h : Unsigned cs) :
    readSign (sign.text ++ cs) = (sign.negative, cs) := by
  cases sign
  · show readSign cs = (false, cs)
    unfold readSign
    split
    · exact absurd rfl (h _ rfl).2
    · exact absurd rfl (h _ rfl).1
    · rfl
  · rfl
  · rfl

/-- A text is what stands behind its sign, with a sign in front of it. -/
theorem exists_sign (cs : List Char) :
    ∃ sign : Sign, sign.text ++ (readSign cs).2 = cs ∧ sign.negative = (readSign cs).1 := by
  unfold readSign
  split
  · exact ⟨.minus, rfl, rfl⟩
  · exact ⟨.plus, rfl, rfl⟩
  · exact ⟨.none, rfl, rfl⟩

theorem AllDigits.unsigned_append {cs rest : List Char} (h : AllDigits cs)
    (hrest : cs = [] → Unsigned rest) : Unsigned (cs ++ rest) := by
  cases cs with
  | nil => exact hrest rfl
  | cons c cs =>
    intro d hd
    have hdigit := h c List.mem_cons_self
    cases hd
    exact ⟨by rintro rfl; exact absurd hdigit (by decide), by
      rintro rfl; exact absurd hdigit (by decide)⟩

/-- A text that does not begin with a digit. -/
def Undigited (cs : List Char) : Prop := ∀ c, cs.head? = some c → isDigit c = false

theorem spanDigits_append_of_undigited {cs rest : List Char} (h : AllDigits cs)
    (hrest : Undigited rest) : spanDigits (cs ++ rest) = (cs, rest) := by
  have hspan : rest.takeWhile isDigit = [] ∧ rest.dropWhile isDigit = rest := by
    cases rest with
    | nil => exact ⟨rfl, rfl⟩
    | cons c rest =>
      have hc : ¬ isDigit c = true := by simp [hrest c rfl]
      exact ⟨List.takeWhile_cons_of_neg hc, List.dropWhile_cons_of_neg hc⟩
  unfold spanDigits
  rw [List.takeWhile_append_of_pos h, List.dropWhile_append_of_pos h, hspan.1, hspan.2,
    List.append_nil]

/-- What stands in front are digits, and the rest begins with none. -/
theorem spanDigits_spec (cs : List Char) :
    AllDigits (spanDigits cs).1 ∧ Undigited (spanDigits cs).2 := by
  refine ⟨fun c hc => List.mem_takeWhile_imp hc, fun c hc => ?_⟩
  have hnot := List.head?_dropWhile_not isDigit cs
  rw [show (cs.dropWhile isDigit).head? = some c from hc] at hnot
  exact hnot

theorem ofDigits_append (cs ds : List Char) :
    ofDigits (cs ++ ds) = ofDigits cs * 10 ^ ds.length + ofDigits ds := by
  show Nat.ofDigitChars 10 (cs ++ ds) 0 = _
  rw [Nat.ofDigitChars_append, Nat.ofDigitChars_eq_ofDigitChars_zero, mul_comm]
  rfl

/-! ## Readers -/

/-- What is read as an integer are signed digits. -/
theorem readInt?_eq_some_iff {cs : List Char} {i : ℤ} : readInt? cs = some i
    ↔ ∃ (sign : Sign) (ds : List Char), sign.text ++ ds = cs ∧ AllDigits ds ∧ ds ≠ []
      ∧ (if sign.negative then -(ofDigits ds : ℤ) else ofDigits ds) = i := by
  constructor
  · intro h
    obtain ⟨sign, htext, hsign⟩ := exists_sign cs
    unfold readInt? at h
    dsimp only at h
    rw [Option.ite_none_left_eq_some, Bool.or_eq_true, not_or, Bool.not_eq_true',
      Option.some.injEq] at h
    obtain ⟨⟨hempty, hdigits⟩, hvalue⟩ := h
    refine ⟨sign, (readSign cs).2, htext, ?_, by simpa using hempty, by rw [hsign]; exact hvalue⟩
    exact List.all_eq_true.mp (by simpa using hdigits)
  · rintro ⟨sign, ds, rfl, hdigits, hne, rfl⟩
    have hunsigned : Unsigned ds := by
      rw [← List.append_nil ds]
      exact hdigits.unsigned_append fun hnil => absurd hnil hne
    unfold readInt?
    rw [readSign_append sign hunsigned]
    dsimp only
    rw [List.isEmpty_eq_false_iff.mpr hne, List.all_eq_true.mpr hdigits]
    rfl

/-- The exponent at the end of a literal, or nothing. -/
theorem readExponent?_eq_some_iff {cs : List Char} {k : ℤ} : readExponent? cs = some k
    ↔ ∃ p? : Option Power, Power.optionText p? = cs ∧ Power.optionValue p? = k := by
  constructor
  · intro h
    unfold readExponent? at h
    split at h
    · exact ⟨none, rfl, Option.some.inj h⟩
    · rename_i c rest
      rw [Option.ite_none_right_eq_some, readInt?_eq_some_iff] at h
      obtain ⟨hmark, sign, ds, rfl, hdigits, hne, hvalue⟩ := h
      refine ⟨some ⟨c == 'E', sign, ds, hdigits, hne⟩, ?_, hvalue⟩
      rcases Bool.or_eq_true _ _ |>.mp hmark with hc | hc
      · rw [beq_iff_eq.mp hc]
        rfl
      · rw [beq_iff_eq.mp hc]
        rfl
  · rintro ⟨p?, rfl, rfl⟩
    cases p? with
    | none => rfl
    | some p =>
      have hread : readInt? (p.sign.text ++ p.digits) = some p.value :=
        readInt?_eq_some_iff.mpr ⟨p.sign, p.digits, rfl, p.all_digits, p.digits_ne, rfl⟩
      obtain ⟨upper, sign, ds, hdigits, hne⟩ := p
      cases upper
      · exact hread
      · exact hread

namespace Numeral

/-- The literal as which a numeral is read. -/
def literal (n : Numeral) : Literal := ⟨n.sign.negative, n.whole, n.fraction, n.exponent⟩

/-- An exponent begins with its mark. -/
theorem head_optionText {p? : Option Power} {c : Char}
    (h : (Power.optionText p?).head? = some c) : c = 'e' ∨ c = 'E' := by
  cases p? with
  | none => cases h
  | some p =>
    obtain ⟨upper, sign, ds, hdigits, hne⟩ := p
    cases upper
    · exact .inl (Option.some.inj h).symm
    · exact .inr (Option.some.inj h).symm

theorem undigited_optionText (p? : Option Power) : Undigited (Power.optionText p?) := by
  intro c hc
  rcases head_optionText hc with rfl | rfl <;> rfl

/-- Neither a point nor an exponent is one more digit. -/
theorem undigited_pointText (fraction? : Option (List Char)) (p? : Option Power) :
    Undigited (pointText fraction? ++ Power.optionText p?) := by
  cases fraction? with
  | none => exact undigited_optionText p?
  | some ds =>
    intro c hc
    rw [← Option.some.inj hc]
    rfl

/-- Behind its sign a numeral begins with a digit or a point. -/
theorem unsigned_digits (n : Numeral) :
    Unsigned (n.whole ++ (pointText n.fraction? ++ Power.optionText n.power?)) := by
  apply n.whole_digits.unsigned_append
  intro hwhole
  cases hfraction : n.fraction? with
  | none => exact absurd n.digits_ne (by simp [hwhole, hfraction])
  | some ds =>
    intro c hc
    rw [← Option.some.inj hc]
    decide

theorem read?_text (n : Numeral) : Literal.read? n.text = some n.literal := by
  have hunsigned := n.unsigned_digits
  obtain ⟨sign, whole, fraction?, p?, hwhole, hfraction, hne⟩ := n
  have hexponent : readExponent? (Power.optionText p?) = some (Power.optionValue p?) :=
    readExponent?_eq_some_iff.mpr ⟨p?, rfl, rfl⟩
  have hdigits : ¬ (whole.isEmpty && (fraction?.getD []).isEmpty) = true := by
    rw [Bool.and_eq_true, List.isEmpty_iff, List.isEmpty_iff]
    exact not_and_or.mpr hne
  unfold Literal.read? text
  dsimp only
  rw [readSign_append sign hunsigned,
    spanDigits_append_of_undigited hwhole (undigited_pointText fraction? p?)]
  dsimp only
  cases fraction? with
  | none =>
    -- without a point there is none in front of the exponent
    have hpoint : ∀ c, (Power.optionText p?).head? = some c → c ≠ '.' := by
      rintro c hc rfl
      rcases head_optionText hc with h | h <;> cases h
    rw [pointText, List.nil_append]
    generalize Power.optionText p? = rest at *
    split
    · exact absurd rfl (hpoint _ rfl)
    · exact (if_neg hdigits).trans (Calendar.bind_of_eq_some hexponent)
  | some ds =>
    have hspan := spanDigits_append_of_undigited hfraction (undigited_optionText p?)
    rw [Option.getD_some] at hspan
    simp only [pointText, List.cons_append, hspan]
    exact (if_neg hdigits).trans (Calendar.bind_of_eq_some hexponent)

/-- A numeral is found, once its digits are. -/
theorem exists_of_digits {sign : Sign} {whole rest : List Char} {fraction? : Option (List Char)}
    {l : Literal} (hwhole : AllDigits whole) (hfraction : AllDigits (fraction?.getD []))
    (h : (if (whole.isEmpty && (fraction?.getD []).isEmpty) = true then none
      else (readExponent? rest).bind fun exponent =>
        some ⟨sign.negative, whole, fraction?.getD [], exponent⟩) = some l) :
    ∃ n : Numeral, n.text = sign.text ++ (whole ++ (pointText fraction? ++ rest))
      ∧ n.literal = l := by
  rw [Option.ite_none_left_eq_some, Bool.and_eq_true, List.isEmpty_iff, List.isEmpty_iff,
    Option.bind_eq_some_iff] at h
  obtain ⟨hne, exponent, hexponent, hl⟩ := h
  obtain ⟨p?, rfl, rfl⟩ := readExponent?_eq_some_iff.mp hexponent
  exact ⟨⟨sign, whole, fraction?, p?, hwhole, hfraction, not_and_or.mp hne⟩, rfl,
    Option.some.inj hl⟩

/-- Whatever is read as a literal is a numeral. -/
theorem exists_of_read? {cs : List Char} {l : Literal} (h : Literal.read? cs = some l) :
    ∃ n : Numeral, n.text = cs ∧ n.literal = l := by
  obtain ⟨sign, htext, hsign⟩ := exists_sign cs
  obtain ⟨hwhole, -⟩ := spanDigits_spec (readSign cs).2
  have hbody := spanDigits_append (readSign cs).2
  unfold Literal.read? at h
  dsimp only at h
  rw [← hsign] at h
  rw [← htext, ← hbody]
  split at h
  · rename_i rest hpoint
    rw [hpoint, ← spanDigits_append rest]
    exact @exists_of_digits sign _ _ (some _) l hwhole (spanDigits_spec rest).1 h
  · exact @exists_of_digits sign _ _ none l hwhole (fun c hc => absurd hc List.not_mem_nil) h

variable (n : Numeral)

/-- The literal denotes the number that the numeral denotes. -/
theorem value_eq : n.value
    = withSign n.literal.negative (n.literal.mantissa * 10 ^ n.literal.scale) := by
  have hten : (10 : ℚ) ≠ 0 := by norm_num
  have hscale : (10 : ℚ) ^ n.literal.scale = 10 ^ n.exponent / 10 ^ n.fraction.length := by
    rw [← zpow_natCast, ← zpow_sub₀ hten]
    rfl
  rw [hscale, Literal.mantissa, ofDigits_append, value]
  show withSign _ _ = withSign n.sign.negative _
  congr 1
  push_cast
  field_simp
  rfl

/-- Signed digits have neither a point nor the mark of an exponent. -/
theorem isInteger_of_text {sign : Sign} {ds : List Char} (hdigits : AllDigits ds)
    (h : sign.text ++ ds = n.text) : n.IsInteger := by
  have hplain {c : Char} (hc : c ∈ n.text) : c ≠ '.' ∧ c ≠ 'e' ∧ c ≠ 'E' := by
    rw [← h] at hc
    rcases List.mem_append.mp hc with hc | hc
    · rcases Sign.mem_text hc with rfl | rfl <;> decide
    · have hdigit := hdigits c hc
      refine ⟨?_, ?_, ?_⟩ <;> rintro rfl <;> exact absurd hdigit (by decide)
  constructor
  · by_contra hpoint
    obtain ⟨ds, hds⟩ := Option.ne_none_iff_exists'.mp hpoint
    have hmem : '.' ∈ n.text := by simp [text, hds, pointText]
    exact (hplain hmem).1 rfl
  · by_contra hpower
    obtain ⟨p, hp⟩ := Option.ne_none_iff_exists'.mp hpower
    have hmem : (if p.upper then 'E' else 'e') ∈ n.text := by
      simp [text, hp, Power.optionText, Power.text]
    have hmark := hplain hmem
    split at hmark
    · exact hmark.2.2 rfl
    · exact hmark.2.1 rfl

theorem value_of_isInteger (h : n.IsInteger) : n.value
    = ((if n.sign.negative then -(ofDigits n.whole : ℤ) else ofDigits n.whole : ℤ) : ℚ) := by
  have hfraction : n.fraction = [] := by rw [fraction, h.1]; rfl
  have hexponent : n.exponent = 0 := by rw [exponent, h.2]; rfl
  have hdigits : (ofDigits [] : ℚ) = 0 := Nat.cast_zero
  rw [value, hfraction, hexponent, hdigits, zero_div, add_zero, zpow_zero, mul_one]
  unfold withSign
  split
  · rw [Int.cast_neg, Int.cast_natCast]
  · rw [Int.cast_natCast]

/-- A numeral without point and exponent is its sign and its digits. -/
theorem text_of_isInteger (h : n.IsInteger) :
    n.text = n.sign.text ++ n.whole ∧ n.whole ≠ [] := by
  refine ⟨?_, n.digits_ne.resolve_right (by rw [h.1]; simp)⟩
  rw [text, h.1, h.2]
  exact congrArg (n.sign.text ++ ·) (List.append_nil _)

/-- A numeral is read as an integer if it has neither a point nor an exponent. -/
theorem readInt?_text_iff {i : ℤ} : readInt? n.text = some i ↔ n.IsInteger ∧ n.value = i := by
  have hread (hinteger : n.IsInteger) : readInt? n.text
      = some (if n.sign.negative then -(ofDigits n.whole : ℤ) else ofDigits n.whole) := by
    obtain ⟨htext, hne⟩ := n.text_of_isInteger hinteger
    exact readInt?_eq_some_iff.mpr ⟨n.sign, n.whole, htext.symm, n.whole_digits, hne, rfl⟩
  constructor
  · intro h
    obtain ⟨sign, ds, htext, hdigits, -⟩ := readInt?_eq_some_iff.mp h
    have hinteger := n.isInteger_of_text hdigits htext
    rw [hread hinteger, Option.some.injEq] at h
    exact ⟨hinteger, by rw [n.value_of_isInteger hinteger, h]⟩
  · rintro ⟨hinteger, hvalue⟩
    rw [n.value_of_isInteger hinteger, Int.cast_inj] at hvalue
    rw [hread hinteger, hvalue]

/-- Whatever is read as an integer is a numeral. -/
theorem exists_of_readInt? {cs : List Char} {i : ℤ} (h : readInt? cs = some i) :
    ∃ n : Numeral, n.text = cs := by
  obtain ⟨sign, ds, rfl, hdigits, hne, -⟩ := readInt?_eq_some_iff.mp h
  refine ⟨⟨sign, ds, none, none, hdigits, fun c hc => absurd hc List.not_mem_nil, .inl hne⟩, ?_⟩
  exact congrArg (sign.text ++ ·) (List.append_nil _)

end Numeral

end RecordMapping.Number
