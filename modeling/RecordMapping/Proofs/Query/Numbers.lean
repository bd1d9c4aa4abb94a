import RecordMapping.Proofs.Number.Decimals
import RecordMapping.Proofs.Number.Numerals
import RecordMapping.Query.Normal

/-!
# Texts that denote numbers

A text in a descriptor becomes a number if it is a numeral: an integer if it is one that fits a
word, and the nearest float otherwise. A numeral that is neither such an integer nor in the range of
floats stays a text, as every other text does.

* `Value.screened?`: the tests one after the other, with a reader that knows infinities and NaN;
* `Value.numeric?_eq_some_iff`: which texts become numbers, and which numbers they become.
-/

namespace RecordMapping

open Number Text

/-! ## Reading behind a screen -/

namespace Number

/-- The characters of which numerals are made. -/
def isNumeralChar (c : Char) : Bool := isDigit c || ['-', '+', '.', 'e', 'E'].contains c

/-- The words for infinities and NaN, where any float may be written. -/
def readWord? (cs : List Char) : Option Float :=
  let (negative, word) := readSign cs
  let word := word.map Char.toLower
  if word == ['i', 'n', 'f'] || word == ['i', 'n', 'f', 'i', 'n', 'i', 't', 'y'] then
    some (ofMagnitude negative infinityBits)
  else if word == ['n', 'a', 'n'] then some (ofMagnitude negative (infinityBits + hiddenBit / 2))
  else none

/-- Any float: a numeral, or a word. -/
def readFloat? (cs : List Char) : Option Float :=
  match Literal.read? cs with
  | some l => some l.toFloat
  | none => readWord? cs

theorem toLower_ne_of_isNumeralChar {c : Char} (h : isNumeralChar c = true) :
    c.toLower ≠ 'i' ∧ c.toLower ≠ 'n' := by
  unfold isNumeralChar at h
  rcases Bool.or_eq_true _ _ |>.mp h with hdigit | hmark
  · have hsmall := Calendar.isDigit_iff c |>.mp hdigit
    have hsame : c.toLower = c := by
      unfold Char.toLower
      rw [dif_neg]
      rintro ⟨hlow, -⟩
      have hlow : 65 ≤ c.toNat := hlow
      omega
    rw [hsame]
    constructor <;> rintro rfl <;> exact absurd hdigit (by decide)
  · have hall : (['-', '+', '.', 'e', 'E'].all fun c => c.toLower != 'i' && c.toLower != 'n')
        = true := rfl
    simpa using List.all_eq_true.mp hall c (List.contains_iff_mem.mp hmark)

/-- A word has a character that numerals do not have. -/
theorem readWord?_eq_none {cs : List Char} (h : ∀ c ∈ cs, isNumeralChar c = true) :
    readWord? cs = none := by
  obtain ⟨sign, htext, -⟩ := exists_sign cs
  have hword (word : List Char) (hhead : word.head? = some 'i' ∨ word.head? = some 'n') :
      ((readSign cs).2.map Char.toLower == word) = false := by
    rw [beq_eq_false_iff_ne]
    rintro rfl
    cases hrest : (readSign cs).2 with
    | nil => simp [hrest] at hhead
    | cons c rest =>
      have hc : c ∈ cs := htext ▸ List.mem_append_right _ (hrest ▸ List.mem_cons_self)
      obtain ⟨hi, hn⟩ := toLower_ne_of_isNumeralChar (h c hc)
      rw [hrest] at hhead
      rcases hhead with hhead | hhead
      · exact hi (Option.some.inj hhead)
      · exact hn (Option.some.inj hhead)
  unfold readWord?
  dsimp only
  rw [hword _ (.inl rfl), hword _ (.inl rfl), hword _ (.inr rfl)]
  rfl

end Number

/-- The number that a text denotes, test by test: only a text of the characters of numerals, with a
digit among them, is read as an integer, or else as a float, which has to be finite. -/
def Value.screened? (text : String) : Option Value :=
  if text.toList.isEmpty || !text.toList.any isDigit || !text.toList.all isNumeralChar then none
  else
    match readInt64? text with
    | some i => some (.int i)
    | none => ((readFloat? text.toList).filter Float.isFinite).map .float

/-! ## Numerals -/

namespace Number.Numeral

variable (n : Numeral)

/-- The numeral is an integer that fits a word. -/
def FitsInt64 : Prop := n.IsInteger ∧ ∃ i : Int64, n.value = i.toInt

theorem isNumeralChar_of_mem {c : Char} (hc : c ∈ n.text) : isNumeralChar c = true := by
  have hdigits {cs : List Char} (h : AllDigits cs) (hc : c ∈ cs) : isNumeralChar c = true := by
    rw [isNumeralChar, h c hc]
    rfl
  have hsign {sign : Sign} (hc : c ∈ sign.text) : isNumeralChar c = true := by
    rcases Sign.mem_text hc with rfl | rfl <;> rfl
  rcases List.mem_append.mp hc with hc | hc
  · exact hsign hc
  rcases List.mem_append.mp hc with hc | hc
  · exact hdigits n.whole_digits hc
  rcases List.mem_append.mp hc with hc | hc
  · have hds := n.fraction_digits
    cases hfraction : n.fraction? with
    | none =>
      rw [hfraction] at hc
      exact absurd hc List.not_mem_nil
    | some ds =>
      rw [hfraction] at hc hds
      rcases List.mem_cons.mp hc with rfl | hc
      · rfl
      · exact hdigits hds hc
  · cases hpower : n.power? with
    | none =>
      rw [hpower] at hc
      exact absurd hc List.not_mem_nil
    | some p =>
      rw [hpower] at hc
      rcases List.mem_cons.mp hc with rfl | hc
      · split <;> rfl
      rcases List.mem_append.mp hc with hc | hc
      · exact hsign hc
      · exact hdigits p.all_digits hc

theorem exists_digit : ∃ c ∈ n.text, isDigit c = true := by
  rcases n.digits_ne with hne | hne
  · obtain ⟨c, hc⟩ := List.exists_mem_of_ne_nil _ hne
    exact ⟨c, by simp [text, hc], n.whole_digits c hc⟩
  · obtain ⟨c, hc⟩ := List.exists_mem_of_ne_nil _ hne
    refine ⟨c, ?_, n.fraction_digits c hc⟩
    cases hfraction : n.fraction? with
    | none => simp [hfraction] at hc
    | some ds =>
      rw [hfraction, Option.getD_some] at hc
      simp [text, hfraction, pointText, hc]

theorem readInt64?_iff {text : String} (h : n.text = text.toList) {i : Int64} :
    readInt64? text = some i ↔ n.IsInteger ∧ n.value = i.toInt := by
  rw [← n.readInt?_text_iff, readInt64?, ← h, Option.bind_eq_bind, Option.bind_eq_some_iff]
  constructor
  · rintro ⟨k, hread, hword⟩
    rw [hread, toInt_of_int64? hword]
  · exact fun hread => ⟨_, hread, int64?_toInt i⟩

theorem fitsInt64_iff {text : String} (h : n.text = text.toList) :
    n.FitsInt64 ↔ ∃ i, readInt64? text = some i := by
  simp only [n.readInt64?_iff h]
  exact ⟨fun ⟨hinteger, i, hi⟩ => ⟨i, hinteger, hi⟩, fun ⟨i, hinteger, hi⟩ => ⟨hinteger, i, hi⟩⟩

theorem inRange_value_iff : InRange n.value
    ↔ InRange (n.literal.mantissa * 10 ^ n.literal.scale) := by
  rw [n.value_eq, InRange, abs_withSign]
  rfl

/-- The float of a literal is the one nearest to the numeral. -/
theorem isNearest_value_iff (hrange : InRange n.value) (x : Float) :
    IsNearest n.sign.negative n.value x ↔ x = n.literal.toFloat := by
  rw [n.value_eq]
  exact isNearest_ofDecimal_iff (n.inRange_value_iff.mp hrange) x

theorem readFinite?_iff {text : String} (h : n.text = text.toList) {x : Float} :
    readFinite? text = some x ↔ InRange n.value ∧ IsNearest n.sign.negative n.value x := by
  have hread : readFinite? text
      = if n.literal.toFloat.isFinite then some n.literal.toFloat else none := by
    unfold readFinite?
    rw [← h]
    exact Calendar.bind_of_eq_some n.read?_text
  have hfinite : n.literal.toFloat.isFinite = true ↔ InRange n.value := by
    rw [Literal.toFloat, isFinite_ofDecimal_iff, inRange_value_iff]
  rw [hread, Option.ite_none_right_eq_some, hfinite]
  refine and_congr_right fun hrange => ?_
  rw [n.isNearest_value_iff hrange, Option.some.injEq, eq_comm]

end Number.Numeral

/-! ## The numbers of texts -/

namespace Value

variable {text : String}

/-- Only numerals become numbers. -/
theorem exists_of_numeric? {v : Value} (h : numeric? text = some v) :
    ∃ n : Numeral, n.text = text.toList := by
  unfold numeric? at h
  cases hword : readInt64? text with
  | some i =>
    obtain ⟨k, hread, -⟩ := Option.bind_eq_some_iff.mp hword
    exact Numeral.exists_of_readInt? hread
  | none =>
    rw [hword] at h
    obtain ⟨x, hx, -⟩ := Option.map_eq_some_iff.mp h
    obtain ⟨l, hl, -⟩ := Option.bind_eq_some_iff.mp hx
    obtain ⟨n, hn, -⟩ := Numeral.exists_of_read? hl
    exact ⟨n, hn⟩

theorem numeric?_eq_int_iff {n : Numeral} (h : n.text = text.toList) {i : Int64} :
    numeric? text = some (.int i) ↔ n.IsInteger ∧ n.value = i.toInt := by
  rw [← n.readInt64?_iff h, numeric?]
  cases readInt64? text with
  | some k => simp
  | none => simp

theorem numeric?_eq_float_iff {n : Numeral} (h : n.text = text.toList) {x : Float} :
    numeric? text = some (.float x)
      ↔ ¬ n.FitsInt64 ∧ InRange n.value ∧ IsNearest n.sign.negative n.value x := by
  rw [n.fitsInt64_iff h, ← n.readFinite?_iff h, numeric?]
  cases readInt64? text with
  | some k => simp
  | none => simp

theorem int_or_float {v : Value} (h : numeric? text = some v) :
    (∃ i, v = .int i) ∨ ∃ x, v = .float x := by
  unfold numeric? at h
  split at h
  · exact .inl ⟨_, (Option.some.inj h).symm⟩
  · obtain ⟨x, -, rfl⟩ := Option.map_eq_some_iff.mp h
    exact .inr ⟨x, rfl⟩

/-- A text that does not pass the screen is no numeral, and behind the screen there are no words. -/
theorem screened?_eq (text : String) : screened? text = numeric? text := by
  unfold screened?
  split
  · rename_i hscreen
    cases hnumber : numeric? text with
    | none => rfl
    | some v =>
      obtain ⟨n, hn⟩ := exists_of_numeric? hnumber
      obtain ⟨c, hc, hdigit⟩ := n.exists_digit
      have hchars := fun c hc => n.isNumeralChar_of_mem (c := c) hc
      rw [hn] at hc hchars
      have hany : text.toList.any isDigit = true := List.any_eq_true.mpr ⟨c, hc, hdigit⟩
      have hempty : text.toList.isEmpty = false :=
        List.isEmpty_eq_false_iff.mpr (List.ne_nil_of_mem hc)
      simp [hany, hempty, List.all_eq_true.mpr hchars] at hscreen
  · rename_i hscreen
    have hchars : ∀ c ∈ text.toList, isNumeralChar c = true := by
      simp only [Bool.or_eq_true, not_or, Bool.not_eq_true', Bool.not_eq_false] at hscreen
      exact List.all_eq_true.mp hscreen.2
    have hfloat : (readFloat? text.toList).filter Float.isFinite = readFinite? text := by
      unfold readFloat? readFinite?
      cases Literal.read? text.toList with
      | none =>
        rw [readWord?_eq_none hchars]
        rfl
      | some l => rfl
    rw [hfloat]
    rfl

/-- **The texts that become numbers.** A text becomes a number exactly if it is a numeral, and the
number that it denotes is in the range of floats or is an integer that fits a word. It becomes an
integer exactly if it consists of signed digits and denotes this integer, and otherwise the float
that is nearest to what it denotes. -/
theorem numeric?_eq_some_iff (text : String) :
    screened? text = numeric? text
    ∧ ((∃ v, numeric? text = some v)
      ↔ ∃ n : Numeral, n.text = text.toList ∧ (InRange n.value ∨ n.FitsInt64))
    ∧ (∀ i, numeric? text = some (.int i)
      ↔ ∃ n : Numeral, n.text = text.toList ∧ n.IsInteger ∧ n.value = i.toInt)
    ∧ (∀ x, numeric? text = some (.float x)
      ↔ ∃ n : Numeral, n.text = text.toList ∧ ¬ n.FitsInt64 ∧ InRange n.value
        ∧ IsNearest n.sign.negative n.value x)
    ∧ ∀ v, numeric? text = some v → (∃ i, v = .int i) ∨ ∃ x, v = .float x := by
  refine ⟨screened?_eq text, ⟨?_, ?_⟩, fun i => ⟨fun h => ?_, ?_⟩, fun x => ⟨fun h => ?_, ?_⟩,
    fun v => int_or_float⟩
  · rintro ⟨v, hv⟩
    obtain ⟨n, hn⟩ := exists_of_numeric? hv
    refine ⟨n, hn, ?_⟩
    rcases int_or_float hv with ⟨i, rfl⟩ | ⟨x, rfl⟩
    · obtain ⟨hinteger, hvalue⟩ := (numeric?_eq_int_iff hn).mp hv
      exact .inr ⟨hinteger, i, hvalue⟩
    · exact .inl ((numeric?_eq_float_iff hn).mp hv).2.1
  · rintro ⟨n, hn, hnumber⟩
    by_cases hfits : n.FitsInt64
    · obtain ⟨hinteger, i, hvalue⟩ := hfits
      exact ⟨_, (numeric?_eq_int_iff hn).mpr ⟨hinteger, hvalue⟩⟩
    · have hrange := hnumber.resolve_right hfits
      have hnearest := (n.isNearest_value_iff hrange _).mpr rfl
      exact ⟨_, (numeric?_eq_float_iff hn).mpr ⟨hfits, hrange, hnearest⟩⟩
  · obtain ⟨n, hn⟩ := exists_of_numeric? h
    exact ⟨n, hn, (numeric?_eq_int_iff hn).mp h⟩
  · rintro ⟨n, hn, hnumber⟩
    exact (numeric?_eq_int_iff hn).mpr hnumber
  · obtain ⟨n, hn⟩ := exists_of_numeric? h
    exact ⟨n, hn, (numeric?_eq_float_iff hn).mp h⟩
  · rintro ⟨n, hn, hnumber⟩
    exact (numeric?_eq_float_iff hn).mpr hnumber

/-- The first integer beyond the signed words becomes a float. -/
theorem numeric?_eq_some_iff_beyond : ∃ x, numeric? "9223372036854775808" = some (.float x)
    ∧ IsNearest false 9223372036854775808 x := by
  let n : Numeral := ⟨.none, "9223372036854775808".toList, none, none,
    fun c hc => List.all_eq_true.mp (by decide) c hc, fun c hc => absurd hc List.not_mem_nil,
    .inl (by decide)⟩
  have htext : n.text = "9223372036854775808".toList := by decide
  have hinteger : n.IsInteger := ⟨rfl, rfl⟩
  have hvalue : n.value = ((9223372036854775808 : ℤ) : ℚ) := n.value_of_isInteger hinteger
  have hrange : InRange n.value := by
    rw [hvalue, InRange]
    calc |((9223372036854775808 : ℤ) : ℚ)| < (2 ^ 54 - 1) * 2 ^ (10 : ℤ) := by norm_num
      _ ≤ (2 ^ 54 - 1) * 2 ^ (970 : ℤ) :=
          mul_le_mul_of_nonneg_left (zpow_le_zpow_right₀ (by norm_num) (by norm_num)) (by norm_num)
  obtain ⟨-, hsome, -, -, hkind⟩ := numeric?_eq_some_iff "9223372036854775808"
  obtain ⟨v, hv⟩ := hsome.mpr ⟨n, htext, .inl hrange⟩
  rcases hkind v hv with ⟨i, rfl⟩ | ⟨x, rfl⟩
  · have hword := ((numeric?_eq_int_iff htext).mp hv).2
    rw [hvalue, Int.cast_inj] at hword
    have hlt : i.toInt < 9223372036854775808 := i.toInt_lt
    omega
  · have hnearest := ((numeric?_eq_float_iff htext).mp hv).2.2
    rw [hvalue] at hnearest
    exact ⟨x, hv, by exact_mod_cast hnearest⟩

end Value

end RecordMapping
