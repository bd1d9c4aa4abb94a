import RecordMapping.Calendar.Reader
import RecordMapping.Calendar.Text
import RecordMapping.Number.Literal
import RecordMapping.Proofs.Calendar.Civil

/-!
# Written instants, read again

Every number of a written date stands in a field of its own width, with zeros in front: such a field
is a `Run`, and each reader takes exactly one of them. So date and clock of an instant are read as
they were written, in the strict form and in the loose one, and what remains is the fraction behind
them. No written date is a number: the hyphen behind the year ends every literal.

* `Instant.writes_fullText`: the full text of an instant denotes that instant;
* `Instant.writes_millisText`, `Instant.writes_timestampText`: the shorter texts denote it to the
  millisecond and to the second.
-/

namespace RecordMapping.Calendar

open Text

/-! ## Runs of digits -/

/-- So many digits, and the number that they denote. -/
structure Run (width n : Nat) (cs : List Char) : Prop where
  length_eq : cs.length = width
  digits : ∀ c ∈ cs, isDigit c = true
  value : ofDigits cs = n

theorem isDigit_iff (c : Char) : isDigit c = true ↔ 48 ≤ c.toNat ∧ c.toNat ≤ 57 := by
  simp only [isDigit, Bool.and_eq_true, decide_eq_true_eq, Char.le_def, UInt32.le_iff_toNat_le]
  exact Iff.rfl

theorem isDigit_of_core {c : Char} (h : c.isDigit = true) : isDigit c = true := by
  rw [isDigit_iff]
  simpa [Char.isDigit, UInt32.le_iff_toNat_le] using h

theorem not_isBlank_of_isDigit {c : Char} (h : isDigit c = true) : isBlank c = false := by
  rw [isDigit_iff] at h
  simp only [isBlank, Bool.or_eq_false_iff, Bool.and_eq_false_iff, decide_eq_false_iff_not,
    beq_eq_false_iff_ne]
  omega

/-- Zeros in front make a number as long as is asked for. -/
theorem run_padded {width n : Nat} (hwidth : 0 < width) (h : n < Nat.pow 10 width) :
    Run width n (padded width n).toList := by
  have hlength : (Nat.toDigits 10 n).length ≤ width :=
    (Nat.length_toDigits_le_iff (by decide) hwidth).mpr h
  rw [padded, String.toList_ofList]
  refine ⟨?_, ?_, ?_⟩
  · rw [List.length_append, List.length_replicate]
    omega
  · intro c hc
    rcases List.mem_append.mp hc with hc | hc
    · rw [List.eq_of_mem_replicate hc]
      rfl
    · exact isDigit_of_core (Nat.isDigit_of_mem_toDigits (by decide) (by decide) hc)
  · show Nat.ofDigitChars 10 _ 0 = n
    rw [Nat.ofDigitChars_append, Nat.ofDigitChars_replicate_zero, Nat.mul_zero,
      Nat.ofDigitChars_ten_toDigits]

namespace Run

variable {width n : Nat} {cs : List Char}

/-- A run has a first digit. -/
theorem exists_cons (h : Run width n cs) (hwidth : 0 < width) :
    ∃ c rest, cs = c :: rest ∧ isDigit c = true := by
  cases cs with
  | nil =>
    have hlength := h.length_eq
    rw [List.length_nil] at hlength
    omega
  | cons c rest => exact ⟨c, rest, rfl, h.digits c List.mem_cons_self⟩

/-- A run has a last digit. -/
theorem exists_getLast? (h : Run width n cs) (hwidth : 0 < width) :
    ∃ c, cs.getLast? = some c ∧ isDigit c = true := by
  obtain ⟨c, rest, rfl, -⟩ := h.exists_cons hwidth
  exact ⟨_, List.getLast?_eq_some_getLast (List.cons_ne_nil c rest),
    h.digits _ (List.getLast_mem (List.cons_ne_nil c rest))⟩

theorem isEmpty_eq (h : Run width n cs) (hwidth : 0 < width) : cs.isEmpty = false := by
  obtain ⟨c, rest, rfl, -⟩ := h.exists_cons hwidth
  rfl

theorem take_eq (h : Run width n cs) (rest : List Char) : (cs ++ rest).take width = cs := by
  rw [← h.length_eq, List.take_left]

theorem drop_eq (h : Run width n cs) (rest : List Char) : (cs ++ rest).drop width = rest := by
  rw [← h.length_eq, List.drop_left]

theorem all_eq (h : Run width n cs) : cs.all isDigit = true := List.all_eq_true.mpr h.digits

/-- No blanks stand in front of a run. -/
theorem dropBlanks_eq (h : Run width n cs) (hwidth : 0 < width) (rest : List Char) :
    dropBlanks (cs ++ rest) = cs ++ rest := by
  obtain ⟨c, tail, rfl, hc⟩ := h.exists_cons hwidth
  exact List.dropWhile_cons_of_neg (by rw [not_isBlank_of_isDigit hc]; exact Bool.false_ne_true)

theorem digits?_eq (h : Run width n cs) (rest : List Char) :
    digits? width (cs ++ rest) = some (n, rest) := by
  unfold digits?
  simp only [h.take_eq, h.drop_eq, h.length_eq, h.all_eq, h.value]
  rw [beq_self_eq_true]
  rfl

/-- A number in front of no more digits is taken whole. -/
theorem number?_eq (h : Run width n cs) (hwidth : 0 < width) (rest : List Char) :
    number? width (cs ++ rest) = some (n, rest) := by
  have hspan : cs.takeWhile isDigit = cs := by
    have happend : (cs ++ []).takeWhile isDigit = cs ++ [].takeWhile isDigit :=
      List.takeWhile_append_of_pos h.digits
    rwa [List.append_nil, List.takeWhile_nil, List.append_nil] at happend
  unfold number?
  simp only [h.dropBlanks_eq hwidth, h.take_eq, hspan, h.isEmpty_eq hwidth, h.value, h.length_eq,
    h.drop_eq]
  rfl

/-- Where no digit follows, a run is all the digits that there are. -/
theorem spanDigits_eq (h : Run width n cs) {c : Char} {rest : List Char}
    (hrest : isDigit c = false) : spanDigits (cs ++ c :: rest) = (cs, c :: rest) := by
  have hstop : ¬ isDigit c = true := by
    rw [hrest]
    exact Bool.false_ne_true
  unfold spanDigits
  rw [List.takeWhile_append_of_pos h.digits, List.dropWhile_append_of_pos h.digits,
    List.takeWhile_cons_of_neg hstop, List.dropWhile_cons_of_neg hstop, List.append_nil]

/-- Up to nine digits behind the point count nanoseconds of their order. -/
theorem fraction?_eq (h : Run width n cs) (hwidth : 0 < width) (hnine : width ≤ 9) {c : Char}
    {rest : List Char} (hrest : isDigit c = false) :
    fraction? (cs ++ c :: rest) = some (n * Nat.pow 10 (9 - width), c :: rest) := by
  have htake : cs.take 9 = cs := List.take_of_length_le (by rw [h.length_eq]; exact hnine)
  unfold fraction?
  simp only [h.spanDigits_eq hrest, h.isEmpty_eq hwidth, htake, h.value, h.length_eq]
  rfl

theorem ne_of_not_isDigit (h : Run width n cs) {c sign : Char} {rest : List Char}
    (hcons : cs = c :: rest) (hsign : isDigit sign = false) : c ≠ sign := by
  intro heq
  have hc := h.digits c (by rw [hcons]; exact List.mem_cons_self)
  rw [heq, hsign] at hc
  exact absurd hc Bool.false_ne_true

/-- A run has no sign. -/
theorem readSign_eq (h : Run width n cs) (hwidth : 0 < width) (rest : List Char) :
    Number.readSign (cs ++ rest) = (false, cs ++ rest) := by
  obtain ⟨c, tail, hcons, -⟩ := h.exists_cons hwidth
  have hminus : c ≠ '-' := h.ne_of_not_isDigit hcons rfl
  have hplus : c ≠ '+' := h.ne_of_not_isDigit hcons rfl
  rw [hcons, List.cons_append]
  unfold Number.readSign
  split
  · rename_i heq
    exact absurd (List.cons.inj heq).1 hminus
  · rename_i heq
    exact absurd (List.cons.inj heq).1 hplus
  · rfl

/-- A year of four digits has no sign. -/
theorem year?_eq (h : Run 4 n cs) (rest : List Char) :
    year? (cs ++ rest) = some ((n : Int), rest) := by
  have hnumber := h.number?_eq (by decide) rest
  have hblanks := h.dropBlanks_eq (by decide) rest
  obtain ⟨c, tail, hcons, -⟩ := h.exists_cons (by decide)
  have hminus : c ≠ '-' := h.ne_of_not_isDigit hcons rfl
  have hplus : c ≠ '+' := h.ne_of_not_isDigit hcons rfl
  unfold year?
  rw [hblanks]
  simp only [hcons, List.cons_append] at hnumber ⊢
  split
  · rename_i heq
    exact absurd (List.cons.inj heq).1 hminus
  · rename_i heq
    exact absurd (List.cons.inj heq).1 hplus
  · rw [hnumber]
    rfl

end Run

/-! ## Dates and clocks -/

theorem bind_of_eq_some {α β : Type} {x : Option α} {a : α} {f : α → Option β} (h : x = some a) :
    (x >>= f) = f a := by
  rw [h]
  rfl

theorem char?_cons (c : Char) (cs : List Char) : char? c (c :: cs) = some ((), cs) :=
  if_pos BEq.rfl

namespace Instant

variable {t : Instant}

/-- The date of an instant, in front of the rest of a text. -/
def dateChars (t : Instant) (rest : List Char) : List Char :=
  (padded 4 t.date.1.toNat).toList ++ '-' :: ((padded 2 t.date.2.1).toList
    ++ '-' :: ((padded 2 t.date.2.2).toList ++ rest))

/-- The clock of an instant, in front of the rest of a text. -/
def clockChars (t : Instant) (rest : List Char) : List Char :=
  (padded 2 (t.clock / 3600)).toList ++ ':' :: ((padded 2 (t.clock / 60 % 60)).toList
    ++ ':' :: ((padded 2 t.second).toList ++ rest))

/-- The parts of a date of four-digit year fit into their fields. -/
theorem runs_date (hfirst : 0 ≤ t.date.1) (hlast : t.date.1 ≤ 9999) :
    Run 4 t.date.1.toNat (padded 4 t.date.1.toNat).toList
      ∧ Run 2 t.date.2.1 (padded 2 t.date.2.1).toList
      ∧ Run 2 t.date.2.2 (padded 2 t.date.2.2).toList := by
  have hdate := t.isDate_date (by unfold firstYear; omega) (by unfold lastYear; omega)
  have hdays : daysInMonth t.date.1 t.date.2.1 ≤ 31 := by
    unfold daysInMonth
    split
    · split <;> decide
    · split <;> decide
  simp only [isDate, Bool.and_eq_true, decide_eq_true_eq] at hdate
  refine ⟨run_padded (by decide) ?_, run_padded (by decide) ?_, run_padded (by decide) ?_⟩
  · show t.date.1.toNat < 10000
    omega
  · show t.date.2.1 < 100
    omega
  · show t.date.2.2 < 100
    omega

/-- The parts of a clock fit into their fields. -/
theorem runs_clock (t : Instant) :
    Run 2 (t.clock / 3600) (padded 2 (t.clock / 3600)).toList
      ∧ Run 2 (t.clock / 60 % 60) (padded 2 (t.clock / 60 % 60)).toList
      ∧ Run 2 t.second (padded 2 t.second).toList := by
  have hday : t.clock < 86400 := by
    simp only [clock, secondsPerDay]
    omega
  have hsecond : t.second ≤ 60 := by
    rcases t.second_cases with ⟨-, hsecond, -⟩ | ⟨-, hsecond⟩ <;> omega
  refine ⟨run_padded (by decide) ?_, run_padded (by decide) ?_, run_padded (by decide) ?_⟩
  · show t.clock / 3600 < 100
    omega
  · show t.clock / 60 % 60 < 100
    omega
  · show t.second < 100
    omega

theorem toList_dateText (hfirst : 0 ≤ t.date.1) (hlast : t.date.1 ≤ 9999) (rest : List Char) :
    t.dateText.toList ++ rest = t.dateChars rest := by
  have hyear : yearText t.date.1 = padded 4 t.date.1.toNat := by
    unfold yearText
    rw [decide_eq_true hfirst, decide_eq_true hlast]
    rfl
  show (Calendar.dateText t.date.1 t.date.2.1 t.date.2.2).toList ++ rest = _
  unfold Calendar.dateText dateChars
  have hhyphen : "-".toList = ['-'] := rfl
  rw [hyear]
  simp only [String.toList_append, List.append_assoc, hhyphen, List.cons_append, List.nil_append]

theorem toList_clockText (t : Instant) (rest : List Char) :
    t.clockText.toList ++ rest = t.clockChars rest := by
  have hcolon : ":".toList = [':'] := rfl
  unfold clockText clockChars
  simp only [String.toList_append, List.append_assoc, hcolon, List.cons_append, List.nil_append]

/-- The date of an instant is read in the loose form. -/
theorem date?_dateChars (hfirst : 0 ≤ t.date.1) (hlast : t.date.1 ≤ 9999) (rest : List Char) :
    date? (t.dateChars rest) = some (t.date, rest) := by
  obtain ⟨hyear, hmonth, hday⟩ := runs_date hfirst hlast
  have hback : (t.date.1.toNat : Int) = t.date.1 := Int.toNat_of_nonneg hfirst
  unfold date? dateChars
  rw [hyear.year?_eq, hback]
  refine (bind_of_eq_some rfl).trans ?_
  refine (bind_of_eq_some (char?_cons '-' _)).trans ?_
  refine (bind_of_eq_some (hmonth.number?_eq (by decide) _)).trans ?_
  refine (bind_of_eq_some (char?_cons '-' _)).trans ?_
  exact bind_of_eq_some (hday.number?_eq (by decide) _)

/-- The clock of an instant is read in the loose form. -/
theorem clock?_clockChars (t : Instant) (rest : List Char) :
    clock? (t.clockChars rest) = some ((t.clock / 3600, t.clock / 60 % 60, t.second), rest) := by
  obtain ⟨hhour, hminute, hsecond⟩ := t.runs_clock
  unfold clock? clockChars
  refine (bind_of_eq_some (hhour.number?_eq (by decide) _)).trans ?_
  refine (bind_of_eq_some (char?_cons ':' _)).trans ?_
  refine (bind_of_eq_some (hminute.number?_eq (by decide) _)).trans ?_
  refine (bind_of_eq_some (char?_cons ':' _)).trans ?_
  exact bind_of_eq_some (hsecond.number?_eq (by decide) _)

theorem of?_self (t : Instant) : of? t.seconds t.nanos = some t := dif_pos t.valid

/-- What the strict form does behind date and clock: it reads a fraction and the offset. -/
theorem readFull?_chars (hfirst : 0 ≤ t.date.1) (hlast : t.date.1 ≤ 9999) {mark : Char}
    (hmark : ['T', 't', ' '].contains mark = true) {rest behind : List Char} {nanos : Nat}
    (hfraction : optionalFraction? rest = some (nanos, behind))
    (hoffset : offset? behind = none ∨ offset? behind = some (0, [])) :
    readFull? (t.dateChars (mark :: t.clockChars rest))
      = if offset? behind = none then none
        else of? t.seconds (nanos + t.leapNanos) := by
  obtain ⟨hyear, hmonth, hday⟩ := runs_date hfirst hlast
  obtain ⟨hhour, hminute, hsecond⟩ := t.runs_clock
  have hback : (t.date.1.toNat : Int) = t.date.1 := Int.toNat_of_nonneg hfirst
  have hcivil := ofCivil?_parts (t := t) (by unfold firstYear; omega) (by unfold lastYear; omega)
    nanos
  unfold readFull?
  refine (bind_of_eq_some (hyear.digits?_eq _)).trans ?_
  refine (bind_of_eq_some (char?_cons '-' _)).trans ?_
  refine (bind_of_eq_some (hmonth.digits?_eq _)).trans ?_
  refine (bind_of_eq_some (char?_cons '-' _)).trans ?_
  refine (bind_of_eq_some (hday.digits?_eq _)).trans ?_
  refine (bind_of_eq_some (if_pos hmark)).trans ?_
  refine (bind_of_eq_some (hhour.digits?_eq _)).trans ?_
  refine (bind_of_eq_some (char?_cons ':' _)).trans ?_
  refine (bind_of_eq_some (hminute.digits?_eq _)).trans ?_
  refine (bind_of_eq_some (char?_cons ':' _)).trans ?_
  refine (bind_of_eq_some (hsecond.digits?_eq _)).trans ?_
  refine (bind_of_eq_some hfraction).trans ?_
  rcases hoffset with hnone | hsome
  · rw [if_pos hnone]
    show (offset? behind >>= _) = none
    rw [hnone]
    rfl
  · rw [if_neg (by rw [hsome]; exact Option.some_ne_none _)]
    refine (bind_of_eq_some hsome).trans ?_
    show (ofCivil? _ _ _ _ _ _ nanos >>= _) = _
    rw [hback, hcivil]
    cases hhere : of? t.seconds (nanos + t.leapNanos) with
    | none => rfl
    | some here =>
      show of? (here.seconds - 0 * 60) here.nanos = _
      rw [Int.zero_mul, Int.sub_zero]
      exact here.of?_self

/-- A written date is no number: the hyphen behind its year ends every literal. -/
theorem read?_dateChars (hfirst : 0 ≤ t.date.1) (hlast : t.date.1 ≤ 9999) (rest : List Char) :
    Number.Literal.read? (t.dateChars rest) = none := by
  obtain ⟨hyear, -, -⟩ := runs_date hfirst hlast
  have hspan : spanDigits (t.dateChars rest)
      = ((padded 4 t.date.1.toNat).toList, '-' :: ((padded 2 t.date.2.1).toList
          ++ '-' :: ((padded 2 t.date.2.2).toList ++ rest))) :=
    hyear.spanDigits_eq (by decide)
  have hsign : Number.readSign (t.dateChars rest) = (false, t.dateChars rest) :=
    hyear.readSign_eq (by decide) _
  unfold Number.Literal.read?
  simp only [hsign, hspan, hyear.isEmpty_eq (by decide)]
  rfl

/-! ## The texts of an instant -/

/-- A text between two characters that are not blank keeps them. -/
theorem trimChars_eq_self {cs : List Char} {first last : Char} (hfirst : cs.head? = some first)
    (hlast : cs.getLast? = some last) (hleft : isBlank first = false)
    (hright : isBlank last = false) : trimChars cs = cs := by
  have hkeep : ∀ {ds : List Char} {c : Char}, ds.head? = some c → isBlank c = false →
      dropBlanks ds = ds := by
    intro ds c hhead hblank
    obtain ⟨tail, rfl⟩ := List.head?_eq_some_iff.mp hhead
    exact List.dropWhile_cons_of_neg (by rw [hblank]; exact Bool.false_ne_true)
  unfold trimChars
  rw [hkeep hfirst hleft, hkeep (by rw [List.head?_reverse]; exact hlast) hright,
    List.reverse_reverse]

/-- Up to nine digits behind a point are read as nanoseconds of their order. -/
theorem optionalFraction?_padded {width n : Nat} (hwidth : 0 < width) (hnine : width ≤ 9)
    (hn : n < Nat.pow 10 width) {text : String} {c : Char} {rest : List Char}
    (htext : text.toList = c :: rest) (hc : isDigit c = false) :
    optionalFraction? (("." ++ padded width n).toList ++ text.toList)
      = some (n * Nat.pow 10 (9 - width), text.toList) := by
  have hpoint : ".".toList = ['.'] := rfl
  rw [String.toList_append, hpoint, htext, List.cons_append, List.nil_append, List.cons_append]
  show fraction? _ = _
  rw [(run_padded hwidth hn).fraction?_eq hwidth hnine hc]

/-- The fraction that the full text shows is read as it is. -/
theorem optionalFraction?_fractionText (t : Instant) :
    optionalFraction? (t.fractionText.toList ++ "+00:00".toList)
      = some (t.fraction, "+00:00".toList) := by
  have hlt := t.fraction_lt
  have hzone : "+00:00".toList = ['+', '0', '0', ':', '0', '0'] := rfl
  have hread {width n : Nat} (hwidth : 0 < width) (hnine : width ≤ 9) (hn : n < Nat.pow 10 width) :=
    optionalFraction?_padded hwidth hnine hn hzone rfl
  unfold fractionText
  by_cases hwhole : t.fraction = 0
  · rw [if_pos (beq_iff_eq.mpr hwhole), hwhole]
    rfl
  rw [if_neg (by rwa [beq_iff_eq])]
  by_cases hmillis : t.fraction % 1000000 = 0
  · rw [if_pos (beq_iff_eq.mpr hmillis),
      hread (by decide) (by decide) (show t.fraction / 1000000 < 1000 by omega)]
    show some (t.fraction / 1000000 * 1000000, _) = _
    rw [Nat.div_mul_cancel (Nat.dvd_of_mod_eq_zero hmillis)]
  rw [if_neg (by rwa [beq_iff_eq])]
  by_cases hmicros : t.fraction % 1000 = 0
  · rw [if_pos (beq_iff_eq.mpr hmicros),
      hread (by decide) (by decide) (show t.fraction / 1000 < 1000000 by omega)]
    show some (t.fraction / 1000 * 1000, _) = _
    rw [Nat.div_mul_cancel (Nat.dvd_of_mod_eq_zero hmicros)]
  · rw [if_neg (by rwa [beq_iff_eq]), hread (by decide) (by decide) hlt]
    show some (t.fraction * 1, _) = _
    rw [Nat.mul_one]

/-- Three digits behind the point are milliseconds. -/
theorem optionalFraction?_millis (t : Instant) :
    optionalFraction? (("." ++ padded 3 (t.fraction / 1000000)).toList ++ "Z".toList)
      = some (t.fraction / 1000000 * 1000000, "Z".toList) := by
  have hlt := t.fraction_lt
  have hzone : "Z".toList = ['Z'] := rfl
  exact optionalFraction?_padded (by decide) (by decide)
    (show t.fraction / 1000000 < 1000 by omega) hzone rfl

/-- A text that begins with a date and does not end with a blank is no number, and it is read
without being trimmed. -/
theorem trimmed_of_dateChars (hfirst : 0 ≤ t.date.1) (hlast : t.date.1 ≤ 9999) {text : String}
    {rest : List Char} {last : Char} (htext : text.toList = t.dateChars rest)
    (hend : text.toList.getLast? = some last) (hblank : isBlank last = false) :
    Number.readFinite? (trim text) = none ∧ trimChars text.toList = t.dateChars rest := by
  obtain ⟨hyear, -, -⟩ := runs_date hfirst hlast
  obtain ⟨c, tail, hcons, hc⟩ := hyear.exists_cons (by decide)
  have hhead : text.toList.head? = some c := by
    rw [htext, dateChars, hcons]
    rfl
  have htrim := trimChars_eq_self hhead hend (not_isBlank_of_isDigit hc) hblank
  refine ⟨?_, by rw [htrim, htext]⟩
  unfold Number.readFinite? trim
  rw [htrim, String.toList_ofList, htext, read?_dateChars hfirst hlast]
  rfl

/-! ## What the texts denote -/

/-- A text that is no number denotes an instant as a written date. -/
def Writes (text : String) (t : Instant) : Prop :=
  Number.readFinite? (trim text) = none ∧ readInstant? text = some t

/-- An instant with fewer nanoseconds is one. -/
theorem isInstant_of_le {nanos : Nat} (h : nanos ≤ t.nanos) :
    isInstant t.seconds nanos = true := by
  have hvalid := t.valid
  simp only [isInstant, Bool.and_eq_true, Bool.or_eq_true, decide_eq_true_eq, beq_iff_eq]
    at hvalid ⊢
  omega

/-- The instant with so many nanoseconds, at most as many as it has. -/
def lowered (t : Instant) (nanos : Nat) (h : nanos ≤ t.nanos) : Instant :=
  ⟨t.seconds, nanos, isInstant_of_le h⟩

theorem of?_lowered {nanos : Nat} (h : nanos ≤ t.nanos) :
    of? t.seconds nanos = some (t.lowered nanos h) := dif_pos (isInstant_of_le h)

theorem readLoose?_of_blank {year : Int} {month day hour minute second : Nat}
    {cs behind : List Char} (hdate : date? cs = some ((year, month, day), ' ' :: behind))
    (hclock : clock? (dropBlanks (' ' :: behind)) = some ((hour, minute, second), [])) :
    readLoose? cs = ofCivil? year month day hour minute second 0 := by
  unfold readLoose?
  rw [hdate]
  show (clock? (dropBlanks (' ' :: behind))).bind _ = _
  rw [hclock]
  rfl

section Writing

variable (hfirst : 0 ≤ t.date.1) (hlast : t.date.1 ≤ 9999)
include hfirst hlast

/-- The full form tells the second of an instant, and the nanoseconds that its fraction shows. -/
theorem writes_full {text fraction zone : String} {shown nanos : Nat} {last : Char}
    (htext : text = t.dateText ++ "T" ++ t.clockText ++ fraction ++ zone)
    (hfraction : optionalFraction? (fraction.toList ++ zone.toList) = some (shown, zone.toList))
    (hoffset : offset? zone.toList = some (0, [])) (hend : zone.toList.getLast? = some last)
    (hblank : isBlank last = false) (hnanos : shown + t.leapNanos = nanos)
    (hle : nanos ≤ t.nanos) : Writes text (t.lowered nanos hle) := by
  have hchars : text.toList
      = t.dateChars ('T' :: t.clockChars (fraction.toList ++ zone.toList)) := by
    have hmark : "T".toList = ['T'] := rfl
    rw [← toList_dateText hfirst hlast, ← toList_clockText]
    simp only [htext, String.toList_append, List.append_assoc, hmark, List.cons_append,
      List.nil_append]
  have hlastChar : text.toList.getLast? = some last := by
    rw [htext, String.toList_append, List.getLast?_append, hend]
    rfl
  have hmark : ['T', 't', ' '].contains 'T' = true := rfl
  have hread := readFull?_chars hfirst hlast hmark hfraction (.inr hoffset)
  rw [hoffset, if_neg (Option.some_ne_none _), hnanos, of?_lowered hle] at hread
  obtain ⟨hnumber, htrim⟩ := trimmed_of_dateChars hfirst hlast hchars hlastChar hblank
  refine ⟨hnumber, ?_⟩
  unfold readInstant?
  simp only [htrim, hread]
  rfl

/-- The full text of an instant denotes that instant. -/
theorem writes_fullText : Writes t.fullText t :=
  writes_full hfirst hlast rfl t.optionalFraction?_fractionText rfl rfl rfl t.nanos_eq.symm
    (Nat.le_refl _)

/-- The text with milliseconds denotes those of the instant. -/
theorem writes_millisText :
    Writes t.millisText (t.lowered (t.nanos - t.nanos % 1000000) (Nat.sub_le _ _)) := by
  have htext : t.millisText
      = t.dateText ++ "T" ++ t.clockText ++ ("." ++ padded 3 (t.fraction / 1000000)) ++ "Z" := by
    rw [millisText, ← String.append_assoc]
  have hnanos : t.fraction / 1000000 * 1000000 + t.leapNanos = t.nanos - t.nanos % 1000000 := by
    have hsum := t.nanos_eq
    rcases t.leapNanos_cases with hleap | hleap <;> omega
  exact writes_full hfirst hlast htext t.optionalFraction?_millis rfl rfl rfl hnanos _

/-- A blank between date and clock and no offset: the strict form refuses such a text, and the loose
one reads it. -/
theorem readLoose?_timestamp :
    readFull? (t.dateChars (' ' :: t.clockChars [])) = none
      ∧ readLoose? (t.dateChars (' ' :: t.clockChars [])) = of? t.seconds (0 + t.leapNanos) := by
  have hnofraction : optionalFraction? [] = some (0, []) := rfl
  have hcivil := ofCivil?_parts (t := t) (by unfold firstYear; omega) (by unfold lastYear; omega) 0
  obtain ⟨hhour, -, -⟩ := t.runs_clock
  have hskip : dropBlanks (' ' :: t.clockChars []) = dropBlanks (t.clockChars []) :=
    List.dropWhile_cons_of_pos rfl
  have hclock : dropBlanks (t.clockChars []) = t.clockChars [] :=
    hhour.dropBlanks_eq (by decide) _
  constructor
  · exact readFull?_chars hfirst hlast rfl hnofraction (.inl rfl)
  · rw [← hcivil]
    refine readLoose?_of_blank (date?_dateChars hfirst hlast _) ?_
    rw [hskip, hclock, clock?_clockChars]

/-- The text to the second denotes the second of the instant. -/
theorem writes_timestampText :
    Writes t.timestampText (t.lowered (t.nanos - t.nanos % 1000000000) (Nat.sub_le _ _)) := by
  have hchars : t.timestampText.toList = t.dateChars (' ' :: t.clockChars []) := by
    have hmark : " ".toList = [' '] := rfl
    rw [← toList_dateText hfirst hlast, ← toList_clockText]
    simp only [timestampText, String.toList_append, List.append_assoc, List.append_nil, hmark,
      List.cons_append, List.nil_append]
  -- the last character is a digit of the second
  obtain ⟨-, -, hsecond⟩ := t.runs_clock
  obtain ⟨last, hend, hdigit⟩ := hsecond.exists_getLast? (by decide)
  have hlastChar : t.timestampText.toList.getLast? = some last := by
    rw [timestampText, clockText, ← String.append_assoc, String.toList_append,
      List.getLast?_append, hend]
    rfl
  have hnanos : 0 + t.leapNanos = t.nanos - t.nanos % 1000000000 := by
    have hsum := t.nanos_eq
    have hlt := t.fraction_lt
    rcases t.leapNanos_cases with hleap | hleap <;> omega
  obtain ⟨hnumber, htrim⟩ :=
    trimmed_of_dateChars hfirst hlast hchars hlastChar (not_isBlank_of_isDigit hdigit)
  obtain ⟨hfull, hloose⟩ := readLoose?_timestamp hfirst hlast
  rw [hnanos, of?_lowered (Nat.sub_le _ _)] at hloose
  refine ⟨hnumber, ?_⟩
  unfold readInstant?
  simp only [htrim, hfull, hloose]
  rfl

end Writing

end Instant

end RecordMapping.Calendar
