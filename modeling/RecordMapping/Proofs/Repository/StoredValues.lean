import RecordMapping.Proofs.Calendar.Reading
import RecordMapping.Proofs.Repository.Restoring

/-!
# Single values, stored and read again

What `Storage.restored` makes of the values of two types of attributes.

* `Storage.restored_instant`: an instant keeps what its representation can tell, and its JSON form
  denotes the instant itself;
* `Storage.restored_json`: a JSON value comes back as it was, except that booleans come back as the
  numbers that stand for them;
* `Storage.restored_json_of_text`, `Storage.restored_json_of_beyond`: the values that their stored
  forms do not denote.
-/

namespace RecordMapping

open Calendar

/-! ## Dates -/

/-- What a representation keeps of an instant. A number of seconds does not tell a leap second from
the second before. -/
def Calendar.Instant.kept (t : Instant) : DateStorage → Instant
  | .epoch => t.lowered 0 (Nat.zero_le _)
  | .timestamp => t.lowered (t.nanos - t.nanos % 1000000000) (Nat.sub_le _ _)
  | .datetime => t.lowered (t.nanos - t.nanos % 1000000) (Nat.sub_le _ _)

/-- A written date denotes what it is read as. -/
theorem Calendar.Instant.Writes.instant?_str {s : String} {t : Instant} (h : Instant.Writes s t) :
    (Value.str s).instant? = some t := by
  unfold Value.instant?
  simp only [h.1, h.2]

namespace Storage

/-- The seconds of an instant fit a signed word. -/
theorem toInt_seconds (t : Instant) : (Int64.ofInt t.seconds).toInt = t.seconds := by
  have hvalid := t.valid
  have hfirst : firstSecond = -8334601228800 := rfl
  have hlast : lastSecond = 8210266876799 := rfl
  simp only [isInstant, Bool.and_eq_true, decide_eq_true_eq, hfirst, hlast] at hvalid
  exact Int64.toInt_ofInt_of_le (by omega) (by omega)

/-- Every representation denotes the instant as far as it keeps it. -/
theorem instant?_renderInstant {t : Instant} (hfirst : 0 ≤ t.date.1) (hlast : t.date.1 ≤ 9999)
    (storage : DateStorage) : (renderInstant t storage).instant? = some (t.kept storage) := by
  cases storage with
  | datetime => exact (Instant.writes_millisText hfirst hlast).instant?_str
  | timestamp => exact (Instant.writes_timestampText hfirst hlast).instant?_str
  | epoch =>
    show Instant.of? (Int64.ofInt t.seconds).toInt 0 = _
    rw [toInt_seconds]
    exact Instant.of?_lowered (Nat.zero_le _)

/-- A stored value that denotes an instant is read as that instant. -/
theorem fromStorage_of_instant? {a : Attribute} (htype : a.type = .date) {v : Value} {t : Instant}
    (h : v.instant? = some t) : fromStorage a v = .instant t := by
  have hform : v.asInstant = .instant t := by
    unfold Value.asInstant
    rw [h]
  unfold fromStorage
  rw [htype]
  cases v with
  | null => exact absurd h (Option.some_ne_none t).symm
  | _ => exact hform

/-- An instant of a year of four digits that is put into the column of a date is read from it as
what its representation keeps. The text that it has as JSON denotes the instant itself. -/
theorem restored_instant (table : String) (default : DateStorage) {a : Attribute}
    (htype : a.type = .date) (hformatter : a.formatter? = none) {t : Instant}
    (hfirst : 0 ≤ t.date.1) (hlast : t.date.1 ≤ 9999) :
    restored table default a (.instant t) = .instant (t.kept (a.dateStorage?.getD default))
      ∧ (Value.instant t).toJson = .str t.fullText
      ∧ (Value.str t.fullText).instant? = some t := by
  have hstored : toStorage table (some a) (.instant t) default
      = renderInstant t (a.dateStorage?.getD default) := by
    simp only [toStorage, hformatter, htype, beq_self_eq_true, if_true, Value.instant?]
  refine ⟨?_, rfl, (Instant.writes_fullText hfirst hlast).instant?_str⟩
  unfold restored
  rw [hstored]
  exact fromStorage_of_instant? htype (instant?_renderInstant hfirst hlast _)

/-- The last leap second but for a fraction of it: 2016-12-31 at 23:59:60.123456789. -/
def leapSecond : Instant := ⟨1483228799, 1123456789, by decide⟩

theorem restored_instant_leapSecond :
    let a : Attribute := ⟨"starts", .date, none, some .timestamp, none⟩
    a.type = .date ∧ a.formatter? = none ∧ 0 ≤ leapSecond.date.1 ∧ leapSecond.date.1 ≤ 9999
      ∧ (restored "events" .epoch a (.instant leapSecond) = .instant (leapSecond.kept .timestamp)
        ∧ (Value.instant leapSecond).toJson = .str leapSecond.fullText
        ∧ (Value.str leapSecond.fullText).instant? = some leapSecond)
      ∧ (leapSecond.kept .timestamp).nanos = 1000000000
      ∧ leapSecond.fullText = "2016-12-31T23:59:60.123456789+00:00" := by
  refine ⟨rfl, rfl, by decide, by decide, ?_, rfl, rfl⟩
  exact restored_instant "events" .epoch rfl rfl (by decide) (by decide)

end Storage

/-! ## JSON -/

/-- The JSON values that their stored forms denote: an integer that fits a signed word, a finite
float, a string that is not itself the text of a JSON value, and an array or an object whose text is
read as that array or object. -/
def Json.Denoted : Json → Prop
  | .null | .bool _ => True
  | .int n => (Number.int64? n).isSome = true
  | .float x => x.isFinite = true
  | .str s => Json.read? s = none
  | .arr items => Json.read? (Json.arr items).text = some (.arr items)
  | .obj fields => Json.read? (Json.obj fields).text = some (.obj fields)

/-- What storage makes of a JSON value: true is stored as one and false as null. -/
def Json.kept : Json → Json
  | .bool true => .int 1
  | .bool false => .null
  | j => j

namespace Storage

section Reading

variable (table : String) (default : DateStorage) {a : Attribute} (htype : a.type = .json)
  (hformatter : a.formatter? = none)
include htype hformatter

/-- Without a formatter a value of type JSON is stored in its plain form. -/
theorem restored_eq (v : Value) : restored table default a v = fromStorage a (plainStorage v) := by
  have hdate : (a.type == .date) = false := by
    rw [htype]
    rfl
  simp only [restored, toStorage, hformatter, hdate, Bool.false_eq_true, if_false]

/-- What is stored as anything but a text is read as it is stored. -/
theorem restored_of_asString? {v : Value} (h : (plainStorage v).asString? = none) :
    restored table default a v = plainStorage v := by
  rw [restored_eq table default htype hformatter]
  unfold fromStorage
  simp only [htype]
  cases hstored : plainStorage v with
  | str s =>
    rw [hstored] at h
    exact absurd h (Option.some_ne_none s)
  | _ => rfl

/-- A text that is not that of a JSON value is read as it is. -/
theorem restored_str {s : String} (h : Json.read? s = none) :
    restored table default a (.str s) = .str s := by
  rw [restored_eq table default htype hformatter]
  simp only [fromStorage, plainStorage, htype, h]

/-- JSON is stored as its text, and read from it. -/
theorem restored_text {j : Json} (h : Json.read? j.text = some j) :
    restored table default a (.json j) = .json j := by
  rw [restored_eq table default htype hformatter]
  simp only [fromStorage, plainStorage, htype, h]

/-- A JSON value that its stored form denotes comes back from the column of a JSON attribute as what
storage makes of it: as it was, unless it is a boolean. -/
theorem restored_json {j : Json} (h : j.Denoted) :
    (restored table default a (.ofJson j)).toJson = j.kept := by
  cases j with
  | null =>
    rw [restored_of_asString? table default htype hformatter rfl]
    rfl
  | bool b =>
    cases b with
    | true =>
      rw [restored_of_asString? table default htype hformatter rfl]
      rfl
    | false =>
      rw [restored_of_asString? table default htype hformatter rfl]
      rfl
  | int n =>
    obtain ⟨w, hw⟩ := Option.isSome_iff_exists.mp h
    have hvalue : Value.ofJson (.int n) = .int w := by
      simp only [Value.ofJson, hw]
    rw [hvalue, restored_of_asString? table default htype hformatter rfl]
    show Json.int w.toInt = .int n
    rw [Number.toInt_of_int64? hw]
  | float x =>
    rw [restored_of_asString? table default htype hformatter rfl]
    exact if_pos h
  | str s =>
    show (restored table default a (.str s)).toJson = _
    rw [restored_str table default htype hformatter h]
    rfl
  | arr items =>
    show (restored table default a (.json (.arr items))).toJson = _
    rw [restored_text table default htype hformatter h]
    rfl
  | obj fields =>
    show (restored table default a (.json (.obj fields))).toJson = _
    rw [restored_text table default htype hformatter h]
    rfl

/-- A string that is the text of a JSON value comes back as this value: once it is stored, nothing
tells it from the text that JSON is stored as. -/
theorem restored_json_of_text {s : String} {j : Json} (h : Json.read? s = some j) :
    (restored table default a (.ofJson (.str s))).toJson = j := by
  show (restored table default a (.str s)).toJson = j
  rw [restored_eq table default htype hformatter]
  simp only [fromStorage, plainStorage, htype, h]
  rfl

/-- An integer beyond the signed words comes back as the float that is next to it. -/
theorem restored_json_of_beyond {n : Int} (h : Number.int64? n = none) :
    (restored table default a (.ofJson (.int n))).toJson
      = (Value.float (Number.ofDecimal (n < 0) n.natAbs 0)).toJson := by
  have hvalue : Value.ofJson (.int n) = .float (Number.ofDecimal (n < 0) n.natAbs 0) := by
    simp only [Value.ofJson, h]
  rw [hvalue, restored_of_asString? table default htype hformatter rfl]
  rfl

end Reading

/-- A JSON attribute without formatter. -/
def payload : Attribute := .plain "payload" .json

example : (restored "events" .datetime payload (.ofJson (.str "true"))).toJson = .bool true :=
  restored_json_of_text "events" .datetime rfl rfl (by rfl)

theorem restored_json_pair :
    let j : Json := .arr [.int 1, .int 2]
    payload.type = .json ∧ payload.formatter? = none ∧ j.Denoted
      ∧ (restored "events" .datetime payload (.ofJson j)).toJson = j.kept := by
  have hread : Json.read? (Json.arr [.int 1, .int 2]).text = some (.arr [.int 1, .int 2]) := by rfl
  exact ⟨rfl, rfl, hread, restored_json "events" .datetime rfl rfl hread⟩

/-- Not every JSON value that its text denotes comes back as it was: a true comes back as one. -/
theorem not_restored_json : ¬ ∀ (table : String) (default : DateStorage) (a : Attribute),
    a.type = .json → a.formatter? = none → ∀ j : Json, Json.read? j.text = some j →
      (restored table default a (.ofJson j)).toJson = j := by
  intro h
  have hone : Json.int 1 = .bool true := h "events" .datetime payload rfl rfl (.bool true) rfl
  exact Json.noConfusion hone

end Storage

end RecordMapping
