import RecordMapping.Proofs.Number.Integers
import RecordMapping.Query.Normal

/-!
# Unsigned keys

An unsigned key comes from the driver, from a JSON number, or from a text in a descriptor. Each way
has its own form for the keys beyond the signed words: the driver keeps the digits, the other two
take the nearest float. What identifies such a float is the greatest signed word, whichever key it
comes from.

* `KeySource.exists_value`: what identifies a key, by where it comes from;
* `sources_agree_iff`: the three agree on exactly the keys that are signed words.
-/

namespace RecordMapping

open Number

/-- Where a key comes from: the driver, a JSON number, or a text that denotes a number. -/
inductive KeySource where
  | driver
  | number
  | text
deriving DecidableEq, Repr

namespace KeySource

/-- The value of a key. -/
def value? (n : Nat) : KeySource → Option Value
  | driver => some (.ofNat n)
  | number => some (.ofJson (.int n))
  | text => Value.numeric? (toString n)

/-- The number that a key is identified by. Only the driver keeps a key beyond the signed words. -/
def identified (n : Nat) : KeySource → Nat
  | driver => n
  | number | text => min n Int64.maxValue.toInt.toNat

/-! ## Signed words -/

section

variable {n : Nat}

/-- A key among the signed words is the same word everywhere. -/
theorem value?_of_le (h : n ≤ Int64.maxValue.toInt.toNat) (source : KeySource) :
    source.value? n = some (.int (Int64.ofInt n)) := by
  have hword : int64? n = some (Int64.ofInt n) := by
    have hgreatest : (n : Int) ≤ Int64.maxValue.toInt := by
      show (n : Int) ≤ (Int64.maxValue.toInt.toNat : Nat)
      omega
    simp [int64?, fitsInt64, hgreatest]
  cases source with
  | driver => simp [value?, Value.ofNat, hword]
  | number => simp [value?, Value.ofJson, hword]
  | text =>
    show Value.numeric? (toString n) = _
    rw [Value.numeric?, readInt64?_toString, hword]

theorem identity?_of_le (h : n ≤ Int64.maxValue.toInt.toNat) :
    (Value.int (Int64.ofInt n)).identity? = some (toString n) := by
  have hvalue : (Int64.ofInt n).toInt = n := by
    apply Int64.toInt_ofInt_of_le
    · omega
    · show (n : Int) < 9223372036854775808
      have hgreatest : Int64.maxValue.toInt.toNat = 9223372036854775807 := rfl
      omega
  show some (toString (Int64.ofInt n).toInt) = _
  rw [hvalue]
  rfl

end

/-! ## Beyond the signed words -/

section

variable {n : Nat} (h : Int64.maxValue.toInt.toNat < n) (hsize : n < UInt64.size)
include h

theorem int64?_of_lt : int64? n = none := by
  have hgreatest : ¬ (n : Int) ≤ Int64.maxValue.toInt := by
    show ¬ (n : Int) ≤ (Int64.maxValue.toInt.toNat : Nat)
    omega
  simp [int64?, fitsInt64, hgreatest]

/-- The driver keeps the digits. -/
theorem driver_value?_of_lt : driver.value? n = some (.str (toString n)) := by
  simp [value?, Value.ofNat, int64?_of_lt h]

include hsize

/-- A number in JSON and a text of its digits take the nearest float. -/
theorem value?_of_lt {source : KeySource} (hsource : source ≠ driver) :
    source.value? n = some (.float (ofDecimal false n 0)) := by
  have hnone := int64?_of_lt h
  cases source with
  | driver => contradiction
  | number =>
    have hsign : ¬ (n : Int) < 0 := by omega
    simp [value?, Value.ofJson, hnone, hsign]
  | text =>
    show Value.numeric? (toString n) = _
    rw [Value.numeric?, readInt64?_toString, hnone]
    show (readFinite? (toString n)).map Value.float = _
    rw [readFinite?_toString_long h hsize]
    rfl

/-- Such a float is identified by the greatest signed word. -/
theorem identity?_of_lt : (Value.float (ofDecimal false n 0)).identity?
    = some (toString Int64.maxValue.toInt.toNat) := by
  have hword := (integerPart?_ofDecimal_long h hsize).2
  simp only [Value.identity?, hword]
  rfl

end

/-! ## All keys -/

/-- An unsigned key has a value, which identifies something, wherever the key comes from. -/
theorem exists_value (source : KeySource) (n : UInt64) :
    ∃ v, source.value? n.toNat = some v
      ∧ v.identity? = some (toString (source.identified n.toNat)) := by
  have hsize : n.toNat < UInt64.size := n.toNat_lt
  rcases Nat.lt_or_ge Int64.maxValue.toInt.toNat n.toNat with h | h
  · by_cases hsource : source = driver
    · rw [hsource]
      exact ⟨_, driver_value?_of_lt h, rfl⟩
    · refine ⟨_, value?_of_lt h hsize hsource, ?_⟩
      have hgreatest : source.identified n.toNat = Int64.maxValue.toInt.toNat := by
        cases source with
        | driver => contradiction
        | number | text => exact Nat.min_eq_right (Nat.le_of_lt h)
      rw [identity?_of_lt h hsize, hgreatest]
  · refine ⟨_, value?_of_le h source, ?_⟩
    have hkept : source.identified n.toNat = n.toNat := by
      cases source with
      | driver => rfl
      | number | text => exact Nat.min_eq_left h
    rw [identity?_of_le h, hkept]

end KeySource

/-- **Where an unsigned key comes from makes no difference exactly for the signed words.** Every
unsigned key has a value from each source. What comes from the driver is identified by the digits of
the key. What comes from a JSON number, or from a text of its digits in a descriptor, is identified
by the digits of the key or of the greatest signed word, whichever is less. So the three agree if
the key is a signed word, and otherwise the last two identify another key. -/
theorem sources_agree_iff (n : UInt64) :
    (∀ source : KeySource, ∃ v, source.value? n.toNat = some v
        ∧ v.identity? = some (toString (source.identified n.toNat)))
      ∧ Query.readOperand (.int n.toNat) = .ofJson (.int n.toNat)
      ∧ KeySource.text.value? n.toNat = some (Query.readOperand (.str (toString n.toNat)))
      ∧ ((∀ source : KeySource,
            (source.value? n.toNat).bind Value.identity? = some (toString n.toNat))
          ↔ n.toNat ≤ Int64.maxValue.toInt.toNat) := by
  refine ⟨fun source => source.exists_value n, rfl, ?_, ?_, ?_⟩
  · obtain ⟨v, hvalue, -⟩ := KeySource.text.exists_value n
    show Value.numeric? _ = some ((Value.numeric? _).getD _)
    rw [show Value.numeric? (toString n.toNat) = some v from hvalue, Option.getD_some]
  · intro hagree
    obtain ⟨v, hvalue, hidentity⟩ := KeySource.number.exists_value n
    have hdigits := hagree .number
    rw [hvalue, Option.bind_some, hidentity] at hdigits
    have hmin : min n.toNat Int64.maxValue.toInt.toNat = n.toNat :=
      Nat.repr_injective (Option.some.inj hdigits)
    omega
  · intro h source
    rw [KeySource.value?_of_le h, Option.bind_some, KeySource.identity?_of_le h]

end RecordMapping
