import RecordMapping.Url

/-!
# Percent-encoded texts

An encoded text consists of characters that need no encoding, of `%` and of uppercase hexadecimal
digits. Where `%` itself is encoded nothing is lost: the bytes of the encoded text are those of the
text.

* `Url.mem_percentEncode`: the characters of an encoded text;
* `Url.percentDecode_percentEncode`: the bytes of an encoded text;
* `Url.percentEncode_percentEncode`: a text that is encoded twice;
* `Url.percentEncode_eq_self_iff`: which texts are their own encodings.
-/

namespace RecordMapping

open Text

/-! ## Bytes of texts -/

/-- Different texts have different bytes. -/
theorem Text.utf8Bytes_injective {as bs : List Char} (h : utf8Bytes as = utf8Bytes bs) :
    as = bs := by
  have hencoded : as.utf8Encode = bs.utf8Encode := congrArg List.toByteArray h
  have hofList : String.ofList as = String.ofList bs :=
    String.toByteArray_inj.mp (by simpa using hencoded)
  exact String.ofList_injective hofList

theorem Text.utf8Bytes_cons (c : Char) (cs : List Char) :
    utf8Bytes (c :: cs) = String.utf8EncodeChar c ++ utf8Bytes cs :=
  List.flatMap_cons

namespace Url

/-! ## Encoded bytes -/

/-- The digits of a byte are letters and digits. -/
theorem isAlphanum_hexDigitUpper : ∀ n < 16, (hexDigitUpper n).isAlphanum = true := by decide

theorem hexValue?_hexDigitUpper : ∀ n < 16, hexValue? (hexDigitUpper n) = some n := by decide

theorem mem_percentByte {b : UInt8} {c : Char} (h : c ∈ percentByte b) :
    c = '%' ∨ c.isAlphanum = true := by
  have hlt : b.toNat < 256 := b.toNat_lt
  simp only [percentByte, List.mem_cons, List.not_mem_nil, or_false] at h
  rcases h with rfl | rfl | rfl
  · exact .inl rfl
  · exact .inr (isAlphanum_hexDigitUpper _ (by omega))
  · exact .inr (isAlphanum_hexDigitUpper _ (by omega))

/-- An encoded byte is read as the byte. -/
theorem percentDecode_percentByte (b : UInt8) (rest : List Char) :
    percentDecode (percentByte b ++ rest) = b :: percentDecode rest := by
  have hlt : b.toNat < 256 := b.toNat_lt
  have hbyte : UInt8.ofNat (16 * (b.toNat / 16) + b.toNat % 16) = b := by
    rw [Nat.div_add_mod]
    exact UInt8.ofNat_toNat
  show percentDecode ('%' :: _ :: _ :: rest) = _
  rw [percentDecode, hexValue?_hexDigitUpper _ (by omega), hexValue?_hexDigitUpper _ (by omega)]
  dsimp only
  rw [hbyte]

theorem percentDecode_percentBytes (bytes : List UInt8) (rest : List Char) :
    percentDecode (bytes.flatMap percentByte ++ rest) = bytes ++ percentDecode rest := by
  induction bytes with
  | nil => rfl
  | cons b bytes ih =>
    rw [List.flatMap_cons, List.append_assoc, percentDecode_percentByte, ih, List.cons_append]

/-- Any other character than `%` is read as its bytes. -/
theorem percentDecode_cons_of_ne {c : Char} (h : c ≠ '%') (rest : List Char) :
    percentDecode (c :: rest) = String.utf8EncodeChar c ++ percentDecode rest := by
  conv => lhs; unfold percentDecode
  split
  · rename_i heq
    exact absurd (List.cons.inj heq).1 h
  · rename_i heq
    obtain ⟨rfl, rfl⟩ := List.cons.inj heq
    rfl
  · rename_i heq
    exact absurd heq (List.cons_ne_nil _ _)

/-! ## Encoded texts -/

variable {reserved other : Char → Bool} {cs : List Char}

theorem percentEncode_cons (reserved : Char → Bool) (c : Char) (cs : List Char) :
    percentEncode reserved (c :: cs)
      = (if reserved c then (String.utf8EncodeChar c).flatMap percentByte else [c])
        ++ percentEncode reserved cs :=
  List.flatMap_cons

theorem percentEncode_append (reserved : Char → Bool) (as bs : List Char) :
    percentEncode reserved (as ++ bs) = percentEncode reserved as ++ percentEncode reserved bs :=
  List.flatMap_append

theorem mem_percentEncode {c : Char} (h : c ∈ percentEncode reserved cs) :
    reserved c = false ∨ c = '%' ∨ c.isAlphanum = true := by
  obtain ⟨d, -, hc⟩ := List.mem_flatMap.mp h
  split at hc
  · obtain ⟨b, -, hbyte⟩ := List.mem_flatMap.mp hc
    exact .inr (mem_percentByte hbyte)
  · rename_i hplain
    rw [List.mem_singleton.mp hc]
    exact .inl (by simpa using hplain)

/-- Where `%` is encoded, the bytes of the encoded text are those of the text. -/
theorem percentDecode_percentEncode (hpercent : reserved '%' = true) (cs : List Char) :
    percentDecode (percentEncode reserved cs) = utf8Bytes cs := by
  induction cs with
  | nil => rfl
  | cons c cs ih =>
    rw [percentEncode_cons, utf8Bytes_cons, ← ih]
    split
    · exact percentDecode_percentBytes _ _
    · rename_i hplain
      apply percentDecode_cons_of_ne
      rintro rfl
      exact hplain hpercent

/-- What is encoded stays as it is when the text is encoded again, unless the second encoding
touches `%`, letters or digits. -/
theorem percentEncode_percentEncode (hpercent : other '%' = false)
    (halphanum : ∀ c : Char, c.isAlphanum = true → other c = false) (cs : List Char) :
    percentEncode other (percentEncode reserved cs)
      = percentEncode (fun c => reserved c || other c) cs := by
  induction cs with
  | nil => rfl
  | cons c cs ih =>
    rw [percentEncode_cons, percentEncode_append, ih, percentEncode_cons]
    congr 1
    cases hreserved : reserved c with
    | true =>
      rw [if_pos rfl, Bool.true_or, if_pos rfl]
      apply percentEncode_eq_self
      intro d hd
      obtain ⟨b, -, hbyte⟩ := List.mem_flatMap.mp hd
      rcases mem_percentByte hbyte with rfl | hd
      · exact hpercent
      · exact halphanum d hd
    | false =>
      rw [if_neg Bool.false_ne_true, Bool.false_or]
      exact List.append_nil _

/-- An encoded text is not shorter than the text, and longer if something was encoded. -/
theorem length_percentEncode (reserved : Char → Bool) (cs : List Char) :
    cs.length + (cs.filter reserved).length ≤ (percentEncode reserved cs).length := by
  induction cs with
  | nil => exact Nat.le_refl _
  | cons c cs ih =>
    rw [percentEncode_cons, List.length_append, List.length_cons]
    cases hreserved : reserved c with
    | true =>
      have hlong : 2 ≤ ((String.utf8EncodeChar c).flatMap percentByte).length := by
        obtain ⟨b, bytes, hbytes⟩ := List.exists_cons_of_ne_nil (@String.utf8EncodeChar_ne_nil c)
        rw [hbytes, List.flatMap_cons, List.length_append]
        exact Nat.le_trans (by decide : 2 ≤ 3) (Nat.le_add_right _ _)
      rw [List.filter_cons_of_pos hreserved, if_pos rfl, List.length_cons]
      omega
    | false =>
      rw [List.filter_cons_of_neg (by simp [hreserved]), if_neg Bool.false_ne_true,
        List.length_singleton]
      omega

/-- A text is its own encoding exactly if none of its characters is encoded. -/
theorem percentEncode_eq_self_iff :
    percentEncode reserved cs = cs ↔ ∀ c ∈ cs, reserved c = false := by
  refine ⟨fun h => ?_, percentEncode_eq_self⟩
  have hlength := length_percentEncode reserved cs
  rw [h] at hlength
  have hnone : cs.filter reserved = [] := List.length_eq_zero_iff.mp (by omega)
  intro c hc
  simpa using List.filter_eq_nil_iff.mp hnone c hc

theorem percentEncode_eq_nil_iff : percentEncode reserved cs = [] ↔ cs = [] := by
  refine ⟨fun h => ?_, fun h => by rw [h]; rfl⟩
  have hlength := length_percentEncode reserved cs
  rw [h, List.length_nil] at hlength
  exact List.length_eq_zero_iff.mp (by omega)

end Url

end RecordMapping
