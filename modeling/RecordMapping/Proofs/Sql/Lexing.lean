import Mathlib.Data.List.Chain
import Mathlib.Data.Option.Basic
import RecordMapping.Sql.Statement

/-!
# Reading a statement back

The lexer of the database tells quoted names from the text around them. It knows nothing of how a
statement was made: a backtick opens a name, a doubled one inside it is one backtick, and a single
one closes it.

* `Lexeme.scan` is that lexer, with `scan_quoteIdentifier` for a single name;
* `Separated` is what keeps pieces apart: fixed words without backticks and question marks, and no
  two names side by side;
* `Separated.scan_text`: from separated pieces the lexer reads back piece by piece what was written.
-/

namespace RecordMapping.Sql

/-! ## The lexer -/

/-- What the lexer sees in a text: a quoted name, a question mark outside of names, or any other
character outside of names. -/
inductive Lexeme where
  | name (identifier : String)
  | mark
  | char (c : Char)
deriving DecidableEq, Repr

namespace Lexeme

/-- The lexemes of a text. `open?` holds the characters read so far of a name that is not closed
yet; a text that ends in such a name has no lexemes. -/
def scanFrom : Option (List Char) → List Char → Option (List Lexeme)
  | none, [] => some []
  | none, '\x60' :: rest => scanFrom (some []) rest
  | none, '?' :: rest => (scanFrom none rest).map (mark :: ·)
  | none, c :: rest => (scanFrom none rest).map (char c :: ·)
  | some _, [] => none
  | some body, '\x60' :: '\x60' :: rest => scanFrom (some (body ++ ['\x60'])) rest
  | some body, '\x60' :: rest => (scanFrom none rest).map (name (String.ofList body) :: ·)
  | some body, c :: rest => scanFrom (some (body ++ [c])) rest

/-- The lexemes of a text, unless it ends inside a name. -/
def scan (text : String) : Option (List Lexeme) := scanFrom none text.toList

/-- The name that a lexeme is. -/
def name? : Lexeme → Option String
  | name identifier => some identifier
  | _ => none

/-- Whether a lexeme is a name or a question mark. -/
def isSlot : Lexeme → Bool
  | char _ => false
  | _ => true

end Lexeme

open Lexeme

/-- The text does not go on with a backtick, which would be taken for a part of the name before. -/
def EndsName (rest : List Char) : Prop := rest.head? ≠ some '\x60'

/-- A backtick that no other one follows closes a name. -/
theorem scanFrom_close (body rest : List Char) (hrest : EndsName rest) :
    scanFrom (some body) ('\x60' :: rest)
      = (scanFrom none rest).map (.name (String.ofList body) :: ·) := by
  cases rest with
  | nil => rfl
  | cons d tail =>
    have hd : d ≠ '\x60' := fun h => hrest (by rw [h]; rfl)
    rw [scanFrom.eq_7]
    intro tail' h
    exact hd (List.cons.inj h).1

/-- Any other character of a name is read as it is. -/
theorem scanFrom_inside (body rest : List Char) {c : Char} (hc : c ≠ '\x60') :
    scanFrom (some body) (c :: rest) = scanFrom (some (body ++ [c])) rest := by
  rw [scanFrom.eq_8]
  · intro _ h _
    exact hc h
  · exact hc

/-- Reading on inside a name: the rest of its characters, quoted, and the closing backtick. -/
theorem scanFrom_quoted (body cs rest : List Char) (hrest : EndsName rest) :
    scanFrom (some body)
        ((cs.flatMap fun c => if c == '\x60' then ['\x60', '\x60'] else [c]) ++ '\x60' :: rest)
      = (scanFrom none rest).map (.name (String.ofList (body ++ cs)) :: ·) := by
  induction cs generalizing body with
  | nil =>
    rw [List.flatMap_nil, List.nil_append, List.append_nil]
    exact scanFrom_close body rest hrest
  | cons c cs ih =>
    rw [List.flatMap_cons, List.append_cons body c cs, ← ih]
    -- a backtick was doubled, and both are read as one
    by_cases hc : c = '\x60'
    · subst hc
      rfl
    · rw [if_neg (by simpa using hc), List.singleton_append, List.cons_append]
      exact scanFrom_inside body _ hc

/-- A quoted name is read back, whatever characters it consists of. -/
theorem scan_quoteIdentifier (identifier : String) (rest : List Char) (hrest : EndsName rest) :
    scanFrom none ((quoteIdentifier identifier).toList ++ rest)
      = (scanFrom none rest).map (.name identifier :: ·) := by
  have htext : (quoteIdentifier identifier).toList ++ rest
      = '\x60' :: ((identifier.toList.flatMap fun c =>
          if c == '\x60' then ['\x60', '\x60'] else [c]) ++ '\x60' :: rest) := by
    unfold quoteIdentifier
    simp only [String.toList_append, String.toList_ofList, List.append_assoc]
    rfl
  rw [htext, scanFrom, scanFrom_quoted [] _ rest hrest, List.nil_append, String.ofList_toList]

/-- Characters outside of names that are neither backticks nor question marks are read as they
are. -/
theorem scanFrom_plain (cs rest : List Char) (hcs : ∀ c ∈ cs, c ≠ '\x60' ∧ c ≠ '?') :
    scanFrom none (cs ++ rest) = (scanFrom none rest).map (cs.map .char ++ ·) := by
  induction cs with
  | nil => simp
  | cons c cs ih =>
    obtain ⟨hquote, hmark⟩ := hcs c List.mem_cons_self
    rw [List.cons_append, scanFrom.eq_4 _ _ hquote hmark,
      ih fun d hd => hcs d (List.mem_cons_of_mem c hd), Option.map_map]
    rfl

/-! ## Pieces that stay apart -/

namespace Piece

/-- Whether a piece is a name. -/
def isName : Piece → Bool
  | name _ => true
  | _ => false

/-- The lexemes that a piece is written for. -/
def lexemes : Piece → List Lexeme
  | word text => text.toList.map .char
  | name identifier => [.name identifier]
  | param _ => [.mark]

theorem toList_text_param (value : Value) : (param value).text.toList = ['?'] := by
  rw [text]
  rfl

end Piece

open Piece

/-- A fixed word: some characters, none of them a backtick or a question mark. -/
def Plain (text : String) : Prop := text.toList ≠ [] ∧ ∀ c ∈ text.toList, c ≠ '\x60' ∧ c ≠ '?'

instance (text : String) : Decidable (Plain text) :=
  decidable_of_iff ((!text.toList.isEmpty
    && text.toList.all fun c => c != '\x60' && c != '?') = true) (by simp [Plain])

/-- Pieces that the lexer can tell apart: the words are plain, and no name follows a name. -/
structure Separated (pieces : List Piece) : Prop where
  plain : ∀ text, word text ∈ pieces → Plain text
  apart : pieces.IsChain fun p q => p.isName = true → q.isName = false

/-- Whether pieces may stand behind a name. -/
def StartsApart (pieces : List Piece) : Prop := ∀ p ∈ pieces.head?, p.isName = false

namespace Separated

theorem nil : Separated [] := ⟨fun _ h => absurd h List.not_mem_nil, List.isChain_nil⟩

/-- Separated pieces stay separated behind others if they do not begin with a name. -/
theorem append {ps qs : List Piece} (hps : Separated ps) (hqs : Separated qs)
    (hstart : StartsApart qs) : Separated (ps ++ qs) where
  plain text h := (List.mem_append.mp h).elim (hps.plain text) (hqs.plain text)
  apart := List.isChain_append.mpr ⟨hps.apart, hqs.apart, fun _ _ q hq _ => hstart q hq⟩

theorem tail {p : Piece} {ps : List Piece} (h : Separated (p :: ps)) : Separated ps where
  plain text hmem := h.plain text (List.mem_cons_of_mem p hmem)
  apart := h.apart.tail

/-- The text of separated pieces does not go on with a name if they do not begin with one. -/
theorem endsName {ps : List Piece} (h : Separated ps) (hstart : StartsApart ps) :
    EndsName (ps.flatMap fun p => p.text.toList) := by
  cases ps with
  | nil => exact nofun
  | cons p ps =>
    cases p with
    | name identifier => exact Bool.noConfusion (hstart _ rfl)
    | param value =>
      intro hhead
      rw [List.flatMap_cons, toList_text_param] at hhead
      exact absurd (Option.some.inj hhead) (by decide)
    | word text =>
      obtain ⟨hne, hplain⟩ := h.plain text List.mem_cons_self
      obtain ⟨c, cs, hcs⟩ := List.exists_cons_of_ne_nil hne
      intro hhead
      rw [List.flatMap_cons, Piece.text, hcs] at hhead
      exact (hplain c (by rw [hcs]; exact List.mem_cons_self)).1 (Option.some.inj hhead)

/-- The lexer reads separated pieces back one by one. -/
theorem scanFrom_text {ps : List Piece} (h : Separated ps) :
    scanFrom none (ps.flatMap fun p => p.text.toList) = some (ps.flatMap lexemes) := by
  induction ps with
  | nil => rfl
  | cons p ps ih =>
    rw [List.flatMap_cons, List.flatMap_cons]
    cases p with
    | word text =>
      rw [Piece.text, scanFrom_plain _ _ (h.plain text List.mem_cons_self).2, ih h.tail]
      rfl
    | name identifier =>
      -- no name follows, so the closing backtick is not taken for half of a doubled one
      have hstart : StartsApart ps := fun q hq =>
        (List.isChain_cons.mp h.apart).1 q hq rfl
      rw [Piece.text, scan_quoteIdentifier identifier _ (h.tail.endsName hstart), ih h.tail]
      rfl
    | param value =>
      have hmark (rest : List Char) : scanFrom none ('?' :: rest)
          = (scanFrom none rest).map (.mark :: ·) := rfl
      rw [toList_text_param, List.singleton_append, hmark, ih h.tail]
      rfl

/-- The lexer reads a statement back into the pieces that it was made of. -/
theorem scan_text {ps : List Piece} (h : Separated ps) :
    scan (Statement.ofPieces ps).sql = some (ps.flatMap lexemes) := by
  unfold scan Statement.ofPieces
  rw [String.toList_join, List.flatMap_map]
  exact h.scanFrom_text

end Separated

end RecordMapping.Sql
