import RecordMapping.Value

/-!
# Statements

A statement is a text with question marks and the values that stand for them, in order. It is put
together from pieces: fixed words, quoted names and bound values. Names and values reach the text
only as such pieces.
-/

namespace RecordMapping.Sql

/-- A piece of a statement. -/
inductive Piece where
  | word (text : String)
  | name (identifier : String)
  | param (value : Value)

/-- A name between backticks; a backtick inside is written twice. -/
def quoteIdentifier (identifier : String) : String :=
  "\x60" ++ String.ofList (identifier.toList.flatMap fun c =>
    if c == '\x60' then ['\x60', '\x60'] else [c]) ++ "\x60"

namespace Piece

/-- The text of a piece. -/
def text : Piece → String
  | word text => text
  | name identifier => quoteIdentifier identifier
  | param _ => "?"

/-- The value that a piece binds. -/
def value? : Piece → Option Value
  | param value => some value
  | _ => none

end Piece

/-- A statement for the database. -/
structure Statement where
  sql : String
  params : List Value

namespace Statement

/-- The statement made of the given pieces. -/
def ofPieces (pieces : List Piece) : Statement :=
  ⟨String.join (pieces.map Piece.text), pieces.filterMap Piece.value?⟩

/-- Equality, with values compared as numbers compare. -/
instance : BEq Statement := ⟨fun a b => a.sql == b.sql && a.params == b.params⟩

end Statement

end RecordMapping.Sql
