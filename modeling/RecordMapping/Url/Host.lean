import RecordMapping.Url.Percent
import RecordMapping.Text.Split

/-!
# Hosts

The host of a URL is a name, kept as it is written, or an address of version 6 in brackets, brought
into its shortest form.
-/

namespace RecordMapping.Url

open Text

/-- Why a text is not a URL. -/
inductive Fault where
  | emptyHost
  | invalidPort
  | invalidAddress
  | invalidHostCharacter
deriving DecidableEq

/-- The message of a fault. -/
def Fault.message : Fault → String
  | emptyHost => "empty host"
  | invalidPort => "invalid port number"
  | invalidAddress => "invalid IPv6 address"
  | invalidHostCharacter => "invalid domain character"

/-! ## Addresses of version 6 -/

/-- The parts before and after the first two colons in a row. -/
def splitDoubleColon? : List Char → Option (List Char × List Char)
  | [] => none
  | c :: cs =>
    match c, cs with
    | ':', ':' :: rest => some ([], rest)
    | _, _ => (splitDoubleColon? cs).map fun parts => (c :: parts.1, parts.2)

/-- A piece of an address: one to four hexadecimal digits. -/
def readPiece? (cs : List Char) : Option Nat := do
  guard (!cs.isEmpty && cs.length ≤ 4)
  cs.foldlM (fun n c => (hexValue? c).map (16 * n + ·)) 0

/-- A number below 256 without superfluous zeros. -/
def readOctet? (cs : List Char) : Option Nat := do
  guard (!cs.isEmpty && cs.all isDigit && (cs.length == 1 || cs.head? != some '0'))
  let n := ofDigits cs
  guard (n < 256)
  return n

/-- The two pieces of an address of version 4, four numbers divided by points. -/
def readQuad? (cs : List Char) : Option (List Nat) := do
  match (← (splitChars '.' cs).mapM readOctet?) with
  | [a, b, c, d] => return [256 * a + b, 256 * c + d]
  | _ => none

/-- The pieces of a part of an address, divided by colons; the last may be an address of
version 4. -/
def readPieces? (cs : List Char) : Option (List Nat) :=
  match (splitChars ':' cs).reverse with
  | [] => none
  | last :: before => do
    let pieces ← before.reverse.mapM readPiece?
    let tail ← if last.contains '.' then readQuad? last else (readPiece? last).map fun n => [n]
    return pieces ++ tail

/-- The eight pieces of an address. Two colons in a row, which may occur once, stand for as many
zeros as are missing, and for one at least. -/
def readAddress? (cs : List Char) : Option (List Nat) :=
  match splitDoubleColon? cs with
  | none => do
    let pieces ← readPieces? cs
    guard (pieces.length == 8)
    return pieces
  | some (before, after) => do
    let front ← if before.isEmpty then some [] else (splitChars ':' before).mapM readPiece?
    let back ← if after.isEmpty then some [] else readPieces? after
    guard (front.length + back.length < 8)
    return front ++ List.replicate (8 - front.length - back.length) 0 ++ back

/-- The first of the longest runs of at least two zeros: where it starts and how long it is. -/
def longestZeros? (pieces : List Nat) : Option (Nat × Nat) :=
  let runs := (List.range pieces.length).map fun start =>
    (start, ((pieces.drop start).takeWhile (· == 0)).length)
  let (start, length) := runs.foldl (fun best run => if best.2 < run.2 then run else best) (0, 1)
  if 2 ≤ length then some (start, length) else none

/-- Pieces in hexadecimal digits, divided by colons. -/
def piecesText (pieces : List Nat) : String :=
  String.intercalate ":" (pieces.map fun n => String.ofList (Nat.toDigits 16 n))

/-- The shortest form of an address: its longest run of zeros becomes two colons. -/
def addressText (pieces : List Nat) : String :=
  match longestZeros? pieces with
  | some (start, length) =>
    piecesText (pieces.take start) ++ "::" ++ piecesText (pieces.drop (start + length))
  | none => piecesText pieces

/-! ## Hosts -/

/-- A character that no host may have. -/
def isForbiddenInHost (c : Char) : Bool := "\x00\t\n\r #/:<>?@[\\]^|".toList.contains c

/-- The part of a text up to the colon before a port, and the rest. Colons between brackets belong
to an address. -/
def spanHost (bracketed : Bool) : List Char → List Char × List Char
  | [] => ([], [])
  | c :: cs =>
    if c == ':' && !bracketed then ([], c :: cs)
    else
      let parts := spanHost (c == '[' || (bracketed && c != ']')) cs
      (c :: parts.1, parts.2)

/-- The host that a text denotes: an address in brackets, or a name. -/
def readHost (cs : List Char) : Except Fault String :=
  match cs with
  | '[' :: rest =>
    if rest.getLast? == some ']' then
      match readAddress? rest.dropLast with
      | some pieces => .ok ("[" ++ addressText pieces ++ "]")
      | none => .error .invalidAddress
    else .error .invalidAddress
  | _ =>
    if cs.any isForbiddenInHost then .error .invalidHostCharacter
    else .ok (String.ofList (percentEncode isControl cs))

end RecordMapping.Url
