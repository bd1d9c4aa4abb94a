import RecordMapping.Fields
import RecordMapping.Url.Host

/-!
# URLs

Reading what follows the scheme and the two slashes of a URL, for schemes without rules of their
own. The parts stay percent-encoded; only the parameters of the query are decoded.
-/

namespace RecordMapping

open Text

/-- A URL with an authority. -/
structure Url where
  username : String
  password? : Option String
  host : String
  port? : Option Nat
  path : String
  query : List Char

namespace Url

/-! ## Authorities -/

/-- Ends an authority. -/
def endsAuthority (c : Char) : Bool := c == '/' || c == '?' || c == '#'

/-- The parts before and after the last occurrence of a character. -/
def splitLast? (separator : Char) (cs : List Char) : Option (List Char × List Char) :=
  match cs.reverse.dropWhile (· != separator) with
  | _ :: before => some (before.reverse, (cs.reverse.takeWhile (· != separator)).reverse)
  | [] => none

/-- The name and the password of a user. The first colon divides them; an empty password is none. -/
def readUser (cs : List Char) : String × Option String :=
  let encode cs := String.ofList (percentEncode isReservedInUser cs)
  match cs.dropWhile (· != ':') with
  | _ :: c :: password => (encode (cs.takeWhile (· != ':')), some (encode (c :: password)))
  | _ => (encode (cs.takeWhile (· != ':')), none)

/-- A port: digits up to 65535, or nothing at all. -/
def readPort (cs : List Char) : Except Fault (Option Nat) :=
  if cs.isEmpty then .ok none
  else if cs.all isDigit && ofDigits cs ≤ 65535 then .ok (some (ofDigits cs))
  else .error .invalidPort

/-! ## Paths -/

/-- A segment that stands for the directory itself. -/
def isSingleDot (segment : List Char) : Bool :=
  [".", "%2e", "%2E"].any fun dot => dot.toList == segment

/-- A segment that stands for the directory above. -/
def isDoubleDot (segment : List Char) : Bool :=
  ["..", ".%2e", ".%2E", "%2e.", "%2E.", "%2e%2e", "%2e%2E", "%2E%2e", "%2E%2E"].any fun dots =>
    dots.toList == segment

/-- A letter with a colon or bar after it names a drive, which stays in a path together with what a
backslash joins to it. -/
def isDrive : List Char → Bool
  | letter :: mark :: rest =>
    letter.isAlpha && (mark == ':' || mark == '|') && (rest.isEmpty || rest.head? == some '\\')
  | _ => false

/-- The directory above the one that the segments lead to, the last segment first. -/
def parentSegments : List (List Char) → List (List Char)
  | [] => []
  | segment :: above => if isDrive segment then segment :: above else above

/-- Follows the segments of a path from the directory that the first argument leads to, the last
segment first. A path that ends in dots ends in a slash. -/
def resolveSegments (above : List (List Char)) : List (List Char) → List (List Char)
  | [] => above.reverse
  | segment :: rest =>
    let close (above : List (List Char)) := if rest.isEmpty then [] :: above else above
    if isDoubleDot segment then resolveSegments (close (parentSegments above)) rest
    else if isSingleDot segment then resolveSegments (close above) rest
    else resolveSegments (segment :: above) rest

/-- The path that a text denotes: each segment encoded, and dots followed. -/
def readPath (cs : List Char) : String :=
  match cs with
  | [] => ""
  | c :: rest =>
    let text := percentEncode isReservedInPath (if c == '/' then rest else c :: rest)
    let segments := resolveSegments [] (splitChars '/' text)
    String.ofList (segments.flatMap ('/' :: ·))

/-! ## URLs -/

/-- Whether no text of a URL has the character: tabs and line ends are left out. -/
def isSkipped (c : Char) : Bool := c == '\t' || c == '\n' || c == '\r'

/-- The characters of a URL that count: no tabs and line ends, and no blanks or controls at
its end. -/
def significant (cs : List Char) : List Char :=
  ((cs.filter fun c => !isSkipped c).reverse.dropWhile fun c => c.toNat ≤ 0x20).reverse

/-- Reads what follows the two slashes. The last `@` before the path ends the user, so that the host
is what stands between it and the path. A backslash after a port begins the path. -/
def read (text : List Char) : Except Fault Url := do
  let cs := significant text
  let authority := cs.takeWhile fun c => !endsAuthority c
  let rest := cs.dropWhile fun c => !endsAuthority c
  let user? := splitLast? '@' authority
  let user := (user?.map Prod.fst).getD []
  let (hostText, portText) := spanHost false ((user?.map Prod.snd).getD authority)
  if user? == some ([], []) && !rest.isEmpty then throw .emptyHost
  let (username, password?) := readUser user
  let host ← readHost hostText
  if host == "" && !portText.isEmpty then throw .emptyHost
  let inPort c := c != '\\'
  let port? ← readPort ((portText.drop 1).takeWhile inPort)
  if host == "" && (username != "" || password?.isSome) then throw .emptyHost
  let tail := (portText.drop 1).dropWhile inPort ++ rest
  let path := readPath (tail.takeWhile fun c => c != '?' && c != '#')
  let afterPath := tail.dropWhile fun c => c != '?' && c != '#'
  let query :=
    match afterPath with
    | '?' :: query => query.takeWhile (· != '#')
    | _ => []
  return { username, password?, host, port?, path, query }

/-- A parameter of a query: a name, and after the first `=` its value. -/
def readParameter (cs : List Char) : String × String :=
  let decode cs := String.ofList (formDecode cs)
  (decode (cs.takeWhile (· != '=')), decode ((cs.dropWhile (· != '=')).drop 1))

/-- The parameters of the query, decoded. The last parameter of a name counts; empty pairs
do not. -/
def parameters (url : Url) : Fields String :=
  Fields.ofList (((splitChars '&' url.query).filter (!·.isEmpty)).map readParameter)

end Url

end RecordMapping
