import RecordMapping.Connection
import RecordMapping.Proofs.Number.Integers
import RecordMapping.Proofs.Result
import RecordMapping.Proofs.Url.Encoding

/-!
# URLs and their parts

A URL that leads to a database consists of the name and the password of a user, a host, a port and
the name of the database. Where no part has a character that would end it, each part is found again.

* `Url.RegisteredName`: the hosts that are names;
* `Url.Parts`: the parts of a URL, as they are written;
* `Url.Parts.read_text`: a URL is read as its parts;
* `ConnectionSettings.ofUrl_text`: the settings that are read from the parts.
-/

namespace RecordMapping

open Text

namespace Url

/-! ## Characters -/

/-- The characters that mean the same in every part of a URL, encoded or not. -/
def isUnreserved (c : Char) : Bool := c.isAlphanum || ['-', '.', '_', '~'].contains c

/-- The characters that may divide a part of a URL, if it has parts of its own. -/
def isSubDelimiter (c : Char) : Bool :=
  ['!', '$', '&', '\x27', '(', ')', '*', '+', ',', ';', '='].contains c

/-- The characters that may stand in every part of a URL as they are. -/
def isPlain (c : Char) : Bool := isUnreserved c || isSubDelimiter c

/-- The characters of the parts of a URL, which are encoded if need be. -/
def isWritten (c : Char) : Bool := isPlain c || ['%', ':', '@'].contains c

/-- A registered name: characters that stand as they are, and encoded bytes. -/
inductive RegisteredName : List Char → Prop
  | nil : RegisteredName []
  | plain {c : Char} {cs : List Char} (hc : isPlain c = true) (h : RegisteredName cs) :
    RegisteredName (c :: cs)
  | encoded {high low : Char} {cs : List Char} (hhigh : (hexValue? high).isSome = true)
    (hlow : (hexValue? low).isSome = true) (h : RegisteredName cs) :
    RegisteredName ('%' :: high :: low :: cs)

theorem isAlphanum_iff (c : Char) : c.isAlphanum = true
    ↔ ((65 ≤ c.toNat ∧ c.toNat ≤ 90) ∨ (97 ≤ c.toNat ∧ c.toNat ≤ 122))
      ∨ (48 ≤ c.toNat ∧ c.toNat ≤ 57) := by
  simp only [Char.isAlphanum, Char.isAlpha, Char.isUpper, Char.isLower, Char.isDigit,
    Bool.or_eq_true, Bool.and_eq_true, decide_eq_true_eq, UInt32.le_iff_toNat_le, ge_iff_le]
  exact Iff.rfl

theorem isPlain_of_isAlphanum {c : Char} (h : c.isAlphanum = true) : isPlain c = true := by
  rw [isPlain, isUnreserved, h]
  rfl

theorem isAlphanum_of_hexValue? {c : Char} (h : (hexValue? c).isSome = true) :
    c.isAlphanum = true := by
  rw [isAlphanum_iff]
  unfold hexValue? at h
  simp only [Calendar.isDigit_iff, Char.le_def, UInt32.le_iff_toNat_le, Bool.and_eq_true,
    decide_eq_true_eq] at h
  split at h
  · omega
  · split at h
    · rename_i hletter
      have hletter : 97 ≤ c.toNat ∧ c.toNat ≤ 102 := hletter
      omega
    · split at h
      · rename_i hletter
        have hletter : 65 ≤ c.toNat ∧ c.toNat ≤ 70 := hletter
        omega
      · exact absurd h Bool.false_ne_true

/-- What is written can be seen. -/
theorem lt_toNat_of_isWritten {c : Char} (h : isWritten c = true) :
    0x20 < c.toNat ∧ c.toNat < 0x7F := by
  unfold isWritten isPlain isUnreserved isSubDelimiter at h
  simp only [Bool.or_eq_true, isAlphanum_iff, List.contains_iff_mem] at h
  have hmark {marks : List Char}
      (hall : marks.all (fun d => 0x20 < d.toNat && d.toNat < 0x7F) = true) (hc : c ∈ marks) :
      0x20 < c.toNat ∧ c.toNat < 0x7F := by
    simpa using List.all_eq_true.mp hall c hc
  rcases h with ((halphanum | hc) | hc) | hc
  · omega
  · exact hmark rfl hc
  · exact hmark rfl hc
  · exact hmark rfl hc

theorem isWritten_of_isPlain {c : Char} (h : isPlain c = true) : isWritten c = true := by
  rw [isWritten, h]
  rfl

/-- A character is another one than those of which something else holds. -/
theorem ne_of_true_of_false {p : Char → Bool} {c d : Char} (hc : p c = true) (hd : p d = false) :
    c ≠ d := by
  rintro rfl
  exact Bool.false_ne_true (hd.symm.trans hc)

/-- The part of a text before the first character with which something ends, and the rest. -/
theorem span_append_cons {p : Char → Bool} {cs rest : List Char} {c : Char}
    (hcs : ∀ d ∈ cs, p d = true) (hc : p c = false) :
    (cs ++ c :: rest).takeWhile p = cs ∧ (cs ++ c :: rest).dropWhile p = c :: rest := by
  have hend : ¬ p c = true := by simp [hc]
  rw [List.takeWhile_append_of_pos hcs, List.dropWhile_append_of_pos hcs,
    List.takeWhile_cons_of_neg hend, List.dropWhile_cons_of_neg hend, List.append_nil]
  exact ⟨rfl, rfl⟩

/-! ## Steps of reading -/

/-- A text that can be seen is significant to its end. -/
theorem significant_eq_self {cs : List Char} (h : ∀ c ∈ cs, isWritten c = true ∨ c = '/') :
    significant cs = cs := by
  have hseen : ∀ c ∈ cs, 0x20 < c.toNat := by
    intro c hc
    rcases h c hc with hwritten | rfl
    · exact (lt_toNat_of_isWritten hwritten).1
    · decide
  have hskipped : cs.filter (fun c => !isSkipped c) = cs := by
    refine List.filter_eq_self.mpr fun c hc => ?_
    have hc := hseen c hc
    have hne {d : Char} (hd : d.toNat ≤ 0x20) : c ≠ d := by
      rintro rfl
      omega
    rw [Bool.not_eq_true', isSkipped, Bool.or_eq_false_iff, Bool.or_eq_false_iff]
    simp only [beq_eq_false_iff_ne]
    exact ⟨⟨hne (by decide), hne (by decide)⟩, hne (by decide)⟩
  unfold significant
  rw [hskipped]
  cases hreverse : cs.reverse with
  | nil => rw [List.reverse_eq_nil_iff.mp hreverse]; rfl
  | cons c rest =>
    have hc := hseen c (List.mem_reverse.mp (hreverse ▸ List.mem_cons_self))
    rw [List.dropWhile_cons_of_neg (by simpa using hc), ← hreverse, List.reverse_reverse]

theorem splitLast?_append_cons {separator : Char} {before after : List Char}
    (h : ∀ c ∈ after, c ≠ separator) :
    splitLast? separator (before ++ separator :: after) = some (before, after) := by
  have hspan := @span_append_cons (· != separator) after.reverse before.reverse separator
    (fun c hc => bne_iff_ne.mpr (h c (List.mem_reverse.mp hc))) (bne_self_eq_false _)
  unfold splitLast?
  rw [List.reverse_append, List.reverse_cons, List.append_assoc, List.singleton_append, hspan.1,
    hspan.2]
  dsimp only
  rw [List.reverse_reverse, List.reverse_reverse]

theorem spanHost_append_cons {host : List Char} (h : ∀ c ∈ host, c ≠ ':' ∧ c ≠ '[')
    (rest : List Char) : spanHost false (host ++ ':' :: rest) = (host, ':' :: rest) := by
  induction host with
  | nil => rfl
  | cons c host ih =>
    obtain ⟨hcolon, hbracket⟩ := h c List.mem_cons_self
    have hrest := ih fun d hd => h d (List.mem_cons_of_mem c hd)
    have hinside : ((c == '[') || (false && c != ']')) = false := by simpa using hbracket
    rw [List.cons_append, spanHost, if_neg (by simp [hcolon]), hinside, hrest]

/-- The first colon ends the name of a user, and an empty password is none. -/
theorem readUser_append_cons {user : List Char} (h : ∀ c ∈ user, c ≠ ':') (password : List Char) :
    readUser (user ++ ':' :: password)
      = (String.ofList (percentEncode isReservedInUser user),
        if password = [] then none
        else some (String.ofList (percentEncode isReservedInUser password))) := by
  have hspan := @span_append_cons (· != ':') user password ':'
    (fun c hc => bne_iff_ne.mpr (h c hc)) rfl
  unfold readUser
  rw [hspan.1, hspan.2]
  cases password with
  | nil => rfl
  | cons c password => rfl

theorem readPort_toString {port : Nat} (h : port ≤ 65535) :
    readPort (toString port).toList = .ok (some port) := by
  have hdigits : (Nat.toDigits 10 port).all isDigit = true :=
    List.all_eq_true.mpr fun c hc => Number.isDigit_of_mem hc
  have hvalue : ofDigits (Nat.toDigits 10 port) = port := Nat.ofDigitChars_ten_toDigits
  unfold readPort
  rw [Number.toList_toString, List.isEmpty_eq_false_iff.mpr Nat.toDigits_ne_nil, hdigits, hvalue,
    decide_eq_true h]
  rfl

/-- The characters of a registered name stand for themselves, or begin an encoded byte. -/
theorem RegisteredName.mem {host : List Char} (h : RegisteredName host) {c : Char} (hc : c ∈ host) :
    isPlain c = true ∨ c = '%' := by
  have hhex {c : Char} (h : (hexValue? c).isSome = true) : isPlain c = true :=
    isPlain_of_isAlphanum (isAlphanum_of_hexValue? h)
  induction h with
  | nil => exact absurd hc List.not_mem_nil
  | plain hplain _ ih =>
    rcases List.mem_cons.mp hc with rfl | hc
    · exact .inl hplain
    · exact ih hc
  | encoded hhigh hlow _ ih =>
    rcases List.mem_cons.mp hc with rfl | hc
    · exact .inr rfl
    rcases List.mem_cons.mp hc with rfl | hc
    · exact .inl (hhex hhigh)
    rcases List.mem_cons.mp hc with rfl | hc
    · exact .inl (hhex hlow)
    · exact ih hc

/-- A registered name is read as it is written. -/
theorem readHost_of_registeredName {host : List Char} (h : RegisteredName host) :
    readHost host = .ok (String.ofList host) := by
  have hforbidden :
      ("\x00\t\n\r #/:<>?@[\\]^|".toList.all fun d => !isPlain d && d != '%') = true := by
    decide +kernel
  have hallowed : ∀ c ∈ host, isForbiddenInHost c = false := by
    intro c hc
    by_contra hforbid
    have hmem := List.contains_iff_mem.mp (Bool.of_not_eq_false hforbid)
    have hmark := List.all_eq_true.mp hforbidden c hmem
    rcases h.mem hc with hplain | rfl
    · simp [hplain] at hmark
    · exact absurd hmark (by decide)
  have hcontrol : percentEncode isControl host = host := by
    apply percentEncode_eq_self
    intro c hc
    have hwritten : isWritten c = true := by
      rcases h.mem hc with hplain | rfl
      · exact isWritten_of_isPlain hplain
      · rfl
    obtain ⟨hlow, hhigh⟩ := lt_toNat_of_isWritten hwritten
    simp [isControl]
    omega
  unfold readHost
  split
  · exact absurd (hallowed '[' List.mem_cons_self) (by decide)
  · rw [hcontrol, if_neg (by simpa using hallowed)]

/-- Nothing that is written is encoded in a path. -/
theorem isReservedInPath_of_isWritten {c : Char} (h : isWritten c = true) :
    isReservedInPath c = false := by
  have hmarks : (" \"#<>?\x60\x7b\x7d".toList.all fun d => !isWritten d) = true := by
    decide +kernel
  obtain ⟨hlow, hhigh⟩ := lt_toNat_of_isWritten h
  by_contra hreserved
  rw [Bool.not_eq_false, isReservedInPath, isControl] at hreserved
  simp only [Bool.or_eq_true, decide_eq_true_eq, List.contains_iff_mem] at hreserved
  rcases hreserved with hcontrol | hmem
  · omega
  · simpa [h] using List.all_eq_true.mp hmarks c hmem

/-- A path of one segment that is no dots is read as it is written. -/
theorem readPath_of_written {segment : List Char} (h : ∀ c ∈ segment, isWritten c = true)
    (hsingle : isSingleDot segment = false) (hdouble : isDoubleDot segment = false) :
    readPath ('/' :: segment) = String.ofList ('/' :: segment) := by
  have hencoded : percentEncode isReservedInPath segment = segment :=
    percentEncode_eq_self fun c hc => isReservedInPath_of_isWritten (h c hc)
  have hsplit : ∀ cs : List Char, (∀ c ∈ cs, isWritten c = true) → splitChars '/' cs = [cs] := by
    intro cs hcs
    induction cs with
    | nil => rfl
    | cons c cs ih =>
      obtain ⟨hc, hcs⟩ := List.forall_mem_cons.mp hcs
      have hslash : ¬ (c == '/') = true := by simpa using ne_of_true_of_false hc rfl
      rw [splitChars, if_neg hslash, ih hcs]
  unfold readPath
  dsimp only
  rw [if_pos BEq.rfl, hencoded, hsplit segment h, resolveSegments]
  dsimp only
  rw [hsingle, hdouble]
  simp [resolveSegments]

/-! ## Reading a whole URL -/

/-- The parts of a connection as they are written in a URL. -/
structure Parts where
  user : List Char
  password : List Char
  host : List Char
  port : Nat
  database : List Char
  user_plain : ∀ c ∈ user, isPlain c = true ∨ c = '%'
  password_plain : ∀ c ∈ password, isPlain c = true ∨ c = '%' ∨ c = ':'
  host_named : RegisteredName host
  port_le : port ≤ 65535
  database_written : ∀ c ∈ database, isWritten c = true
  database_single : isSingleDot database = false
  database_double : isDoubleDot database = false

namespace Parts

/-- The host and the port. -/
def place (p : Parts) : List Char := p.host ++ ':' :: (toString p.port).toList

/-- What stands between the two slashes and the path. -/
def authority (p : Parts) : List Char := (p.user ++ ':' :: p.password) ++ '@' :: p.place

/-- What stands behind the two slashes. -/
def text (p : Parts) : List Char := p.authority ++ '/' :: p.database

variable (p : Parts)

theorem isWritten_of_mem_place {c : Char} (hc : c ∈ p.place) : isWritten c = true ∧ c ≠ '@' := by
  have hplain {c : Char} (h : isPlain c = true) : isWritten c = true ∧ c ≠ '@' :=
    ⟨isWritten_of_isPlain h, ne_of_true_of_false h rfl⟩
  rcases List.mem_append.mp hc with hc | hc
  · rcases p.host_named.mem hc with h | rfl
    · exact hplain h
    · decide
  · rcases List.mem_cons.mp hc with rfl | hc
    · decide
    · rw [Number.toList_toString] at hc
      exact hplain (isPlain_of_isAlphanum (by
        have hdigit := Number.isDigit_of_mem hc
        rw [Calendar.isDigit_iff] at hdigit
        rw [isAlphanum_iff]
        omega))

theorem isWritten_of_mem_authority {c : Char} (hc : c ∈ p.authority) : isWritten c = true := by
  rcases List.mem_append.mp hc with hc | hc
  · rcases List.mem_append.mp hc with hc | hc
    · rcases p.user_plain c hc with h | rfl
      · exact isWritten_of_isPlain h
      · rfl
    · rcases List.mem_cons.mp hc with rfl | hc
      · rfl
      · rcases p.password_plain c hc with h | rfl | rfl
        · exact isWritten_of_isPlain h
        · rfl
        · rfl
  · rcases List.mem_cons.mp hc with rfl | hc
    · rfl
    · exact (p.isWritten_of_mem_place hc).1

theorem significant_text : significant p.text = p.text := by
  apply significant_eq_self
  intro c hc
  rcases List.mem_append.mp hc with hc | hc
  · exact .inl (p.isWritten_of_mem_authority hc)
  · rcases List.mem_cons.mp hc with rfl | hc
    · exact .inr rfl
    · exact .inl (p.database_written c hc)

/-- The authority ends at the slash. -/
theorem span_text : p.text.takeWhile (fun c => !endsAuthority c) = p.authority
    ∧ p.text.dropWhile (fun c => !endsAuthority c) = '/' :: p.database := by
  refine span_append_cons (fun c hc => ?_) rfl
  have hne {d : Char} (hd : isWritten d = false) : c ≠ d :=
    ne_of_true_of_false (p.isWritten_of_mem_authority hc) hd
  simp [endsAuthority, hne (show isWritten '/' = false from rfl),
    hne (show isWritten '?' = false from rfl), hne (show isWritten '#' = false from rfl)]

theorem splitLast?_authority :
    splitLast? '@' p.authority = some (p.user ++ ':' :: p.password, p.place) :=
  splitLast?_append_cons fun _ hc => (p.isWritten_of_mem_place hc).2

theorem spanHost_place :
    spanHost false p.place = (p.host, ':' :: (toString p.port).toList) := by
  refine spanHost_append_cons (fun c hc => ?_) _
  rcases p.host_named.mem hc with h | rfl
  · exact ⟨ne_of_true_of_false h rfl, ne_of_true_of_false h rfl⟩
  · decide

theorem readUser_user : readUser (p.user ++ ':' :: p.password)
    = (String.ofList (percentEncode isReservedInUser p.user),
      if p.password = [] then none
      else some (String.ofList (percentEncode isReservedInUser p.password))) := by
  refine readUser_append_cons (fun c hc => ?_) _
  rcases p.user_plain c hc with h | rfl
  · exact ne_of_true_of_false h rfl
  · decide

/-- A URL with these parts is read as them. The name and the password of the user are encoded where
they are not. -/
theorem read_text (hhost : p.host ≠ []) : Url.read p.text = .ok {
    username := String.ofList (percentEncode isReservedInUser p.user)
    password? := if p.password = [] then none
      else some (String.ofList (percentEncode isReservedInUser p.password))
    host := String.ofList p.host
    port? := some p.port
    path := String.ofList ('/' :: p.database)
    query := [] } := by
  have hempty : (String.ofList p.host == "") = false := by
    rw [beq_eq_false_iff_ne]
    exact fun h => hhost (by simpa using h)
  have huser : (some (p.user ++ ':' :: p.password, p.place) == some ([], [])) = false := by
    simp
  -- no backslash ends the digits of the port, and neither query nor fragment follows the path
  have hport : (toString p.port).toList.takeWhile (fun c => c != '\\') = (toString p.port).toList
      ∧ (toString p.port).toList.dropWhile (fun c => c != '\\') = [] := by
    rw [List.takeWhile_eq_self_iff, List.dropWhile_eq_nil_iff, Number.toList_toString, and_self]
    exact fun c hc => bne_iff_ne.mpr (ne_of_true_of_false (Number.isDigit_of_mem hc) rfl)
  have hpath : ('/' :: p.database).takeWhile (fun c => c != '?' && c != '#') = '/' :: p.database
      ∧ ('/' :: p.database).dropWhile (fun c => c != '?' && c != '#') = [] := by
    rw [List.takeWhile_eq_self_iff, List.dropWhile_eq_nil_iff, and_self]
    intro c hc
    rcases List.mem_cons.mp hc with rfl | hc
    · rfl
    · have hwritten := p.database_written c hc
      rw [Bool.and_eq_true, bne_iff_ne, bne_iff_ne]
      exact ⟨ne_of_true_of_false hwritten rfl, ne_of_true_of_false hwritten rfl⟩
  unfold Url.read
  simp only [p.significant_text, p.span_text, p.splitLast?_authority, p.spanHost_place,
    p.readUser_user, readHost_of_registeredName p.host_named, Option.map_some, Option.getD_some,
    List.drop_succ_cons, List.drop_zero, huser, hport, hpath, List.nil_append,
    readPort_toString p.port_le, Bool.false_and, Bool.false_eq_true, if_false,
    readPath_of_written p.database_written p.database_single p.database_double]
  refine bind_eq_ok.mpr ⟨_, rfl, ?_⟩
  simp only [hempty, Bool.false_and, Bool.false_eq_true, if_false]
  rfl

/-- Without a host they are not read. -/
theorem read_text_of_nil (hhost : p.host = []) : Url.read p.text = .error .emptyHost := by
  have huser : (some (p.user ++ ':' :: p.password, p.place) == some ([], [])) = false := by
    simp
  unfold Url.read
  simp only [p.significant_text, p.span_text, p.splitLast?_authority, p.spanHost_place,
    Option.map_some, Option.getD_some, huser, Bool.false_and, Bool.false_eq_true, if_false, hhost]
  rfl

end Parts

end Url

/-! ## Settings from a URL -/

open Url

namespace ConnectionSettings

theorem afterScheme_append {scheme : String} (h : scheme ∈ schemes) (rest : List Char) :
    afterScheme (scheme ++ String.ofList rest) = .ok rest := by
  unfold afterScheme
  rw [String.toList_append, String.toList_ofList]
  rcases List.mem_cons.mp h with rfl | h
  · rfl
  · rw [List.mem_singleton.mp h]
    rfl

/-- What is read from the parts of a URL: the name and the password of the user are encoded where
they are not, and all else is as it is written. -/
def ofParts (p : Parts) : ConnectionSettings where
  host := String.ofList p.host
  port := p.port
  database := String.ofList p.database
  username? := some (String.ofList (percentEncode isReservedInUser p.user))
  password? := if p.password = [] then none
    else some (String.ofList (percentEncode isReservedInUser p.password))
  parameters := []

theorem ofUrl_text {scheme : String} (hscheme : scheme ∈ schemes) {p : Parts} (hhost : p.host ≠ [])
    (huser : p.user ≠ []) (hdatabase : p.database ≠ []) :
    ofUrl (scheme ++ String.ofList p.text) = .ok (ofParts p) := by
  have hne {cs : List Char} (h : cs ≠ []) : (String.ofList cs == "") = false := by
    rw [beq_eq_false_iff_ne]
    exact fun heq => h (by simpa using heq)
  -- only the slash in front of the database is taken away from the path
  have hpath : ('/' :: p.database).dropWhile (· == '/') = p.database := by
    refine (List.dropWhile_cons_of_pos rfl).trans ?_
    cases hcs : p.database with
    | nil => exact absurd hcs hdatabase
    | cons c cs =>
      have hc := p.database_written c (hcs ▸ List.mem_cons_self)
      exact List.dropWhile_cons_of_neg (by simpa using ne_of_true_of_false hc rfl)
  have hread : (Url.read p.text).mapError (fun fault => Error.connection (.invalidUrl fault))
      = .ok _ := congrArg (Except.mapError _) (p.read_text hhost)
  unfold ofUrl
  rw [afterScheme_append hscheme]
  refine bind_eq_ok.mpr ⟨_, rfl, bind_eq_ok.mpr ⟨_, hread, ?_⟩⟩
  have huserText : (String.ofList (percentEncode isReservedInUser p.user) == "") = false :=
    hne fun h => huser (percentEncode_eq_nil_iff.mp h)
  simp only [String.toList_ofList, hpath, hne hhost, hne hdatabase, huserText, Bool.false_eq_true,
    if_false]
  rfl

/-- Without a host there are no settings. -/
theorem ofUrl_text_of_nil {scheme : String} (hscheme : scheme ∈ schemes) {p : Parts}
    (hhost : p.host = []) :
    ofUrl (scheme ++ String.ofList p.text) = .error (.connection (.invalidUrl .emptyHost)) := by
  unfold ofUrl
  rw [afterScheme_append hscheme]
  show (do let url ← (Url.read p.text).mapError _; _ : Result ConnectionSettings) = _
  rw [p.read_text_of_nil hhost]
  rfl

end ConnectionSettings

end RecordMapping
