import RecordMapping.Proofs.Result
import RecordMapping.Proofs.Sql.Lexing
import RecordMapping.Sql.Text

/-!
# What a statement is filled with

Beside its fixed words a statement consists of names and of operands that stand for values. `slots`
tells which ones a tree prescribes, in the order in which a tree is walked: items, tables and joins,
then conditions, grouping and order, and a derived table where it is joined.

The main statement is `scan_statement`: whatever the names and values are, the lexer of the database
finds these very slots in the text, a question mark for every operand, and the values are bound in
the same order.
-/

namespace RecordMapping.Sql

open Piece

/-- What fills a place of a statement: a name, or an operand that stands for a value. -/
inductive Slot where
  | name (identifier : String)
  | operand (v : Value)

namespace Slot

/-- The name in a slot. -/
def name? : Slot → Option String
  | name identifier => some identifier
  | operand _ => none

/-- The value that the operand in a slot stands for. -/
def value? : Slot → Option Value
  | name _ => none
  | operand v => some v

/-- What the lexer sees of a slot: the name, or a question mark. -/
def lexeme : Slot → Lexeme
  | name identifier => .name identifier
  | operand _ => .mark

end Slot

/-- The slot that a piece fills. -/
def Piece.slot? : Piece → Option Slot
  | word _ => none
  | name identifier => some (.name identifier)
  | param v => some (.operand v)

/-! ## The slots of a tree -/

/-- A column is named behind its table. -/
def ColumnRef.slots (ref : ColumnRef) : List Slot := [.name ref.table, .name ref.column]

/-- A table is named once, and once more if its alias is another name. -/
def TableRef.slots (t : TableRef) : List Slot :=
  if t.aliasName = t.table then [.name t.table] else [.name t.table, .name t.aliasName]

/-- An item names its column, and the name under which it is returned if that is another one. -/
def SelectItem.slots : SelectItem → List Slot
  | all aliasName => [.name aliasName]
  | column ref .bare => ref.slots
  | column ref (.prefixed start) => ref.slots ++ [.name (start ++ "_" ++ ref.column)]
  | column ref (.exact output) => ref.slots ++ [.name output]
  | countDistinct ref output => ref.slots ++ [.name output]

/-- The slots of an operand of a join. -/
def Operand.slots : Operand → List Slot
  | column ref => ref.slots
  | value v => [.operand v]

/-- The slots of the condition of a join. -/
def onSlots (on : List (ColumnRef × Operand)) : List Slot :=
  on.flatMap fun (ref, operand) => ref.slots ++ operand.slots

namespace Predicate

/-- Whether a comparison with nothing, or with null, is a test for null. -/
def isNullTest (p : Predicate) : Bool :=
  p.op.isUnary || ((p.op == .equal || p.op == .notEqual) && p.value?.all Value.isNull)

/-- Whether a comparison is settled without looking at the column. -/
def isSettled (p : Predicate) : Bool := p.op.takesList && p.values.isEmpty

/-- The values that a comparison binds. -/
def bound (p : Predicate) : List Value :=
  if p.isNullTest then [] else if p.op.takesList then p.values else p.value?.toList

/-- A comparison names its column and binds its values. -/
def slots (p : Predicate) : List Slot :=
  if p.isSettled then [] else p.column.slots ++ p.bound.map .operand

end Predicate

/-- The items of a select; without any, everything from its table is returned. -/
def itemSlots (table : TableRef) : List SelectItem → List Slot
  | [] => [.name table.aliasName]
  | items => items.flatMap SelectItem.slots

mutual

/-- The slots of a select. -/
def Select.slots : Select → List Slot
  | ⟨_, table, items, joins, predicates, groupBy, order, _, _⟩ =>
    itemSlots table items ++ table.slots ++ joinSlots joins ++ predicates.flatMap Predicate.slots
      ++ groupBy.flatMap ColumnRef.slots ++ order.flatMap fun term => term.column.slots

/-- The slots of joins. -/
def joinSlots : List (Join Select) → List Slot
  | [] => []
  | ⟨_, table, derived?, on⟩ :: rest =>
    sourceSlots table derived? ++ onSlots on ++ joinSlots rest

/-- The slots of what is joined: a table, or those of a select and its alias. -/
def sourceSlots (table : TableRef) : Option Select → List Slot
  | none => table.slots
  | some s => s.slots ++ [.name table.aliasName]

end

/-- The slots of a statement. -/
def Tree.slots : Tree → List Slot
  | select s => s.slots
  | insert table values => .name table.table :: values.map (fun (column, _) => .name column)
      ++ values.map fun (_, v) => .operand v
  | update table values predicates =>
    .name table.table :: values.flatMap (fun (column, v) => [.name column, .operand v])
      ++ predicates.flatMap Predicate.slots
  | delete table predicates => .name table.table :: predicates.flatMap Predicate.slots

/-! ## Writing slots -/

/-- Pieces that stay apart and fill the given slots, in order. -/
structure Fills (pieces : List Piece) (slots : List Slot) : Prop where
  separated : Separated pieces
  filled : pieces.filterMap Piece.slot? = slots

/-- Pieces that fill the given slots and may stand behind any others. -/
structure Trails (pieces : List Piece) (slots : List Slot) : Prop extends Fills pieces slots where
  start : StartsApart pieces

namespace Fills

theorem nil : Fills [] [] := ⟨.nil, rfl⟩

theorem name (identifier : String) : Fills [.name identifier] [.name identifier] :=
  ⟨⟨fun _ h => absurd (List.mem_singleton.mp h) nofun, List.isChain_singleton _⟩, rfl⟩

theorem param (v : Value) : Fills [.param v] [.operand v] :=
  ⟨⟨fun _ h => absurd (List.mem_singleton.mp h) nofun, List.isChain_singleton _⟩, rfl⟩

variable {ps qs : List Piece} {as bs : List Slot}

theorem append (hps : Fills ps as) (hqs : Trails qs bs) : Fills (ps ++ qs) (as ++ bs) where
  separated := hps.separated.append hqs.separated hqs.start
  filled := by rw [List.filterMap_append, hps.filled, hqs.filled]

/-- A plain word may stand anywhere. -/
theorem word {text : String} (htext : Plain text) (hps : Fills ps as) :
    Trails (.word text :: ps) as where
  separated := by
    refine ⟨fun t ht => ?_, ?_⟩
    · rcases List.mem_cons.mp ht with h | h
      · rwa [Piece.word.inj h]
      · exact hps.separated.plain t h
    · exact List.isChain_cons.mpr
        ⟨fun _ _ h => absurd h Bool.false_ne_true, hps.separated.apart⟩
  filled := hps.filled
  start := by
    intro p hp
    rw [← Option.some.inj hp]
    rfl

end Fills

namespace Trails

theorem nil : Trails [] [] := ⟨.nil, fun p h => absurd h (Option.not_mem_none p)⟩

variable {ps qs : List Piece} {as bs : List Slot}

theorem append (hps : Trails ps as) (hqs : Trails qs bs) : Trails (ps ++ qs) (as ++ bs) where
  toFills := hps.toFills.append hqs
  start p hp := by
    cases ps with
    | nil => exact hqs.start p hp
    | cons q ps => exact hps.start p hp

end Trails

/-- Parts with a plain separator between them fill the slots of all parts. -/
theorem Fills.list {separator : String} (hsep : Plain separator) {parts : List (List Piece)}
    {slots : List (List Slot)} (h : List.Forall₂ Fills parts slots) :
    Fills (Sql.separated separator parts) slots.flatten := by
  unfold Sql.separated
  induction h with
  | nil => exact .nil
  | @cons part partSlots parts slots hpart hparts ih =>
    cases hparts with
    | nil => simpa using hpart
    | @cons next nextSlots parts slots hnext hparts =>
      rw [List.intercalate_cons_cons, List.append_assoc, List.flatten_cons]
      exact hpart.append (ih.word hsep)

/-- A clause may stand behind anything. -/
theorem Trails.clause {start separator : String} (hstart : Plain start) (hsep : Plain separator)
    {parts : List (List Piece)} {slots : List (List Slot)} (h : List.Forall₂ Fills parts slots) :
    Trails (Sql.clause start separator parts) slots.flatten := by
  cases h with
  | nil => exact .nil
  | cons hpart hparts => exact (Fills.list hsep (.cons hpart hparts)).word hstart

/-- Parts that are written one for each element of a list. -/
theorem fills_map {α : Type} {f : α → List Piece} {g : α → List Slot}
    (h : ∀ x, Fills (f x) (g x)) (xs : List α) : List.Forall₂ Fills (xs.map f) (xs.map g) :=
  List.forall₂_map_left_iff.mpr (List.forall₂_map_right_iff.mpr
    (List.forall₂_same.mpr fun x _ => h x))

/-- A list of single pieces. -/
theorem Fills.singles {α : Type} {f : α → Piece} {g : α → Slot} (h : ∀ x, Fills [f x] [g x])
    (xs : List α) : Fills (Sql.separated ", " (xs.map fun x => [f x])) (xs.map g) := by
  have hlist := Fills.list (by decide : Plain ", ") (fills_map h xs)
  rwa [← List.flatMap_def, ← List.map_eq_flatMap] at hlist

/-! ## Parts of statements -/

theorem ColumnRef.fills (ref : ColumnRef) : Fills ref.pieces ref.slots :=
  (Fills.name _).append ((Fills.name _).word (by decide))

theorem TableRef.fills (t : TableRef) : Fills t.pieces t.slots := by
  unfold TableRef.pieces TableRef.slots
  by_cases h : t.aliasName = t.table
  · rw [if_pos h, if_pos (by simpa using h)]
    exact .name _
  · rw [if_neg h, if_neg (by simpa using h)]
    exact (Fills.name _).append ((Fills.name _).word (by decide))

theorem SelectItem.fills (item : SelectItem) : Fills item.pieces item.slots := by
  cases item with
  | all aliasName =>
    have hword : Plain ".*" := by decide
    exact (Fills.name _).append (Fills.nil.word hword)
  | column ref output =>
    cases output with
    | bare => exact ref.fills
    | prefixed start => exact ref.fills.append ((Fills.name _).word (by decide))
    | exact output => exact ref.fills.append ((Fills.name _).word (by decide))
  | countDistinct ref output =>
    exact (ref.fills.append ((Fills.name _).word (by decide))).word (by decide) |>.toFills

theorem itemPieces_fills (table : TableRef) (items : List SelectItem) :
    Fills (itemPieces table items) (itemSlots table items) := by
  cases items with
  | nil => exact SelectItem.fills (.all table.aliasName)
  | cons item items =>
    exact .list (by decide) (fills_map SelectItem.fills (item :: items))

theorem onPieces_fills (on : ColumnRef × Operand) :
    Fills (onPieces on) (on.1.slots ++ on.2.slots) := by
  obtain ⟨ref, operand⟩ := on
  cases operand with
  | column other => exact ref.fills.append (other.fills.word (by decide))
  | value v => exact ref.fills.append ((Fills.param v).word (by decide))

theorem OrderTerm.fills (term : OrderTerm) : Fills term.pieces term.column.slots := by
  unfold OrderTerm.pieces
  have hword : Plain (" " ++ term.direction.sql) := by
    cases term.direction <;> decide
  have h := term.column.fills.append (Fills.nil.word hword)
  rwa [List.append_nil] at h

/-! ## Comparisons -/

/-- A test that a word behind the column expresses. -/
theorem test_fills (ref : ColumnRef) {text : String} (htext : Plain text) :
    Fills (ref.pieces ++ [word text]) ref.slots := by
  have h := ref.fills.append (Fills.nil.word htext)
  rwa [List.append_nil] at h

/-- A comparison with an operand. -/
theorem comparison_fills (ref : ColumnRef) {text : String} (htext : Plain text) (v : Value) :
    Fills (ref.pieces ++ [word text, param v]) (ref.slots ++ [.operand v]) :=
  ref.fills.append ((Fills.param v).word htext)

/-- A test of membership in a list of values. -/
theorem members_fills (ref : ColumnRef) {text : String} (htext : Plain text) (values : List Value) :
    Fills (ref.pieces ++ word text
        :: Sql.separated ", " (values.map fun v => [param v]) ++ [word ")"])
      (ref.slots ++ values.map .operand) := by
  have hclose : Plain ")" := by decide
  have h := (ref.fills.append ((Fills.singles Fills.param values).word htext)).append
    (Fills.nil.word hclose)
  rwa [List.append_nil] at h

namespace Predicate

/-- The test for null that a comparison amounts to. -/
def nullTest (p : Predicate) : String :=
  match p.op with
  | .equal | .isNull => "IS NULL"
  | _ => "IS NOT NULL"

/-- A test for null is written without an operand. -/
theorem pieces_of_isNullTest {p : Predicate} (h : p.isNullTest = true) :
    p.pieces = .ok (p.column.pieces ++ [word (" " ++ p.nullTest)]) := by
  obtain ⟨ref, op, value?, values⟩ := p
  cases op with
  | equal => exact if_pos h
  | notEqual => exact if_pos h
  | isNull => rfl
  | isNotNull => rfl
  | _ => exact absurd h Bool.false_ne_true

/-- A test of membership lists its values, unless there are none. -/
theorem pieces_of_takesList {p : Predicate} (h : p.op.takesList = true) :
    p.pieces = .ok (if p.values.isEmpty then [word (if p.op = .isIn then "1 = 0" else "1 = 1")]
      else p.column.pieces ++ word (" " ++ p.op.sql ++ " (")
        :: Sql.separated ", " (p.values.map fun v => [param v]) ++ [word ")"]) := by
  obtain ⟨ref, op, value?, values⟩ := p
  cases op with
  | isIn => cases values <;> rfl
  | notIn => cases values <;> rfl
  | _ => exact absurd h Bool.false_ne_true

/-- Any other comparison is written with its one operand, which it needs. -/
theorem pieces_of_compares {p : Predicate} (hnull : p.isNullTest = false)
    (hlist : p.op.takesList = false) :
    p.pieces = match p.value? with
      | some v => .ok (p.column.pieces ++ [word (" " ++ p.op.sql ++ " "), param v])
      | none => .error (.query (.valueRequired p.op p.column.column)) := by
  obtain ⟨ref, op, value?, values⟩ := p
  cases op with
  | equal => exact if_neg (ne_true_of_eq_false hnull)
  | notEqual => exact if_neg (ne_true_of_eq_false hnull)
  | isNull => exact absurd hnull.symm Bool.false_ne_true
  | isNotNull => exact absurd hnull.symm Bool.false_ne_true
  | isIn => exact absurd hlist.symm Bool.false_ne_true
  | notIn => exact absurd hlist.symm Bool.false_ne_true
  | _ => rfl

/-- A test for null does not take a list. -/
theorem takesList_of_isNullTest {p : Predicate} (h : p.isNullTest = true) :
    p.op.takesList = false := by
  obtain ⟨ref, op, value?, values⟩ := p
  cases op with
  | isIn => exact absurd h Bool.false_ne_true
  | notIn => exact absurd h Bool.false_ne_true
  | _ => rfl

/-- The forms in which a comparison is written. -/
inductive Written (p : Predicate) : List Piece → Prop where
  /-- A comparison with nothing or with null is a test for null. -/
  | nullTest (hnull : p.isNullTest = true) :
      Written p (p.column.pieces ++ [word (" " ++ p.nullTest)])
  /-- An empty list has no member, and everything is outside it. -/
  | settled (hlist : p.op.takesList = true) (hempty : p.values = []) :
      Written p [word (if p.op = .isIn then "1 = 0" else "1 = 1")]
  /-- A test of membership lists its values. -/
  | members (hlist : p.op.takesList = true) (hvalues : p.values ≠ []) :
      Written p (p.column.pieces ++ word (" " ++ p.op.sql ++ " (")
        :: Sql.separated ", " (p.values.map fun v => [param v]) ++ [word ")"])
  /-- Any other comparison has its one operand behind the operator. -/
  | comparison {v : Value} (hnull : p.isNullTest = false) (hlist : p.op.takesList = false)
      (hvalue : p.value? = some v) :
      Written p (p.column.pieces ++ [word (" " ++ p.op.sql ++ " "), param v])

/-- What is written has one of the forms, and each form is written where it fits. -/
theorem pieces_eq_ok {p : Predicate} {ps : List Piece} : p.pieces = .ok ps ↔ p.Written ps := by
  constructor
  · intro h
    by_cases hnull : p.isNullTest = true
    · rw [pieces_of_isNullTest hnull] at h
      rw [← Except.ok.inj h]
      exact .nullTest hnull
    · by_cases hlist : p.op.takesList = true
      · rw [pieces_of_takesList hlist] at h
        rw [← Except.ok.inj h]
        by_cases hempty : p.values = []
        · rw [hempty]
          exact .settled hlist hempty
        · rw [if_neg (by simpa using hempty)]
          exact .members hlist hempty
      · rw [Bool.not_eq_true] at hnull hlist
        rw [pieces_of_compares hnull hlist] at h
        cases hvalue : p.value? with
        | none => rw [hvalue] at h; exact absurd h nofun
        | some v =>
          rw [hvalue] at h
          rw [← Except.ok.inj h]
          exact .comparison hnull hlist hvalue
  · intro h
    cases h with
    | nullTest hnull => exact pieces_of_isNullTest hnull
    | settled hlist hempty => rw [pieces_of_takesList hlist, hempty]; rfl
    | members hlist hvalues => rw [pieces_of_takesList hlist, if_neg (by simpa using hvalues)]
    | comparison hnull hlist hvalue => rw [pieces_of_compares hnull hlist, hvalue]

/-- A written comparison fills the slots of the comparison. -/
theorem fills {p : Predicate} {ps : List Piece} (h : p.pieces = .ok ps) : Fills ps p.slots := by
  unfold slots bound isSettled
  cases pieces_eq_ok.mp h with
  | nullTest hnull =>
    -- a test for null names its column and binds nothing
    have hword : Plain (" " ++ p.nullTest) := by
      unfold nullTest
      split <;> decide
    have hfills := test_fills p.column hword
    simpa [takesList_of_isNullTest hnull, hnull] using hfills
  | settled hlist hempty =>
    have hword : Plain (if p.op = .isIn then "1 = 0" else "1 = 1") := by
      split <;> decide
    simpa [hlist, hempty] using (Fills.nil.word hword).toFills
  | members hlist hvalues =>
    have hword : Plain (" " ++ p.op.sql ++ " (") := by
      cases p.op <;> decide
    have hnull : p.isNullTest = false := by
      by_contra hnull
      rw [Bool.not_eq_false] at hnull
      rw [takesList_of_isNullTest hnull] at hlist
      exact Bool.false_ne_true hlist
    simpa [hlist, hvalues, hnull] using members_fills p.column hword p.values
  | @comparison v hnull hlist hvalue =>
    have hword : Plain (" " ++ p.op.sql ++ " ") := by
      cases p.op <;> decide
    simpa [hlist, hnull, hvalue] using comparison_fills p.column hword v

end Predicate

/-! ## Clauses -/

/-- The conditions are written one after the other. -/
theorem wherePieces_trails {predicates : List Predicate} {ps : List Piece}
    (h : wherePieces predicates = .ok ps) : Trails ps (predicates.flatMap Predicate.slots) := by
  obtain ⟨conjuncts, hconjuncts, hps⟩ := bind_eq_ok.mp h
  have hfills : List.Forall₂ Fills conjuncts (predicates.map Predicate.slots) := by
    refine List.forall₂_map_right_iff.mpr (List.Forall₂.flip ?_)
    exact (mapM_eq_ok.mp hconjuncts).imp fun _ _ => Predicate.fills
  rw [← Except.ok.inj hps, List.flatMap_def]
  exact Trails.clause (by decide) (by decide) hfills

/-- A digit is neither a backtick nor a question mark. -/
theorem plain_of_isDigit {c : Char} (h : c.isDigit = true) : c ≠ '\x60' ∧ c ≠ '?' := by
  constructor
  · intro hc
    rw [hc] at h
    exact absurd h (by decide)
  · intro hc
    rw [hc] at h
    exact absurd h (by decide)

/-- A word remains plain when a number is written behind it. -/
theorem plain_append_toString {text : String} (htext : Plain text) (n : Int) :
    Plain (text ++ toString n) := by
  have hnat (m : ℕ) : ∀ c ∈ m.repr.toList, c ≠ '\x60' ∧ c ≠ '?' := by
    intro c hc
    rw [Nat.toList_repr] at hc
    exact plain_of_isDigit (Nat.isDigit_of_mem_toDigits (by decide) (by decide) hc)
  have hint : ∀ c ∈ (toString n).toList, c ≠ '\x60' ∧ c ≠ '?' := by
    cases n with
    | ofNat m => exact hnat m
    | negSucc m =>
      intro c hc
      rw [show toString (Int.negSucc m) = "-" ++ (m + 1).repr from rfl, String.toList_append,
        List.mem_append] at hc
      rcases hc with hc | hc
      · rw [List.mem_singleton.mp hc]
        decide
      · exact hnat _ c hc
  constructor
  · rw [String.toList_append]
    exact List.append_ne_nil_of_left_ne_nil htext.1 _
  · intro c hc
    rw [String.toList_append, List.mem_append] at hc
    exact hc.elim (htext.2 c) (hint c)

/-- The limit and the offset are words. -/
theorem pagePieces_trails (limit? offset? : Option Int64) :
    Trails (pagePieces limit? offset?) [] := by
  have hlimit (n : Int64) : Plain (" LIMIT " ++ toString n.toInt) :=
    plain_append_toString (by decide) _
  have hoffset (n : Int64) : Plain (" OFFSET " ++ toString n.toInt) :=
    plain_append_toString (by decide) _
  cases limit? with
  | none => exact .nil
  | some limit =>
    cases offset? with
    | none => exact Fills.nil.word (hlimit limit)
    | some offset => exact (Fills.nil.word (hoffset offset)).toFills.word (hlimit limit)

/-! ## Selects -/

theorem headPieces_fills (distinct : Bool) (table : TableRef) (items : List SelectItem)
    {joined : List Piece} {slots : List Slot} (hjoined : Trails joined slots) :
    Fills (headPieces distinct table items joined)
      (itemSlots table items ++ table.slots ++ slots) := by
  have hselect : Plain (if distinct then "SELECT DISTINCT " else "SELECT ") := by
    split <;> decide
  have hfrom : Plain " FROM " := by decide
  exact ((((itemPieces_fills table items).word hselect).toFills.append
    (table.fills.word hfrom)).append hjoined)

theorem tailPieces_trails (groupBy : List ColumnRef) (order : List OrderTerm)
    (limit? offset? : Option Int64) :
    Trails (tailPieces groupBy order limit? offset?)
      (groupBy.flatMap ColumnRef.slots ++ order.flatMap fun term => term.column.slots) := by
  have hgroup := Trails.clause (by decide : Plain " GROUP BY ") (by decide : Plain ", ")
    (fills_map ColumnRef.fills groupBy)
  have horder := Trails.clause (by decide : Plain " ORDER BY ") (by decide : Plain ", ")
    (fills_map OrderTerm.fills order)
  have hall := (hgroup.append horder).append (pagePieces_trails limit? offset?)
  rwa [List.append_nil] at hall

mutual

/-- A written select fills the slots of the select, at any depth of derived tables. -/
theorem Select.fills : ∀ (s : Select) {ps : List Piece}, s.pieces = .ok ps → Fills ps s.slots
  | ⟨distinct, table, items, joins, predicates, groupBy, order, limit?, offset?⟩, ps, h => by
    obtain ⟨joined, hjoined, h⟩ := bind_eq_ok.mp h
    obtain ⟨conditions, hconditions, h⟩ := bind_eq_ok.mp h
    -- clause by clause, in the order in which the slots are listed
    have hall := ((headPieces_fills distinct table items (joinPieces_trails joins hjoined)).append
      (wherePieces_trails hconditions)).append (tailPieces_trails groupBy order limit? offset?)
    rw [← Except.ok.inj h, Select.slots]
    simpa using hall

/-- Written joins may stand behind anything. -/
theorem joinPieces_trails : ∀ (joins : List (Join Select)) {ps : List Piece},
    joinPieces joins = .ok ps → Trails ps (joinSlots joins)
  | [], ps, h => by
    rw [← Except.ok.inj h]
    exact .nil
  | ⟨kind, table, derived?, on⟩ :: rest, ps, h => by
    obtain ⟨source, hsource, h⟩ := bind_eq_ok.mp h
    obtain ⟨others, hothers, h⟩ := bind_eq_ok.mp h
    have hkind : Plain (" " ++ kind.sql ++ " ") := by
      cases kind <;> decide
    have hon : Plain " ON " := by decide
    have hcondition := (Fills.list (by decide : Plain " AND ")
      (fills_map onPieces_fills on)).word hon
    have hall := (((sourcePieces_fills table derived? hsource).word hkind).append hcondition).append
      (joinPieces_trails rest hothers)
    rw [← Except.ok.inj h, joinSlots]
    simpa [List.flatMap_def, onSlots] using hall

/-- A written table or derived table fills its slots. -/
theorem sourcePieces_fills (table : TableRef) : ∀ (derived? : Option Select) {ps : List Piece},
    sourcePieces table derived? = .ok ps → Fills ps (sourceSlots table derived?)
  | none, ps, h => by
    rw [← Except.ok.inj h]
    exact table.fills
  | some s, ps, h => by
    obtain ⟨inner, hinner, h⟩ := bind_eq_ok.mp h
    have hopen : Plain "(" := by decide
    have hclose : Plain ") AS " := by decide
    rw [← Except.ok.inj h]
    exact ((s.fills hinner).word hopen).toFills.append ((Fills.name _).word hclose)

end

/-! ## Statements -/

/-- A written statement fills the slots of its tree. -/
theorem Tree.fills {tree : Tree} {ps : List Piece} (h : tree.pieces = .ok ps) :
    Fills ps tree.slots := by
  cases tree with
  | select s => exact s.fills h
  | insert table values =>
    have hinto : Plain "INSERT INTO " := by decide
    have hopen : Plain " (" := by decide
    have hvalues : Plain ") VALUES (" := by decide
    have hclose : Plain ")" := by decide
    have hnames := Fills.singles (fun x : String × Value => Fills.name x.1) values
    have hparams := Fills.singles (fun x : String × Value => Fills.param x.2) values
    have hall := (((((Fills.name table.table).append (hnames.word hopen)).word hinto).append
      (hparams.word hvalues)).append (Fills.nil.word hclose)).toFills
    rw [← Except.ok.inj h, Tree.slots]
    simpa using hall
  | update table values predicates =>
    cases values with
    | nil => exact absurd h nofun
    | cons value values =>
      obtain ⟨conditions, hconditions, h⟩ := bind_eq_ok.mp h
      have hupdate : Plain "UPDATE " := by decide
      have hset : Plain " SET " := by decide
      have hequals : Plain " = " := by decide
      have hassign (x : String × Value) : Fills [.name x.1, .word " = ", .param x.2]
          [.name x.1, .operand x.2] :=
        (Fills.name x.1).append ((Fills.param x.2).word hequals)
      have hsets := Fills.list (by decide : Plain ", ") (fills_map hassign (value :: values))
      have hall := (((Fills.name table.table).append (hsets.word hset)).word hupdate).append
        (wherePieces_trails hconditions)
      rw [← Except.ok.inj h, Tree.slots, List.flatMap_def]
      exact hall.toFills
  | delete table predicates =>
    obtain ⟨conditions, hconditions, h⟩ := bind_eq_ok.mp h
    have hdelete : Plain "DELETE FROM " := by decide
    rw [← Except.ok.inj h]
    exact ((Fills.name table.table).append (wherePieces_trails hconditions)).word hdelete |>.toFills

namespace Fills

variable {ps : List Piece} {slots : List Slot}

/-- Among the lexemes of the pieces, the names and question marks are those of the slots. -/
theorem filter_lexemes (h : Fills ps slots) :
    (ps.flatMap Piece.lexemes).filter Lexeme.isSlot = slots.map Slot.lexeme := by
  rw [← h.filled]
  clear h
  -- words have no slot and their lexemes are dropped, so each piece counts for itself
  induction ps with
  | nil => rfl
  | cons p ps ih =>
    rw [List.flatMap_cons, List.filter_append, ih]
    cases p with
    | word text =>
      have hword : (Piece.lexemes (.word text)).filter Lexeme.isSlot = [] := by
        refine List.filter_eq_nil_iff.mpr fun lexeme hlexeme => ?_
        obtain ⟨c, _, rfl⟩ := List.mem_map.mp hlexeme
        exact Bool.false_ne_true
      rw [hword]
      rfl
    | name identifier => rfl
    | param v => rfl

/-- The values that the pieces bind are those of the slots. -/
theorem values (h : Fills ps slots) : ps.filterMap Piece.value? = slots.filterMap Slot.value? := by
  rw [← h.filled, List.filterMap_filterMap]
  congr 1
  funext p
  cases p <;> rfl

end Fills

/-- A name or question mark is the lexeme of its slot. -/
theorem Slot.name?_lexeme (slot : Slot) : slot.lexeme.name? = slot.name? := by
  cases slot <;> rfl

/-- There is a question mark for every operand. -/
theorem count_mark (slots : List Slot) :
    (slots.map Slot.lexeme).count .mark = (slots.filterMap Slot.value?).length := by
  induction slots with
  | nil => rfl
  | cons slot slots ih =>
    cases slot with
    | name identifier => exact ih
    | operand v =>
      rw [List.map_cons, Slot.lexeme, List.count_cons_self, ih]
      rfl

/-- **A statement is read back as its tree.** Whatever the names and values of a tree are, the lexer
does not end inside a name. It finds the names of the tree, unescaped and in the order of the tree,
and as many question marks as there are parameters. Names and question marks alternate as the tree
has its names and operands, so that each question mark stands where its operand is written, and the
parameters are the values of the operands in this order. -/
theorem scan_statement {tree : Tree} {st : Statement} (h : tree.statement = .ok st) :
    ∃ pieces lexemes, tree.pieces = .ok pieces
      ∧ Lexeme.scan st.sql = some lexemes
      ∧ lexemes = pieces.flatMap Piece.lexemes
      ∧ lexemes.filterMap Lexeme.name? = tree.slots.filterMap Slot.name?
      ∧ lexemes.count .mark = st.params.length
      ∧ lexemes.filter Lexeme.isSlot = tree.slots.map Slot.lexeme
      ∧ st.params = tree.slots.filterMap Slot.value? := by
  obtain ⟨pieces, hpieces, hst⟩ := bind_eq_ok.mp h
  have hfills := Tree.fills hpieces
  have hparams : st.params = tree.slots.filterMap Slot.value? := by
    rw [← Except.ok.inj hst]
    exact hfills.values
  refine ⟨pieces, pieces.flatMap Piece.lexemes, hpieces, ?_, rfl, ?_, ?_, hfills.filter_lexemes,
    hparams⟩
  · rw [← Except.ok.inj hst]
    exact hfills.separated.scan_text
  · have hnames : (pieces.flatMap Piece.lexemes).filterMap Lexeme.name?
        = ((pieces.flatMap Piece.lexemes).filter Lexeme.isSlot).filterMap Lexeme.name? := by
      rw [List.filterMap_filter]
      congr 1
      funext lexeme
      cases lexeme <;> rfl
    rw [hnames, hfills.filter_lexemes, List.filterMap_map]
    exact congrArg (tree.slots.filterMap ·) (funext Slot.name?_lexeme)
  · have hmarks : (pieces.flatMap Piece.lexemes).count .mark
        = ((pieces.flatMap Piece.lexemes).filter Lexeme.isSlot).count .mark := by
      rw [List.count_filter rfl]
    rw [hmarks, hfills.filter_lexemes, count_mark, hparams]

/-- A select with a derived table, in which names contain backticks, question marks and words of
statements. -/
def hostileSelect : Select where
  distinct := false
  table := ⟨"a\x60b?", "t", none⟩
  items := [.column ⟨"t", "x\x60 = ?"⟩ (.prefixed "t"), .countDistinct ⟨"t", "\x60"⟩ "total"]
  joins := [{
    kind := .inner
    table := ⟨"a\x60b?", "keys", none⟩
    derived? := some { Select.ofTable ⟨"a\x60b?", "a\x60b?", none⟩ with
      predicates := [⟨⟨"t", "n"⟩, .equal, some (.str "\x60?"), []⟩]
      limit? := some 2 }
    on := [(⟨"keys", "id"⟩, .value (.int 3)), (⟨"keys", "id"⟩, .column ⟨"t", "id"⟩)] }]
  predicates := [⟨⟨"t", "m"⟩, .isIn, none, [.int 1, .int 2]⟩, ⟨⟨"t", "z"⟩, .equal, some .null, []⟩]
  groupBy := []
  order := [⟨⟨"t", "? FROM"⟩, .desc⟩]
  limit? := none
  offset? := some 4

theorem scan_statement_hostileSelect : ∃ st lexemes,
    (Tree.select hostileSelect).statement = .ok st
      ∧ Lexeme.scan st.sql = some lexemes
      ∧ lexemes.filterMap Lexeme.name? = ["t", "x\x60 = ?", "t_x\x60 = ?", "t", "\x60", "total",
        "a\x60b?", "t", "a\x60b?", "a\x60b?", "t", "n", "keys", "keys", "id", "keys", "id", "t",
        "id", "t", "m", "t", "z", "t", "? FROM"]
      ∧ st.params = [.str "\x60?", .int 3, .int 1, .int 2] := by
  have h : (Tree.select hostileSelect).statement = .ok _ := rfl
  obtain ⟨_, lexemes, _, hscan, _, hnames, _, _, hparams⟩ := scan_statement h
  exact ⟨_, lexemes, h, hscan, hnames, hparams⟩

end RecordMapping.Sql
