import RecordMapping.Proofs.Query.Filtering
import RecordMapping.Proofs.Sql.Outlines

/-!
# Queries of one shape

A query is read, expanded and written without a look at its values, but for one question: whether a
column is compared with a value that is stored as null. The shape of a query is what is left without
its values.

* `Expansion.resolveConditions_congr`, `Expansion.ofSelect_congr`, `Expansion.ofQuery_congr`: the
  trees for queries of one shape have one outline;
* `Repository.face_prepareQuery`: so their statements have the same texts.
-/

namespace RecordMapping

open Sql

/-! ## Shapes -/

/-- A condition without its values. -/
def Condition.shape (c : Condition) : Condition :=
  { c with value? := c.value?.map fun _ => blot, values := c.values.map fun _ => blot }

/-- An operand of a join without its value. -/
def JoinOperand.shape : JoinOperand → JoinOperand
  | column reference => column reference
  | value _ => value blot

/-- A join without its values. -/
def JoinSpec.shape (spec : JoinSpec) : JoinSpec :=
  { spec with on := spec.on.map fun (column, operand) => (column, operand.shape) }

/-- The names to be written, each with a blot if it has a value. -/
def shapeValues (values : List (String × Option Value)) : List (String × Option Value) :=
  values.map fun (name, value?) => (name, value?.map fun _ => blot)

/-- A query without its values. -/
def Query.shape (query : Query) : Query :=
  { query with
    conditions := query.conditions.map Condition.shape
    joins := query.joins.map JoinSpec.shape
    values := shapeValues query.values }

namespace Expansion

variable {schema : Schema} {model : Model} {base : TableRef} {storage : DateStorage}

/-! ## Conditions -/

/-- Whether the operand of a condition is null as it is stored. -/
def bindsNull (schema : Schema) (model : Model) (base : TableRef) (storage : DateStorage)
    (c : Condition) : Bool :=
  match resolveKey schema model base c.column, c.value? with
  | .ok key, some v => (boundValue model base storage key.1 v).isNull
  | _, _ => false

/-- If a condition asks for equality, the other one does so with a null if and only if it does. -/
def Alike (schema : Schema) (model : Model) (base : TableRef) (storage : DateStorage)
    (c d : Condition) : Prop :=
  c.op = .equal ∨ c.op = .notEqual →
    bindsNull schema model base storage c = bindsNull schema model base storage d

/-- Two conditions that are alike become tests for null, or neither of them does. -/
theorem isNullTest_congr {c d : Condition} (hshape : c.shape = d.shape)
    (h : Alike schema model base storage c d) {key : ColumnRef × Option Link}
    (hkey : resolveKey schema model base c.column = .ok key) :
    (predicate model base storage key.1 c).isNullTest
      = (predicate model base storage key.1 d).isNullTest := by
  obtain ⟨column, op, value?, values⟩ := c
  obtain ⟨column', op', value?', values'⟩ := d
  obtain ⟨rfl, rfl, hvalue, -⟩ := Condition.mk.inj hshape
  rw [predicate_eq, predicate_eq]
  unfold Predicate.isNullTest
  -- the operands of other tests are not looked at
  by_cases hop : op = .equal ∨ op = .notEqual
  · cases value? with
    | none =>
      cases value?' with
      | none => rfl
      | some v' => exact absurd hvalue nofun
    | some v =>
      cases value?' with
      | none => exact absurd hvalue nofun
      | some v' =>
        have hbound := h hop
        unfold bindsNull at hbound
        rw [hkey] at hbound
        exact congrArg (fun b => op.isUnary || ((op == .equal || op == .notEqual) && b)) hbound
  · have hother : (op == .equal || op == .notEqual) = false := by simpa using hop
    dsimp only
    rw [hother]
    rfl

/-- Two conditions that are alike become comparisons with one outline. -/
theorem outline_predicate {c d : Condition} (hshape : c.shape = d.shape)
    (h : Alike schema model base storage c d) {key : ColumnRef × Option Link}
    (hkey : resolveKey schema model base c.column = .ok key) :
    (predicate model base storage key.1 c).outline
      = (predicate model base storage key.1 d).outline := by
  have htest := isNullTest_congr hshape h hkey
  obtain ⟨column, op, value?, values⟩ := c
  obtain ⟨column', op', value?', values'⟩ := d
  obtain ⟨rfl, rfl, hvalue, hvalues⟩ := Condition.mk.inj hshape
  have hconst (v : Value) : value?.map (fun _ => v) = value?'.map fun _ => v := by
    have hmap := congrArg (Option.map fun _ => v) hvalue
    rwa [Option.map_map, Option.map_map] at hmap
  unfold Predicate.outline
  rw [htest, predicate_eq, predicate_eq]
  simp only [Option.map_map, List.map_map, Function.comp_def]
  rw [hconst, hvalues]

/-- What is left of resolved conditions without their values. -/
def outlineResolved (resolved : List Predicate × List (Join Select)) :
    List Predicate × List (Join Select) :=
  (resolved.1.map Predicate.outline, resolved.2)

/-- Conditions that are alike one by one need the same joins and become comparisons with one
outline. -/
theorem resolveConditions_congr {cs ds : List Condition}
    (hshape : cs.map Condition.shape = ds.map Condition.shape)
    (h : List.Forall₂ (Alike schema model base storage) cs ds) (joins : List (Join Select)) :
    outlineResolved <$> resolveConditions schema model base storage cs joins
      = outlineResolved <$> resolveConditions schema model base storage ds joins := by
  induction h generalizing joins with
  | nil => rfl
  | @cons c d cs ds hcd _ ih =>
    obtain ⟨hfirst, hrest⟩ := List.cons.inj hshape
    have hcolumn : c.column = d.column := (Condition.mk.inj hfirst).1
    -- the keys mean the same in both lists, and with them the links
    rw [resolveConditions, resolveConditions, ← hcolumn]
    cases hkey : resolveKey schema model base c.column with
    | error e => rfl
    | ok key =>
      change _ <$> (resolveConditions schema model base storage cs _ >>= _)
        = _ <$> (resolveConditions schema model base storage ds _ >>= _)
      refine map_bind_congr (ih hrest (addLink (keyRef model base.aliasName) joins key.2)) ?_
      intro resolved others hresolved
      obtain ⟨hpredicates, hjoins⟩ := Prod.mk.inj hresolved
      refine congrArg Except.ok (Prod.ext ?_ hjoins)
      show _ :: _ = _ :: _
      rw [outline_predicate hfirst hcd hkey, hpredicates]

/-! ## Joins and values -/

theorem outlineJoins_append (joins others : List (Join Select)) :
    outlineJoins (joins ++ others) = outlineJoins joins ++ outlineJoins others := by
  induction joins with
  | nil => rfl
  | cons join joins ih => rw [List.cons_append, outlineJoins, ih, outlineJoins, List.cons_append]

/-- The outline of the joins that a query asks for is what its shape asks for. -/
theorem outlineJoins_explicit (specs : List JoinSpec) :
    outlineJoins (specs.map (explicitJoin schema base))
      = (specs.map JoinSpec.shape).map (explicitJoin schema base) := by
  induction specs with
  | nil => rfl
  | cons spec specs ih =>
    have hon : outlineOn (explicitJoin schema base spec).on
        = (explicitJoin schema base spec.shape).on := by
      unfold outlineOn
      show List.map _ (List.map _ _) = List.map _ (List.map _ _)
      rw [List.map_map, List.map_map]
      refine List.map_congr_left fun pair _ => ?_
      obtain ⟨column, operand⟩ := pair
      cases operand <;> rfl
    rw [List.map_cons, outlineJoins, ih, hon]
    rfl

/-- The outline of the values to be written tells which names have one. -/
theorem outlineValues_storedForm (values : List (String × Option Value)) :
    outlineValues (storedForm model storage values)
      = (shapeValues values).filterMap fun pair => pair.2.map (pair.1, ·) := by
  unfold outlineValues storedForm shapeValues
  rw [List.map_filterMap, List.filterMap_map]
  congr 1
  funext pair
  obtain ⟨name, value?⟩ := pair
  cases value? <;> rfl

/-- Whether joins are refused is told by their outline. -/
theorem rejectJoins_congr {joins others : List (Join Select)}
    (h : outlineJoins joins = outlineJoins others) (kind : String) :
    rejectJoins joins kind = rejectJoins others kind := by
  cases joins with
  | nil =>
    cases others with
    | nil => rfl
    | cons other others => exact absurd h nofun
  | cons join joins =>
    cases others with
    | nil => exact absurd h nofun
    | cons other others => rfl

/-! ## Selects -/

/-- What is left of an expansion without its values. -/
def outline (expansion : Expansion) : Tree × Option Select :=
  (expansion.tree.outline, expansion.count?.map Select.outline)

variable {query : Query} {plain other : Select} {loading : Loading} {columns : List String}
  {joins others : List (Join Select)} {predicates comparisons : List Predicate}

theorem order_eq_of_outline (h : plain.outline = other.outline) : plain.order = other.order := by
  have horder := congrArg Select.order h
  rw [Select.outline_eq, Select.outline_eq] at horder
  exact horder

theorem outline_keySelect :
    (keySelect model base plain).outline = keySelect model base plain.outline := by
  rw [Select.outline_eq, Select.outline_eq]
  rfl

theorem outline_loadingSelect (h : plain.outline = other.outline) :
    (loadingSelect model base columns plain loading).outline
      = (loadingSelect model base columns other loading).outline := by
  have hkeys : (keySelect model base plain).outline = (keySelect model base other).outline := by
    rw [outline_keySelect, outline_keySelect, h]
  rw [Select.outline_eq, Select.outline_eq]
  simp only [loadingSelect, pageJoin, outlineJoins, outlineDerived, hkeys, order_eq_of_outline h]

theorem selectWith_congr (h : plain.outline = other.outline) :
    Select.outline <$> selectWith model base columns plain loading
      = Select.outline <$> selectWith model base columns other loading := by
  unfold selectWith
  split
  · exact congrArg Except.ok h
  · unfold pagedSelect
    split
    · rfl
    · exact congrArg Except.ok (outline_loadingSelect h)

theorem ofSelect_congr (hjoins : outlineJoins joins = outlineJoins others)
    (hpredicates : predicates.map Predicate.outline = comparisons.map Predicate.outline) :
    outline <$> ofSelect schema model base query joins predicates
      = outline <$> ofSelect schema model base query others comparisons := by
  have hplain : (plainSelect base query joins predicates).outline
      = (plainSelect base query others comparisons).outline := by
    rw [Select.outline_eq, Select.outline_eq]
    simp only [plainSelect, hjoins, hpredicates]
  have hcount : (countSelect model base joins predicates).outline
      = (countSelect model base others comparisons).outline := by
    rw [Select.outline_eq, Select.outline_eq]
    simp only [countSelect, hjoins, hpredicates]
  unfold ofSelect
  cases loadRelations schema model base query.includes with
  | error e => rfl
  | ok loading =>
    change _ <$> (selectWith model base query.columns _ loading >>= _)
      = _ <$> (selectWith model base query.columns _ loading >>= _)
    refine map_bind_congr (selectWith_congr hplain) fun select other hselect => ?_
    refine congrArg Except.ok (Prod.ext ?_ ?_)
    · exact congrArg Tree.select hselect
    · exact congrArg some hcount

/-! ## Queries -/

/-- The expansion of a query whose comparisons, joins and values are given. -/
def ofParts (schema : Schema) (model : Model) (query : Query) (predicates : List Predicate)
    (joins : List (Join Select)) (values : List (String × Value)) : Result Expansion :=
  let base := baseTable model query
  match query.kind with
  | .select => ofSelect schema model base query joins predicates
  | .insert => .ok ⟨.insert base values, none, [], base.aliasName⟩
  | .update => do
    rejectJoins joins "update"
    .ok ⟨.update base values predicates, none, [], base.aliasName⟩
  | .delete => do
    rejectJoins joins "delete"
    .ok ⟨.delete base predicates, none, [], base.aliasName⟩

/-- A query is expanded from its parts and, beside them, from nothing but its shape. -/
theorem ofQuery_eq_ofParts (query : Query) :
    ofQuery schema storage model query
      = resolveConditions schema model (baseTable model query) storage query.conditions []
        >>= fun resolved => ofParts schema model query.shape resolved.1
          (resolved.2 ++ query.joins.map (explicitJoin schema (baseTable model query)))
          (storedForm model storage query.values) := rfl

theorem ofParts_congr {values written : List (String × Value)}
    (hjoins : outlineJoins joins = outlineJoins others)
    (hpredicates : predicates.map Predicate.outline = comparisons.map Predicate.outline)
    (hvalues : outlineValues values = outlineValues written) :
    outline <$> ofParts schema model query predicates joins values
      = outline <$> ofParts schema model query comparisons others written := by
  unfold ofParts
  cases query.kind with
  | select => exact ofSelect_congr hjoins hpredicates
  | insert => exact congrArg Except.ok (Prod.ext (congrArg (Tree.insert _) hvalues) rfl)
  | update =>
    dsimp only
    rw [rejectJoins_congr hjoins]
    cases rejectJoins others "update" with
    | error e => rfl
    | ok _ =>
      exact congrArg Except.ok (Prod.ext (congrArg₂ (Tree.update _) hvalues hpredicates) rfl)
  | delete =>
    dsimp only
    rw [rejectJoins_congr hjoins]
    cases rejectJoins others "delete" with
    | error e => rfl
    | ok _ => exact congrArg Except.ok (Prod.ext (congrArg (Tree.delete _) hpredicates) rfl)

theorem baseTable_congr {query other : Query} (hshape : query.shape = other.shape) :
    baseTable model query = baseTable model other := by
  show baseTable model query.shape = baseTable model other.shape
  rw [hshape]

/-- Queries of one shape whose conditions are alike are expanded to trees with one outline, or
refused for the same reason. -/
theorem ofQuery_congr {query other : Query} (hshape : query.shape = other.shape)
    (h : List.Forall₂ (Alike schema model (baseTable model query) storage) query.conditions
      other.conditions) :
    outline <$> ofQuery schema storage model query
      = outline <$> ofQuery schema storage model other := by
  have hbase : baseTable model query = baseTable model other := baseTable_congr hshape
  have hconditions : query.conditions.map Condition.shape = other.conditions.map Condition.shape :=
    congrArg Query.conditions hshape
  have hjoins : query.joins.map JoinSpec.shape = other.joins.map JoinSpec.shape :=
    congrArg Query.joins hshape
  have hvalues : shapeValues query.values = shapeValues other.values :=
    congrArg Query.values hshape
  rw [ofQuery_eq_ofParts, ofQuery_eq_ofParts, ← hshape, ← hbase]
  refine map_bind_congr (resolveConditions_congr hconditions h []) ?_
  intro resolved others hresolved
  obtain ⟨hpredicates, hlinks⟩ := Prod.mk.inj hresolved
  refine ofParts_congr ?_ hpredicates ?_
  · rw [hlinks, outlineJoins_append, outlineJoins_append, outlineJoins_explicit,
      outlineJoins_explicit, hjoins]
  · rw [outlineValues_storedForm, outlineValues_storedForm, hvalues]

end Expansion

/-! ## Texts -/

/-- What can be told of a prepared query without its values: the text of its statement and that of
the count, each with the number of its parameters. -/
def Prepared.face (prepared : Prepared) : (String × Nat) × Option (String × Nat) :=
  (prepared.statement.face, prepared.count?.map Statement.face)

namespace Repository

open Expansion

theorem countStatement?_congr {schema : Schema} {count? other? : Option Select}
    (h : count?.map Select.outline = other?.map Select.outline) :
    Option.map Statement.face <$> countStatement? schema count?
      = Option.map Statement.face <$> countStatement? schema other? := by
  cases count? with
  | none =>
    cases other? with
    | none => rfl
    | some other => exact absurd h nofun
  | some count =>
    cases other? with
    | none => exact absurd h nofun
    | some other =>
      have houtline : (Tree.select count).outline = (Tree.select other).outline :=
        congrArg Tree.select (Option.some.inj h)
      have hsome (x : Result Statement) :
          Option.map Statement.face <$> (some <$> x) = some <$> (Statement.face <$> x) := by
        cases x <;> rfl
      have hface := @Tree.face_stored_congr schema _ _ houtline
      exact (hsome _).trans ((congrArg (some <$> ·) hface).trans (hsome _).symm)

/-- Whether the operand of a condition of a query is stored as null. -/
def bindsNull (repo : Repository) (query : Query) (c : Condition) : Bool :=
  Expansion.bindsNull repo.mapping.schema repo.model (baseTable repo.model query)
    repo.mapping.config.dateStorage c

/-- **Values do not reach the text of a statement.** Let two queries have the same shape, so that
they differ in nothing but the values of their conditions, joins and writes. Let each condition that
asks for equality, or for inequality, compare with a null, as it is stored, in both queries or in
neither. Then both are refused for the same reason, or their statements have the same text and
equally many parameters; so have the statements that count. -/
theorem face_prepareQuery (repo : Repository) {query other : Query}
    (hshape : query.shape = other.shape)
    (hnull : List.Forall₂ (fun c d => c.op = .equal ∨ c.op = .notEqual →
      repo.bindsNull query c = repo.bindsNull other d) query.conditions other.conditions) :
    Prepared.face <$> repo.prepareQuery query = Prepared.face <$> repo.prepareQuery other := by
  have hbase : baseTable repo.model query = baseTable repo.model other := baseTable_congr hshape
  unfold bindsNull at hnull
  rw [← hbase] at hnull
  unfold prepareQuery
  -- step by step: the trees, the count and the statement have the same outline or face
  refine map_bind_congr (ofQuery_congr hshape hnull) fun expansion expansion' hexpansion => ?_
  obtain ⟨htree, hcount⟩ := Prod.mk.inj hexpansion
  refine map_bind_congr (countStatement?_congr hcount) fun count count' hcounts => ?_
  refine map_bind_congr (Tree.face_stored_congr htree) fun statement statement' hstatements => ?_
  exact congrArg Except.ok (Prod.ext hstatements hcounts)

/-- A query with values in its conditions and in a join. One column is compared with null. -/
def postsRead (id first second reader : Value) : Query :=
  { Query.empty .select with
    conditions := [.equal "id" id, .list "posted" .isIn [first, second], .equal "posted" .null]
    joins := [⟨.left, "readers", [("name", .value reader)]⟩]
    includes := ["author"] }

/-- Values that look like parts of statements make no difference. -/
theorem face_prepareQuery_postsRead :
    let query := postsRead (.int 7) (.int 0) (.int 60) (.str "Ann")
    let other := postsRead (.str "7' OR \x60id\x60 = \x60id") .null (.str "?, ?") .null
    query.shape = other.shape
      ∧ List.Forall₂ (fun c d => c.op = .equal ∨ c.op = .notEqual →
        posts.bindsNull query c = posts.bindsNull other d) query.conditions other.conditions
      ∧ ∃ prepared prepared', posts.prepareQuery query = .ok prepared
        ∧ posts.prepareQuery other = .ok prepared'
        ∧ prepared.face = prepared'.face := by
  intro query other
  have hshape : query.shape = other.shape := rfl
  have hnull : List.Forall₂ (fun c d => c.op = .equal ∨ c.op = .notEqual →
      posts.bindsNull query c = posts.bindsNull other d) query.conditions other.conditions :=
    .cons (fun _ => by decide +kernel) (.cons (fun _ => by decide +kernel)
      (.cons (fun _ => by decide +kernel) .nil))
  have hface := face_prepareQuery posts hshape hnull
  have hrun : (posts.prepareQuery query).toOption.isSome = true := by decide +kernel
  refine ⟨hshape, hnull, ?_⟩
  cases hprepared : posts.prepareQuery query with
  | error e => rw [hprepared] at hrun; exact absurd hrun nofun
  | ok prepared =>
    rw [hprepared] at hface
    cases hprepared' : posts.prepareQuery other with
    | error e => rw [hprepared'] at hface; exact absurd hface nofun
    | ok prepared' =>
      rw [hprepared'] at hface
      exact ⟨prepared, prepared', rfl, rfl, Except.ok.inj hface⟩

end Repository

end RecordMapping
