import RecordMapping.Proofs.Query.Scoping

/-!
# What storage names change

A statement tree consists of the columns that it mentions and of a frame, which is all the rest. A
column is mentioned at a place: in a select with its tables, or among the names and comparisons of a
write with its table.

* `Tree.eq_of_frame`: nothing of a tree is left out, neither of its frame nor of its mentions;
* `Mention.Renamed`: a mention before and after it takes its storage name;
* `Tree.eq_stored_iff`: a tree with storage names is the tree with the same frame in which every
  mention is renamed.
-/

namespace RecordMapping.Sql

/-! ## Mentions -/

/-- A column where it is mentioned, beside the tables among which it is looked up. -/
structure Mention where
  tables : List TableRef
  ref : ColumnRef
deriving DecidableEq

/-- The columns that a select mentions itself. -/
def Select.ownMentions (s : Select) : List Mention := s.refs.map (Mention.mk s.tables)

/-- The columns that a select mentions, and those that the selects of its derived tables mention,
to any depth; each of them among the tables of its own select. -/
def Select.mentions (s : Select) : List Mention := s.levels.flatMap Select.ownMentions

/-- The columns that comparisons of a write mention. -/
def comparedMentions (table : TableRef) (predicates : List Predicate) : List Mention :=
  predicates.map fun p => ⟨[table], p.column⟩

/-- The columns that are given values by a write. -/
def writtenMentions (table : TableRef) (values : List (String × Value)) : List Mention :=
  values.map fun value => ⟨[table], ⟨table.aliasName, value.1⟩⟩

/-- The columns that a statement mentions. -/
def Tree.mentions : Tree → List Mention
  | select s => s.mentions
  | insert table values => writtenMentions table values
  | update table values predicates =>
    writtenMentions table values ++ comparedMentions table predicates
  | delete table predicates => comparedMentions table predicates

/-- The selects of a statement. -/
def Tree.selects : Tree → List Select
  | select s => s.levels
  | _ => []

/-! ## Frames -/

/-- A reference to a column without the column's name. -/
def ColumnRef.frame (ref : ColumnRef) : ColumnRef := { ref with column := "" }

/-- An item of a select without the names of columns. -/
def SelectItem.frame : SelectItem → SelectItem
  | all aliasName => all aliasName
  | column ref output => column ref.frame output
  | countDistinct ref output => countDistinct ref.frame output

/-- An operand without the names of columns. -/
def Operand.frame : Operand → Operand
  | column ref => column ref.frame
  | value v => value v

/-- A comparison without the name of its column. -/
def Predicate.frame (p : Predicate) : Predicate := { p with column := p.column.frame }

/-- A term of an order without the name of its column. -/
def OrderTerm.frame (t : OrderTerm) : OrderTerm := { t with column := t.column.frame }

/-- A pair of the condition of a join without the names of columns. -/
def onFrame (pair : ColumnRef × Operand) : ColumnRef × Operand := (pair.1.frame, pair.2.frame)

mutual

/-- A select without the names of columns. -/
def Select.frame : Select → Select
  | ⟨distinct, table, items, joins, predicates, groupBy, order, limit?, offset?⟩ =>
    ⟨distinct, table, items.map SelectItem.frame, joinFrames joins, predicates.map Predicate.frame,
      groupBy.map ColumnRef.frame, order.map OrderTerm.frame, limit?, offset?⟩

/-- Joins without the names of columns. -/
def joinFrames : List (Join Select) → List (Join Select)
  | [] => []
  | ⟨kind, table, derived?, on⟩ :: rest =>
    ⟨kind, table, derivedFrame derived?, on.map onFrame⟩ :: joinFrames rest

/-- A derived table without the names of columns. -/
def derivedFrame : Option Select → Option Select
  | none => none
  | some s => some s.frame

end

/-- Written values without the names of their columns. -/
def valueFrames (values : List (String × Value)) : List (String × Value) :=
  values.map fun value => ("", value.2)

/-- A statement without the names of columns. -/
def Tree.frame : Tree → Tree
  | select s => select s.frame
  | insert table values => insert table (valueFrames values)
  | update table values predicates =>
    update table (valueFrames values) (predicates.map Predicate.frame)
  | delete table predicates => delete table (predicates.map Predicate.frame)

/-! ## A tree is its frame and its mentions -/

section Told

variable {α β γ : Type}

/-- A part is told by its frame and the names in it: the frame tells how many names there are, and
both together tell the part. -/
def Told (frame : α → β) (names : α → List γ) : Prop :=
  ∀ a b, frame a = frame b →
    (names a).length = (names b).length ∧ (names a = names b → a = b)

/-- A list is told part by part. -/
theorem Told.list {frame : α → β} {names : α → List γ} (h : Told frame names) :
    Told (List.map frame) (List.flatMap names) := by
  intro as
  induction as with
  | nil =>
    intro bs hframe
    rw [List.map_eq_nil_iff.mp hframe.symm]
    exact ⟨rfl, fun _ => rfl⟩
  | cons a as ih =>
    intro bs hframe
    rcases bs with _ | ⟨b, bs⟩
    · exact absurd hframe (List.cons_ne_nil _ _)
    · rw [List.map_cons, List.map_cons] at hframe
      have hhead := h a b (List.cons.inj hframe).1
      have htail := ih bs (List.cons.inj hframe).2
      rw [List.flatMap_cons, List.flatMap_cons, List.length_append, List.length_append]
      constructor
      · omega
      · intro hnames
        have hsplit := List.append_inj hnames hhead.1
        rw [hhead.2 hsplit.1, htail.2 hsplit.2]

/-- The same where each part has one name. -/
theorem Told.map {frame : α → β} {name : α → γ}
    (h : ∀ a b, frame a = frame b → name a = name b → a = b) :
    Told (List.map frame) (List.map name) := by
  have hone : Told frame fun a => [name a] := fun a b hframe =>
    ⟨rfl, fun hname => h a b hframe (List.cons.inj hname).1⟩
  intro as bs hframe
  rw [List.map_eq_flatMap, List.map_eq_flatMap]
  exact hone.list as bs hframe

end Told

theorem SelectItem.told : Told SelectItem.frame SelectItem.refs := by
  intro a b hframe
  cases a <;> cases b <;> simp_all [SelectItem.frame, SelectItem.refs]

theorem Operand.told : Told Operand.frame Operand.refs := by
  intro a b hframe
  cases a <;> cases b <;> simp_all [Operand.frame, Operand.refs]

theorem on_told : Told onFrame fun pair => pair.1 :: pair.2.refs := by
  intro a b hframe
  have hoperand := Operand.told a.2 b.2 (congrArg Prod.snd hframe)
  rw [List.length_cons, List.length_cons]
  constructor
  · omega
  · intro hnames
    have hsplit := List.cons.inj hnames
    exact Prod.ext hsplit.1 (hoperand.2 hsplit.2)

theorem Predicate.eq_of_frame (a b : Predicate) (hframe : a.frame = b.frame)
    (hcolumn : a.column = b.column) : a = b := by
  cases a
  cases b
  simp_all [Predicate.frame]

theorem OrderTerm.eq_of_frame (a b : OrderTerm) (hframe : a.frame = b.frame)
    (hcolumn : a.column = b.column) : a = b := by
  cases a
  cases b
  simp_all [OrderTerm.frame]

/-- The columns that the derived tables among joins mention. -/
def joinMentions (joins : List (Join Select)) : List Mention :=
  (joinLevels joins).flatMap Select.ownMentions

/-- The columns that a derived table mentions. -/
def derivedMentions (derived? : Option Select) : List Mention :=
  (derivedLevels derived?).flatMap Select.ownMentions

theorem joinMentions_cons (join : Join Select) (joins : List (Join Select)) :
    joinMentions (join :: joins) = derivedMentions join.derived? ++ joinMentions joins := by
  unfold joinMentions
  rw [joinLevels, List.flatMap_append]
  rfl

theorem Select.mentions_eq (s : Select) :
    s.mentions = s.refs.map (Mention.mk s.tables) ++ joinMentions s.joins := by
  unfold Select.mentions
  rw [Select.levels_eq, List.flatMap_cons]
  rfl

theorem joinFrames_tables (joins : List (Join Select)) :
    (joinFrames joins).map (·.table) = joins.map (·.table) := by
  induction joins with
  | nil => rfl
  | cons join joins ih => rw [joinFrames, List.map_cons, ih, List.map_cons]

/-- Selects with one frame agree clause by clause. -/
theorem Select.frame_inj {a b : Select} : a.frame = b.frame ↔
    a.distinct = b.distinct ∧ a.table = b.table
      ∧ a.items.map SelectItem.frame = b.items.map SelectItem.frame
      ∧ joinFrames a.joins = joinFrames b.joins
      ∧ a.predicates.map Predicate.frame = b.predicates.map Predicate.frame
      ∧ a.groupBy.map ColumnRef.frame = b.groupBy.map ColumnRef.frame
      ∧ a.order.map OrderTerm.frame = b.order.map OrderTerm.frame
      ∧ a.limit? = b.limit? ∧ a.offset? = b.offset? := by
  cases a
  cases b
  rw [Select.frame, Select.frame, Select.mk.injEq]

/-- The tables of a select belong to its frame. -/
theorem Select.tables_eq_of_frame {a b : Select} (hframe : a.frame = b.frame) :
    a.tables = b.tables := by
  rcases Select.frame_inj.mp hframe with ⟨-, htable, -, hjoins, -⟩
  unfold Select.tables
  rw [htable, ← joinFrames_tables, hjoins, joinFrames_tables]

/-- The clauses of a select are told by its frame and its references, if its joins are told by
their columns. -/
theorem Select.refs_told {a b : Select} (hframe : a.frame = b.frame)
    (hlength : (joinRefs a.joins).length = (joinRefs b.joins).length) :
    a.refs.length = b.refs.length
      ∧ (a.refs = b.refs → (joinRefs a.joins = joinRefs b.joins → a.joins = b.joins) → a = b) := by
  rcases Select.frame_inj.mp hframe with
    ⟨hdistinct, htable, hitems, -, hpredicates, hgroups, horder, hlimit, hoffset⟩
  have items := SelectItem.told.list _ _ hitems
  have predicates := Told.map Predicate.eq_of_frame _ _ hpredicates
  have groups := congrArg List.length hgroups
  have order := Told.map OrderTerm.eq_of_frame _ _ horder
  rw [List.length_map, List.length_map] at groups
  unfold Select.refs
  constructor
  · simp only [List.length_append, items.1, hlength, predicates.1, groups, order.1]
  · intro hrefs hjoins
    have byOrder := List.append_inj' hrefs order.1
    have byGroups := List.append_inj' byOrder.1 groups
    have byPredicates := List.append_inj' byGroups.1 predicates.1
    have byJoins := List.append_inj' byPredicates.1 hlength
    cases a
    cases b
    rw [Select.mk.injEq]
    exact ⟨hdistinct, htable, items.2 byJoins.1, hjoins byJoins.2,
      predicates.2 byPredicates.2, byGroups.2, order.2 byOrder.2, hlimit, hoffset⟩

/-- What the frame of joins tells of them, and what it tells beside the columns that they
mention. -/
def JoinsTold (as bs : List (Join Select)) : Prop :=
  (Select.joinRefs as).length = (Select.joinRefs bs).length
    ∧ (joinMentions as).length = (joinMentions bs).length
    ∧ (Select.joinRefs as = Select.joinRefs bs → joinMentions as = joinMentions bs → as = bs)

theorem Select.told_of_joinsTold {a b : Select} (hframe : a.frame = b.frame)
    (hjoins : JoinsTold a.joins b.joins) :
    a.mentions.length = b.mentions.length ∧ (a.mentions = b.mentions → a = b) := by
  have hrefs := Select.refs_told hframe hjoins.1
  rw [Select.mentions_eq, Select.mentions_eq, Select.tables_eq_of_frame hframe]
  constructor
  · rw [List.length_append, List.length_append, List.length_map, List.length_map, hrefs.1,
      hjoins.2.1]
  · intro hmentions
    have hsplit := List.append_inj' hmentions hjoins.2.1
    have hmk : Function.Injective (Mention.mk b.tables) := fun _ _ h => (Mention.mk.inj h).2
    exact hrefs.2 (List.map_injective_iff.mpr hmk hsplit.1) fun hjoinRefs =>
      hjoins.2.2 hjoinRefs hsplit.2

mutual

/-- A select is told by its frame and the columns that it mentions. -/
theorem Select.told : (a b : Select) → a.frame = b.frame →
    a.mentions.length = b.mentions.length ∧ (a.mentions = b.mentions → a = b)
  | ⟨distinct, table, items, joins, predicates, groupBy, order, limit?, offset?⟩, b => by
    intro hframe
    rcases Select.frame_inj.mp hframe with ⟨-, -, -, hjoins, -⟩
    exact Select.told_of_joinsTold hframe (joins_told joins b.joins hjoins)

theorem joins_told : (as bs : List (Join Select)) → joinFrames as = joinFrames bs →
    JoinsTold as bs
  | [], [] => fun _ => ⟨rfl, rfl, fun _ _ => rfl⟩
  | [], _ :: _ => fun hframe => absurd hframe.symm (List.cons_ne_nil _ _)
  | _ :: _, [] => fun hframe => absurd hframe (List.cons_ne_nil _ _)
  | ⟨kind, table, derived?, on⟩ :: as, ⟨kind', table', derived'?, on'⟩ :: bs => by
    intro hframe
    rw [joinFrames, joinFrames, List.cons.injEq, Join.mk.injEq] at hframe
    rcases hframe with ⟨⟨hkind, htable, hderived, hon⟩, hrest⟩
    have rest := joins_told as bs hrest
    have derived := derived_told derived? derived'? hderived
    have pairs := on_told.list _ _ hon
    unfold JoinsTold Select.joinRefs
    rw [joinMentions_cons, joinMentions_cons, List.flatMap_cons, List.flatMap_cons]
    refine ⟨?_, ?_, ?_⟩
    · rw [List.length_append, List.length_append, pairs.1, ← Select.joinRefs, rest.1]
      rfl
    · rw [List.length_append, List.length_append, derived.1, rest.2.1]
    · intro hrefs hmentions
      have byPairs := List.append_inj hrefs pairs.1
      have byDerived := List.append_inj hmentions derived.1
      rw [hkind, htable, derived.2 byDerived.1, pairs.2 byPairs.1,
        rest.2.2 byPairs.2 byDerived.2]

theorem derived_told : (a b : Option Select) → derivedFrame a = derivedFrame b →
    (derivedMentions a).length = (derivedMentions b).length
      ∧ (derivedMentions a = derivedMentions b → a = b)
  | none, none => fun _ => ⟨rfl, fun _ => rfl⟩
  | none, some _ => fun hframe => absurd hframe.symm (Option.some_ne_none _)
  | some _, none => fun hframe => absurd hframe (Option.some_ne_none _)
  | some a, some b => fun hframe =>
    have hselect := Select.told a b (Option.some.inj hframe)
    ⟨hselect.1, fun hmentions => congrArg some (hselect.2 hmentions)⟩

end

theorem written_told (table : TableRef) : Told valueFrames (writtenMentions table) := by
  refine Told.map fun a b hframe hmention => ?_
  have hvalue : a.2 = b.2 := (Prod.mk.inj hframe).2
  have hname : a.1 = b.1 := congrArg (fun m : Mention => m.ref.column) hmention
  exact Prod.ext hname hvalue

theorem compared_told (table : TableRef) :
    Told (List.map Predicate.frame) (comparedMentions table) := by
  refine Told.map fun a b hframe hmention => ?_
  exact Predicate.eq_of_frame a b hframe (congrArg Mention.ref hmention)

/-- A statement is told by its frame and the columns that it mentions. -/
theorem Tree.eq_of_frame {a b : Tree} (hframe : a.frame = b.frame)
    (hmentions : a.mentions = b.mentions) : a = b := by
  cases a with
  | select s =>
    cases b with
    | select t =>
      have hselects := Tree.select.inj hframe
      exact congrArg Tree.select ((Select.told s t hselects).2 hmentions)
    | _ => cases hframe
  | insert table values =>
    cases b with
    | insert table' values' =>
      rcases Tree.insert.inj hframe with ⟨rfl, hvalues⟩
      exact congrArg (Tree.insert table) ((written_told table _ _ hvalues).2 hmentions)
    | _ => cases hframe
  | update table values predicates =>
    cases b with
    | update table' values' predicates' =>
      rcases Tree.update.inj hframe with ⟨rfl, hvalues, hpredicates⟩
      have values := written_told table _ _ hvalues
      have predicates := compared_told table _ _ hpredicates
      have hsplit := List.append_inj hmentions values.1
      rw [values.2 hsplit.1, predicates.2 hsplit.2]
    | _ => cases hframe
  | delete table predicates =>
    cases b with
    | delete table' predicates' =>
      rcases Tree.delete.inj hframe with ⟨rfl, hpredicates⟩
      exact congrArg (Tree.delete table) ((compared_told table _ _ hpredicates).2 hmentions)
    | _ => cases hframe

/-! ## Storage names -/

variable {schema : Schema}

/-- A change of parts that leaves their frames as they are does so in a list. -/
theorem map_frame {α β : Type} {frame : α → β} {change : α → α}
    (h : ∀ a, frame (change a) = frame a) (as : List α) :
    (as.map change).map frame = as.map frame := by
  rw [List.map_map]
  exact List.map_congr_left fun a _ => h a

theorem ColumnRef.frame_stored (tables : List TableRef) (ref : ColumnRef) :
    (ref.stored schema tables).frame = ref.frame := by
  unfold ColumnRef.frame
  rw [ColumnRef.table_stored]

theorem SelectItem.frame_stored (tables : List TableRef) (item : SelectItem) :
    (item.stored schema tables).frame = item.frame := by
  cases item <;> simp [SelectItem.stored, SelectItem.frame, ColumnRef.frame_stored]

theorem Predicate.frame_stored (tables : List TableRef) (p : Predicate) :
    (p.stored schema tables).frame = p.frame := by
  simp [Predicate.stored, Predicate.frame, ColumnRef.frame_stored]

theorem OrderTerm.frame_stored (tables : List TableRef) (t : OrderTerm) :
    (t.stored schema tables).frame = t.frame := by
  simp [OrderTerm.stored, OrderTerm.frame, ColumnRef.frame_stored]

theorem onFrame_stored (tables : List TableRef) (pair : ColumnRef × Operand) :
    onFrame (pair.1.stored schema tables, pair.2.stored schema tables) = onFrame pair := by
  rcases pair with ⟨ref, operand⟩
  cases operand <;> simp [onFrame, Operand.stored, Operand.frame, ColumnRef.frame_stored]

mutual

/-- Storage names leave the frame of a select as it is. -/
theorem Select.frame_stored : (s : Select) → (s.stored schema).frame = s.frame
  | ⟨distinct, table, items, joins, predicates, groupBy, order, limit?, offset?⟩ => by
    rw [Select.stored, Select.frame, Select.frame, joinFrames_stored,
      map_frame (SelectItem.frame_stored _), map_frame (Predicate.frame_stored _),
      map_frame (ColumnRef.frame_stored _), map_frame (OrderTerm.frame_stored _)]

theorem joinFrames_stored (tables : List TableRef) : (joins : List (Join Select)) →
    joinFrames (storedJoins schema tables joins) = joinFrames joins
  | [] => rfl
  | ⟨kind, table, derived?, on⟩ :: rest => by
    rw [storedJoins, joinFrames, joinFrames, derivedFrame_stored, storedOn,
      map_frame (onFrame_stored tables), joinFrames_stored]

theorem derivedFrame_stored : (derived? : Option Select) →
    derivedFrame (storedDerived schema derived?) = derivedFrame derived?
  | none => rfl
  | some s => by
    rw [storedDerived, derivedFrame, derivedFrame, Select.frame_stored]

end

theorem valueFrames_stored (table : TableRef) (values : List (String × Value)) :
    valueFrames (storedValues schema table values) = valueFrames values := by
  unfold storedValues valueFrames
  cases modelOf? schema [table] table.aliasName with
  | none => rfl
  | some model =>
    dsimp only
    rw [List.map_map]
    rfl

/-- Storage names leave the frame of a statement as it is. -/
theorem Tree.frame_stored (t : Tree) : (t.stored schema).frame = t.frame := by
  cases t with
  | select s => exact congrArg Tree.select s.frame_stored
  | insert table values => exact congrArg (Tree.insert table) (valueFrames_stored table values)
  | update table values predicates =>
    exact congrArg₂ (Tree.update table) (valueFrames_stored table values)
      (map_frame (Predicate.frame_stored _) predicates)
  | delete table predicates =>
    exact congrArg (Tree.delete table) (map_frame (Predicate.frame_stored _) predicates)

/-- A mention with its storage name. -/
def Mention.stored (schema : Schema) (m : Mention) : Mention :=
  { m with ref := m.ref.stored schema m.tables }

theorem Select.mentions_stored (s : Select) :
    (s.stored schema).mentions = s.mentions.map (Mention.stored schema) := by
  unfold Select.mentions
  rw [Select.levels_stored, List.flatMap_map, List.map_flatMap]
  refine congrArg (List.flatMap · _) (funext fun level => ?_)
  unfold Select.ownMentions
  rw [Select.refs_stored, Select.stored_tables, List.map_map, List.map_map]
  rfl

theorem writtenMentions_stored (table : TableRef) (values : List (String × Value)) :
    writtenMentions table (storedValues schema table values)
      = (writtenMentions table values).map (Mention.stored schema) := by
  unfold writtenMentions storedValues
  rw [List.map_map]
  cases hmodel : modelOf? schema [table] table.aliasName with
  | none =>
    refine List.map_congr_left fun value _ => ?_
    simp [Mention.stored, ColumnRef.stored, hmodel]
  | some model =>
    dsimp only
    rw [List.map_map]
    refine List.map_congr_left fun value _ => ?_
    simp [Mention.stored, ColumnRef.stored, hmodel]

theorem comparedMentions_stored (table : TableRef) (predicates : List Predicate) :
    comparedMentions table (predicates.map (·.stored schema [table]))
      = (comparedMentions table predicates).map (Mention.stored schema) := by
  unfold comparedMentions
  rw [List.map_map, List.map_map]
  rfl

/-- Every mention takes its storage name where it stands. -/
theorem Tree.mentions_stored (t : Tree) :
    (t.stored schema).mentions = t.mentions.map (Mention.stored schema) := by
  cases t with
  | select s => exact s.mentions_stored
  | insert table values => exact writtenMentions_stored table values
  | update table values predicates =>
    show _ ++ _ = List.map _ (_ ++ _)
    rw [List.map_append, writtenMentions_stored, comparedMentions_stored]
  | delete table predicates => exact comparedMentions_stored table predicates

/-! ## Which names are changed, and how -/

/-- Among the tables, an alias is that of a table with a model of the schema. -/
def Binds (schema : Schema) (tables : List TableRef) (aliasName : String) (model : Model) : Prop :=
  ∃ t ∈ tables, t.aliasName = aliasName ∧ t.model?.bind schema.model? = some model

/-- A mention before and after it takes its storage name. If its table is bound to a model, the
column is the one in which this model stores the attribute; and otherwise it keeps its name. -/
structure Mention.Renamed (schema : Schema) (m m' : Mention) : Prop where
  tables : m'.tables = m.tables
  table : m'.ref.table = m.ref.table
  bound : ∀ model, Binds schema m.tables m.ref.table model →
    m'.ref.column = model.columnFor m.ref.column
  free : (∀ model, ¬ Binds schema m.tables m.ref.table model) → m'.ref.column = m.ref.column

/-- Among tables with different aliases, an alias is bound to one model at most, and this is the
one that is looked up. -/
theorem binds_iff {tables : List TableRef} (h : (tables.map (·.aliasName)).Nodup)
    {aliasName : String} {model : Model} :
    Binds schema tables aliasName model ↔ modelOf? schema tables aliasName = some model := by
  constructor
  · intro hbinds
    rcases hbinds with ⟨t, ht, rfl, hmodel⟩
    rw [modelOf?_of_nodup h ht, hmodel]
  · intro hmodel
    rcases List.exists_of_findSome?_eq_some hmodel with ⟨t, ht, hfound⟩
    split at hfound
    · rename_i halias
      exact ⟨t, List.mem_reverse.mp ht, eq_of_beq halias, hfound⟩
    · exact absurd hfound nofun

theorem Mention.eq_stored_iff_ref {m m' : Mention} : m' = m.stored schema
    ↔ m'.tables = m.tables ∧ m'.ref.table = m.ref.table
      ∧ m'.ref.column = (m.ref.stored schema m.tables).column := by
  rw [← ColumnRef.table_stored m.tables m.ref]
  constructor
  · intro h
    rw [h]
    exact ⟨rfl, rfl, rfl⟩
  · intro h
    rcases m' with ⟨tables, ⟨table, column⟩⟩
    rcases h with ⟨rfl, rfl, rfl⟩
    rfl

/-- So there is one way for a mention to be renamed. -/
theorem Mention.renamed_iff {m m' : Mention} (h : (m.tables.map (·.aliasName)).Nodup) :
    Mention.Renamed schema m m' ↔ m' = m.stored schema := by
  rw [Mention.eq_stored_iff_ref]
  cases hmodel : modelOf? schema m.tables m.ref.table with
  | none =>
    have hcolumn : (m.ref.stored schema m.tables).column = m.ref.column := by
      rw [ColumnRef.stored, hmodel]
    have hfree : ∀ model, ¬ Binds schema m.tables m.ref.table model := by
      intro model hbinds
      rw [binds_iff h, hmodel] at hbinds
      exact Option.some_ne_none model hbinds.symm
    rw [hcolumn]
    constructor
    · intro hrenamed
      exact ⟨hrenamed.tables, hrenamed.table, hrenamed.free hfree⟩
    · intro hsame
      refine ⟨hsame.1, hsame.2.1, ?_, ?_⟩
      · intro model hbinds
        exact absurd hbinds (hfree model)
      · intro _
        exact hsame.2.2
  | some model =>
    have hcolumn : (m.ref.stored schema m.tables).column = model.columnFor m.ref.column := by
      rw [ColumnRef.stored, hmodel]
    have hbound : Binds schema m.tables m.ref.table model := (binds_iff h).mpr hmodel
    have honly : ∀ other, Binds schema m.tables m.ref.table other → other = model := by
      intro other hbinds
      rw [binds_iff h, hmodel] at hbinds
      exact (Option.some.inj hbinds).symm
    rw [hcolumn]
    constructor
    · intro hrenamed
      exact ⟨hrenamed.tables, hrenamed.table, hrenamed.bound model hbound⟩
    · intro hsame
      refine ⟨hsame.1, hsame.2.1, ?_, ?_⟩
      · intro other hbinds
        rw [honly other hbinds, hsame.2.2]
      · intro hfree
        exact absurd hbound (hfree model)

/-- The tables of each select of a statement have different aliases. -/
def Tree.DistinctAliases (t : Tree) : Prop := ∀ s ∈ t.selects, s.aliases.Nodup

instance (t : Tree) : Decidable t.DistinctAliases :=
  inferInstanceAs (Decidable (∀ s ∈ t.selects, s.aliases.Nodup))

/-- Then so have the tables among which a column is looked up. -/
theorem Tree.DistinctAliases.mention {t : Tree} (h : t.DistinctAliases) {m : Mention}
    (hm : m ∈ t.mentions) : (m.tables.map (·.aliasName)).Nodup := by
  have hwrite (table : TableRef) : ([table].map (·.aliasName)).Nodup := List.nodup_singleton _
  cases t with
  | select s =>
    rcases List.mem_flatMap.mp hm with ⟨level, hlevel, hm⟩
    rcases List.mem_map.mp hm with ⟨ref, -, rfl⟩
    exact h level hlevel
  | insert table values =>
    rcases List.mem_map.mp hm with ⟨value, -, rfl⟩
    exact hwrite table
  | update table values predicates =>
    rcases List.mem_append.mp hm with hm | hm
    · rcases List.mem_map.mp hm with ⟨value, -, rfl⟩
      exact hwrite table
    · rcases List.mem_map.mp hm with ⟨p, -, rfl⟩
      exact hwrite table
  | delete table predicates =>
    rcases List.mem_map.mp hm with ⟨p, -, rfl⟩
    exact hwrite table

/-- Where each element has one partner, so has a list. -/
theorem forall₂_iff_eq_map {α β : Type} {R : α → β → Prop} {f : α → β} {xs : List α}
    (h : ∀ x ∈ xs, ∀ y, R x y ↔ y = f x) {ys : List β} :
    List.Forall₂ R xs ys ↔ ys = xs.map f := by
  induction xs generalizing ys with
  | nil => exact List.forall₂_nil_left_iff
  | cons x xs ih =>
    have hrest := @ih fun y hy => h y (List.mem_cons_of_mem x hy)
    rw [List.forall₂_cons_left_iff, List.map_cons]
    constructor
    · intro hpartners
      rcases hpartners with ⟨y, ys', hy, hys, rfl⟩
      rw [(h x List.mem_cons_self y).mp hy, hrest.mp hys]
    · intro hmap
      exact ⟨f x, xs.map f, (h x List.mem_cons_self _).mpr rfl, hrest.mpr rfl, hmap⟩

/-- **Storage names rename the columns of tables with a model, and nothing else.** Let the tables of
each select of a statement have different aliases. Then the statement with storage names is the one
statement with the same frame in which every column that is mentioned, at any depth of derived
tables, is renamed: if among the tables of its own select (or the table of the write) its alias is
that of a table with a model of the schema, then it is the column in which this model stores the
attribute, and otherwise it keeps its name. The frame holds all that is not the name of a column:
tables, aliases, output names, operators, values, directions and limits. -/
theorem Tree.eq_stored_iff (schema : Schema) {t t' : Tree} (h : t.DistinctAliases) :
    t' = t.stored schema
      ↔ t'.frame = t.frame ∧ List.Forall₂ (Mention.Renamed schema) t.mentions t'.mentions := by
  have hone : ∀ m ∈ t.mentions, ∀ m', Mention.Renamed schema m m' ↔ m' = m.stored schema :=
    fun m hm m' => Mention.renamed_iff (h.mention hm)
  rw [forall₂_iff_eq_map hone]
  constructor
  · intro hstored
    rw [hstored]
    exact ⟨t.frame_stored, t.mentions_stored⟩
  · intro hsame
    refine Tree.eq_of_frame ?_ ?_
    · rw [hsame.1, t.frame_stored]
    · rw [hsame.2, t.mentions_stored]

/-- Letters and their writers, each with an attribute in a column of another name. -/
def lettersSchema : Schema where
  models := [
    ("Letter", ⟨"Letter", some "letters", "id", [⟨"title", .string, some "subject", none, none⟩]⟩),
    ("Writer", ⟨"Writer", some "writers", "id", [⟨"title", .string, some "honour", none, none⟩]⟩)]
  relations := .empty

/-- The select of the writers on a page of titles. Its derived table reads letters under the alias
that the writers have outside, and joins a table without a model. -/
def shadowing (outer inner : String) : Select where
  distinct := false
  table := .plain "writers" (some "Writer")
  items := [.all "writers", .column ⟨"writers", outer⟩ (.prefixed "writers")]
  joins := [{
    kind := .inner
    table := ⟨"letters", "page", some "Letter"⟩
    derived? := some {
      Select.ofTable ⟨"letters", "writers", some "Letter"⟩ with
      distinct := true
      items := [.column ⟨"writers", inner⟩ .bare]
      joins := [.stored .left (.plain "stamps" none)
        [(⟨"stamps", "title"⟩, .column ⟨"writers", inner⟩)]]
      order := [⟨⟨"writers", inner⟩, .desc⟩]
      limit? := some 5 }
    on := [(⟨"page", inner⟩, .column ⟨"writers", outer⟩)] }]
  predicates := [⟨⟨"writers", outer⟩, .like, some (.str "title"), []⟩,
    ⟨⟨"elsewhere", "title"⟩, .equal, some (.int 1), []⟩]
  groupBy := []
  order := []
  limit? := none
  offset? := some 0

theorem Tree.eq_stored_iff_shadowing :
    let t := Tree.select (shadowing "title" "title")
    let t' := Tree.select (shadowing "honour" "subject")
    t.DistinctAliases ∧ t'.frame = t.frame
      ∧ List.Forall₂ (Mention.Renamed lettersSchema) t.mentions t'.mentions := by
  intro t t'
  have h : t.DistinctAliases := by decide +kernel
  exact ⟨h, (Tree.eq_stored_iff lettersSchema h).mp rfl⟩

end RecordMapping.Sql
