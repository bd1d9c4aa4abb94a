import RecordMapping.Proofs.Relation.Correlation
import RecordMapping.Proofs.Query.Filtering
import RecordMapping.Repository.Related

/-!
# The scope of an accessor

The targets of a relation to many are found by a filter on the name of the relation's foreign key.
This name is looked up once more among the relations of the target, which may know another one by
it: an own relation of that alias, or an earlier relation that leads to the target with this key.

* `Place` is where a filter looks: `keyPlace` for the relation's own key, `filterPlace?` for a name;
* `resolveKey_place`: a key is resolved to the place that its name stands for;
* `compile_scoped_iff`: so the statement of an accessor is restricted by its own relation exactly if
  the name of the foreign key stands for the place of the relation's key, and the value is bound
  there as it would be stored.
-/

namespace RecordMapping

open Sql Expansion

/-! ## Places -/

/-- Where a filter looks for a value: in a column of a table. A table besides the one of the
filtered records is joined by its column `key?` with their primary key. -/
structure Place where
  table : String
  column : String
  key? : Option String
deriving DecidableEq

namespace Relation

/-- Where a relation to many keeps the key of its owner: in the junction, or else in the target. -/
def keyPlace (target : Model) (r : Relation) : Place :=
  match r.junction? with
  | some j => ⟨j.table, r.foreignKey, some j.key⟩
  | none => ⟨target.table, r.foreignKey, none⟩

/-- The stored form of an owner's key, by the attribute that holds it. -/
def storedKey (schema : Schema) (storage : DateStorage) (target : Model) (r : Relation)
    (key : Value) : Value :=
  match r.junction? with
  | some j => Storage.toStorage j.table
      ((schema.model? j.model).bind (·.attribute? r.foreignKey)) key storage
  | none => Storage.toStorage target.table (target.attribute? r.foreignKey) key storage

/-- Where a filter by the alias of an own relation looks: for the key of a target. -/
def aliasPlace? (schema : Schema) (model : Model) (r : Relation) : Option Place :=
  if r.kind = .belongsTo then some ⟨model.table, r.foreignKey, none⟩
  else
    match r.junction? with
    | some j => some ⟨j.table, j.key, some r.foreignKey⟩
    | none => (schema.model? r.target).map fun target =>
      ⟨target.table, target.primaryKey, some r.foreignKey⟩

end Relation

/-- Where a filter of the records of a model by a name looks. -/
def filterPlace? (schema : Schema) (model : Model) (name : String) : Option Place :=
  match Text.splitFirst? '.' name with
  | some (table, column) => some ⟨table, column, none⟩
  | none =>
    match schema.lookup model.name name with
    | some (.owned r) => r.aliasPlace? schema model
    | some (.inbound r) => some (r.keyPlace model)
    | none => some ⟨model.table, name, none⟩

/-- The place that a resolved key reads. -/
def placeOf : ColumnRef × Option Link → Place
  | (column, none) => ⟨column.table, column.column, none⟩
  | (column, some link) => ⟨link.table.table, column.column, some link.key⟩

variable {schema : Schema} {model : Model}

theorem aliasPlace?_eq (r : Relation) :
    r.aliasPlace? schema model
      = (ownedKey schema (.plain model.table (some model.name)) r).toOption.map placeOf := by
  unfold Relation.aliasPlace? ownedKey
  by_cases hkind : r.kind = .belongsTo
  · rw [if_pos hkind, if_pos hkind]
    rfl
  · rw [if_neg hkind, if_neg hkind]
    cases r.junction? with
    | some j => rfl
    | none =>
      dsimp only
      unfold Schema.model
      cases schema.model? r.target <;> rfl

/-- A relation that leads to the model is found by its foreign key, and read where it keeps it. -/
theorem keyPlace_eq {name : String} {r : Relation}
    (h : schema.lookup model.name name = some (.inbound r)) :
    r.keyPlace model = placeOf (inboundKey (.plain model.table (some model.name)) name r) := by
  have hname : r.foreignKey = name := by
    unfold Schema.lookup Registry.lookup at h
    split at h
    · exact absurd (Option.some.inj h) nofun
    · obtain ⟨found, hfound, hr⟩ := Option.map_eq_some_iff.mp h
      rw [RelationLookup.inbound.inj hr] at hfound
      have hmatch := List.find?_some hfound
      simp only [Bool.and_eq_true, beq_iff_eq] at hmatch
      exact hmatch.2
  -- without a junction both sides read the column of that name
  unfold Relation.keyPlace inboundKey
  cases r.junction? with
  | some j => rfl
  | none =>
    rw [hname]
    rfl

/-- A key is resolved to the place that its name stands for. -/
theorem filterPlace?_eq (name : String) :
    filterPlace? schema model name
      = (resolveKey schema model (.plain model.table (some model.name)) name).toOption.map
        placeOf := by
  unfold filterPlace? resolveKey
  cases Text.splitFirst? '.' name with
  | some parts => rfl
  | none =>
    dsimp only
    cases hlookup : schema.lookup model.name name with
    | none => rfl
    | some found =>
      cases found with
      | owned r => exact aliasPlace?_eq r
      | inbound r => exact congrArg some (keyPlace_eq hlookup)

/-! ## Accessors -/

/-- A column of a select of targets that holds the key of a relation's owner: the foreign key in the
targets' own table if nothing is joined, or in the junction if this is the one joined table, whose
rows go with the targets by its own key. -/
def HoldsKey (target : Model) (r : Relation) (s : Select) (column : ColumnRef) : Prop :=
  match r.junction? with
  | none => s.joins = [] ∧ column = ⟨s.table.aliasName, r.foreignKey⟩
  | some j => ∃ aliasName model?,
    s.joins = [.stored .inner ⟨j.table, aliasName, model?⟩
      [(⟨aliasName, j.key⟩, .column ⟨s.table.aliasName, target.primaryKey⟩)]]
    ∧ column = ⟨aliasName, r.foreignKey⟩

/-- What the statement of an accessor ought to select: everything from the table of the targets,
where the column that holds the owner's key equals the stored form of a given key. -/
structure ScopedBy (schema : Schema) (storage : DateStorage) (target : Model) (r : Relation)
    (key : Value) (s : Select) : Prop where
  table : s.table.table = target.table
  items : s.items = [.all s.table.aliasName]
  filtered : ∃ column, HoldsKey target r s column
    ∧ s.predicates = [⟨column, .equal, some (r.storedKey schema storage target key), []⟩]

namespace Related

/-- The statement of an accessor is that of a given select. -/
def Compiles (r : Related) (owner : Record) (s : Select) : Prop :=
  ∃ query expansion st, r.scopedQuery owner none = .ok query
    ∧ ofQuery r.target.mapping.schema r.target.mapping.config.dateStorage r.target.model query
      = .ok expansion
    ∧ expansion.tree = .select s
    ∧ r.compile owner none = .ok st
    ∧ ((Tree.select s).stored r.target.mapping.schema).statement = .ok st

variable {r : Related} {owner : Record} {key : Value}

/-- The table from which an accessor selects. -/
def base (r : Related) : TableRef := .plain r.target.model.table (some r.target.model.name)

/-- The query of an accessor: the first page of targets under one condition. -/
def scopeQuery (r : Related) (key : Value) : Query :=
  { Query.empty .select with
    conditions := [.equal r.relation.foreignKey key]
    offset? := some 0
    limit? := some (Query.pageLimit r.target.mapping.config none) }

/-- The select of an accessor whose condition is resolved. -/
def scopeSelect (r : Related) (key : Value) (resolved : ColumnRef × Option Link) : Select :=
  plainSelect r.base (r.scopeQuery key) (linkJoins r.target.model r.base [resolved] [])
    [predicate r.target.model r.base r.target.mapping.config.dateStorage resolved.1
      (.equal r.relation.foreignKey key)]

/-- The foreign key of the relation, resolved as a key of the target. -/
def resolved (r : Related) : Result (ColumnRef × Option Link) :=
  resolveKey r.target.mapping.schema r.target.model r.base r.relation.foreignKey

theorem ofDescriptor_empty (config : Config) :
    Query.ofDescriptor config .empty = .ok { Query.empty .select with
      offset? := some 0
      limit? := some (Query.pageLimit config none) } := rfl

theorem scopedQuery_none (hkind : r.relation.kind ≠ .belongsTo)
    (hkey : owner.primaryKey? = some key) :
    r.scopedQuery owner none = .ok (r.scopeQuery key) := by
  have hscope : r.scope owner = .ok (.equal r.relation.foreignKey key) := by
    have hkeyOf : Repository.keyOf owner = .ok key := by
      unfold Repository.keyOf
      rw [hkey]
    unfold scope
    rw [hkeyOf]
    cases hcase : r.relation.kind with
    | belongsTo => exact absurd hcase hkind
    | hasMany => rfl
    | manyToMany => rfl
  unfold scopedQuery
  rw [Option.getD_none, ofDescriptor_empty]
  show (r.scope owner >>= fun condition => _) = _
  rw [hscope]
  rfl

/-- The expansion of an accessor is that of its condition. -/
theorem ofQuery_scopeQuery (key : Value) :
    ofQuery r.target.mapping.schema r.target.mapping.config.dateStorage r.target.model
        (r.scopeQuery key)
      = r.resolved >>= fun resolved => .ok ⟨.select (r.scopeSelect key resolved),
        some (countSelect r.target.model r.base (r.scopeSelect key resolved).joins
          (r.scopeSelect key resolved).predicates), [], r.base.aliasName⟩ := by
  unfold ofQuery
  show (resolveConditions _ _ r.base _ [.equal r.relation.foreignKey key] [] >>= _) = _
  unfold resolveConditions
  show ((r.resolved >>= _) >>= _) = _
  cases r.resolved with
  | error e => rfl
  | ok resolved =>
    obtain ⟨column, link?⟩ := resolved
    cases link? <;> rfl

/-- The value to which the key of an owner is bound where it is compared with a column. -/
def boundKey (r : Related) (key : Value) (column : ColumnRef) : Value :=
  boundValue r.target.model r.base r.target.mapping.config.dateStorage column key

theorem scopeSelect_predicates (resolved : ColumnRef × Option Link) :
    (r.scopeSelect key resolved).predicates
      = [⟨resolved.1, .equal, some (r.boundKey key resolved.1), []⟩] :=
  congrArg ([·]) (predicate_eq resolved.1 _)

theorem joinsTables_scopeSelect (resolved : ColumnRef × Option Link) :
    JoinsTables (r.scopeSelect key resolved).joins :=
  joinsTables_linkJoins [resolved] joinsTables_nil

/-- If the foreign key of its relation can be resolved, an accessor has a statement. -/
theorem compiles_of_resolved (hkind : r.relation.kind ≠ .belongsTo)
    (hkey : owner.primaryKey? = some key) {resolved : ColumnRef × Option Link}
    (h : r.resolved = .ok resolved) : r.Compiles owner (r.scopeSelect key resolved) := by
  have hquery : r.scopedQuery owner none = .ok (r.scopeQuery key) := scopedQuery_none hkind hkey
  have hexpansion := ofQuery_scopeQuery (r := r) key
  rw [h] at hexpansion
  have hjoins : JoinsTables (r.scopeSelect key resolved).joins := joinsTables_scopeSelect resolved
  have hwritten (tables : List TableRef) : ∀ p ∈ (r.scopeSelect key resolved).predicates,
      ∃ ps, (p.stored r.target.mapping.schema tables).pieces = .ok ps := by
    intro p hp
    rw [scopeSelect_predicates] at hp
    rw [List.mem_singleton.mp hp]
    exact ⟨_, equal_pieces _ _⟩
  obtain ⟨st, hst⟩ := exists_statement hjoins (hwritten _)
  -- the count is written as well, or else nothing would be prepared
  obtain ⟨count, hcount⟩ : ∃ count, ((Tree.select (countSelect r.target.model r.base
      (r.scopeSelect key resolved).joins (r.scopeSelect key resolved).predicates)).stored
      r.target.mapping.schema).statement = .ok count := exists_statement hjoins (hwritten _)
  have hprepare : r.target.prepareQuery (r.scopeQuery key)
      = .ok ⟨st, some count, [], r.base.aliasName, (r.scopeQuery key).limit?,
        (r.scopeQuery key).offset?⟩ :=
    bind_eq_ok.mpr ⟨_, hexpansion, bind_eq_ok.mpr ⟨some count,
      map_eq_ok.mpr ⟨count, hcount, rfl⟩, bind_eq_ok.mpr ⟨st, hst, rfl⟩⟩⟩
  refine ⟨_, _, st, hquery, hexpansion, rfl, ?_, hst⟩
  exact bind_eq_ok.mpr ⟨_, bind_eq_ok.mpr ⟨_, hquery, hprepare⟩, rfl⟩

/-- The statement of an accessor is that of its resolved condition. -/
theorem resolved_of_compiles (hkind : r.relation.kind ≠ .belongsTo)
    (hkey : owner.primaryKey? = some key) {s : Select} (h : r.Compiles owner s) :
    ∃ resolved, r.resolved = .ok resolved ∧ s = r.scopeSelect key resolved := by
  obtain ⟨query, expansion, -, hquery, hexpansion, htree, -⟩ := h
  obtain rfl := Except.ok.inj ((scopedQuery_none hkind hkey).symm.trans hquery)
  rw [ofQuery_scopeQuery] at hexpansion
  obtain ⟨resolved, hresolved, hexpansion⟩ := bind_eq_ok.mp hexpansion
  refine ⟨resolved, hresolved, ?_⟩
  rw [← Except.ok.inj hexpansion] at htree
  exact (Tree.select.inj htree).symm

/-- A resolved condition is on the column that holds the owner's key exactly if it was resolved to
the place of the relation's key. -/
theorem holdsKey_scopeSelect {resolved : ColumnRef × Option Link}
    (hresolved : r.resolved = .ok resolved) :
    HoldsKey r.target.model r.relation (r.scopeSelect key resolved) resolved.1
      ↔ placeOf resolved = r.relation.keyPlace r.target.model := by
  obtain ⟨⟨table, name⟩, link?⟩ := resolved
  have halias := (followsLink_resolveKey hresolved).2
  unfold HoldsKey Relation.keyPlace
  cases r.relation.junction? with
  | none =>
    -- the key lies in the target, so nothing may be joined
    cases link? with
    | none =>
      constructor
      · intro h
        obtain ⟨-, hcolumn⟩ := h
        obtain ⟨htable, hname⟩ := ColumnRef.mk.inj hcolumn
        show Place.mk table name none = _
        rw [htable, hname]
        rfl
      · intro hplace
        obtain ⟨rfl, rfl, -⟩ := Place.mk.inj hplace
        exact ⟨rfl, rfl⟩
    | some link =>
      constructor
      · intro h
        obtain ⟨hjoins, -⟩ := h
        exact absurd hjoins nofun
      · intro hplace
        exact absurd (Place.mk.inj hplace).2.2 nofun
  | some j =>
    -- the key lies in the junction, so this has to be joined
    cases link? with
    | none =>
      constructor
      · intro h
        obtain ⟨_, _, hjoins, -⟩ := h
        exact absurd hjoins nofun
      · intro hplace
        exact absurd (Place.mk.inj hplace).2.2 nofun
    | some link =>
      obtain ⟨⟨linked, aliasName, model?⟩, linkKey⟩ := link
      obtain rfl : table = aliasName := halias _ rfl
      constructor
      · intro h
        obtain ⟨aliasName, _, hjoins, hcolumn⟩ := h
        have hjoin := (List.cons.inj hjoins).1
        have hlinked : linked = j.table := congrArg (·.table.table) hjoin
        have hon := (List.cons.inj (congrArg Join.on hjoin)).1
        have hkey : linkKey = j.key := congrArg (·.1.column) hon
        show Place.mk linked name (some linkKey) = _
        rw [hlinked, (ColumnRef.mk.inj hcolumn).2, hkey]
      · intro hplace
        obtain ⟨rfl, rfl, hkey⟩ := Place.mk.inj hplace
        obtain rfl : linkKey = j.key := Option.some.inj hkey
        exact ⟨table, model?, rfl, rfl⟩

/-- The select of an accessor is scoped by its relation exactly if its condition was resolved to the
place of the relation's key and binds the value that is stored there. -/
theorem scopedBy_scopeSelect {resolved : ColumnRef × Option Link}
    (hresolved : r.resolved = .ok resolved) :
    ScopedBy r.target.mapping.schema r.target.mapping.config.dateStorage r.target.model r.relation
        key (r.scopeSelect key resolved)
      ↔ placeOf resolved = r.relation.keyPlace r.target.model
        ∧ r.boundKey key resolved.1 = r.relation.storedKey r.target.mapping.schema
          r.target.mapping.config.dateStorage r.target.model key := by
  rw [← @holdsKey_scopeSelect r key resolved hresolved]
  constructor
  · intro h
    obtain ⟨-, -, column, hholds, hpredicates⟩ := h
    rw [scopeSelect_predicates] at hpredicates
    have hequal := Predicate.mk.inj (List.cons.inj hpredicates).1
    rw [← hequal.1] at hholds
    exact ⟨hholds, Option.some.inj hequal.2.2.1⟩
  · intro h
    obtain ⟨hholds, hbound⟩ := h
    refine ⟨rfl, rfl, resolved.1, hholds, ?_⟩
    rw [scopeSelect_predicates, hbound]

/-- **When an accessor queries its own relation.** The statement of the accessor of a relation to
many selects the targets whose relation holds the key of the owner exactly if two things are so.
Looked up among the relations of the target, the name of the foreign key must stand for the place
where this relation keeps the key; and the key must be bound there in the form in which it is
stored. -/
theorem compile_scoped_iff (hkind : r.relation.kind ≠ .belongsTo)
    (hkey : owner.primaryKey? = some key) :
    (∃ s, r.Compiles owner s
        ∧ ScopedBy r.target.mapping.schema r.target.mapping.config.dateStorage r.target.model
          r.relation key s)
      ↔ filterPlace? r.target.mapping.schema r.target.model r.relation.foreignKey
          = some (r.relation.keyPlace r.target.model)
        ∧ ∀ resolved, r.resolved = .ok resolved →
          r.boundKey key resolved.1 = r.relation.storedKey r.target.mapping.schema
            r.target.mapping.config.dateStorage r.target.model key := by
  have hplace : filterPlace? r.target.mapping.schema r.target.model r.relation.foreignKey
      = r.resolved.toOption.map placeOf := filterPlace?_eq r.relation.foreignKey
  rw [hplace]
  constructor
  · intro h
    obtain ⟨s, hcompiles, hscoped⟩ := h
    -- the select is determined by what the foreign key was resolved to
    obtain ⟨resolved, hresolved, rfl⟩ := resolved_of_compiles hkind hkey hcompiles
    obtain ⟨hat, hbound⟩ := (scopedBy_scopeSelect hresolved).mp hscoped
    constructor
    · rw [hresolved, ← hat]
      rfl
    · intro other hother
      rwa [← Except.ok.inj (hresolved.symm.trans hother)]
  · intro h
    obtain ⟨hat, hbound⟩ := h
    cases hresolved : r.resolved with
    | error e => rw [hresolved] at hat; exact absurd hat nofun
    | ok resolved =>
      rw [hresolved] at hat
      exact ⟨_, compiles_of_resolved hkind hkey hresolved, (scopedBy_scopeSelect hresolved).mpr
        ⟨Option.some.inj hat, hbound resolved hresolved⟩⟩

/-- Users, with the posts that they wrote and the posts that they liked. Both relations have the
foreign key `user_id`, in different tables. -/
def likes : Schema where
  models := [("Post", ⟨"Post", some "posts", "id", []⟩),
    ("PostUser", ⟨"PostUser", some "post_user", "id", []⟩),
    ("User", ⟨"User", some "users", "id", []⟩)]
  relations := ⟨[⟨.hasMany, "posts", "User", "Post", "user_id", none⟩,
    ⟨.hasMany, "liked", "User", "Post", "user_id",
      some ⟨"PostUser", "post_user", "post_id"⟩⟩], []⟩

/-- A user. -/
def someUser : Record := .ofValues ⟨"User", some "users", "id", []⟩ [("id", .int 7)]

/-- The accessor of a relation to posts. -/
def toPosts (relation : Relation) : Related where
  relation
  target := {
    mapping := { schema := likes, config := .default, valid := Config.validate_default }
    model := ⟨"Post", some "posts", "id", []⟩ }

/-- The accessor of written posts is scoped by its relation. The one of liked posts is not: its
foreign key is taken for the one of written posts, which were declared before. -/
theorem compile_scoped_iff_likes : ∃ written liked,
    likes.relation? "User" "posts" = some written ∧ likes.relation? "User" "liked" = some liked
      ∧ written.kind ≠ .belongsTo ∧ liked.kind ≠ .belongsTo
      ∧ someUser.primaryKey? = some (.int 7)
      ∧ (∃ s, (toPosts written).Compiles someUser s
        ∧ ScopedBy likes .epoch ⟨"Post", some "posts", "id", []⟩ written (.int 7) s)
      ∧ ¬ ∃ s, (toPosts liked).Compiles someUser s
        ∧ ScopedBy likes .epoch ⟨"Post", some "posts", "id", []⟩ liked (.int 7) s := by
  refine ⟨⟨.hasMany, "posts", "User", "Post", "user_id", none⟩,
    ⟨.hasMany, "liked", "User", "Post", "user_id", some ⟨"PostUser", "post_user", "post_id"⟩⟩,
    rfl, rfl, by decide, by decide, rfl, ?_, ?_⟩
  · refine (@compile_scoped_iff (toPosts _) someUser (.int 7) (by decide) rfl).mpr ⟨rfl, ?_⟩
    rintro _ ⟨⟩
    rfl
  · intro hscoped
    have hplace :=
      ((@compile_scoped_iff (toPosts _) someUser (.int 7) (by decide) rfl).mp hscoped).1
    exact absurd hplace (by decide)

end Related

end RecordMapping
