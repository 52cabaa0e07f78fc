import Mathlib.Data.List.Forall2
import Mathlib.Logic.Function.Basic
import SyncPlus.Lib.Checks

/-!
# Tables and schema changes

A database of named tables and indexes, and the statements that change its schema:
they create a table or an index, or add a column to the rows that are there. A change
may be left out where what it makes is there already; any other fails there, and a
change that fails has no effect.

`Built schema made allowed db` describes a database by the statements: it has what
those of `made` make, and nothing but what those of `allowed` make, with whatever rows
the constraints of the schema admit. Whether further changes go through is then decided
by the lists of statements alone (`InOrder`), and none of them touches a value that was
there (`Built.applyAll`).
-/

namespace SyncPlus

/-! ## Rows -/

inductive SqlValue where
  | null
  | integer (value : Int64)
  | text (value : String)
  | blob (bytes : List UInt8)
  deriving DecidableEq

/-- The value of each column. -/
abbrev SqlRow := String → SqlValue

structure ColumnDefinition where
  name : String
  default : SqlValue
  /-- `NOT NULL`, and the checks that read this column alone. -/
  allows : SqlValue → Bool

/-- A check of the values in some columns. -/
structure RowCheck where
  columns : List String
  holds : List SqlValue → Bool

structure TableDefinition where
  columns : List ColumnDefinition
  /-- The checks that read several columns. -/
  checks : List RowCheck
  /-- The columns of each `PRIMARY KEY` and `UNIQUE` constraint. -/
  keys : List (List String)

structure IndexDefinition (T : Type) where
  table : T
  columns : List String
  /-- Which rows a unique index is of. -/
  unique : Option RowCheck

structure SqlTable where
  definition : TableDefinition
  rows : List SqlRow

def RowCheck.admits (check : RowCheck) (row : SqlRow) : Bool := check.holds (check.columns.map row)

/-- The rows have the same values in these columns, none of them null. -/
def SameKey (key : List String) (row row' : SqlRow) : Prop :=
  ∀ name ∈ key, row name ≠ .null ∧ row' name = row name

instance (key : List String) (row row' : SqlRow) : Decidable (SameKey key row row') :=
  inferInstanceAs (Decidable (∀ name ∈ key, _ ∧ _))

namespace TableDefinition

variable (definition : TableDefinition)

def names : List String := definition.columns.map (·.name)

/-- With more columns, after those that are there. -/
def extend (added : List ColumnDefinition) : TableDefinition :=
  { definition with columns := definition.columns ++ added }

def Allows (row : SqlRow) : Prop :=
  (∀ column ∈ definition.columns, column.allows (row column.name) = true) ∧
    ∀ check ∈ definition.checks, check.admits row = true

instance (row : SqlRow) : Decidable (definition.Allows row) :=
  inferInstanceAs (Decidable ((∀ _ ∈ _, _ = _) ∧ ∀ _ ∈ _, _ = _))

/-- A row of these values, and the defaults of the other columns. -/
def row (values : List (String × SqlValue)) : SqlRow := fun name =>
  match values.lookup name with
  | some value => value
  | none => ((definition.columns.find? fun column => column.name = name).map (·.default)).getD .null

/-- Checks and keys read columns of the table. -/
def Closed : Prop :=
  (∀ check ∈ definition.checks, check.columns ⊆ definition.names) ∧
    ∀ key ∈ definition.keys, key ⊆ definition.names

instance : Decidable definition.Closed :=
  inferInstanceAs (Decidable ((∀ check ∈ definition.checks, check.columns ⊆ definition.names) ∧
    ∀ key ∈ definition.keys, key ⊆ definition.names))

@[simp] theorem names_extend (added : List ColumnDefinition) :
    (definition.extend added).names = definition.names ++ added.map (·.name) := by
  simp [names, extend]

@[simp] theorem extend_nil : definition.extend [] = definition := by
  simp [extend]

theorem extend_extend (added added' : List ColumnDefinition) :
    (definition.extend added).extend added' = definition.extend (added ++ added') := by
  simp [extend]

variable {definition} in
theorem Closed.extend (h : definition.Closed) (added : List ColumnDefinition) :
    (definition.extend added).Closed := by
  have hnames : definition.names ⊆ (definition.extend added).names := by
    rw [names_extend]
    exact List.subset_append_left ..
  exact ⟨fun check hcheck name hname => hnames (h.1 check hcheck hname),
    fun key hkey name hname => hnames (h.2 key hkey hname)⟩

end TableDefinition

namespace IndexDefinition

variable {T : Type} (index : IndexDefinition T)

/-- A unique index keeps the rows that it is of apart. -/
def Separates (rows : List SqlRow) : Prop :=
  ∀ covers ∈ index.unique,
    (rows.filter covers.admits).Pairwise fun row row' => ¬ SameKey index.columns row row'

instance (rows : List SqlRow) : Decidable (index.Separates rows) :=
  inferInstanceAs (Decidable (∀ covers ∈ index.unique,
    (rows.filter covers.admits).Pairwise fun row row' => ¬ SameKey index.columns row row'))

/-- The index reads columns of its table. -/
def Closed (definition : TableDefinition) : Prop :=
  index.columns ⊆ definition.names ∧ ∀ covers ∈ index.unique, covers.columns ⊆ definition.names

instance (definition : TableDefinition) : Decidable (index.Closed definition) :=
  inferInstanceAs (Decidable (index.columns ⊆ definition.names ∧
    ∀ covers ∈ index.unique, covers.columns ⊆ definition.names))

end IndexDefinition

/-! ## Tables -/

namespace SqlTable

/-- The constraints of the table hold. -/
def Sound (table : SqlTable) : Prop :=
  (∀ row ∈ table.rows, table.definition.Allows row) ∧
    ∀ key ∈ table.definition.keys, table.rows.Pairwise fun row row' => ¬ SameKey key row row'

instance (table : SqlTable) : Decidable table.Sound :=
  inferInstanceAs (Decidable (_ ∧ ∀ _ ∈ _, _))

/-- A new last column, with values for the rows that are there. -/
def fillColumn (table : SqlTable) (column : ColumnDefinition) (fill : SqlRow → SqlValue) :
    SqlTable where
  definition := table.definition.extend [column]
  rows := table.rows.map fun row => Function.update row column.name (fill row)

def addColumn (table : SqlTable) (column : ColumnDefinition) : SqlTable :=
  table.fillColumn column fun _ => column.default

/-- Every column is still there, and every row with its values. -/
structure Extends (before after : SqlTable) : Prop where
  columns : before.definition.names ⊆ after.definition.names
  rows : ∀ row ∈ before.rows, ∃ row' ∈ after.rows,
    ∀ name ∈ before.definition.names, row' name = row name

variable {before after other table : SqlTable} {column : ColumnDefinition}
  {fill : SqlRow → SqlValue}

theorem Extends.refl (table : SqlTable) : table.Extends table :=
  ⟨List.Subset.refl _, fun row hrow => ⟨row, hrow, fun _ _ => rfl⟩⟩

theorem Extends.trans (h : before.Extends after) (h' : after.Extends other) :
    before.Extends other := by
  refine ⟨fun name hname => h'.columns (h.columns hname), fun row hrow => ?_⟩
  obtain ⟨row', hrow', heq⟩ := h.rows row hrow
  obtain ⟨row'', hrow'', heq'⟩ := h'.rows row' hrow'
  exact ⟨row'', hrow'', fun name hname => (heq' name (h.columns hname)).trans (heq name hname)⟩

theorem update_of_not_mem {key : List String} {name : String} {value : SqlValue} {row : SqlRow}
    (hname : name ∉ key) : ∀ name' ∈ key, Function.update row name value name' = row name' := by
  intro name' hname'
  refine Function.update_of_ne ?_ _ _
  rintro rfl
  exact hname hname'

/-- More columns, and the same rows otherwise. -/
structure Widens (before after : SqlTable) : Prop where
  columns : before.definition.names ⊆ after.definition.names
  rows : List.Forall₂ (fun row row' => ∀ name ∈ before.definition.names, row' name = row name)
    before.rows after.rows

theorem Widens.refl (table : SqlTable) : table.Widens table :=
  ⟨List.Subset.refl _, List.forall₂_same.mpr fun _ _ _ _ => rfl⟩

theorem Widens.trans (h : before.Widens after) (h' : after.Widens other) :
    before.Widens other := by
  refine ⟨fun name hname => h'.columns (h.columns hname), ?_⟩
  have hrows := List.forall₂_iff_get.mp h.rows
  have hrows' := List.forall₂_iff_get.mp h'.rows
  refine List.forall₂_iff_get.mpr ⟨hrows.1.trans hrows'.1, fun i hi hi'' name hname => ?_⟩
  have hi' : i < after.rows.length := hrows.1 ▸ hi
  exact (hrows'.2 i hi' hi'' name (h.columns hname)).trans (hrows.2 i hi hi' name hname)

theorem Widens.extends (h : before.Widens after) : before.Extends after := by
  refine ⟨h.columns, fun row hrow => ?_⟩
  obtain ⟨i, hi, rfl⟩ := List.getElem_of_mem hrow
  have hrows := List.forall₂_iff_get.mp h.rows
  have hi' : i < after.rows.length := hrows.1 ▸ hi
  exact ⟨after.rows[i], List.getElem_mem hi', fun name hname => hrows.2 i hi hi' name hname⟩

/-- The values in a column that was there are the same. -/
theorem Widens.map_eq (h : before.Widens after) {name : String}
    (hname : name ∈ before.definition.names) :
    after.rows.map (fun row => row name) = before.rows.map fun row => row name := by
  have hrows := h.rows
  generalize before.rows = rows at hrows
  generalize after.rows = rows' at hrows
  induction hrows with
  | nil => rfl
  | cons hrow _ ih => rw [List.map_cons, List.map_cons, hrow name hname, ih]

theorem widens_fillColumn (hnew : column.name ∉ table.definition.names) :
    table.Widens (table.fillColumn column fill) := by
  refine ⟨?_, List.forall₂_map_right_iff.mpr (List.forall₂_same.mpr fun row _ name hname => ?_)⟩
  · simp [fillColumn]
  · exact update_of_not_mem hnew name hname

theorem sound_nil (definition : TableDefinition) : (⟨definition, []⟩ : SqlTable).Sound :=
  ⟨nofun, fun _ _ => .nil⟩

/-- Rows are kept apart by what they have in the columns of the key. -/
theorem sameKey_congr {key : List String} {row₁ row₂ row₁' row₂' : SqlRow}
    (h₁ : ∀ name ∈ key, row₁' name = row₁ name) (h₂ : ∀ name ∈ key, row₂' name = row₂ name) :
    SameKey key row₁' row₂' ↔ SameKey key row₁ row₂ :=
  forall₂_congr fun name hname => by rw [h₁ name hname, h₂ name hname]

theorem admits_update {check : RowCheck} {name : String} {value : SqlValue} {row : SqlRow}
    (hname : name ∉ check.columns) :
    check.admits (Function.update row name value) = check.admits row := by
  exact congrArg check.holds (List.map_congr_left (update_of_not_mem hname))

theorem separates_fillColumn {T : Type} {index : IndexDefinition T}
    (hclosed : index.Closed table.definition) (h : index.Separates table.rows)
    (hnew : column.name ∉ table.definition.names) :
    index.Separates (table.fillColumn column fill).rows := by
  intro covers hcovers
  have hcovered : ∀ row : SqlRow,
      covers.admits (Function.update row column.name (fill row)) = covers.admits row :=
    fun _ => admits_update fun hmem => hnew (hclosed.2 covers hcovers hmem)
  show ((table.rows.map fun row => Function.update row column.name (fill row)).filter
    covers.admits).Pairwise _
  rw [List.filter_map, List.pairwise_map]
  have hfilter : covers.admits ∘ (fun row : SqlRow =>
      Function.update row column.name (fill row)) = covers.admits := funext hcovered
  rw [hfilter]
  have hkey := fun hmem => hnew (hclosed.1 hmem)
  refine (h covers hcovers).imp fun hdiffer => ?_
  rwa [sameKey_congr (update_of_not_mem hkey) (update_of_not_mem hkey)]

theorem sound_fillColumn (hclosed : table.definition.Closed) (h : table.Sound)
    (hnew : column.name ∉ table.definition.names)
    (hfill : ∀ row ∈ table.rows, column.allows (fill row) = true) :
    (table.fillColumn column fill).Sound := by
  have hother : ∀ {row : SqlRow} {name : String}, name ∈ table.definition.names →
      Function.update row column.name (fill row) name = row name :=
    fun hname => update_of_not_mem hnew _ hname
  constructor
  · intro row' hrow'
    obtain ⟨row, hrow, rfl⟩ := List.mem_map.mp hrow'
    obtain ⟨hcolumns, hchecks⟩ := h.1 row hrow
    refine ⟨fun c hc => ?_, fun check hcheck => ?_⟩
    · rcases List.mem_append.mp hc with hc | hc
      · rw [hother (List.mem_map_of_mem hc)]
        exact hcolumns c hc
      · obtain rfl := List.mem_singleton.mp hc
        rw [Function.update_self]
        exact hfill row hrow
    · rw [admits_update fun hmem => hnew (hclosed.1 check hcheck hmem)]
      exact hchecks check hcheck
  · intro key hkey
    have hread := fun hmem => hnew (hclosed.2 key hkey hmem)
    refine List.pairwise_map.mpr ((h.2 key hkey).imp fun hdiffer => ?_)
    rwa [sameKey_congr (update_of_not_mem hread) (update_of_not_mem hread)]

end SqlTable

/-! ## Databases -/

structure Schema (T I : Type) where
  table : T → TableDefinition
  index : I → IndexDefinition T
  names : List T
  indexNames : List I
  mem_names : ∀ name, name ∈ names
  mem_indexNames : ∀ name, name ∈ indexNames
  closed : ∀ name, (table name).Closed
  indexClosed : ∀ name, (index name).Closed (table (index name).table)

structure SqlDatabase (T I : Type) where
  tables : T → Option SqlTable
  indexes : I → Bool
  version : Int

inductive SqlError where
  | alreadyExists
  | noSuchTable
  | noSuchColumn
  | constraint
  | typeMismatch
  | unavailable
  deriving DecidableEq

inductive SchemaStatement (T I : Type) where
  | createTable (name : T)
  | createIndex (name : I)
  | addColumn (table : T) (column : ColumnDefinition)

/-- A statement, which may be left out where what it makes is there. -/
structure SchemaChange (T I : Type) where
  statement : SchemaStatement T I
  ifMissing : Bool

variable {T I : Type}

namespace SqlDatabase

def empty : SqlDatabase T I := ⟨fun _ => none, fun _ => false, 0⟩

/-- The tables of these names are still there, with every column and every row. -/
def ExtendsOn (on : T → Prop) (before after : SqlDatabase T I) : Prop :=
  ∀ name, on name → ∀ table, before.tables name = some table →
    ∃ table', after.tables name = some table' ∧ table.Extends table'

variable {before after other : SqlDatabase T I} {on : T → Prop}

theorem ExtendsOn.refl : before.ExtendsOn on before :=
  fun _ _ table htable => ⟨table, htable, .refl table⟩

theorem ExtendsOn.trans (h : before.ExtendsOn on after) (h' : after.ExtendsOn on other) :
    before.ExtendsOn on other := by
  intro name hon table htable
  obtain ⟨table', htable', hextends⟩ := h name hon table htable
  obtain ⟨table'', htable'', hextends'⟩ := h' name hon table' htable'
  exact ⟨table'', htable'', hextends.trans hextends'⟩

/-- The tables that were there have the same rows, and others have none. -/
structure Widens (before after : SqlDatabase T I) : Prop where
  tables : ∀ name table, before.tables name = some table →
    ∃ table', after.tables name = some table' ∧ table.Widens table'
  created : ∀ name table', before.tables name = none → after.tables name = some table' →
    table'.rows = []

theorem Widens.refl : before.Widens before where
  tables _ table htable := ⟨table, htable, .refl table⟩
  created name table' hnone htable := by rw [hnone] at htable; cases htable

theorem Widens.trans (h : before.Widens after) (h' : after.Widens other) :
    before.Widens other where
  tables name table htable := by
    obtain ⟨table', htable', hwidens⟩ := h.tables name table htable
    obtain ⟨table'', htable'', hwidens'⟩ := h'.tables name table' htable'
    exact ⟨table'', htable'', hwidens.trans hwidens'⟩
  created name table'' hnone htable'' := by
    cases htable' : after.tables name with
    | none => exact h'.created name table'' htable' htable''
    | some table' =>
        have hempty := h.created name table' hnone htable'
        obtain ⟨table, htable, hwidens⟩ := h'.tables name table' htable'
        obtain rfl : table = table'' := Option.some.inj (htable.symm.trans htable'')
        have hrows := hwidens.rows
        rw [hempty] at hrows
        exact List.forall₂_nil_left_iff.mp hrows

theorem Widens.extendsOn (h : before.Widens after) : before.ExtendsOn on after := by
  intro name _ table htable
  obtain ⟨table', htable', hwidens⟩ := h.tables name table htable
  exact ⟨table', htable', hwidens.extends⟩

variable (schema : Schema T I) (db : SqlDatabase T I)

/-- Every constraint holds. -/
structure Intact : Prop where
  sound : ∀ name table, db.tables name = some table → table.Sound
  separated : ∀ name table, db.indexes name = true →
    db.tables (schema.index name).table = some table → (schema.index name).Separates table.rows

instance : Decidable (db.Intact schema) :=
  decidable_of_iff ((∀ name ∈ schema.names, ∀ table ∈ db.tables name, table.Sound) ∧
      ∀ name ∈ schema.indexNames, ∀ table ∈ db.tables (schema.index name).table,
        db.indexes name = true → (schema.index name).Separates table.rows)
    ⟨fun h => ⟨fun name => h.1 name (schema.mem_names name),
        fun name table hindex htable => h.2 name (schema.mem_indexNames name) table htable hindex⟩,
      fun h => ⟨fun name _ => h.sound name,
        fun name _ table htable hindex => h.separated name table hindex htable⟩⟩

/-- What the statement makes is there. -/
def Has : SchemaStatement T I → Prop
  | .createTable name => (db.tables name).isSome = true
  | .createIndex name => db.indexes name = true
  | .addColumn name column => ∃ table ∈ db.tables name, column.name ∈ table.definition.names

instance : (statement : SchemaStatement T I) → Decidable (db.Has statement)
  | .createTable name => inferInstanceAs (Decidable ((db.tables name).isSome = true))
  | .createIndex name => inferInstanceAs (Decidable (db.indexes name = true))
  | .addColumn name column => inferInstanceAs
      (Decidable (∃ table ∈ db.tables name, column.name ∈ table.definition.names))

section

variable [DecidableEq T]

def setTable (name : T) (table : Option SqlTable) : SqlDatabase T I :=
  { db with tables := Function.update db.tables name table }

@[simp] theorem setTable_self (name : T) (table : Option SqlTable) :
    (db.setTable name table).tables name = table := Function.update_self ..

variable {db}

theorem setTable_of_ne {name name' : T} {table : Option SqlTable} (h : name' ≠ name) :
    (db.setTable name table).tables name' = db.tables name' := Function.update_of_ne h ..

theorem setTable_setTable (name : T) (table table' : Option SqlTable) :
    (db.setTable name table).setTable name table' = db.setTable name table' := by
  simp [setTable]

@[simp] theorem setTable_indexes (name : T) (table : Option SqlTable) :
    (db.setTable name table).indexes = db.indexes := rfl

@[simp] theorem setTable_version (name : T) (table : Option SqlTable) :
    (db.setTable name table).version = db.version := rfl

theorem widens_setTable {name : T} {table' : SqlTable}
    (h : ∀ table, db.tables name = some table → table.Widens table')
    (hnew : db.tables name = none → table'.rows = []) :
    db.Widens (db.setTable name (some table')) := by
  constructor
  · intro name' table htable
    by_cases hname : name' = name
    · subst hname
      exact ⟨table', setTable_self .., h table htable⟩
    · exact ⟨table, (setTable_of_ne hname).trans htable, .refl table⟩
  · intro name' table'' hnone htable
    by_cases hname : name' = name
    · subst hname
      rw [setTable_self, Option.some.injEq] at htable
      exact htable ▸ hnew hnone
    · rw [setTable_of_ne hname, hnone] at htable
      cases htable

theorem extendsOn_setTable {name : T} {table table' : SqlTable} {on : T → Prop}
    (htable : db.tables name = some table) (h : table.Extends table') :
    db.ExtendsOn on (db.setTable name (some table')) := by
  intro name' _ old hold
  by_cases hname : name' = name
  · subst hname
    obtain rfl : table = old := Option.some.inj (htable.symm.trans hold)
    exact ⟨table', setTable_self .., h⟩
  · exact ⟨old, (setTable_of_ne hname).trans hold, .refl old⟩

theorem extendsOn_setTable_of_not {name : T} {table : Option SqlTable} {on : T → Prop}
    (hname : ¬ on name) : db.ExtendsOn on (db.setTable name table) := by
  intro name' hon table' htable'
  refine ⟨table', (setTable_of_ne ?_).trans htable', .refl table'⟩
  rintro rfl
  exact hname hon

variable (db)

/-- Other rows in a table, when the constraints and the unique indexes admit them. -/
def write (name : T) (rows : List SqlRow) : Except SqlError (SqlDatabase T I) := do
  let table ← orError (db.tables name) .noSuchTable
  ensure (SqlTable.Sound ⟨table.definition, rows⟩) .constraint
  ensure (∀ index ∈ schema.indexNames, db.indexes index = true →
    (schema.index index).table = name → (schema.index index).Separates rows) .constraint
  return db.setTable name (some ⟨table.definition, rows⟩)

def renameTable (source target : T) : Except SqlError (SqlDatabase T I) := do
  let table ← orError (db.tables source) .noSuchTable
  ensure (db.tables target = none) .alreadyExists
  return (db.setTable source none).setTable target (some table)

def dropTable (name : T) : Except SqlError (SqlDatabase T I) := do
  let _ ← orError (db.tables name) .noSuchTable
  return db.setTable name none

variable {schema db} in
/-- Rows that keep the constraints are written. -/
theorem write_eq_ok {name : T} {table : SqlTable}
    (htable : db.tables name = some table) {rows : List SqlRow}
    (hsound : SqlTable.Sound ⟨table.definition, rows⟩)
    (hseparated : ∀ index, (schema.index index).table = name →
      (schema.index index).Separates rows) :
    db.write schema name rows = .ok (db.setTable name (some ⟨table.definition, rows⟩)) := by
  have hindexes : ∀ index ∈ schema.indexNames, db.indexes index = true →
      (schema.index index).table = name → (schema.index index).Separates rows :=
    fun index _ _ => hseparated index
  simp only [SqlDatabase.write, htable, orError_some, ok_bind, ensure_of hsound,
    ensure_of hindexes]
  rfl

variable [DecidableEq I]

def make : SchemaStatement T I → Except SqlError (SqlDatabase T I)
  | .createTable name => .ok (db.setTable name (some ⟨schema.table name, []⟩))
  | .createIndex name => do
      let table ← orError (db.tables (schema.index name).table) .noSuchTable
      ensure ((schema.index name).columns ⊆ table.definition.names) .noSuchColumn
      ensure ((schema.index name).Separates table.rows) .constraint
      return { db with indexes := Function.update db.indexes name true }
  | .addColumn name column => do
      let table ← orError (db.tables name) .noSuchTable
      ensure (table.rows = [] ∨ column.allows column.default = true) .constraint
      return db.setTable name (some (table.addColumn column))

def apply (change : SchemaChange T I) : Except SqlError (SqlDatabase T I) :=
  if db.Has change.statement then
    if change.ifMissing then .ok db else .error .alreadyExists
  else db.make schema change.statement

variable {schema db} in
theorem apply_of_not_has {change : SchemaChange T I} (h : ¬ db.Has change.statement) :
    db.apply schema change = db.make schema change.statement :=
  if_neg h

variable {schema db} in
theorem make_addColumn {name : T} {column : ColumnDefinition} {table : SqlTable}
    (htable : db.tables name = some table) (hdefault : column.allows column.default = true) :
    db.make schema (.addColumn name column) =
      .ok (db.setTable name (some (table.addColumn column))) := by
  simp only [make, htable, orError_some, ok_bind, ensure_of (Or.inr hdefault)]
  rfl

def applyAll : List (SchemaChange T I) → SqlDatabase T I → Except SqlError (SqlDatabase T I)
  | [], db => .ok db
  | change :: rest, db => do
      let db ← db.apply schema change
      applyAll rest db

end

end SqlDatabase

/-! ## Statements in order -/

namespace SchemaStatement

variable (schema : Schema T I)

/-- What the one statement makes, the other makes as well. -/
def MadeBy : SchemaStatement T I → SchemaStatement T I → Prop
  | .createTable name, .createTable name' => name = name'
  | .createIndex name, .createIndex name' => name = name'
  | .addColumn name column, .createTable name' =>
      name = name' ∧ column.name ∈ (schema.table name').names
  | .addColumn name column, .addColumn name' column' => name = name' ∧ column.name = column'.name
  | _, _ => False

/-- The statement adds a column to the table. -/
def AddsTo (name : T) : SchemaStatement T I → Prop
  | .addColumn name' _ => name' = name
  | _ => False

instance [DecidableEq T] (name : T) : (s : SchemaStatement T I) → Decidable (s.AddsTo name)
  | .addColumn _ _ => inferInstanceAs (Decidable (_ = _))
  | .createTable _ | .createIndex _ => isFalse id

/-- What the statement needs is there once `made` were executed. -/
def Ready (made : List (SchemaStatement T I)) : SchemaStatement T I → Prop
  | .createTable _ => True
  | .createIndex name => ∃ s ∈ made, (createTable (schema.index name).table).MadeBy schema s
  | .addColumn name column =>
      (∃ s ∈ made, (createTable name).MadeBy schema s) ∧ column.allows column.default = true

variable [DecidableEq T] [DecidableEq I]

instance : (s s' : SchemaStatement T I) → Decidable (s.MadeBy schema s')
  | .createTable _, .createTable _ => inferInstanceAs (Decidable (_ = _))
  | .createIndex _, .createIndex _ => inferInstanceAs (Decidable (_ = _))
  | .addColumn name column, .createTable name' =>
      inferInstanceAs (Decidable (name = name' ∧ column.name ∈ (schema.table name').names))
  | .addColumn name column, .addColumn name' column' =>
      inferInstanceAs (Decidable (name = name' ∧ column.name = column'.name))
  | .createTable _, .createIndex _ | .createTable _, .addColumn .. | .createIndex _, .createTable _
  | .createIndex _, .addColumn .. | .addColumn .., .createIndex _ => isFalse id

instance (made : List (SchemaStatement T I)) :
    (s : SchemaStatement T I) → Decidable (s.Ready schema made)
  | .createTable _ => isTrue trivial
  | .createIndex _ => inferInstanceAs (Decidable (∃ s ∈ _, _))
  | .addColumn _ _ => inferInstanceAs (Decidable (_ ∧ _))

end SchemaStatement

/-- Every change finds what it needs, and makes what is not there yet or may be left
out, where the statements `made` were executed and perhaps those of `allowed`. -/
def InOrder (schema : Schema T I) : List (SchemaStatement T I) → List (SchemaStatement T I) →
    List (SchemaChange T I) → Prop
  | _, _, [] => True
  | made, allowed, change :: rest =>
      change.statement.Ready schema made ∧
        (change.ifMissing = false → ∀ s ∈ allowed, ¬ change.statement.MadeBy schema s) ∧
          InOrder schema (change.statement :: made) (change.statement :: allowed) rest

instance decideInOrder [DecidableEq T] [DecidableEq I] (schema : Schema T I) : (made allowed : List (SchemaStatement T I)) →
    (changes : List (SchemaChange T I)) → Decidable (InOrder schema made allowed changes)
  | _, _, [] => isTrue trivial
  | made, allowed, change :: rest =>
      have := decideInOrder schema (change.statement :: made) (change.statement :: allowed) rest
      inferInstanceAs (Decidable (_ ∧ _ ∧ _))

/-- The database has what the statements `made` make, nothing but what the statements
`allowed` make, and rows that keep the constraints, those of its later indexes
included. -/
structure Built (schema : Schema T I) (made allowed : List (SchemaStatement T I))
    (db : SqlDatabase T I) : Prop where
  has : ∀ s ∈ made, db.Has s
  only : ∀ s, db.Has s → ∃ s' ∈ allowed, s.MadeBy schema s'
  definition : ∀ name table, db.tables name = some table →
    ∃ added, table.definition = (schema.table name).extend added ∧
      ∀ column ∈ added, .addColumn name column ∈ allowed
  sound : ∀ name table, db.tables name = some table → table.Sound
  separated : ∀ name table, db.tables (schema.index name).table = some table →
    (schema.index name).Separates table.rows

namespace Built

variable {schema : Schema T I} {made allowed : List (SchemaStatement T I)} {db : SqlDatabase T I}
  {s s' : SchemaStatement T I}

theorem intact (h : Built schema made allowed db) : db.Intact schema :=
  ⟨h.sound, fun name table _ htable => h.separated name table htable⟩

theorem mono {made' allowed' : List (SchemaStatement T I)} (h : Built schema made allowed db)
    (hmade : made' ⊆ made) (hallowed : allowed ⊆ allowed') : Built schema made' allowed' db where
  has s hs := h.has s (hmade hs)
  only s hs := by
    obtain ⟨s', hs', hby⟩ := h.only s hs
    exact ⟨s', hallowed hs', hby⟩
  definition name table htable := by
    obtain ⟨added, hdefinition, hadded⟩ := h.definition name table htable
    exact ⟨added, hdefinition, fun column hcolumn => hallowed (hadded column hcolumn)⟩
  sound := h.sound
  separated := h.separated

/-- A table has the columns of its definition. -/
theorem names {name : T} {table : SqlTable} (h : Built schema made allowed db)
    (htable : db.tables name = some table) :
    (schema.table name).names ⊆ table.definition.names := by
  obtain ⟨added, hdefinition, -⟩ := h.definition name table htable
  rw [hdefinition, TableDefinition.names_extend]
  exact List.subset_append_left ..

theorem closed {name : T} {table : SqlTable} (h : Built schema made allowed db)
    (htable : db.tables name = some table) : table.definition.Closed := by
  obtain ⟨added, hdefinition, -⟩ := h.definition name table htable
  rw [hdefinition]
  exact (schema.closed name).extend added

/-- The definition of a table that no statement adds columns to. -/
theorem definition_eq {name : T} {table : SqlTable} (h : Built schema made allowed db)
    (hfixed : ∀ s ∈ allowed, ¬ s.AddsTo name) (htable : db.tables name = some table) :
    table.definition = schema.table name := by
  obtain ⟨added, hdefinition, hadded⟩ := h.definition name table htable
  cases added with
  | nil => rw [hdefinition, TableDefinition.extend_nil]
  | cons column _ => exact absurd rfl (hfixed _ (hadded column (.head _)))

/-- A row keeps the constraints of a column of the definition. -/
theorem allows {name : T} {table : SqlTable} (h : Built schema made allowed db)
    (htable : db.tables name = some table) {row : SqlRow} (hrow : row ∈ table.rows)
    {column : ColumnDefinition} (hcolumn : column ∈ (schema.table name).columns) :
    column.allows (row column.name) = true := by
  obtain ⟨added, hdefinition, -⟩ := h.definition name table htable
  refine ((h.sound name table htable).1 row hrow).1 column ?_
  rw [hdefinition]
  exact List.mem_append_left _ hcolumn

/-- A table that no statement creates is not there. -/
theorem tables_eq_none {name : T} (h : Built schema made allowed db)
    (hnever : ∀ s ∈ allowed, ¬ (SchemaStatement.createTable name).MadeBy schema s) :
    db.tables name = none := by
  by_contra hthere
  obtain ⟨s, hs, hby⟩ := h.only (.createTable name) (Option.isSome_iff_ne_none.mpr hthere)
  exact hnever s hs hby

/-- The number of the version is no part of what the statements make. -/
theorem setVersion (h : Built schema made allowed db) (version : Int) :
    Built schema made allowed { db with version } where
  has s hs := by
    match s, h.has s hs with
    | .createTable _, hhas | .createIndex _, hhas | .addColumn .., hhas => exact hhas
  only s hs := by
    match s, hs with
    | .createTable _, hhas | .createIndex _, hhas | .addColumn .., hhas => exact h.only _ hhas
  definition := h.definition
  sound := h.sound
  separated := h.separated

theorem has_of_madeBy (h : Built schema made allowed db) (hby : s.MadeBy schema s')
    (hs' : db.Has s') : db.Has s := by
  match s, s', hby with
  | .createTable _, .createTable _, hby =>
      obtain rfl : _ = _ := hby
      exact hs'
  | .createIndex _, .createIndex _, hby =>
      obtain rfl : _ = _ := hby
      exact hs'
  | .addColumn name column, .createTable name', ⟨heq, hname⟩ =>
      subst heq
      obtain ⟨table, htable⟩ := Option.isSome_iff_exists.mp hs'
      exact ⟨table, htable, h.names htable hname⟩
  | .addColumn name column, .addColumn name' column', ⟨heq, hname⟩ =>
      subst heq
      obtain ⟨table, htable, hcolumn⟩ := hs'
      exact ⟨table, htable, hname ▸ hcolumn⟩

/-- The table of a statement that was executed. -/
theorem table_of_made {name : T} (h : Built schema made allowed db)
    (hmade : ∃ s ∈ made, (SchemaStatement.createTable name).MadeBy schema s) :
    ∃ table, db.tables name = some table := by
  obtain ⟨s, hs, hby⟩ := hmade
  exact Option.isSome_iff_exists.mp (h.has_of_madeBy hby (h.has s hs))

/-- One more statement was executed. -/
theorem cons (h : Built schema made allowed db) (hs : db.Has s) :
    Built schema (s :: made) allowed db :=
  { h with
    has := by
      intro s' hs'
      rcases List.mem_cons.mp hs' with rfl | hs'
      · exact hs
      · exact h.has s' hs' }

/-- What is there already may be left out. -/
theorem skip (h : Built schema made allowed db) (hs : db.Has s) :
    Built schema (s :: made) (s :: allowed) db :=
  (h.mono (List.Subset.refl _) (List.subset_cons_self s allowed)).cons hs

section

variable [DecidableEq T]

/-- Another table of the name: its columns are those of the definition and others that
`allowed'` adds, and it has the columns that were there. -/
theorem setTable {name : T} {allowed' : List (SchemaStatement T I)}
    (h : Built schema made allowed db) (table' : SqlTable) (added : List ColumnDefinition)
    (hallowed : allowed ⊆ allowed')
    (hcreated : ∃ s ∈ allowed', (SchemaStatement.createTable name).MadeBy schema s)
    (hkept : ∀ table, db.tables name = some table →
      table.definition.names ⊆ table'.definition.names)
    (hdefinition : table'.definition = (schema.table name).extend added)
    (hadded : ∀ column ∈ added, .addColumn name column ∈ allowed') (hsound : table'.Sound)
    (hseparated : ∀ index, (schema.index index).table = name →
      (schema.index index).Separates table'.rows) :
    Built schema made allowed' (db.setTable name (some table')) := by
  have hkeep : ∀ {name' table}, db.tables name' = some table → ∃ table'',
      (db.setTable name (some table')).tables name' = some table'' ∧
        table.definition.names ⊆ table''.definition.names := by
    intro name' table htable
    by_cases hname : name' = name
    · subst hname
      exact ⟨table', SqlDatabase.setTable_self .., hkept table htable⟩
    · exact ⟨table, (SqlDatabase.setTable_of_ne hname).trans htable, List.Subset.refl _⟩
  have htables : ∀ {name' table}, (db.setTable name (some table')).tables name' = some table →
      (name' = name ∧ table = table') ∨ db.tables name' = some table := by
    intro name' table htable
    by_cases hname : name' = name
    · subst hname
      rw [SqlDatabase.setTable_self] at htable
      exact .inl ⟨rfl, (Option.some.inj htable).symm⟩
    · rw [SqlDatabase.setTable_of_ne hname] at htable
      exact .inr htable
  have honly : ∀ s, db.Has s → ∃ s' ∈ allowed', s.MadeBy schema s' := by
    intro s hs
    obtain ⟨s', hs', hby⟩ := h.only s hs
    exact ⟨s', hallowed hs', hby⟩
  refine ⟨fun s hs => ?_, fun s hs => ?_, fun name' table htable => ?_,
    fun name' table htable => ?_, fun index table htable => ?_⟩
  · match s, h.has s hs with
    | .createTable name', hhas =>
        obtain ⟨table, htable⟩ := Option.isSome_iff_exists.mp hhas
        obtain ⟨table'', htable'', -⟩ := hkeep htable
        exact Option.isSome_iff_exists.mpr ⟨table'', htable''⟩
    | .createIndex _, hhas => exact hhas
    | .addColumn name' _, ⟨table, htable, hcolumn⟩ =>
        obtain ⟨table'', htable'', hnames⟩ := hkeep htable
        exact ⟨table'', htable'', hnames hcolumn⟩
  · match s, hs with
    | .createTable name', hhas =>
        obtain ⟨table, htable⟩ := Option.isSome_iff_exists.mp hhas
        rcases htables htable with ⟨rfl, -⟩ | htable
        · exact hcreated
        · exact honly (.createTable name') (Option.isSome_iff_exists.mpr ⟨_, htable⟩)
    | .createIndex index, hhas => exact honly (.createIndex index) hhas
    | .addColumn name' column, ⟨table, htable, hcolumn⟩ =>
        rcases htables htable with ⟨rfl, rfl⟩ | htable
        · rw [hdefinition, TableDefinition.names_extend, List.mem_append] at hcolumn
          rcases hcolumn with hbase | hnew
          · obtain ⟨s', hs', hby⟩ := hcreated
            match s', hby with
            | .createTable _, hby =>
                obtain rfl : _ = _ := hby
                exact ⟨_, hs', rfl, hbase⟩
          · obtain ⟨column', hcolumn', heq⟩ := List.mem_map.mp hnew
            exact ⟨_, hadded column' hcolumn', rfl, heq.symm⟩
        · exact honly (.addColumn name' column) ⟨table, htable, hcolumn⟩
  · rcases htables htable with ⟨rfl, rfl⟩ | htable
    · exact ⟨added, hdefinition, hadded⟩
    · obtain ⟨added', hdefinition', hadded'⟩ := h.definition name' table htable
      exact ⟨added', hdefinition', fun column hcolumn => hallowed (hadded' column hcolumn)⟩
  · rcases htables htable with ⟨rfl, rfl⟩ | htable
    · exact hsound
    · exact h.sound name' table htable
  · rcases htables htable with ⟨heq, rfl⟩ | htable
    · exact hseparated index heq
    · exact h.separated index table htable

theorem createTable {name : T} (h : Built schema made allowed db)
    (hnew : ¬ db.Has (.createTable name)) :
    Built schema (.createTable name :: made) (.createTable name :: allowed)
      (db.setTable name (some ⟨schema.table name, []⟩)) := by
  have hnone : db.tables name = none := by
    rwa [SqlDatabase.Has, Option.not_isSome_iff_eq_none] at hnew
  have hset := h.setTable ⟨schema.table name, []⟩ []
    (List.subset_cons_self (.createTable name) allowed) ⟨.createTable name, .head _, rfl⟩
    (by simp [hnone]) (TableDefinition.extend_nil _).symm nofun (SqlTable.sound_nil _)
    fun _ _ _ _ => .nil
  exact hset.cons (by simp [SqlDatabase.Has])

theorem fillColumn {name : T} {column : ColumnDefinition} {table : SqlTable}
    {fill : SqlRow → SqlValue} (h : Built schema made allowed db)
    (htable : db.tables name = some table) (hnew : column.name ∉ table.definition.names)
    (hfill : ∀ row ∈ table.rows, column.allows (fill row) = true) :
    Built schema (.addColumn name column :: made) (.addColumn name column :: allowed)
      (db.setTable name (some (table.fillColumn column fill))) := by
  obtain ⟨added, hdefinition, hadded⟩ := h.definition name table htable
  have hcreated : ∃ s ∈ allowed, (SchemaStatement.createTable name).MadeBy schema s :=
    h.only (.createTable name) (Option.isSome_iff_exists.mpr ⟨table, htable⟩)
  obtain ⟨s, hs, hby⟩ := hcreated
  have hset := h.setTable (table.fillColumn column fill) (added ++ [column])
    (List.subset_cons_self (.addColumn name column) allowed) ⟨s, .tail _ hs, hby⟩ ?_ ?_ ?_
    (SqlTable.sound_fillColumn (h.closed htable) (h.sound name table htable) hnew hfill) ?_
  · exact hset.cons ⟨_, SqlDatabase.setTable_self .., by simp [SqlTable.fillColumn]⟩
  · intro table' htable'
    obtain rfl : table = table' := Option.some.inj (htable.symm.trans htable')
    exact (SqlTable.widens_fillColumn hnew).columns
  · show table.definition.extend [column] = _
    rw [hdefinition, TableDefinition.extend_extend]
  · intro column' hcolumn'
    rcases List.mem_append.mp hcolumn' with hold | hlast
    · exact .tail _ (hadded column' hold)
    · obtain rfl := List.mem_singleton.mp hlast
      exact .head _
  · rintro index rfl
    refine SqlTable.separates_fillColumn ?_ (h.separated index table htable) hnew
    obtain ⟨hcolumns, hcovers⟩ := schema.indexClosed index
    exact ⟨fun name hname => h.names htable (hcolumns hname),
      fun covers hmem name hname => h.names htable (hcovers covers hmem hname)⟩

/-- Other rows that keep the constraints. -/
theorem rows {name : T} {table : SqlTable} (h : Built schema made allowed db)
    (htable : db.tables name = some table) (rows : List SqlRow)
    (hsound : SqlTable.Sound ⟨table.definition, rows⟩)
    (hseparated : ∀ index, (schema.index index).table = name →
      (schema.index index).Separates rows) :
    Built schema made allowed (db.setTable name (some ⟨table.definition, rows⟩)) := by
  obtain ⟨added, hdefinition, hadded⟩ := h.definition name table htable
  refine h.setTable ⟨table.definition, rows⟩ added (List.Subset.refl _)
    (h.only (.createTable name) (Option.isSome_iff_exists.mpr ⟨table, htable⟩)) ?_ hdefinition
    hadded hsound hseparated
  intro table' htable'
  obtain rfl : table = table' := Option.some.inj (htable.symm.trans htable')
  exact List.Subset.refl _

end

variable [DecidableEq I]

theorem createIndex {name : I} (h : Built schema made allowed db) :
    Built schema (.createIndex name :: made) (.createIndex name :: allowed)
      { db with indexes := Function.update db.indexes name true } where
  has s hs := by
    rcases List.mem_cons.mp hs with rfl | hs
    · exact Function.update_self ..
    · match s, h.has s hs with
      | .createTable _, hhas => exact hhas
      | .createIndex name', hhas =>
          show Function.update db.indexes name true name' = true
          by_cases hname : name' = name
          · rw [hname, Function.update_self]
          · rw [Function.update_of_ne hname]
            exact hhas
      | .addColumn .., hhas => exact hhas
  only s hs := by
    have hold : db.Has s → ∃ s' ∈ SchemaStatement.createIndex name :: allowed,
        s.MadeBy schema s' := by
      intro hs
      obtain ⟨s', hs', hby⟩ := h.only s hs
      exact ⟨s', .tail _ hs', hby⟩
    match s, hs with
    | .createTable _, hhas => exact hold hhas
    | .createIndex name', hhas =>
        by_cases hname : name' = name
        · exact ⟨.createIndex name, .head _, hname⟩
        · exact hold ((Function.update_of_ne hname ..).symm.trans hhas)
    | .addColumn .., hhas => exact hold hhas
  definition name' table htable := by
    obtain ⟨added, hdefinition, hadded⟩ := h.definition name' table htable
    exact ⟨added, hdefinition, fun column hcolumn => .tail _ (hadded column hcolumn)⟩
  sound := h.sound
  separated := h.separated

variable [DecidableEq T]

/-- **One change** goes through when it finds what it needs and nothing that it makes. -/
theorem apply {change : SchemaChange T I} (h : Built schema made allowed db)
    (hready : change.statement.Ready schema made)
    (hnew : change.ifMissing = false → ∀ s ∈ allowed, ¬ change.statement.MadeBy schema s) :
    ∃ db', db.apply schema change = .ok db' ∧
      Built schema (change.statement :: made) (change.statement :: allowed) db' ∧
        db.Widens db' ∧ db'.version = db.version := by
  obtain ⟨statement, ifMissing⟩ := change
  by_cases hhas : db.Has statement
  · have hskip : ifMissing = true := by
      by_contra hfalse
      obtain ⟨s, hs, hby⟩ := h.only statement hhas
      exact hnew (Bool.eq_false_iff.mpr hfalse) s hs hby
    refine ⟨db, ?_, h.skip hhas, .refl, rfl⟩
    unfold SqlDatabase.apply
    rw [if_pos hhas, if_pos hskip]
  rw [SqlDatabase.apply_of_not_has hhas]
  cases statement with
  | createTable name =>
      refine ⟨_, rfl, h.createTable hhas, SqlDatabase.widens_setTable ?_ fun _ => rfl, rfl⟩
      intro table htable
      exact absurd (Option.isSome_iff_exists.mpr ⟨table, htable⟩) hhas
  | createIndex name =>
      obtain ⟨table, htable⟩ := h.table_of_made hready
      refine ⟨_, ?_, h.createIndex, ⟨SqlDatabase.Widens.refl.tables, SqlDatabase.Widens.refl.created⟩,
        rfl⟩
      have hcolumns : (schema.index name).columns ⊆ table.definition.names :=
        fun column hcolumn => h.names htable ((schema.indexClosed name).1 hcolumn)
      simp only [SqlDatabase.make, htable, orError_some, ok_bind, ensure_of hcolumns,
        ensure_of (h.separated name table htable)]
      rfl
  | addColumn name column =>
      obtain ⟨table, htable⟩ := h.table_of_made hready.1
      have hcolumn : column.name ∉ table.definition.names := fun hmem => hhas ⟨table, htable, hmem⟩
      refine ⟨_, ?_, h.fillColumn htable hcolumn fun _ _ => hready.2,
        SqlDatabase.widens_setTable ?_ ?_, rfl⟩
      · exact SqlDatabase.make_addColumn htable hready.2
      · intro table' htable'
        obtain rfl : table = table' := Option.some.inj (htable.symm.trans htable')
        exact SqlTable.widens_fillColumn hcolumn
      · intro hnone
        rw [htable] at hnone
        cases hnone

/-- **Changes in order** all go through, and touch no value that was there. -/
theorem applyAll {changes : List (SchemaChange T I)} (h : Built schema made allowed db)
    (horder : InOrder schema made allowed changes) :
    ∃ db', SqlDatabase.applyAll schema changes db = .ok db' ∧
      Built schema (changes.map (·.statement) ++ made) (changes.map (·.statement) ++ allowed) db' ∧
        db.Widens db' ∧ db'.version = db.version := by
  induction changes generalizing made allowed db with
  | nil => exact ⟨db, rfl, h, .refl, rfl⟩
  | cons change rest ih =>
      obtain ⟨hready, hnew, hrest⟩ := horder
      obtain ⟨db₁, hfirst, hbuilt, hwidens, hversion⟩ := h.apply hready hnew
      obtain ⟨db₂, hlast, hbuilt', hwidens', hversion'⟩ := ih hbuilt hrest
      refine ⟨db₂, ?_, hbuilt'.mono ?_ ?_, hwidens.trans hwidens', hversion'.trans hversion⟩
      · show (do
          let db ← db.apply schema change
          SqlDatabase.applyAll schema rest db) = _
        rw [hfirst, ok_bind, hlast]
      · intro s hs
        simp only [List.map_cons, List.cons_append, List.mem_cons, List.mem_append] at hs ⊢
        tauto
      · intro s hs
        simp only [List.map_cons, List.cons_append, List.mem_cons, List.mem_append] at hs ⊢
        tauto

end Built

end SyncPlus
