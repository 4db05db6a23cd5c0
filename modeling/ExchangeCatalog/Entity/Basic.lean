import ExchangeCatalog.Value

/-!
# Entities and rows

An entity is declared by its table, its columns and the columns that a filter may name. A row of it
has an identifier and one value for each column, of that column's kind; the type of a row's record
follows from the declaration, so a row cannot lack a value or hold one of another kind.

## Main definitions

* `Column`, `Entity` — the declaration of a table
* `Fields` — one entry per column, `Record` and `Patch` being two uses of it
* `Row` — an identifier and a record, with `Row.valueOf?`, `Row.applyPatch` and `Row.toJson`
-/

namespace ExchangeCatalog

/-- A column of a table. -/
structure Column where
  name : String
  kind : Kind
  deriving DecidableEq, Repr

/-- The name of a column in JSON: without underscores, the letter after each one large, and the
first letter small. -/
def camelCase (name : String) : String :=
  match go true name.toList with
  | [] => ""
  | c :: cs => String.ofList (c.toLower :: cs)
where
  /-- The letters of a name, given whether the next one is raised. -/
  go (raise : Bool) : List Char → List Char
    | [] => []
    -- Of several underscores in a row each is left out, and one letter is raised.
    | '_' :: cs => go true cs
    | c :: cs => (if raise then c.toUpper else c) :: go false cs

/-- The key of a column in a JSON object. -/
def Column.key (c : Column) : String := camelCase c.name

/-- The column that identifies a row of any table. -/
def Column.id : Column := ⟨"id", .integer⟩

/-- The declaration of an entity. -/
structure Entity where
  /-- The name of its table. -/
  table : String
  /-- What messages call one row. -/
  label : String
  /-- The name of its record type in messages about bodies. -/
  recordName : String
  /-- The columns besides the identifier, in order. -/
  columns : List Column
  /-- The names that a filter may use. -/
  filterable : List String
  /-- No two columns share a name, and none is called like the identifier. -/
  names_nodup : ((Column.id :: columns).map Column.name).Nodup := by decide
  /-- A row has more than its identifier. -/
  columns_ne_nil : columns ≠ [] := by decide
  deriving DecidableEq, Repr

/-- All columns of an entity, the identifier first. -/
def Entity.fields (e : Entity) : List Column := Column.id :: e.columns

/-- One entry for each of a list of columns, of a type that depends on the column's kind. -/
inductive Fields (F : Kind → Type) : List Column → Type
  | nil : Fields F []
  | cons {c : Column} {cs : List Column} (entry : F c.kind) (rest : Fields F cs) :
    Fields F (c :: cs)

namespace Fields

variable {F G H : Kind → Type} {cs : List Column}

/-- Fields that do not depend on anything but the kind. -/
def fill (f : (k : Kind) → F k) : (cs : List Column) → Fields F cs
  | [] => .nil
  | c :: cs => .cons (f c.kind) (fill f cs)

/-- Entry by entry. -/
def map (f : (k : Kind) → F k → G k) : {cs : List Column} → Fields F cs → Fields G cs
  | _, .nil => .nil
  | _, @cons _ c _ x xs => .cons (f c.kind x) (map f xs)

/-- Entry by entry, of two sets of fields. -/
def zipWith (f : (k : Kind) → F k → G k → H k) :
    {cs : List Column} → Fields F cs → Fields G cs → Fields H cs
  | _, .nil, .nil => .nil
  | _, @cons _ c _ x xs, .cons y ys => .cons (f c.kind x y) (zipWith f xs ys)

/-- The entries in order, each as an element of one type. -/
def toList {α : Type} (f : (c : Column) → F c.kind → α) : {cs : List Column} → Fields F cs → List α
  | _, .nil => []
  | _, @cons _ c _ x xs => f c x :: toList f xs

end Fields

/-- A value for each column. -/
abbrev Record (cs : List Column) := Fields Kind.Carrier cs

/-- A new value for some of the columns. -/
abbrev Patch (cs : List Column) := Fields (fun k => Option k.Carrier) cs

/-- The values of a record, in the order of the columns. -/
def Record.values {cs : List Column} (r : Record cs) : List Value :=
  r.toList fun c x => c.kind.value x

/-- A record with the values of a patch where it has them. -/
def Record.applyPatch {cs : List Column} (r : Record cs) (p : Patch cs) : Record cs :=
  r.zipWith (fun _ old new => new.getD old) p

/-- The members of a record's JSON object. -/
def Record.members {cs : List Column} (r : Record cs) : List (String × Json) :=
  r.toList fun c x => (c.key, (c.kind.value x).toJson)

/-- The value of the first column with a name. -/
def Record.valueOf? (name : String) : {cs : List Column} → Record cs → Option Value
  | _, .nil => none
  | _, @Fields.cons _ c _ x xs => if c.name = name then some (c.kind.value x) else valueOf? name xs

/-- A row of an entity's table. -/
structure Row (e : Entity) where
  id : Int64
  record : Record e.columns

namespace Row

variable {e : Entity}

/-- The value of the column with a name, the identifier included. -/
def valueOf? (r : Row e) (name : String) : Option Value :=
  -- The identifier is no part of the record.
  if name = "id" then some (.integer r.id) else r.record.valueOf? name

/-- The row with some of its values replaced; its identifier stays. -/
def applyPatch (r : Row e) (p : Patch e.columns) : Row e :=
  { r with record := r.record.applyPatch p }

/-- The row as a response shows it. -/
def toJson (r : Row e) : Json := .object (("id", .integer r.id.toInt) :: r.record.members)

end Row

@[simp] theorem Record.values_nil : Record.values (.nil : Record []) = [] := rfl

@[simp] theorem Record.values_cons {c : Column} {cs : List Column} (x : c.kind.Carrier)
    (r : Record cs) :
    Record.values (.cons x r : Record (c :: cs)) = c.kind.value x :: r.values := rfl

end ExchangeCatalog
