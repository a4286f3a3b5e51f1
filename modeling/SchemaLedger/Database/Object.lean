import SchemaLedger.Sql.Quote
/-!
# Objects of the catalog

What a user has created in a database, and the statement that drops it.
-/

namespace SchemaLedger

inductive ObjectKind where
  | view
  | table
  | scalarMacro
  | tableMacro
  | sequence
  | type
  | schema
  deriving DecidableEq, Repr

def ObjectKind.keyword : ObjectKind → String
  | view => "VIEW"
  | table => "TABLE"
  | scalarMacro => "MACRO"
  | tableMacro => "MACRO TABLE"
  | sequence => "SEQUENCE"
  | type => "TYPE"
  | schema => "SCHEMA"

/-- An object that a user has created. The schema of a schema is itself. -/
structure CatalogObject where
  schema : String
  name : String
  kind : ObjectKind
  deriving DecidableEq, Repr

namespace CatalogObject

/-- The quoted name, in its schema unless it is one. -/
def quotedName (o : CatalogObject) : String :=
  match o.kind with
  | .schema => Sql.quoteIdentifier o.name
  | _ => Sql.quoteIdentifier o.schema ++ "." ++ Sql.quoteIdentifier o.name

def dropSql (o : CatalogObject) : String :=
  "DROP " ++ o.kind.keyword ++ " " ++ o.quotedName

end CatalogObject

end SchemaLedger
