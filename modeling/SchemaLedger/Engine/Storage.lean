import SchemaLedger.Engine.Transaction
/-!
# Storage

A database is kept in memory, or stored in a file and found there again. The
storage knows the folders that files can be in, the databases that are stored,
and the files that are something else.
-/

namespace SchemaLedger.Engine

inductive Stored where
  | database (c : Catalog)
  /-- Something that is no database. -/
  | other

/-- The files that databases are stored in, and the folders around them. Files
and folders are given by the names that lead to them. -/
structure Storage where
  folders : List (List String) := []
  /-- The folder that relative locations start from. -/
  working : List String := []
  files : List (List String × Stored) := []

namespace Storage

def inMemory : List String := ["", ":memory:", "memory"]

def memoryName : String := "memory"

def names (location : String) : List String :=
  (Sql.cut '/' location.toList).map String.ofList

def step (here : List String) (name : String) : List String :=
  if name = "" || name = "." then here
  else if name = ".." then here.dropLast
  else here ++ [name]

def through (here : List String) : List String → List (List String)
  | [] => []
  | name :: rest => step here name :: through (step here name) rest

/-- The names mean something in every folder. -/
def moves : List String := ["", ".", ".."]

/-- Follow names from a folder to a file. Every name on the way has to be that
of a folder. -/
def follow? (s : Storage) (here : List String) :
    List String → Option (List String)
  | [] => none
  | [name] =>
    if moves.contains name || s.folders.contains (step here name) then none
    else some (step here name)
  | name :: rest =>
    if moves.contains name || s.folders.contains (step here name) then
      follow? s (step here name) rest
    else none

def file? (s : Storage) (location : String) : Option (List String) :=
  match names location with
  | "" :: rest => s.follow? [] rest
  | parts => s.follow? s.working parts

def put (s : Storage) (file : List String) (c : Catalog) : Storage :=
  { s with files := (file, .database c) :: s.files.filter (·.1 != file) }

/-- The name of the database in a file: that of the file up to its first
point, unless the name is taken by something built in. -/
def databaseName (file : List String) : String :=
  let name := String.ofList
    (((file.getLast?.getD "").toList).takeWhile (· != '.'))
  if [Sql.defaultSchema, Catalogs.temporaryName, "system"].contains name then
    name ++ "_db"
  else name

end Storage

/-- The engine with its storage and, while it is open, a connection. A
connection to a stored database has the file it is stored in. -/
structure State where
  storage : Storage := {}
  file? : Option (List String) := none
  connection? : Option Connection := none

namespace State

/-- The engine without its connection. What has not been committed is lost. -/
def disconnected (s : State) : State :=
  { s with file? := none, connection? := none }

/-- The engine with another state of its connection, and the storage with what
that has committed. -/
def withConnection (s : State) (c : Connection) : State :=
  { s with
    connection? := some c
    storage := match s.file? with
      | some file => s.storage.put file c.committed
      | none => s.storage }

def connect (s : State) (location : String) : Except String State :=
  let s := s.disconnected
  if Storage.inMemory.contains location then
    .ok (s.withConnection { catalogs := { name := Storage.memoryName } })
  else
    match s.storage.file? location with
    | none => .error ("IO Error: Cannot open file \"" ++ location ++ "\"")
    | some file =>
      let opened (stored : Catalog) : State :=
        { s with file? := some file }.withConnection
          { catalogs := { name := Storage.databaseName file, stored } }
      match s.storage.files.lookup file with
      | some (.database c) => .ok (opened c)
      | some .other =>
        .error ("IO Error: The file \"" ++ location
          ++ "\" exists, but it is not a valid database file!")
      | none => .ok (opened {})

end State

end SchemaLedger.Engine
