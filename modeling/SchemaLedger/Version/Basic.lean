import SchemaLedger.Text.Json
/-!
# Versions

The migrations table only grows. Each of its rows is a record of a version
that was reached, or of an attempt at it that failed part way; the row with
the greatest sequence key says where the database stands.
-/

namespace SchemaLedger

/-- The version of a database that has never been migrated. -/
def nilVersion : Int64 := -1

/-- Where a database stands: a version, and whether the attempt at it failed
part way. -/
structure VersionState where
  version : Int64
  dirty : Bool
  deriving DecidableEq, Repr

namespace VersionState

def none : VersionState := ⟨nilVersion, false⟩

def isNil (s : VersionState) : Bool :=
  s.version == nilVersion

def shown (s : VersionState) : String :=
  (if s.isNil then "no version" else toString s.version)
    ++ (if s.dirty then " (dirty)" else "")

def toJson (s : VersionState) : Json.Object :=
  [("version", .integer s.version.toInt), ("dirty", .boolean s.dirty)]

end VersionState

structure VersionRecord where
  /-- The key that orders the rows. -/
  sequence : UInt64
  version : Int64
  dirty : Bool
  deriving DecidableEq, Repr

namespace VersionRecord

def dirtyFlag (r : VersionRecord) : UInt8 :=
  if r.dirty then 1 else 0

def state (r : VersionRecord) : VersionState :=
  ⟨r.version, r.dirty⟩

def toJson (r : VersionRecord) : Json.Object :=
  ("sequence", .integer r.sequence.toNat) :: r.state.toJson

end VersionRecord

end SchemaLedger
