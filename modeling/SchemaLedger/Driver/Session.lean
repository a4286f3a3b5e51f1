import SchemaLedger.Database.Basic
import SchemaLedger.Log
import SchemaLedger.MigrationError
import SchemaLedger.Version.Keys
/-!
# Sessions

A session is what one process holds while it works on a database: the state of
the database as seen through its connection, the source of its sequence keys,
its lock, and what it has logged. Operations are functions on sessions, so
everything an operation does, and everything it leaves alone, can be read off
the session it returns, whether it succeeds or fails.
-/

namespace SchemaLedger

/-- What one process holds while it works on a database. -/
structure Session (σ : Type) where
  database : σ
  keys : SequenceKeys := {}
  lock : Lock := {}
  log : List LogLine := []

/-- An operation on a session. A failed operation keeps what it has done. -/
abbrev Action (σ : Type) := ExceptT MigrationError (StateM (Session σ))

namespace Session

variable {σ : Type}

def logged (s : Session σ) (level : Level) (message : String) : Session σ :=
  { s with log := s.log ++ [⟨level, message⟩] }

def call (db : Database σ) (c : Call) (s : Session σ) :
    Except DatabaseError c.Answer × Session σ :=
  let s :=
    match db.note? c with
    | some note => s.logged .debug note
    | none => s
  let (answer, database) := db.step c s.database
  (answer, { s with database })

@[simp] theorem keys_call (db : Database σ) (c : Call) (s : Session σ) :
    (s.call db c).2.keys = s.keys := by
  simp only [call]; split <;> rfl

@[simp] theorem lock_call (db : Database σ) (c : Call) (s : Session σ) :
    (s.call db c).2.lock = s.lock := by
  simp only [call]; split <;> rfl

end Session

namespace Action

variable {σ : Type}

def run {α : Type} (a : Action σ α) (s : Session σ) :
    Except MigrationError α × Session σ :=
  StateT.run (ExceptT.run a) s

def log (level : Level) (message : String) : Action σ Unit :=
  modify (·.logged level message)

def logAll (lines : List LogLine) : Action σ Unit :=
  modify fun s => { s with log := s.log ++ lines }

def call (db : Database σ) (c : Call) (fault : DatabaseError → MigrationError) :
    Action σ c.Answer :=
  ExceptT.mk fun s =>
    let (answer, s) := s.call db c
    (answer.mapError fault, s)

/-- An operation with its failure as an ordinary result. -/
def attempt {α : Type} (a : Action σ α) : Action σ (Except MigrationError α) :=
  ExceptT.mk fun s =>
    let (result, s) := a.run s
    (.ok result, s)

def acquire : Action σ Unit :=
  ExceptT.mk fun s =>
    let (result, lock) := s.lock.acquire
    (result.mapError .lock, { s with lock })

def release : Action σ Unit :=
  ExceptT.mk fun s =>
    let (result, lock) := s.lock.release
    (result.mapError .lock, { s with lock })

end Action

end SchemaLedger
