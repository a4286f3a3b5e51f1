import SchemaLedger.Database.Basic
/-!
# Rehearsals

A database that keeps a migrations table and a list of objects, and nothing
else, and that can be told to fail. Rules name the calls they apply to and
what those answer; a call that no rule applies to is answered from the state.
Rehearsing an operation on it shows the calls it makes, and what it does when
any of them fails.
-/

namespace SchemaLedger.Rehearsal

inductive Method where
  | ping
  | execute
  | query
  | transact
  | exists
  | list
  | close
  deriving DecidableEq, Repr

def Method.ofCall : Call → Method
  | .ping => ping
  | .execute .. => execute
  | .query .. => query
  | .transact .. => transact
  | .relationExists _ => .exists
  | .listObjects => list
  | .close => close

def textOf : Call → String
  | .execute _ sql => sql
  | .query _ sql => sql
  | .transact sql _ => sql
  | .relationExists name => name
  | _ => ""

/-- What a rule makes a call answer. A failure may depend on the text of the
call. -/
inductive Outcome where
  | fail (fault : String → DatabaseError)
  | rows (rows : List Row)

structure Rule where
  method : Method
  /-- Only the call with this number, counted by kind from one. -/
  at? : Option Nat := none
  /-- Only calls with this in their text. -/
  contains? : Option String := none
  /-- How many more calls the rule applies to, if that is limited. -/
  times? : Option Nat := none
  outcome : Outcome

structure State where
  tableExists : Bool := false
  rows : List Row := []
  objects : List CatalogObject := []
  rules : List Rule := []
  calls : List Call := []
  closed : Bool := false

def State.number (s : State) (method : Method) : Nat :=
  s.calls.countP fun c => Method.ofCall c == method

def Rule.applies (r : Rule) (s : State) (c : Call) : Bool :=
  r.method == Method.ofCall c
    && r.at?.all (· == s.number r.method)
    && r.contains?.all
      (fun t => DatabaseError.occursIn t.toList (textOf c).toList)
    && r.times?.all (0 < ·)

def Rule.used (r : Rule) : Rule :=
  { r with times? := r.times?.map (· - 1) }

/-- The first rule that applies, and the rules after it has. -/
def useRule (s : State) (c : Call) : List Rule → Option (Rule × List Rule)
  | [] => none
  | r :: rest =>
    if r.applies s c then some (r, r.used :: rest)
    else (useRule s c rest).map fun p => (p.1, r :: p.2)

def rank : Option Value → Int
  | some (.bigint n) => n.toInt
  | some (.ubigint n) => n.toNat
  | _ => -1

/-- The row with the greatest key, the first of equals. -/
def latest? (rows : List Row) : Option Row :=
  rows.foldl
    (fun best row =>
      match best with
      | none => some row
      | some b => if rank b.head? < rank row.head? then some row else some b)
    none

def tableColumns : String :=
  " (sequence UBIGINT PRIMARY KEY, version BIGINT NOT NULL, "
    ++ "dirty UTINYINT NOT NULL)"

def State.execute (s : State) (mode : Mode) (sql : String) : State :=
  if mode = .schema then
    { s with
      tableExists := s.tableExists ||
        ("CREATE TABLE ".toList.isPrefixOf sql.toList
          && tableColumns.toList.reverse.isPrefixOf sql.toList.reverse)
      objects := s.objects.filter (·.dropSql ≠ sql) }
  else
    s

def State.query (s : State) (sql : String) : List Row :=
  if "SELECT max(sequence)".toList.isPrefixOf sql.toList then
    [[((latest? s.rows).bind List.head?).getD .null]]
  else if "ORDER BY sequence DESC LIMIT 1".toList.reverse.isPrefixOf
      sql.toList.reverse then
    (latest? s.rows).toList
  else
    []

def State.answer (s : State) : (c : Call) → c.Answer × State
  | .ping => ((), s)
  | .execute mode sql => (0, s.execute mode sql)
  | .query _ sql => (s.query sql, s)
  | .transact _ params =>
    (1, if params.length = 3 then { s with rows := s.rows ++ [params] } else s)
  | .relationExists _ => (s.tableExists, s)
  | .listObjects => (s.objects, s)
  | .close => ((), { s with closed := true })

/-- Answer a call as a rule says. Rows answer queries only. -/
def State.obey (s : State) (o : Outcome) (c : Call) :
    Except DatabaseError c.Answer × State :=
  match o, c with
  | .fail fault, c => (.error (fault (textOf c)), s)
  | .rows rows, .query _ _ => (.ok rows, s)
  | .rows _, c =>
    let (answer, s) := s.answer c
    (.ok answer, s)

def State.step (c : Call) (s : State) : Except DatabaseError c.Answer × State :=
  let s := { s with calls := s.calls ++ [c] }
  if s.closed then (.error .closed, s)
  else
    match useRule s c s.rules with
    | some (r, rules) => { s with rules }.obey r.outcome c
    | none =>
      let (answer, s) := s.answer c
      (.ok answer, s)

end Rehearsal

def rehearsal : Database Rehearsal.State where
  name := "mock"
  step := Rehearsal.State.step

end SchemaLedger
