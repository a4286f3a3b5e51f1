import SchemaLedger.Database.Rehearsal
import SchemaLedger.Driver.Execution
import SchemaLedger.Proofs.Driver.Actions
import SchemaLedger.Proofs.Script.Cap
import SchemaLedger.Proofs.Text.Encoding
/-!
# Executing a script that has been read

The execution of a script goes on between reads: a statement is sent as soon as
its delimiter has arrived. `eager` says what this comes to in terms of the whole
script. It takes the pieces one after another and stops at the first that is too
long, is not text, or is refused by the database. It is written without the
splitter, and the kind of a statement is read off its characters.

Both are compared through what an iteration hands out: `yielding` executes the
statements in a list of results. The splitter has trimmed those already, which
`send` does not notice.
-/

namespace SchemaLedger

open Script

namespace Config

/-- The pieces of a script: what stands between its semicolons, or all of it. -/
def pieces (c : Config) (script : List UInt8) : List (List UInt8) :=
  if c.multiStatement then script.splitOn 0x3B else [script]

/-- The cap on pieces, if there is one: the size that is given if it is
positive, and 10 MiB otherwise. -/
def cap? (c : Config) : Option Nat :=
  if c.multiStatement then
    some (if 0 < c.multiStatementMaxSize.toInt then
      c.multiStatementMaxSize.toInt.toNat else 10 * 1024 * 1024)
  else none

end Config

/-- The call sends a statement in this mode. -/
def Call.sends (mode : Mode) : Call → Bool
  | .execute m _ => m = mode
  | _ => false

structure Outcome (σ : Type) where
  /-- Why it has stopped early, if it has. -/
  fault? : Option MigrationError
  /-- The calls made on the database, latest last. -/
  calls : List Call
  database : σ

variable {σ : Type}

namespace Outcome

def ended (fault? : Option MigrationError) (d : σ) : Outcome σ :=
  ⟨fault?, [], d⟩

def after (call : Call) (o : Outcome σ) : Outcome σ :=
  { o with calls := call :: o.calls }

def recorded (calls : List Call) (o : Outcome σ) : Outcome (σ × List Call) :=
  ⟨o.fault?, o.calls, (o.database, calls ++ o.calls)⟩

/-- What is returned. Without a fault every statement that has been sent has been
answered, and those sent in either mode are counted. -/
def result (o : Outcome σ) : Except MigrationError Summary :=
  match o.fault? with
  | some fault => .error fault
  | none => .ok {
      schema := o.calls.countP (Call.sends .schema)
      data := o.calls.countP (Call.sends .data) }

theorem result_of_fault {o : Outcome σ} {fault : MigrationError}
    (h : o.fault? = some fault) : o.result = .error fault := by
  rw [result, h]

theorem result_of_no_fault {o : Outcome σ} (h : o.fault? = none) :
    o.result = .ok ⟨o.calls.countP (Call.sends .schema),
      o.calls.countP (Call.sends .data)⟩ := by
  rw [result, h]

def resultAfter (done : Summary) (o : Outcome σ) : Except MigrationError Summary :=
  o.result.map fun sent => ⟨done.schema + sent.schema, done.data + sent.data⟩

theorem resultAfter_nothing (o : Outcome σ) : o.resultAfter {} = o.result := by
  cases h : o.result with
  | error fault => rw [resultAfter, h, Except.map]
  | ok sent =>
      rw [resultAfter, h, Except.map]
      simp only [Nat.zero_add]

theorem resultAfter_after (done : Summary) (kind : StatementKind) (sql : String)
    (o : Outcome σ) :
    (o.after (.execute (.ofKind kind) sql)).resultAfter done =
      o.resultAfter (done.count (.ofKind kind)) := by
  obtain ⟨fault?, calls, d⟩ := o
  cases fault? with
  | some fault => rfl
  | none =>
      cases kind <;>
        simp [resultAfter, result, after, Summary.count, Mode.ofKind, Call.sends,
          Except.map, Nat.add_assoc, Nat.add_comm 1]

theorem recorded_after (call : Call) (calls : List Call) (o : Outcome σ) :
    (o.after call).recorded calls = (o.recorded (calls ++ [call])).after call := by
  simp [after, recorded]

end Outcome

namespace Execution

def answered (sql : String) (next : σ → Outcome σ) :
    Except DatabaseError Nat × σ → Outcome σ
  | (.error cause, d) => .ended (some (.statementFailed (Utf8.encode sql) cause)) d
  | (.ok _, d) => next d

/-- Send the statement in some bytes to the database and go on with `next`. -/
def send (db : Database σ) (bytes : List UInt8) (next : σ → Outcome σ) (d : σ) :
    Outcome σ :=
  match Utf8.decode? (Ascii.trim bytes) with
  | none => .ended (some (.statementNotText (Ascii.trim bytes))) d
  | some text =>
    let sql := Blank.trim text
    if sql = "" then next d
    else
      let mode := Mode.ofKind (.ofText sql)
      (answered sql next (db.step (.execute mode sql) d)).after (.execute mode sql)

/-- Execute the pieces of a script one after another. -/
def eager (db : Database σ) (cap? : Option Nat) : List (List UInt8) → σ → Outcome σ
  | [] => .ended none
  | p :: ps =>
    match cap?.filter (· < p.length) with
    | some cap => .ended (some (.input (.statementTooLarge cap)))
    | none => send db p (eager db cap? ps)

def yielding (db : Database σ) : List Yield → σ → Outcome σ
  | [] => .ended none
  | .error fault :: _ => .ended (some (.input fault))
  | .ok statement :: ys => send db statement (yielding db ys)

theorem send_trim (db : Database σ) (bytes : List UInt8) (next : σ → Outcome σ) :
    send db (Ascii.trim bytes) next = send db bytes next := by
  funext d
  simp only [send, Ascii.trim, Text.trim_trim]

theorem send_of_trim_eq_nil (db : Database σ) {bytes : List UInt8}
    (h : Ascii.trim bytes = []) (next : σ → Outcome σ) :
    send db bytes next = next := by
  have hdecode : Utf8.decode? [] = some "" := rfl
  funext d
  rw [send, h, hdecode]
  rfl

theorem yielding_statements (db : Database σ) (p : List UInt8) (ys : List Yield) :
    yielding db ((statements [p]).map .ok ++ ys) = send db p (yielding db ys) := by
  rw [statements_singleton]
  split
  · next h => rw [send_of_trim_eq_nil db h, List.map_nil, List.nil_append]
  · rw [List.map_singleton, List.singleton_append, yielding, send_trim]

theorem yielding_capped (db : Database σ) (cap : Nat) (ps : List (List UInt8)) :
    yielding db (capped cap ps) = eager db (some cap) ps := by
  induction ps with
  | nil => rfl
  | cons p ps ih =>
      rw [eager]
      rcases Nat.lt_or_ge cap p.length with h | h
      · rw [capped_cons_of_lt h, Option.filter_some, decide_eq_true h]
        rfl
      · rw [capped_cons_of_le h, yielding_statements, ih, Option.filter_some,
          decide_eq_false (Nat.not_lt.2 h)]
        rfl

theorem yielding_whole (db : Database σ) (script : List UInt8) :
    yielding db ((statements [script]).map .ok) = eager db none [script] := by
  rw [← List.append_nil (List.map _ _), yielding_statements]
  rfl

theorem cap?_eq {c : Config} (h : c.multiStatement = true) :
    c.cap? = some c.statementCap := by
  rw [Config.cap?, if_pos h, Config.statementCap]
  refine congrArg some (ite_congr (propext ?_) (fun _ => rfl) fun _ => rfl)
  rw [Int64.lt_iff_toInt_lt]
  rfl

theorem yielding_ofConfig (db : Database σ) (c : Config) {source : Source}
    (hfault : source.fault? = none) :
    yielding db (Statements.ofConfig source c).results =
      eager db c.cap? (c.pieces source.content) := by
  rw [Statements.ofConfig, Config.pieces]
  by_cases h : c.multiStatement = true
  · rw [if_pos h, if_pos h, cap?_eq h, Statements.results_split,
      Splitter.semicolon, Splitter.results_start_singleton hfault,
      yielding_capped]
  · rw [if_neg h, if_neg h, Config.cap?, if_neg h, Statements.results_whole,
      hfault]
    exact yielding_whole db source.content

theorem send_of_not_text (db : Database σ) {bytes : List UInt8}
    (h : Utf8.decode? (Ascii.trim bytes) = none) (next : σ → Outcome σ) :
    send db bytes next = .ended (some (.statementNotText (Ascii.trim bytes))) := by
  funext d
  rw [send, h]

theorem send_of_blank (db : Database σ) {bytes : List UInt8} {text : String}
    (h : Utf8.decode? (Ascii.trim bytes) = some text)
    (hblank : Blank.trim text = "") (next : σ → Outcome σ) :
    send db bytes next = next := by
  funext d
  rw [send, h]
  exact if_pos hblank

theorem send_of_text (db : Database σ) {bytes : List UInt8} {text : String}
    (h : Utf8.decode? (Ascii.trim bytes) = some text)
    (hblank : Blank.trim text ≠ "") (next : σ → Outcome σ) (d : σ) :
    send db bytes next d =
      (answered (Blank.trim text) next
        (db.step (.execute (.ofKind (.ofText (Blank.trim text)))
          (Blank.trim text)) d)).after
        (.execute (.ofKind (.ofText (Blank.trim text))) (Blank.trim text)) := by
  rw [send, h]
  exact if_neg hblank

theorem mode_encode_trim (text : String) :
    Mode.ofKind (.classify (Utf8.encode (Blank.trim text))) =
      .ofKind (.ofText (Blank.trim text)) := by
  rw [StatementKind.classify_encode_trim]

/-- An execution is determined by what the statements left hand out. Those that it
executes are counted on from those that have been. -/
theorem run_eq_yielding (db : Database σ) (statements : Statements)
    (done : Summary) (s : Session σ) :
    let e := run db statements done s
    let o := yielding db statements.results s.database
    e.result = o.resultAfter done ∧ e.session.database = o.database := by
  fun_induction run db statements done s with
  | case1 statements done s rest hnext =>
      rw [Statements.results_eq, hnext]
      exact ⟨rfl, rfl⟩
  | case2 statements done s fault rest hnext =>
      rw [Statements.results_eq, hnext]
      exact ⟨rfl, rfl⟩
  | case3 statements done s statement rest hnext bytes hdecode =>
      rw [Statements.results_eq, hnext]
      simp only [yielding]
      rw [send_of_not_text db hdecode]
      exact ⟨rfl, rfl⟩
  | case4 statements done s statement rest hnext bytes text hdecode sql hblank
      ih =>
      rw [Statements.results_eq, hnext]
      simp only [yielding]
      rw [send_of_blank db hdecode hblank]
      exact ih
  | case5 statements done s statement rest hnext bytes text hdecode sql hblank
      encoded mode s' cause s'' hcall =>
      have hstep := Session.step_of_call hcall
      have hmode : mode = .ofKind (.ofText sql) := mode_encode_trim text
      rw [hmode] at hstep
      rw [Statements.results_eq, hnext]
      simp only [yielding]
      rw [send_of_text db hdecode hblank, show db.step _ s.database = _ from hstep]
      exact ⟨rfl, rfl⟩
  | case6 statements done s statement rest hnext bytes text hdecode sql hblank
      encoded mode s' answer s'' hcall ih =>
      have hstep := Session.step_of_call hcall
      have hmode : mode = .ofKind (.ofText sql) := mode_encode_trim text
      rw [hmode] at hstep ih ⊢
      rw [Statements.results_eq, hnext]
      simp only [yielding]
      rw [send_of_text db hdecode hblank, show db.step _ s.database = _ from hstep,
        Outcome.resultAfter_after]
      exact ih

theorem answered_recorded (sql : String) {next : σ → Outcome σ}
    {next' : σ × List Call → Outcome (σ × List Call)} {calls : List Call}
    (h : ∀ d, next' (d, calls) = (next d).recorded calls)
    (answer : Except DatabaseError Nat × σ) :
    answered sql next' (answer.1, answer.2, calls) =
      (answered sql next answer).recorded calls := by
  obtain ⟨answer, d⟩ := answer
  cases answer with
  | error cause => simp [answered, Outcome.ended, Outcome.recorded]
  | ok n => exact h d

theorem send_recorded (db : Database σ) (bytes : List UInt8)
    {next : σ → Outcome σ} {next' : σ × List Call → Outcome (σ × List Call)}
    (h : ∀ d calls, next' (d, calls) = (next d).recorded calls)
    (d : σ) (calls : List Call) :
    send db.recorded bytes next' (d, calls) =
      (send db bytes next d).recorded calls := by
  cases hdecode : Utf8.decode? (Ascii.trim bytes) with
  | none =>
      rw [send_of_not_text _ hdecode, send_of_not_text _ hdecode]
      simp [Outcome.ended, Outcome.recorded]
  | some text =>
      by_cases hblank : Blank.trim text = ""
      · rw [send_of_blank _ hdecode hblank, send_of_blank _ hdecode hblank]
        exact h d calls
      · rw [send_of_text _ hdecode hblank, send_of_text _ hdecode hblank,
          Outcome.recorded_after]
        exact congrArg (Outcome.after _)
          (answered_recorded _ (fun d => h d _) (db.step (.execute _ _) d))

theorem eager_recorded (db : Database σ) (cap? : Option Nat)
    (ps : List (List UInt8)) (d : σ) (calls : List Call) :
    eager db.recorded cap? ps (d, calls) = (eager db cap? ps d).recorded calls := by
  induction ps generalizing d calls with
  | nil => simp [eager, Outcome.ended, Outcome.recorded]
  | cons p ps ih =>
      simp only [eager]
      cases cap?.filter (· < p.length) with
      | some cap => simp [Outcome.ended, Outcome.recorded]
      | none => exact send_recorded db p ih d calls

theorem ofScript_pieces (db : Database σ) (c : Config) {source : Source}
    (hfault : source.fault? = none) (s : Session σ) :
    let o := eager db c.cap? (c.pieces source.content) s.database
    (ofScript db c source s).result = o.result ∧
      (ofScript db c source s).session.database = o.database := by
  intro o
  have hrun := run_eq_yielding db (.ofConfig source c) {} s
  rw [yielding_ofConfig db c hfault] at hrun
  exact ⟨hrun.1.trans o.resultAfter_nothing, hrun.2⟩

theorem database_ofScript_recorded (db : Database σ) (c : Config) {source : Source}
    (hfault : source.fault? = none) (s : Session σ) (calls : List Call) :
    let o := eager db c.cap? (c.pieces source.content) s.database
    (ofScript db.recorded c source
      { s with database := (s.database, calls) }).session.database =
        (o.database, calls ++ o.calls) := by
  intro o
  rw [(ofScript_pieces db.recorded c hfault _).2, eager_recorded]
  rfl

/-- Executing a script while it is read comes to what executing its pieces comes
to: the same result, the same calls, and the same state of the database. -/
theorem ofScript_eq_eager (db : Database σ) (c : Config) {source : Source}
    (hfault : source.fault? = none) (s : Session σ) :
    let o := eager db c.cap? (c.pieces source.content) s.database
    let e := ofScript db c source s
    e.result = o.result ∧ e.session.database = o.database ∧
    ∀ calls, (ofScript db.recorded c source
        { s with database := (s.database, calls) }).session.database =
      (o.database, calls ++ o.calls) :=
  ⟨(ofScript_pieces db c hfault s).1, (ofScript_pieces db c hfault s).2,
    database_ofScript_recorded db c hfault s⟩

/-- A script of three statements and a blank piece, read in two parts: all of it is
executed, or the database refuses the second statement. -/
theorem ofScript_eq_eager_of_three_statements :
    let c : Config := { multiStatement := true }
    let source : Source :=
      [.bytes (Utf8.encode "drop"), .interrupted,
        .bytes (Utf8.encode " a;b; ;Alter c")]
    let refusing : List Rehearsal.Rule :=
      [{ method := .execute, at? := some 2, outcome := .fail fun _ => .closed }]
    let result rules :=
      (ofScript rehearsal c source { database := { rules } }).result
    let calls rules :=
      (ofScript rehearsal.recorded c source
        { database := ({ rules }, []) }).session.database.2
    result [] = .ok { schema := 2, data := 1 } ∧
    calls [] = [.execute .schema "drop a", .execute .data "b",
      .execute .schema "Alter c"] ∧
    result refusing = .error (.statementFailed (Utf8.encode "b") .closed) ∧
    calls refusing = [.execute .schema "drop a", .execute .data "b"] := by
  intro c source refusing result calls
  have hpieces : c.pieces source.content =
      ["drop a", "b", " ", "Alter c"].map Utf8.encode := by decide +kernel
  have hfault : source.fault? = none := rfl
  have h (rules : List Rehearsal.Rule) :=
    ofScript_eq_eager rehearsal c hfault { database := { rules } }
  rw [hpieces] at h
  have hcalls (rules : List Rehearsal.Rule) :
      calls rules = _ := congrArg Prod.snd ((h rules).2.2 [])
  refine ⟨(h []).1.trans ?_, (hcalls []).trans ?_, (h refusing).1.trans ?_,
    (hcalls refusing).trans ?_⟩
  · rfl
  · decide +kernel
  · rfl
  · decide +kernel

end Execution

end SchemaLedger
