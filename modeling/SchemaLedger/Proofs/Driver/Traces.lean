import SchemaLedger.Driver.Basic
import SchemaLedger.Proofs.Driver.Actions
/-!
# Traces

What an operation has done to a database is told by the calls that it has made.
`Database.after` is the state that calls lead to, so that a crash between two of
them is a beginning of the trace, and `run_recorded` says that executing a script
sends statements and nothing else, whether or not somebody records them.
-/

namespace SchemaLedger

variable {σ : Type}

/-- The state that calls lead to. -/
def Database.after (db : Database σ) (calls : List Call) (d : σ) : σ :=
  calls.foldl (fun d c => (db.step c d).2) d

namespace Database

@[simp] theorem after_nil (db : Database σ) (d : σ) : db.after [] d = d := rfl

theorem after_cons (db : Database σ) (c : Call) (calls : List Call) (d : σ) :
    db.after (c :: calls) d = db.after calls (db.step c d).2 := rfl

theorem after_append (db : Database σ) (calls more : List Call) (d : σ) :
    db.after (calls ++ more) d = db.after more (db.after calls d) :=
  List.foldl_append

/-- What each of the calls preserves they preserve together. -/
theorem after_induction {db : Database σ} {P : σ → Prop} {calls : List Call}
    (h : ∀ c ∈ calls, ∀ d, P d → P (db.step c d).2) {d : σ} (hd : P d) :
    P (db.after calls d) := by
  induction calls generalizing d with
  | nil => exact hd
  | cons c calls ih =>
      rw [after_cons]
      exact ih (fun c hc => h c (List.mem_cons_of_mem _ hc))
        (h c List.mem_cons_self d hd)

theorem step_recorded (db : Database σ) (c : Call) (d : σ × List Call) :
    db.recorded.step c d =
      ((db.step c d.1).1, (db.step c d.1).2, d.2 ++ [c]) := rfl

theorem after_recorded (db : Database σ) (calls : List Call) (d : σ × List Call) :
    db.recorded.after calls d = (db.after calls d.1, d.2 ++ calls) := by
  induction calls generalizing d with
  | nil => rw [after_nil, after_nil, List.append_nil]
  | cons c calls ih =>
      rw [after_cons, after_cons, ih, step_recorded, List.append_assoc,
        List.singleton_append]

end Database

/-- The session on the database that records its calls. -/
def Session.recording (s : Session σ) (calls : List Call) :
    Session (σ × List Call) :=
  { s with database := (s.database, calls) }

def Driver.recorded (d : Driver σ) : Driver (σ × List Call) :=
  ⟨d.database.recorded, d.config⟩

theorem Session.call_recording (db : Database σ) (c : Call) (s : Session σ)
    (calls : List Call) :
    (s.recording calls).call db.recorded c =
      ((s.call db c).1, (s.call db c).2.recording (calls ++ [c])) := by
  simp only [call, Database.recorded, recording]
  split <;> rfl

namespace Execution

variable {statements rest : Statements} {done : Summary} {s : Session σ}

theorem run_of_end (db : Database σ) (h : statements.next = (none, rest)) :
    run db statements done s =
      { result := .ok done
        rest
        session := s.logged .debug ("Script finished: " ++ toString done.schema
          ++ " schema, " ++ toString done.data ++ " data statements") } := by
  rw [run]
  split <;> simp_all

theorem run_of_fault (db : Database σ) {fault : InputError}
    (h : statements.next = (some (.error fault), rest)) :
    run db statements done s =
      { result := .error (.input fault), rest, session := s } := by
  rw [run]
  split <;> simp_all

theorem run_of_not_text (db : Database σ) {statement : List UInt8}
    (h : statements.next = (some (.ok statement), rest))
    (hdecode : Utf8.decode? (Ascii.trim statement) = none) :
    run db statements done s =
      { result := .error (.statementNotText (Ascii.trim statement))
        rest
        session := s } := by
  rw [run]
  split <;> simp_all

theorem run_of_blank (db : Database σ) {statement : List UInt8} {text : String}
    (h : statements.next = (some (.ok statement), rest))
    (hdecode : Utf8.decode? (Ascii.trim statement) = some text)
    (hblank : Blank.trim text = "") :
    run db statements done s = run db rest done s := by
  rw [run]
  split <;> simp_all

def sending (s : Session σ) (mode : Mode) (sql : String) : Session σ :=
  s.logged .debug ("Executing " ++ mode.label ++ " statement: " ++ sql)

theorem run_of_refused (db : Database σ) {statement : List UInt8} {text : String}
    (h : statements.next = (some (.ok statement), rest))
    (hdecode : Utf8.decode? (Ascii.trim statement) = some text)
    (hblank : Blank.trim text ≠ "") {cause : DatabaseError} {s' : Session σ}
    (hcall : let encoded := Utf8.encode (Blank.trim text)
      let mode := Mode.ofKind (.classify encoded)
      (sending s mode (Blank.trim text)).call db
        (.execute mode (Blank.trim text)) = (.error cause, s')) :
    run db statements done s =
      { result := .error
          (.statementFailed (Utf8.encode (Blank.trim text)) cause)
        rest
        session := s' } := by
  rw [run]
  split <;> simp_all [sending]

theorem run_of_answered (db : Database σ) {statement : List UInt8}
    {text : String} (h : statements.next = (some (.ok statement), rest))
    (hdecode : Utf8.decode? (Ascii.trim statement) = some text)
    (hblank : Blank.trim text ≠ "") {n : Nat} {s' : Session σ}
    (hcall : let encoded := Utf8.encode (Blank.trim text)
      let mode := Mode.ofKind (.classify encoded)
      (sending s mode (Blank.trim text)).call db
        (.execute mode (Blank.trim text)) = (.ok n, s')) :
    run db statements done s =
      run db rest
        (done.count (.ofKind (.classify (Utf8.encode (Blank.trim text))))) s' := by
  rw [run]
  split <;> simp_all [sending]

/-- What an execution leaves of a script does not depend on the record. -/
def recording (e : Execution σ) (calls : List Call) :
    Execution (σ × List Call) :=
  ⟨e.result, e.rest, e.session.recording calls⟩

theorem run_recorded (db : Database σ) (statements : Statements)
    (done : Summary) (s : Session σ) :
    let e := run db statements done s
    ∃ made, (∀ c ∈ made, ∃ mode sql, c = .execute mode sql) ∧
      e.session.database = db.after made s.database ∧
      ∀ calls, run db.recorded statements done (s.recording calls) =
        e.recording (calls ++ made) := by
  fun_induction run db statements done s with
  | case1 statements done s rest hnext =>
      refine ⟨[], nofun, rfl, fun calls => ?_⟩
      rw [run_of_end _ hnext, List.append_nil]
      rfl
  | case2 statements done s fault rest hnext =>
      refine ⟨[], nofun, rfl, fun calls => ?_⟩
      rw [run_of_fault _ hnext, List.append_nil]
      rfl
  | case3 statements done s statement rest hnext bytes hdecode =>
      refine ⟨[], nofun, rfl, fun calls => ?_⟩
      rw [run_of_not_text _ hnext hdecode, List.append_nil]
      rfl
  | case4 statements done s statement rest hnext bytes text hdecode sql hblank
      ih =>
      obtain ⟨made, hmade, hafter, hrun⟩ := ih
      refine ⟨made, hmade, hafter, fun calls => ?_⟩
      rw [run_of_blank _ hnext hdecode hblank, hrun]
  | case5 statements done s statement rest hnext bytes text hdecode sql hblank
      encoded mode s' cause s'' hcall =>
      have hstep := Session.step_of_call hcall
      refine ⟨[.execute mode sql], by simp, ?_, fun calls => ?_⟩
      · rw [Database.after_cons, show db.step _ s.database = _ from hstep]
        rfl
      · refine run_of_refused _ hnext hdecode hblank ?_
        change ((s'.recording calls).call db.recorded (.execute mode sql)) = _
        rw [Session.call_recording, hcall]
  | case6 statements done s statement rest hnext bytes text hdecode sql hblank
      encoded mode s' answer s'' hcall ih =>
      have hstep := Session.step_of_call hcall
      obtain ⟨made, hmade, hafter, hrun⟩ := ih
      refine ⟨.execute mode sql :: made, ?_, ?_, fun calls => ?_⟩
      · rintro c (_ | ⟨_, hc⟩)
        · exact ⟨mode, sql, rfl⟩
        · exact hmade c hc
      · rw [Database.after_cons, show db.step _ s.database = _ from hstep]
        exact hafter
      · have hcall' : (s'.recording calls).call db.recorded (.execute mode sql) =
            (.ok answer, s''.recording (calls ++ [.execute mode sql])) := by
          rw [Session.call_recording, hcall]
        rw [run_of_answered _ hnext hdecode hblank hcall', hrun,
          List.append_assoc]
        rfl

theorem keys_run (db : Database σ) (statements : Statements) (done : Summary)
    (s : Session σ) : (run db statements done s).session.keys = s.keys := by
  fun_induction run db statements done s with
  | case1 => rfl
  | case2 => rfl
  | case3 => rfl
  | case4 _ _ _ _ _ _ _ _ _ _ _ ih => exact ih
  | case5 _ _ _ _ _ _ _ _ _ _ _ _ _ _ _ _ hcall =>
      have hkeys := Session.keys_of_call hcall
      exact hkeys
  | case6 _ _ _ _ _ _ _ _ _ _ _ _ _ _ _ _ hcall ih =>
      have hkeys := Session.keys_of_call hcall
      exact ih.trans hkeys

end Execution

namespace Driver

variable (d : Driver σ) (script : Source) (s : Session σ)

/-- Running a script makes calls that send statements, and no others, and it does
not matter whether they are recorded. -/
theorem run_recorded :
    let r := (d.run script).run s
    ∃ made, (∀ c ∈ made, ∃ mode sql, c = .execute mode sql) ∧
      r.2.database = d.database.after made s.database ∧
      ∀ calls, (d.recorded.run script).run (s.recording calls) =
        (r.1, r.2.recording (calls ++ made)) := by
  obtain ⟨made, hmade, hafter, hrun⟩ :=
    Execution.run_recorded d.database (.ofConfig script d.config) {} s
  refine ⟨made, hmade, hafter, fun calls => ?_⟩
  exact congrArg (fun e => (e.result, e.session)) (hrun calls)

theorem keys_run : ((d.run script).run s).2.keys = s.keys :=
  Execution.keys_run d.database _ _ s

end Driver

end SchemaLedger
