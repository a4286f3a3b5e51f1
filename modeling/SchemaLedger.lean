import SchemaLedger.Database.Rehearsal
import SchemaLedger.Main
import SchemaLedger.Proofs.CommandLine.Dirty
import SchemaLedger.Proofs.Connection.Password
import SchemaLedger.Proofs.Database.Wording
import SchemaLedger.Proofs.Driver.Combining
import SchemaLedger.Proofs.Driver.Texts
import SchemaLedger.Proofs.Engine.Reopening
import SchemaLedger.Proofs.Script.Exactness
import SchemaLedger.Proofs.Script.Representation
import SchemaLedger.Proofs.Sql.Templates
import SchemaLedger.Proofs.Version.Accounting
import SchemaLedger.Proofs.Version.Keys
import SchemaLedger.Proofs.Version.Malformed
import SchemaLedger.Proofs.Version.Runs
