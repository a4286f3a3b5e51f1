/-!
# Log lines

Operations do not print. They hand back the lines they log, and whoever runs
them decides where those go.
-/

namespace SchemaLedger

inductive Level where
  | debug
  | info
  | warn
  deriving DecidableEq, Repr

def Level.label : Level → String
  | debug => "DEBUG"
  | info => "INFO"
  | warn => "WARN"

structure LogLine where
  level : Level
  message : String
  deriving DecidableEq, Repr

end SchemaLedger
