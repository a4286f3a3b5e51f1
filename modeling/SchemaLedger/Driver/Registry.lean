import SchemaLedger.Connection.Basic
import SchemaLedger.Driver.Basic
/-!
# Registries

A registry says which schemes of connection strings can be opened, and how.
Whoever opens a driver owns one; there is no registry for the whole process.
-/

namespace SchemaLedger

abbrev Factory (σ : Type) := ConnectionString → Action σ (Driver σ)

structure Registry (σ : Type) where
  factories : List (String × Factory σ) := []

namespace Registry

variable {σ : Type}

/-- Register a factory. One that was registered under the scheme is replaced,
and that is logged. -/
def register (r : Registry σ) (scheme : String) (factory : Factory σ) :
    Registry σ × List LogLine :=
  let others := r.factories.filter (·.1 ≠ scheme)
  (⟨others ++ [(scheme, factory)]⟩,
    if others.length < r.factories.length then
      [⟨.debug, "Replaced migration driver factory for scheme '" ++ scheme
        ++ "'"⟩]
    else
      [])

def schemes (r : Registry σ) : List String :=
  (r.factories.map Prod.fst).mergeSort

def connect (r : Registry σ) (c : ConnectionString) : Action σ (Driver σ) := do
  match r.factories.lookup c.scheme with
  | none => throw (.unknownScheme c.scheme)
  | some factory =>
    Action.log .debug ("Opening migration driver for " ++ c.redacted)
    factory c

/-- Open a driver from the text of a connection string, its options laid over
a configuration. -/
def openWith (r : Registry σ) (text : String) (base : Config) :
    Action σ (Driver σ) := do
  let (parsed, lines) := ConnectionString.parse base text
  Action.logAll lines
  match parsed with
  | .error fault => throw (.input fault)
  | .ok c => r.connect c

end Registry

end SchemaLedger
