/-! The log of a run, and the logger that writes it. -/
namespace SymbolExport

inductive LogLevel
  | debug
  | info
  | warning
  deriving DecidableEq, Repr

def LogLevel.name : LogLevel → String
  | debug => "DEBUG"
  | info => "INFO"
  | warning => "WARNING"

def LogLevel.number : LogLevel → Nat
  | debug => 10
  | info => 20
  | warning => 30

/-- The part of the program that a record comes from. -/
inductive LogSource
  | typeNames
  | reflection
  | exporter
  | cli
  deriving DecidableEq, Repr

def LogSource.name : LogSource → String
  | typeNames => "entity_export.type_names"
  | reflection => "entity_export.reflection"
  | exporter => "entity_export.exporter"
  | cli => "entity_export.cli"

structure LogRecord where
  level : LogLevel
  source : LogSource
  message : String
  deriving DecidableEq, Repr

/-- The records of a run, the latest last. -/
abbrev Log := List LogRecord

/-- Writes the records of its level and above; a verbose one shows where each comes from. -/
structure LogHandler where
  level : LogLevel
  isVerbose : Bool
  deriving DecidableEq, Repr

def LogHandler.line? (h : LogHandler) (r : LogRecord) : Option String :=
  if r.level.number < h.level.number then none
  else if h.isVerbose then
    some ("[entity-export] " ++ r.level.name ++ " " ++ r.source.name ++ ": " ++ r.message ++ "\n")
  else some ("[entity-export] " ++ r.level.name ++ " " ++ r.message ++ "\n")

/-- Every handler gets the records of the logger's level and above. A logger that nobody has set up
has no handlers. -/
structure Logger where
  level : LogLevel := .warning
  handlers : List LogHandler := []

namespace Logger

def lines (l : Logger) (r : LogRecord) : List String :=
  if r.level.number < l.level.number then [] else l.handlers.filterMap fun h => h.line? r

/-- What is written of a log. -/
def text (l : Logger) (log : Log) : String :=
  String.join (log.flatMap l.lines)

/-- Takes the handlers away one after the other. -/
def removeHandlers (l : Logger) : Logger :=
  { l with handlers := l.handlers.foldl List.erase l.handlers }

/-- Sets the logger up anew: it shows all records if it is verbose. -/
def configure (l : Logger) (isVerbose : Bool) : Logger :=
  let level := if isVerbose then LogLevel.debug else .info
  let l := removeHandlers { l with level := level }
  { l with handlers := l.handlers ++ [⟨level, isVerbose⟩] }

end Logger

end SymbolExport
