/-!
# Log records

What the host tells about its work: a level, the part of the program that speaks, and a message.
Records below the level that is asked for are dropped when they are shown, not when they are made.
-/

namespace PluginHost

/-- The levels of log records, the gravest first. -/
inductive LogLevel where
  | error
  | warn
  | info
  | debug
  | trace
  deriving DecidableEq, Repr

namespace LogLevel

/-- The name of a level in records. -/
def name : LogLevel → String
  | .error => "ERROR"
  | .warn => "WARN"
  | .info => "INFO"
  | .debug => "DEBUG"
  | .trace => "TRACE"

/-- How much is shown at a level. -/
def rank : LogLevel → Nat
  | .error => 1
  | .warn => 2
  | .info => 3
  | .debug => 4
  | .trace => 5

end LogLevel

/-- The parts of the program that speak in the log. -/
inductive LogSource where
  | program
  | loader
  | manager
  | registrar
  deriving DecidableEq, Repr

/-- The name of a part, by which its records can be asked for. -/
def LogSource.name : LogSource → String
  | .program => "sprig"
  | .loader => "sprig::plugin::loader"
  | .manager => "sprig::plugin::manager"
  | .registrar => "sprig::plugin::registrar"

/-- One record. -/
structure LogRecord where
  level : LogLevel
  source : LogSource
  message : String
  deriving DecidableEq, Repr

end PluginHost
