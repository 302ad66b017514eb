/-!
Log records. A log shows the records from some level on.
-/

namespace UplinkShaper

inductive LogLevel
  | debug
  | info
  | warning
  | error
deriving DecidableEq, Repr

namespace LogLevel

def name : LogLevel → String
  | .debug => "DEBUG"
  | .info => "INFO"
  | .warning => "WARNING"
  | .error => "ERROR"

def rank : LogLevel → Nat
  | .debug => 0
  | .info => 1
  | .warning => 2
  | .error => 3

def ofName? : String → Option LogLevel
  | "DEBUG" => some .debug
  | "INFO" => some .info
  | "WARNING" => some .warning
  | "ERROR" => some .error
  | _ => none

end LogLevel

structure LogRecord where
  level : LogLevel
  message : String
deriving DecidableEq, Repr

namespace LogRecord

def debug (message : String) : LogRecord := ⟨.debug, message⟩

def info (message : String) : LogRecord := ⟨.info, message⟩

def warning (message : String) : LogRecord := ⟨.warning, message⟩

def error (message : String) : LogRecord := ⟨.error, message⟩

def isShownFrom (level : LogLevel) (record : LogRecord) : Bool :=
  level.rank ≤ record.level.rank

end LogRecord

end UplinkShaper
