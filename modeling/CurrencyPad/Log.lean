/-
CurrencyPad.Log — what the library reports while it works.

A log line is a value that an operation returns beside its result, so
that the operations stay functions.
-/

namespace CurrencyPad

inductive LogLevel
  | debug
  | info
  | warn
  | error
deriving DecidableEq

def LogLevel.name : LogLevel → String
  | debug => "DEBUG"
  | info => "INFO"
  | warn => "WARN"
  | error => "ERROR"

structure LogLine where
  level : LogLevel
  message : String
deriving DecidableEq

/-- The level, a space, and the message. -/
def LogLine.text (line : LogLine) : String := line.level.name ++ " " ++ line.message

end CurrencyPad
