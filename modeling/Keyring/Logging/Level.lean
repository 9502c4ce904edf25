import Keyring.Error
import Keyring.Text.Blank

/-! # Log levels

Five levels from the most to the least severe. A level is configured by its name in any case;
`warning` is a second name of `warn`. No name contains a letter that a character beyond ASCII folds
to, so folding ASCII letters decides every text.
-/

namespace Keyring

/-- The severity of a log event. -/
inductive Level
  | error
  | warn
  | info
  | debug
  | trace
  deriving DecidableEq, Repr

namespace Level

/-- How much is logged at a level: more severe levels come first. -/
def rank : Level → Nat
  | .error => 1
  | .warn => 2
  | .info => 3
  | .debug => 4
  | .trace => 5

/-- Whether an event of level `event` is at least as severe as `threshold`. -/
def atLeast (threshold event : Level) : Bool :=
  event.rank ≤ threshold.rank

/-- The name of a level in capitals. -/
def name : Level → String
  | .error => "ERROR"
  | .warn => "WARN"
  | .info => "INFO"
  | .debug => "DEBUG"
  | .trace => "TRACE"

/-- The level of a name in lower case. -/
def ofLower? (s : String) : Option Level :=
  if s = "trace" then some .trace
  else if s = "debug" then some .debug
  else if s = "info" then some .info
  else if s = "warn" ∨ s = "warning" then some .warn
  else if s = "error" then some .error
  else none

/-- The level a configuration names. -/
def parse (s : String) : Except Error Level :=
  match ofLower? (Text.lowerAscii s) with
  | some l => .ok l
  | none =>
    .error (.plain .configuration
      s!"Invalid log level: {s}. Use trace, debug, info, warn, or error")

end Level

end Keyring
