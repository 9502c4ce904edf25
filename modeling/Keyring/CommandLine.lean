/-! # The command line

What a process is asked to do by its arguments.
-/

namespace Keyring

/-- What is asked for. -/
inductive Command
  /-- Keeps keys current, or only shows them. -/
  | run (config : Option String) (check : Bool)
  | help
  | version
  deriving DecidableEq, Repr

namespace Command

/-- How the program is called. -/
def usage : String := "Usage: authkeys [OPTIONS]"

/-- What the program is and takes. -/
def helpText : String :=
  "Distributed RS256 signing-key rotation\n\n" ++ usage ++ "\n\nOptions:\n"
    ++ "  -c, --config <CONFIG>  Path to configuration file\n"
    ++ "      --check            Restore the key window, print its JWKS and exit\n"
    ++ "  -h, --help             Print help\n"
    ++ "  -V, --version          Print version\n"

/-- The name and the version of the program. -/
def versionText : String := "authkeys 0.1.0\n"

/-- Where a refusal points to. -/
def hint : String := "\n\nFor more information, try '--help'.\n"

/-- The refusal of an argument that is not known. -/
def unexpected (argument : String) : String :=
  s!"error: unexpected argument '{argument}' found\n\n" ++ usage ++ hint

/-- The refusal of an option that stands twice. -/
def repeated (option : String) : String :=
  s!"error: the argument '{option}' cannot be used multiple times\n\n" ++ usage ++ hint

/-- The name of the option that takes a path. -/
def configOption : String := "--config <CONFIG>"

/-- The refusal of an option without its value. -/
def missingValue : String :=
  s!"error: a value is required for '{configOption}' but none was supplied" ++ hint

/-- The path an argument gives by itself, if it is the option for one. -/
def inlinePath? (argument : String) : Option String :=
  match argument.toList with
  | '-' :: '-' :: 'c' :: 'o' :: 'n' :: 'f' :: 'i' :: 'g' :: '=' :: path => some (String.ofList path)
  | '-' :: 'c' :: '=' :: path => some (String.ofList path)
  | '-' :: 'c' :: c :: path => some (String.ofList (c :: path))
  | _ => none

/-- Reads arguments, after those that asked for `config` and `check`. -/
def parseFrom (config : Option String) (check : Bool) : List String → Except String Command
  | [] => .ok (.run config check)
  | argument :: rest =>
    if argument = "-h" ∨ argument = "--help" then .ok .help
    else if argument = "-V" ∨ argument = "--version" then .ok .version
    else if argument = "--check" then
      if check then .error (repeated "--check") else parseFrom config true rest
    else if argument = "-c" ∨ argument = "--config" then
      match rest with
      | [] => .error missingValue
      | path :: rest =>
        if config.isSome then .error (repeated configOption) else parseFrom (some path) check rest
    else match inlinePath? argument with
      | some path =>
        if config.isSome then .error (repeated configOption) else parseFrom (some path) check rest
      | none => .error (unexpected argument)

/-- The command of a process's arguments, or the text that refuses them. -/
def parse (arguments : List String) : Except String Command := parseFrom none false arguments

end Command

end Keyring
