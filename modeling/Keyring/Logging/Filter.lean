import Keyring.Logging.Event
import Keyring.Number.Decimal

/-! # Log filters

A filter is a list of directives between commas. A directive names a threshold, by a level, a number
from 0 to 5 or `off`; or a target and perhaps a threshold for it, `target=threshold`; without one it
lets everything through. A target covers all targets it is the beginning of. In brackets a directive
may be restricted to a span or to events with a field: `target[span{field=value}]=threshold`.

The most specific directive that concerns an event decides: the longest target counts first, then
whether a field is named. Of directives that say the same thing the last one counts. No event here
belongs to a span, so directives about spans, or about the value of a field of one, concern none.
-/

namespace Keyring.Logging

/-- The least severe level that is let through, if any is. -/
abbrev Threshold := Option Level

namespace Threshold

/-- The threshold of a number. -/
def ofNat? : Nat → Option Threshold
  | 0 => some none
  | 1 => some (some .error)
  | 2 => some (some .warn)
  | 3 => some (some .info)
  | 4 => some (some .debug)
  | 5 => some (some .trace)
  | _ => none

/-- The threshold of a name in lower case. -/
def ofLower? (s : String) : Option Threshold :=
  if s = "off" then some none
  else if s = "error" then some (some .error)
  else if s = "warn" then some (some .warn)
  else if s = "info" then some (some .info)
  else if s = "debug" then some (some .debug)
  else if s = "trace" then some (some .trace)
  else none

/-- The threshold of a text: a number, or a name in any case. -/
def parse? (s : String) : Option Threshold :=
  match Decimal.unsigned? 6 s.toList with
  | some n => ofNat? n
  | none => ofLower? (Text.lowerAscii s)

/-- Whether an event of a level is let through. -/
def admits (t : Threshold) (event : Level) : Bool := t.any (·.atLeast event)

end Threshold

/-- A field that a directive asks for, and perhaps its value. -/
structure FieldPattern where
  name : String
  value : Option String := none
  deriving DecidableEq, Repr

/-- What one directive asks of events, and what it then lets through. -/
structure Directive where
  target : Option String := none
  span : Option String := none
  field : Option FieldPattern := none
  threshold : Threshold := some .trace
  deriving DecidableEq, Repr

namespace Directive

/-- Whether a directive may start with a character. -/
def isStart (c : Char) : Bool :=
  c.isAlphanum || c = '-' || c = ':' || c = '_' || 128 ≤ c.toNat

/-- What stands before and after the first character that satisfies `p`. -/
def cut (p : Char → Bool) (cs : List Char) : String × List Char :=
  (String.ofList (cs.takeWhile fun c => !p c), cs.dropWhile fun c => !p c)

/-- Reads a threshold after its equals sign; an empty one lets everything through. -/
def withThreshold? (d : Directive) (cs : List Char) : Option Directive :=
  if cs.isEmpty then some d
  else (Threshold.parse? (String.ofList cs)).map fun threshold => { d with threshold }

/-- Reads what follows the brackets. -/
def afterBrackets? (d : Directive) : List Char → Option Directive
  | [] => some d
  | '=' :: rest => d.withThreshold? rest
  | _ => none

/-- The field of a text, and the value after its equals sign. -/
def fieldOf (text : String) : FieldPattern :=
  match cut (· = '=') text.toList with
  | (name, []) => ⟨name, none⟩
  | (name, _ :: rest) => ⟨name, some (cut (· = '=') rest).1⟩

/-- Reads the inside of brackets and what follows them. -/
def brackets? (d : Directive) (cs : List Char) : Option Directive :=
  match cut (fun c => c = ']' || c = '\x7b') cs with
  | (span, ']' :: rest) => { d with span := some span }.afterBrackets? rest
  | (span, '\x7b' :: rest) =>
    match cut (· = '\x7d') rest with
    | (field, '\x7d' :: ']' :: rest) =>
      if field.isEmpty then none
      else { d with
        span := if span.isEmpty then none else some span
        field := some (fieldOf field) }.afterBrackets? rest
    | _ => none
  | _ => none

/-- A directive that is one word: a threshold for everything, or a target. -/
def ofWord (word : String) : Directive :=
  match Threshold.parse? word with
  | some threshold => { threshold }
  | none => { target := some word }

/-- Reads a directive without blanks around it. -/
def ofChars? : List Char → Option Directive
  | [] => none
  | '[' :: rest => brackets? {} rest
  | c :: rest =>
    if isStart c then
      match cut (fun c => c = '=' || c = '[') (c :: rest) with
      | (word, '=' :: rest) => { target := some word : Directive }.withThreshold? rest
      | (word, '[' :: rest) => { target := some word : Directive }.brackets? rest
      | (word, _) => some (ofWord word)
    else none

/-- Reads a directive. -/
def parse? (text : String) : Option Directive := ofChars? (Text.trimChars text.toList)

/-- Whether a directive can concern events outside of spans. -/
def isStatic (d : Directive) : Bool :=
  d.span.isNone && d.field.all (·.value.isNone)

/-- Whether a directive concerns an event. -/
def concerns (d : Directive) (e : Event) : Bool :=
  d.isStatic && d.target.all (fun t => t.toList.isPrefixOf e.target.toList)
    && d.field.all fun f => e.fieldNames.contains f.name

/-- How specific the target of a directive is. -/
def reach (d : Directive) : Nat :=
  match d.target with
  | none => 0
  | some t => t.toList.length + 1

/-- Whether `a` is more specific than `b`, where both concern one event. -/
def isMoreSpecific (a b : Directive) : Bool :=
  if a.reach = b.reach then
    match a.field, b.field with
    | some f, some g => g.name < f.name
    | some _, none => true
    | none, _ => false
  else b.reach < a.reach

end Directive

/-- What is let through: nothing, unless a directive concerns it and admits it. -/
structure Filter where
  directives : List Directive
  deriving DecidableEq, Repr

namespace Filter

/-- The texts of the directives of a text; empty ones are passed over. -/
def pieces (text : String) : List String :=
  ((Text.splitAtChar ',' text.toList).filter (!·.isEmpty)).map String.ofList

/-- Reads a filter all of whose directives can be read. -/
def parse? (text : String) : Option Filter :=
  ((pieces text).mapM Directive.parse?).map (⟨·⟩)

/-- Reads those directives that can be read; if there is none, errors are let through. -/
def parseLossy (text : String) : Filter :=
  match (pieces text).filterMap Directive.parse? with
  | [] => ⟨[{ threshold := some .error }]⟩
  | ds => ⟨ds⟩

/-- The filter of a process: that of the environment if there is a legible one, else that of the
configured level. -/
def choose (environment : Option String) (level : String) : Filter :=
  match environment.bind parse? with
  | some f => f
  | none => parseLossy level

/-- The directive that decides about an event. -/
def deciding? (f : Filter) (e : Event) : Option Directive :=
  (f.directives.filter (·.concerns e)).foldl (fun best d =>
    match best with
    | some b => if b.isMoreSpecific d then some b else some d
    | none => some d) none

/-- Whether an event is let through. -/
def admits (f : Filter) (e : Event) : Bool :=
  (f.deciding? e).any (·.threshold.admits e.level)

end Filter

end Keyring.Logging
