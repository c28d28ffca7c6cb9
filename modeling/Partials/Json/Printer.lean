import Partials.Json.Quoted
import Partials.Record

/-!
# Writing JSON

A record as JSON text: compact, without blanks, or pretty, with one item or entry on a line.
-/

namespace Partials.Record

def flagText (b : Bool) : Text :=
  if b then ['t', 'r', 'u', 'e'] else ['f', 'a', 'l', 's', 'e']

mutual

/-- The record as JSON without blanks. -/
def compact : Record → Text
  | .flag b => flagText b
  | .text t => Json.quote t
  | .number n => n.text
  | .list items => '[' :: compactItems items ++ [']']
  | .table entries => '\x7b' :: compactEntries entries ++ ['\x7d']

/-- Items separated by commas. -/
def compactItems : List Record → Text
  | [] => []
  | [item] => item.compact
  | item :: next :: items => item.compact ++ ',' :: compactItems (next :: items)

/-- Entries separated by commas. -/
def compactEntries : List (Text × Record) → Text
  | [] => []
  | [(key, value)] => Json.quote key ++ ':' :: value.compact
  | (key, value) :: next :: entries =>
    Json.quote key ++ ':' :: value.compact ++ ',' :: compactEntries (next :: entries)

end

/-- A line feed and the indentation of a line at depth `depth`. -/
def prettyBreak (depth : Nat) : Text := '\n' :: List.replicate (2 * depth) ' '

mutual

/-- The record as JSON with each item and entry on a line of its own, two spaces deeper than the
list or table that holds it. -/
def pretty (depth : Nat) : Record → Text
  | .flag b => flagText b
  | .text t => Json.quote t
  | .number n => n.text
  | .list [] => ['[', ']']
  | .list (item :: items) =>
    '[' :: prettyItems (depth + 1) (item :: items) ++ prettyBreak depth ++ [']']
  | .table [] => ['\x7b', '\x7d']
  | .table (entry :: entries) =>
    '\x7b' :: prettyEntries (depth + 1) (entry :: entries) ++ prettyBreak depth ++ ['\x7d']

def prettyItems (depth : Nat) : List Record → Text
  | [] => []
  | [item] => prettyBreak depth ++ item.pretty depth
  | item :: next :: items =>
    prettyBreak depth ++ item.pretty depth ++ ',' :: prettyItems depth (next :: items)

def prettyEntries (depth : Nat) : List (Text × Record) → Text
  | [] => []
  | [(key, value)] => prettyBreak depth ++ Json.quote key ++ [':', ' '] ++ value.pretty depth
  | (key, value) :: next :: entries =>
    prettyBreak depth ++ Json.quote key ++ [':', ' '] ++ value.pretty depth ++
      ',' :: prettyEntries depth (next :: entries)

end

end Partials.Record
