import Partials.Record

/-!
# Data

What a reader of a record format finds in a file, before anyone asks which record it is. The formats
differ in what a scalar may stand for, so a scalar carries an answer to each question that a record
asks of it.
-/

namespace Partials

/-- A scalar where nothing says what it should be. -/
inductive Untyped
  | null
  | flag (b : Bool)
  | text (t : Text)
  | number (n : Number)
  deriving DecidableEq, Repr

/-- What a scalar stands for; `none` where it cannot stand for what is asked. -/
structure Scalar where
  /-- The value where a text is wanted. -/
  text? : Option Text := none
  /-- The value where a flag is wanted. -/
  flag? : Option Bool := none
  /-- The value where one of several names is wanted. -/
  choice? : Option Text := none
  /-- The value where nothing says what is wanted. -/
  any? : Option Untyped := none
  /-- Whether the scalar may stand for a table without entries. -/
  isEmptyTable : Bool := false
  deriving DecidableEq, Repr

/-- A value of a file. A tagged list or table says of which type it is; where nothing is known of
that type it cannot be used. -/
inductive Datum
  | scalar (s : Scalar)
  | list (tagged : Bool) (items : List Datum)
  | table (tagged : Bool) (entries : List (Datum × Datum))
  /-- A value that contains itself. -/
  | unreadable
  deriving Repr, Inhabited

namespace Scalar

/-- A scalar that is a text and nothing else. -/
def ofText (t : Text) : Scalar :=
  { text? := some t, choice? := some t, any? := some (.text t) }

def ofFlag (b : Bool) : Scalar := { flag? := some b, any? := some (.flag b) }

/-- A scalar that is a number and nothing else; none for a number out of range. -/
def ofNumber (n : Option Number) : Scalar := { any? := n.map .number }

def null : Scalar := { any? := some .null }

end Scalar

namespace Datum

def text (t : Text) : Datum := .scalar (.ofText t)

def flag (b : Bool) : Datum := .scalar (.ofFlag b)

def text? : Datum → Option Text
  | .scalar s => s.text?
  | _ => none

def flag? : Datum → Option Bool
  | .scalar s => s.flag?
  | _ => none

def any? : Datum → Option Untyped
  | .scalar s => s.any?
  | _ => none

end Datum

end Partials
