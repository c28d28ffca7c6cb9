import Partials.Number

/-!
# Records

The values that record files hold: flags, texts, numbers, lists, and tables whose entries keep their
order.
-/

namespace Partials

inductive Record
  | flag (b : Bool)
  | text (t : Text)
  | number (n : Number)
  | list (items : List Record)
  | table (entries : List (Text × Record))
  deriving Repr

namespace Record

def texts (items : List Text) : Record := .list (items.map .text)

def isTable : Record → Bool
  | .table _ => true
  | _ => false

end Record

end Partials
