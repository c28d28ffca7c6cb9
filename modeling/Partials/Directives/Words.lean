import Partials.Directives
import Partials.Marker

/-!
# Reading directives

The text of an annotation is a sequence of words. A word `key:value` is a directive. A word `key:`
leaves its key pending: a bare word directly after it is its value, and anything else gives it an
empty value. Bare words with no pending key are skipped.
-/

namespace Partials.Directives

/-- The key of the directive that names where a block goes. -/
def extractKey : Text := ['e', 'x', 't', 'r', 'a', 'c', 't']

def isKeyChar (c : Char) : Bool :=
  c.isAlphanum || c == '_' || c == '-'

/-- A word of an annotation. -/
inductive Word
  | directive (key value : Text)
  | bare (t : Text)
  deriving DecidableEq, Repr

/-- A directive has a non-empty key before its first colon; any other word is bare. -/
def Word.ofText (t : Text) : Word :=
  match t.takeWhile isKeyChar, t.dropWhile isKeyChar with
  | k :: key, ':' :: value => .directive (k :: key) value
  | _, _ => .bare t

/-- A value with colons is a list, except that a destination is a path and never one. -/
def valueOf (key t : Text) : Value :=
  if key ≠ extractKey ∧ Value.separator ∈ t then .list (Text.split Value.separator t) else .text t

/-- Gives a pending key the empty value. -/
def flush (d : Directives) : Option Text → Directives
  | none => d
  | some key => d.insert key (.text [])

/-- Reads words into the map, given the key that the word before left pending. -/
def readWords (d : Directives) : (pending : Option Text) → List Word → Directives
  | pending, [] => d.flush pending
  | pending, .directive key [] :: words => (d.flush pending).readWords (some key) words
  | pending, .directive key value :: words =>
    ((d.flush pending).insert key (valueOf key value)).readWords none words
  | some key, .bare t :: words => (d.insert key (valueOf key t)).readWords none words
  | none, .bare _ :: words => d.readWords none words

/-- The text without blanks at its ends and without the delimiters of a comment. -/
def body (label : Text) : Text :=
  let t := Text.trim label
  let t := (Text.after? Marker.commentStart t).getD t
  (Text.before? Marker.commentEnd t).getD t

/-- The directives of an annotation. -/
def parse (label : Text) : Directives :=
  empty.readWords none ((Text.words (body label)).map Word.ofText)

/-- Where the block goes: the value of `extract`, unless it is missing or empty. -/
def destination? (d : Directives) : Option Text :=
  match d.get? extractKey with
  | some (.text (c :: cs)) => some (c :: cs)
  | _ => none

/-- The map as the text of an annotation: its entries `key:value`, one space apart. -/
def print (d : Directives) : Text :=
  Text.join [' '] (d.entries.map fun (key, value) => key ++ ':' :: value.asText?.getD [])

theorem nodup_keys_flush {d : Directives} (h : d.keys.Nodup) (pending : Option Text) :
    (d.flush pending).keys.Nodup := by
  cases pending with
  | none => exact h
  | some key => exact nodup_keys_insert h key _

theorem nodup_keys_readWords {d : Directives} (h : d.keys.Nodup) (pending : Option Text)
    (words : List Word) : (d.readWords pending words).keys.Nodup := by
  fun_induction readWords d pending words with
  | case1 d pending => exact nodup_keys_flush h pending
  | case2 d pending key words ih => exact ih (nodup_keys_flush h pending)
  | case3 d pending key value words _ ih =>
    exact ih (nodup_keys_insert (nodup_keys_flush h pending) _ _)
  | case4 d key t words ih => exact ih (nodup_keys_insert h _ _)
  | case5 d t words ih => exact ih h

/-- No key of a parsed annotation is repeated. -/
theorem nodup_keys_parse (label : Text) : (parse label).keys.Nodup :=
  nodup_keys_readWords (by simp [empty, keys]) none _

end Partials.Directives
