import Partials.Text

/-!
# UTF-8

Texts as bytes. Bytes are read one unit at a time: a unit is a character, or the longest part of an
encoding that breaks off. Bytes with broken units are no text; read leniently, each broken unit
becomes the replacement character.
-/

namespace Partials.Utf8

abbrev Bytes := List UInt8

/-- The UTF-8 form of a text. -/
def encode (t : Text) : Bytes := t.flatMap String.utf8EncodeChar

theorem encode_injective {s t : Text} (h : encode s = encode t) : s = t := by
  have hbytes : s.utf8Encode = t.utf8Encode := congrArg List.toByteArray h
  have hdecoded := congrArg ByteArray.utf8Decode? hbytes
  rw [List.utf8Decode?_utf8Encode, List.utf8Decode?_utf8Encode, Option.some.injEq] at hdecoded
  exact congrArg Array.toList hdecoded

/-- A byte that continues a character. -/
def isContinuation (b : UInt8) : Bool := 0x80 ≤ b && b ≤ 0xBF

/-- The bytes that may follow the first byte of a three-byte form: neither an overlong form nor a
surrogate. -/
def secondOfThree (first b : UInt8) : Bool :=
  if first == 0xE0 then 0xA0 ≤ b && b ≤ 0xBF
  else if first == 0xED then 0x80 ≤ b && b ≤ 0x9F
  else isContinuation b

/-- The bytes that may follow the first byte of a four-byte form: neither an overlong form nor a
value above the last code point. -/
def secondOfFour (first b : UInt8) : Bool :=
  if first == 0xF0 then 0x90 ≤ b && b ≤ 0xBF
  else if first == 0xF4 then 0x80 ≤ b && b ≤ 0x8F
  else isContinuation b

/-- The low six bits of a continuation. -/
def payload (b : UInt8) : Nat := b.toNat % 64

/-- The unit that starts with `first`, and the bytes behind it; none for a broken one. -/
def unit (first : UInt8) (rest : Bytes) : Option Char × Bytes :=
  if first < 0x80 then (some (Char.ofNat first.toNat), rest)
  else if 0xC2 ≤ first && first ≤ 0xDF then
    match rest with
    | b :: bs =>
      if isContinuation b then (some (Char.ofNat (first.toNat % 32 * 64 + payload b)), bs)
      else (none, rest)
    | [] => (none, rest)
  else if 0xE0 ≤ first && first ≤ 0xEF then
    match rest with
    | b :: bs =>
      if secondOfThree first b then
        match bs with
        | c :: cs =>
          if isContinuation c then
            (some (Char.ofNat ((first.toNat % 16 * 64 + payload b) * 64 + payload c)), cs)
          else (none, bs)
        | [] => (none, bs)
      else (none, rest)
    | [] => (none, rest)
  else if 0xF0 ≤ first && first ≤ 0xF4 then
    match rest with
    | b :: bs =>
      if secondOfFour first b then
        match bs with
        | c :: cs =>
          if isContinuation c then
            match cs with
            | d :: ds =>
              if isContinuation d then
                (some (Char.ofNat
                  (((first.toNat % 8 * 64 + payload b) * 64 + payload c) * 64 + payload d)), ds)
              else (none, cs)
            | [] => (none, cs)
          else (none, bs)
        | [] => (none, bs)
      else (none, rest)
    | [] => (none, rest)
  else (none, rest)

theorem length_unit_le (first : UInt8) (rest : Bytes) :
    (unit first rest).2.length ≤ rest.length := by
  unfold unit
  repeat' split
  all_goals simp
  all_goals omega

/-- The units of the bytes. -/
def units : Bytes → List (Option Char)
  | [] => []
  | b :: bs => (unit b bs).1 :: units (unit b bs).2
termination_by bs => bs.length
decreasing_by
  have := length_unit_le b bs
  simp only [List.length_cons]
  omega

/-- The text whose form the bytes are. -/
def decode? (bytes : Bytes) : Option Text := (units bytes).mapM id

/-- The text of the bytes with a replacement character for each broken unit. -/
def decodeLossy (bytes : Bytes) : Text := (units bytes).map (·.getD '\uFFFD')

end Partials.Utf8
