import Partials.Checksum.Sha256

/-!
# Checksums

The identity of a text or of several: the SHA-256 digest of its UTF-8 form, after the name of the
method. Parts are separated by a null byte.
-/

namespace Partials.Checksum

def method : Text := "sha256:".toList

/-- The bytes that are hashed for several parts. -/
def message (parts : List Text) : Utf8.Bytes := Utf8.encode (Text.join ['\x00'] parts)

def ofParts (parts : List Text) : Text := method ++ Sha256.digest (message parts)

def ofText (t : Text) : Text := ofParts [t]

end Partials.Checksum
