/-!
# Texts as bytes

The UTF-8 form of a text as a list of bytes, and the text that a list of bytes is the
form of, if there is one.
-/

namespace Lectern
namespace Text

def toBytes (cs : List Char) : List UInt8 := cs.flatMap String.utf8EncodeChar

def ofBytes? (bytes : List UInt8) : Option (List Char) :=
  (bytes.toByteArray.utf8Decode?).map Array.toList

@[simp] theorem ofBytes?_toBytes (cs : List Char) : ofBytes? (toBytes cs) = some cs := by
  have h := List.utf8Decode?_utf8Encode (l := cs)
  simp only [List.utf8Encode] at h
  simp [ofBytes?, toBytes, h]

theorem toBytes_append (cs ds : List Char) : toBytes (cs ++ ds) = toBytes cs ++ toBytes ds := by
  simp [toBytes]

end Text
end Lectern
