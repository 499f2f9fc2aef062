import CardAccess.Bytes

/-!
# Text in bytes

References of certificates are read as ISO 8859-1, where each byte is one
character, so reading never fails.  Everything else is UTF-8.
-/

namespace CardAccess
namespace Text

/-- The characters with the codes of the bytes. -/
def ofLatin1 (bytes : Bytes) : String :=
  String.ofList (bytes.map fun byte => Char.ofNat byte.toNat)

def toUtf8 (text : String) : Bytes := text.toUTF8.toList

def ofUtf8? (bytes : Bytes) : Option String := String.fromUTF8? ⟨bytes.toArray⟩

end Text
end CardAccess
