import DynProto.Name.Dotted

/-!
# Package names and file names

Two checks on text that comes from an untrusted descriptor set: a package name must be made of
plain identifiers, and a file name must hold no control character.
-/

namespace DynProto

/-- An ASCII letter or an underscore. -/
def isIdentifierStart (c : Char) : Bool :=
  c.isAlpha || c == '_'

/-- An ASCII letter, an ASCII digit or an underscore. -/
def isIdentifierRest (c : Char) : Bool :=
  c.isAlphanum || c == '_'

/-- A letter or underscore followed by letters, digits and underscores, all of them ASCII. -/
def isIdentifier : List Char → Bool
  | [] => false
  | c :: rest => isIdentifierStart c && rest.all isIdentifierRest

/-- A package name is one or more identifiers joined by dots. -/
def isPackageName (name : String) : Bool :=
  (Dotted.splitChars name.toList).all isIdentifier

/-- Whether a text holds a character below the space. -/
def hasControlChar (text : String) : Bool :=
  text.toList.any fun c => c.toNat < 0x20

end DynProto
