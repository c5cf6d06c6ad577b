import DynProto.Text.CaseMapping

/-!
# Lower camel case

The name under which a field declared in snake case appears in JSON: underscores are dropped and
capitalise the character after them, a digit stays and capitalises the character after it, and the
first character of the name is lowered.
-/

namespace DynProto

/-- The camel-case form of the rest of a name; `capitalize` says whether the character before asks
for a capital, `first` whether this is the start of the name. -/
def camelChars (capitalize first : Bool) : List Char → List Char
  | [] => []
  | c :: rest =>
    if c = '_' then camelChars true false rest
    else if c.isDigit then c :: camelChars true false rest
    else if capitalize then Text.upperCase c ++ camelChars false false rest
    else if first then Text.lowerCase c ++ camelChars false false rest
    else c :: camelChars false false rest

/-- The lower camel case form of a declared field name. -/
def lowerCamelCase (name : String) : String :=
  String.ofList (camelChars false true name.toList)

end DynProto
