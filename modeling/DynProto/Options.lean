import DynProto.Json.Parser

/-!
# Codec options

Two settings that all codecs of a registry share. They are read from JSON, as an object with any of
the two keys, or as an array that gives the settings in order; what is left out takes its default.
-/

namespace DynProto

/-- Settings of the codecs. -/
structure Options where
  /-- How deeply messages may be nested when they are read. -/
  recursionLimit : UInt32 := 100
  /-- Whether keys of JSON objects that name no field are ignored. -/
  ignoreUnknownJsonFields : Bool := false
deriving DecidableEq, Repr

namespace Options

/-- The key of the recursion limit. -/
def limitKey : String := "recursion_limit"

/-- The key of the treatment of unknown keys. -/
def ignoreKey : String := "ignore_unknown_json_fields"

/-- The limit that a JSON value gives. -/
def limitOfJson? : Json → Option UInt32
  | .number (.natural n) => if n.toNat < UInt32.size then some n.toUInt32 else none
  | _ => none

/-- The truth value that a JSON value gives. -/
def flagOfJson? : Json → Option Bool
  | .bool b => some b
  | _ => none

/-- The options that a list of keys and values gives: no key occurs twice, and there are no others
than the two. -/
def ofMembers? {α : Type} (limit? : α → Option UInt32) (flag? : α → Option Bool)
    (members : List (String × α)) : Option Options :=
  let keys := members.map Prod.fst
  if keys.all (fun key => key == limitKey || key == ignoreKey) && keys.count limitKey ≤ 1 &&
      keys.count ignoreKey ≤ 1 then do
    let limit ← (members.lookup limitKey).elim (some ({} : Options).recursionLimit) limit?
    let ignore ← (members.lookup ignoreKey).elim (some ({} : Options).ignoreUnknownJsonFields) flag?
    some ⟨limit, ignore⟩
  else none

/-- The options that a JSON value gives. -/
def ofJson? : Json → Option Options
  | .object members => ofMembers? limitOfJson? flagOfJson? members
  | .array [] => some {}
  | .array [limit] => (limitOfJson? limit).map fun limit => { recursionLimit := limit }
  | .array [limit, ignore] => do
    let limit ← limitOfJson? limit
    let ignore ← flagOfJson? ignore
    some ⟨limit, ignore⟩
  | _ => none

/-- The options that a JSON text gives. -/
def ofJsonText? (text : String) : Option Options :=
  (Json.ofText? text).bind ofJson?

end Options

end DynProto
