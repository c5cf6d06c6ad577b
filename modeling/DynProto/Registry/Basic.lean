import DynProto.Error
import DynProto.Name.Qualified
import DynProto.Options
import DynProto.Schema.Enum
import DynProto.Schema.Message

/-!
# The registry of types

A registry holds the message types and enums that have been declared, under their full names. When
a name is declared again, the later declaration counts; the listing of visible types keeps the
place of the first. The entries of map fields are declared as messages too, but are known to the
registry only as keys and values of maps: they are not visible as types.

A registry is open for further declarations until it is resolved. Its message types are pending up
to then; resolving it moves them to the table of finalized ones. A look-up goes through the
finalized types first and through the pending ones after that, so that it finds the same before and
after (`messageType_resolve`).
-/

namespace DynProto

/-- Bindings of names, the newest first; a newer one hides those behind it. -/
abbrev Bindings (α : Type) := List (String × α)

/-- What a map field maps from and to. -/
structure MapEntry where
  /-- The kind of the keys. -/
  key : Scalar
  /-- What the values are. -/
  value : MapValue
deriving DecidableEq, Repr

/-- An entry of the listing of visible types. -/
structure Listed where
  /-- The full name of the type. -/
  name : QualifiedName
  /-- Whether the type is an enum. -/
  isEnum : Bool
deriving DecidableEq, Repr

/-- No message type is finalized before the registry is closed. -/
def FinalizedIfResolved (finalized : Bindings MessageType) (resolved : Bool) : Prop :=
  resolved = false → finalized = []

/-- Nothing is finalized in a new registry. -/
theorem FinalizedIfResolved.new : FinalizedIfResolved [] false :=
  fun _ => rfl

/-- The declared types. -/
structure Registry where
  /-- The settings of the codecs. -/
  options : Options := {}
  /-- The message types that are declared while the registry is open. -/
  pending : Bindings MessageType := []
  /-- The message types that were declared when the registry was closed. -/
  finalized : Bindings MessageType := []
  /-- The enums. -/
  enums : Bindings EnumType := []
  /-- The entries of map fields. -/
  mapEntries : Bindings MapEntry := []
  /-- The visible types, in the order of their first declaration. -/
  listing : List Listed := []
  /-- Whether the registry is closed for further declarations. -/
  resolved : Bool := false
  /-- The table of finalized message types is empty before that. -/
  finalizedIfResolved : FinalizedIfResolved finalized resolved := by exact .new
deriving Repr

namespace Registry

/-- The registry, closed for further declarations: the pending message types are finalized. -/
def resolve (registry : Registry) : Registry :=
  if registry.resolved then registry
  else
    { registry with
      pending := []
      finalized := registry.pending ++ registry.finalized
      resolved := true
      finalizedIfResolved := nofun }

/-- The message type with a name, finalized or pending. A leading dot is ignored. -/
def messageType (registry : Registry) (name : String) : Except SchemaError MessageType :=
  let name := Dotted.withoutLeadingDot name
  match (registry.finalized.lookup name).or (registry.pending.lookup name) with
  | some type => .ok type
  | none => .error (.unknownType name)

/-- The enum with a name. A leading dot is ignored. -/
def enumType (registry : Registry) (name : String) : Except SchemaError EnumType :=
  let name := Dotted.withoutLeadingDot name
  match registry.enums.lookup name with
  | some type => .ok type
  | none => .error (.unknownType name)

/-- The message type with a name, for a codec. -/
def codecMessageType (registry : Registry) (name : String) : Except CodecError MessageType :=
  (registry.messageType name).mapError .schema

/-- The enum with a name, for a codec. -/
def codecEnumType (registry : Registry) (name : String) : Except CodecError EnumType :=
  (registry.enumType name).mapError .schema

/-- The full names of all visible types. -/
def typeNames (registry : Registry) : List String :=
  registry.listing.map fun listed => listed.name.fullName

/-- The names of all visible message types. -/
def messageNames (registry : Registry) : List QualifiedName :=
  (registry.listing.filter fun listed => !listed.isEnum).map Listed.name

/-! ## Message types -/

/-- The message types in the order in which a look-up goes through them. -/
def messages (registry : Registry) : Bindings MessageType :=
  registry.finalized ++ registry.pending

/-- A message type is looked up among all of them. -/
theorem messageType_eq (registry : Registry) (name : String) :
    registry.messageType name =
      (registry.messages.lookup (Dotted.withoutLeadingDot name)).elim
        (.error (.unknownType (Dotted.withoutLeadingDot name))) .ok := by
  rw [messages, List.lookup_append, messageType]
  cases (registry.finalized.lookup (Dotted.withoutLeadingDot name)).or
    (registry.pending.lookup (Dotted.withoutLeadingDot name)) <;> rfl

/-- The message types of an open registry are pending. -/
theorem messages_of_open {registry : Registry} (h : registry.resolved = false) :
    registry.messages = registry.pending := by
  rw [messages, registry.finalizedIfResolved h, List.nil_append]

/-! ## Closing a registry -/

@[simp] theorem resolved_resolve (registry : Registry) : registry.resolve.resolved = true := by
  unfold resolve
  split
  · assumption
  · rfl

@[simp] theorem options_resolve (registry : Registry) :
    registry.resolve.options = registry.options := by
  unfold resolve
  split <;> rfl

@[simp] theorem enums_resolve (registry : Registry) : registry.resolve.enums = registry.enums := by
  unfold resolve
  split <;> rfl

@[simp] theorem mapEntries_resolve (registry : Registry) :
    registry.resolve.mapEntries = registry.mapEntries := by
  unfold resolve
  split <;> rfl

@[simp] theorem listing_resolve (registry : Registry) :
    registry.resolve.listing = registry.listing := by
  unfold resolve
  split <;> rfl

/-- The message types stay in their order when they are moved. -/
@[simp] theorem messages_resolve (registry : Registry) :
    registry.resolve.messages = registry.messages := by
  unfold resolve
  split
  · rfl
  · rename_i hopen
    have hnil : registry.finalized = [] := registry.finalizedIfResolved (by simpa using hopen)
    simp [messages, hnil]

/-- Closing a registry changes no look-up. -/
@[simp] theorem messageType_resolve (registry : Registry) (name : String) :
    registry.resolve.messageType name = registry.messageType name := by
  rw [messageType_eq, messageType_eq, messages_resolve]

@[simp] theorem enumType_resolve (registry : Registry) (name : String) :
    registry.resolve.enumType name = registry.enumType name := by
  rw [enumType, enumType, enums_resolve]

@[simp] theorem messageNames_resolve (registry : Registry) :
    registry.resolve.messageNames = registry.messageNames := by
  rw [messageNames, messageNames, listing_resolve]

end Registry

end DynProto
