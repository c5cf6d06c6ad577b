import DynProto.Descriptor.File
import DynProto.Name.Identifier
import DynProto.Registry.Basic

/-!
# Taking declarations into the registry

The declarations of a file are first drafted and only then, if all of them are sound, added to the
registry, so that a file either counts as a whole or leaves no trace. Messages inside a message are
drafted before the fields of the message around them, because a map field is recognised by the map
entry that it refers to.

A set of files is taken file by file. Files with a dubious package or file name are passed over; the
first file that is not sound ends the batch, and those before it stay.
-/

namespace DynProto

/-- What a file declares, before it is visible. -/
structure Draft where
  /-- The message types, in the order in which they are drafted. -/
  messages : List MessageType := []
  /-- The enums, in the order in which they are drafted. -/
  enums : List EnumType := []
  /-- The entries of map fields. -/
  mapEntries : Bindings MapEntry := []
  /-- The visible types, in the order in which they are drafted. -/
  listing : List Listed := []
deriving Repr

/-- How many files of a set were taken and how many passed over. -/
structure Summary where
  /-- Files whose declarations were added. -/
  ingested : Nat := 0
  /-- Files that were passed over. -/
  skipped : Nat := 0
deriving DecidableEq, Repr

namespace Registry

/-! ## Fields -/

/-- The largest number that a field may have. -/
def maxFieldNumber : Nat := 536870911

/-- Whether a field may have a number. -/
def isFieldNumber (number : Int) : Bool :=
  1 ≤ number && number ≤ maxFieldNumber

/-- The type number of a group. -/
def groupCode : Int := 10

/-- The type number of a message. -/
def messageCode : Int := 11

/-- The type number of an enum. -/
def enumCode : Int := 14

/-- The name of the type that a field refers to, without its leading dot. -/
def referencedName (field : FieldDescriptor) : Except SchemaError String :=
  let name := Dotted.withoutLeadingDot field.typeName
  if name.isEmpty then .error (.missingTypeName field.name) else .ok name

/-- What a declared field holds, given the map entries that are known. -/
def fieldKind (mapOf? : String → Option MapEntry) (field : FieldDescriptor) :
    Except SchemaError FieldKind :=
  match field.typeCode with
  | none => .error (.unknownFieldType field.name none)
  | some code =>
    if code = groupCode then .error (.unsupportedField field.name .group)
    else if code = messageCode then do
      let name ← referencedName field
      match mapOf? name with
      | some entry => .ok (.map entry.key entry.value)
      | none => .ok (.message name field.repeated)
    else if code = enumCode then do
      let name ← referencedName field
      .ok (.enum name field.repeated)
    else
      match Scalar.ofCode? code with
      | some kind => .ok (.scalar kind field.repeated)
      | none => .error (.unknownFieldType field.name (some code))

/-- The field that a declaration stands for. -/
def field (mapOf? : String → Option MapEntry) (declared : FieldDescriptor) :
    Except SchemaError Field :=
  if isFieldNumber declared.number then do
    let kind ← fieldKind mapOf? declared
    let givenJsonName := if declared.jsonName.isEmpty then none else some declared.jsonName
    .ok ⟨declared.number.toNat, declared.name, givenJsonName, kind⟩
  else .error (.malformed (.fieldNumber declared.name declared.number))

/-! ## Map entries -/

/-- The place of the field with a name or, if there is none, of the field with a number. -/
def entryFieldIndex? (fields : List FieldDescriptor) (name : String) (number : Int) :
    Option Nat :=
  (fields.findIdx? fun field => field.name == name).or
    (fields.findIdx? fun field => field.number == number)

/-- The kind of a map's keys that a field can stand for. -/
def entryKey? : FieldKind → Option Scalar
  | .scalar kind false => if kind.isMapKey then some kind else none
  | _ => none

/-- What a map's values can be, going by the field that stands for them. -/
def entryValue? : FieldKind → Option MapValue
  | .scalar kind false => some (.scalar kind)
  | .enum type false => some (.enum type)
  | .message type false => some (.message type)
  | _ => none

/-- What a map field maps from and to, going by the fields of the message that stands for its
entries. -/
def mapEntry (mapOf? : String → Option MapEntry) (type : String) (fields : List FieldDescriptor) :
    Except SchemaError MapEntry := do
  let invalid {α : Type} (reason : MapEntryReason) : Except SchemaError α :=
    .error (.invalidMapEntry type reason)
  let keyIndex ← (entryFieldIndex? fields "key" 1).elim (invalid .missingKey) .ok
  let valueIndex ← (entryFieldIndex? fields "value" 2).elim (invalid .missingValue) .ok
  if keyIndex = valueIndex then invalid .sameField
  else
    let keyField ← field mapOf? (fields.getD keyIndex {})
    let key ← (entryKey? keyField.kind).elim (invalid .key) .ok
    let valueField ← field mapOf? (fields.getD valueIndex {})
    let value ← (entryValue? valueField.kind).elim (invalid .value) .ok
    .ok ⟨key, value⟩

/-! ## Files -/

/-- The map entry with a name, in the draft of a file or else in the registry. -/
def mapShape? (registry : Registry) (draft : Draft) (name : String) : Option MapEntry :=
  (draft.mapEntries.lookup name).or (registry.mapEntries.lookup name)

/-- The draft with an enum; one without a name is left out, and so are values without a name. -/
def draftEnum (draft : Draft) (parent : Option QualifiedName) (declared : EnumDescriptor) :
    Draft :=
  if declared.name.isEmpty then draft
  else
    let name := QualifiedName.under parent declared.name
    let values := declared.values.filter fun value => !value.1.isEmpty
    { draft with
      enums := draft.enums ++ [⟨name.fullName, values⟩]
      listing := draft.listing ++ [⟨name, true⟩] }

/-- The draft with several enums. -/
def draftEnums (draft : Draft) (parent : Option QualifiedName) (declared : List EnumDescriptor) :
    Draft :=
  declared.foldl (fun draft enum => draftEnum draft parent enum) draft

mutual

/-- The draft with a message and all that is declared inside it; one without a name is left out. -/
def draftMessage (registry : Registry) (draft : Draft) (parent : Option QualifiedName) :
    MessageDescriptor → Except SchemaError Draft
  | .mk symbol fields nested enums isMapEntry =>
    if symbol.isEmpty then .ok draft
    else
      let name := QualifiedName.under parent symbol
      if isMapEntry then do
        let entry ← mapEntry (registry.mapShape? draft) name.fullName fields
        .ok { draft with mapEntries := (name.fullName, entry) :: draft.mapEntries }
      else do
        let draft ← draftMessages registry draft (some name) nested
        let fields ← fields.mapM (field (registry.mapShape? draft))
        let draft :=
          { draft with
            messages := draft.messages ++ [⟨name.fullName, fields⟩]
            listing := draft.listing ++ [⟨name, false⟩] }
        .ok (draftEnums draft (some name) enums)

/-- The draft with several messages. -/
def draftMessages (registry : Registry) (draft : Draft) (parent : Option QualifiedName) :
    List MessageDescriptor → Except SchemaError Draft
  | [] => .ok draft
  | message :: rest => do
    let draft ← draftMessage registry draft parent message
    draftMessages registry draft parent rest

end

/-- The draft of a file: its messages, then its enums. -/
def draftFile (registry : Registry) (file : FileDescriptor) : Except SchemaError Draft := do
  let package := QualifiedName.ofDotted? file.package
  let draft ← draftMessages registry {} package file.messages
  .ok (draftEnums draft package file.enums)

/-- The listing with one more type, unless its name is listed already. -/
def list (listing : List Listed) (listed : Listed) : List Listed :=
  if listing.any fun earlier => earlier.name.fullName == listed.name.fullName then listing
  else listing ++ [listed]

/-- The registry with the declarations of a draft. -/
def commit (registry : Registry) (draft : Draft) : Registry :=
  { registry with
    pending := (draft.messages.map fun type => (type.name, type)).reverse ++ registry.pending
    enums := (draft.enums.map fun type => (type.name, type)).reverse ++ registry.enums
    mapEntries := draft.mapEntries ++ registry.mapEntries
    listing := draft.listing.foldl list registry.listing }

/-- The registry with the declarations of a file. -/
def addFile (registry : Registry) (file : FileDescriptor) : Except SchemaError Registry :=
  if registry.resolved then .error .alreadyResolved
  else (registry.draftFile file).map registry.commit

/-! ## Sets of files -/

/-- Whether a file of a set is taken: its package, if it has one, is made of identifiers, and its
name holds no control character. -/
def isAccepted (file : FileDescriptor) : Bool :=
  (file.package.isEmpty || isPackageName file.package) && !hasControlChar file.name

/-- The registry after a list of files, and the outcome: what was taken, or the error that ended the
batch. -/
def addFiles (registry : Registry) (summary : Summary) :
    List FileDescriptor → Registry × Except SchemaError Summary
  | [] => (registry, .ok summary)
  | file :: rest =>
    if isAccepted file then
      match registry.addFile file with
      | .ok registry => addFiles registry { summary with ingested := summary.ingested + 1 } rest
      | .error error => (registry, .error error)
    else addFiles registry { summary with skipped := summary.skipped + 1 } rest

/-- The files of a schema, which may be in a container. -/
def filesOf (buffer : Bytes) : Except SchemaError (List FileDescriptor) := do
  let payload ← (Container.strip buffer).mapError fun fault => .malformed (.container fault)
  (Descriptor.readFiles payload).mapError fun fault => .malformed (.descriptorSet fault)

/-- The registry after a schema, and the outcome. -/
def addSet (registry : Registry) (buffer : Bytes) : Registry × Except SchemaError Summary :=
  if registry.resolved then (registry, .error .alreadyResolved)
  else
    match filesOf buffer with
    | .ok files => registry.addFiles {} files
    | .error error => (registry, .error error)

end Registry

end DynProto
