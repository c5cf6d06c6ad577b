/-!
# The layout of descriptor sets

A descriptor set is itself a message on the wire. This table gives its fields and those of all
messages inside it: numbers, names and contents. Fields that define no type are in it as well,
because a malformed one makes the whole set malformed.
-/

namespace DynProto.Descriptor

/-- The messages that a descriptor set is made of. -/
inductive NodeKind where
  /-- A set of files. -/
  | fileSet
  /-- A file. -/
  | file
  /-- A message. -/
  | message
  /-- A range of numbers for extensions. -/
  | extensionRange
  /-- A range of reserved field numbers. -/
  | reservedRange
  /-- Options of an extension range. -/
  | extensionRangeOptions
  /-- A field. -/
  | field
  /-- A choice between fields. -/
  | oneof
  /-- An enum. -/
  | enum
  /-- A range of reserved enum numbers. -/
  | enumReservedRange
  /-- A value of an enum. -/
  | enumValue
  /-- A service. -/
  | service
  /-- A method of a service. -/
  | method
  /-- Options of a file. -/
  | fileOptions
  /-- Options of a message. -/
  | messageOptions
  /-- Options of a field. -/
  | fieldOptions
  /-- Options of a choice. -/
  | oneofOptions
  /-- Options of an enum. -/
  | enumOptions
  /-- Options of an enum value. -/
  | enumValueOptions
  /-- Options of a service. -/
  | serviceOptions
  /-- Options of a method. -/
  | methodOptions
  /-- An option that nobody has interpreted. -/
  | uninterpretedOption
  /-- A part of the name of such an option. -/
  | namePart
  /-- Where the declarations stand in the source text. -/
  | sourceCodeInfo
  /-- Where one declaration stands. -/
  | location
deriving DecidableEq, Repr

/-- What a field of such a message holds. -/
inductive Content where
  /-- Text. -/
  | string
  /-- Octets. -/
  | bytes
  /-- A signed 32-bit integer. -/
  | int32
  /-- Signed 32-bit integers, packed or one by one. -/
  | int32s
  /-- A truth value. -/
  | bool
  /-- An unsigned 64-bit integer. -/
  | uint64
  /-- A signed 64-bit integer. -/
  | int64
  /-- A 64-bit floating-point number. -/
  | double
  /-- A message. -/
  | node (kind : NodeKind)
deriving DecidableEq, Repr

/-- A field in the layout. -/
structure FieldLayout where
  /-- The number of the field. -/
  number : Nat
  /-- The name of the field, for messages. -/
  name : String
  /-- What the field holds. -/
  content : Content
deriving DecidableEq, Repr

namespace NodeKind

/-- The name of a message, for messages to the user. -/
def name : NodeKind → String
  | fileSet => "FileDescriptorSet"
  | file => "FileDescriptorProto"
  | message => "DescriptorProto"
  | extensionRange => "ExtensionRange"
  | reservedRange => "ReservedRange"
  | extensionRangeOptions => "ExtensionRangeOptions"
  | field => "FieldDescriptorProto"
  | oneof => "OneofDescriptorProto"
  | enum => "EnumDescriptorProto"
  | enumReservedRange => "EnumReservedRange"
  | enumValue => "EnumValueDescriptorProto"
  | service => "ServiceDescriptorProto"
  | method => "MethodDescriptorProto"
  | fileOptions => "FileOptions"
  | messageOptions => "MessageOptions"
  | fieldOptions => "FieldOptions"
  | oneofOptions => "OneofOptions"
  | enumOptions => "EnumOptions"
  | enumValueOptions => "EnumValueOptions"
  | serviceOptions => "ServiceOptions"
  | methodOptions => "MethodOptions"
  | uninterpretedOption => "UninterpretedOption"
  | namePart => "NamePart"
  | sourceCodeInfo => "SourceCodeInfo"
  | location => "Location"

/-- The fields of a message. -/
def fields : NodeKind → List FieldLayout
  | fileSet => [
    ⟨1, "file", .node .file⟩]
  | file => [
    ⟨1, "name", .string⟩, ⟨2, "package", .string⟩, ⟨3, "dependency", .string⟩,
    ⟨4, "message_type", .node .message⟩, ⟨5, "enum_type", .node .enum⟩,
    ⟨6, "service", .node .service⟩, ⟨7, "extension", .node .field⟩,
    ⟨8, "options", .node .fileOptions⟩, ⟨9, "source_code_info", .node .sourceCodeInfo⟩,
    ⟨10, "public_dependency", .int32s⟩, ⟨11, "weak_dependency", .int32s⟩, ⟨12, "syntax", .string⟩]
  | message => [
    ⟨1, "name", .string⟩, ⟨2, "field", .node .field⟩, ⟨3, "nested_type", .node .message⟩,
    ⟨4, "enum_type", .node .enum⟩, ⟨5, "extension_range", .node .extensionRange⟩,
    ⟨6, "extension", .node .field⟩, ⟨7, "options", .node .messageOptions⟩,
    ⟨8, "oneof_decl", .node .oneof⟩, ⟨9, "reserved_range", .node .reservedRange⟩,
    ⟨10, "reserved_name", .string⟩]
  | extensionRange => [
    ⟨1, "start", .int32⟩, ⟨2, "end", .int32⟩, ⟨3, "options", .node .extensionRangeOptions⟩]
  | reservedRange => [
    ⟨1, "start", .int32⟩, ⟨2, "end", .int32⟩]
  | extensionRangeOptions => [
    ⟨999, "uninterpreted_option", .node .uninterpretedOption⟩]
  | field => [
    ⟨1, "name", .string⟩, ⟨2, "extendee", .string⟩, ⟨3, "number", .int32⟩, ⟨4, "label", .int32⟩,
    ⟨5, "r#type", .int32⟩, ⟨6, "type_name", .string⟩, ⟨7, "default_value", .string⟩,
    ⟨8, "options", .node .fieldOptions⟩, ⟨9, "oneof_index", .int32⟩, ⟨10, "json_name", .string⟩,
    ⟨17, "proto3_optional", .bool⟩]
  | oneof => [
    ⟨1, "name", .string⟩, ⟨2, "options", .node .oneofOptions⟩]
  | enum => [
    ⟨1, "name", .string⟩, ⟨2, "value", .node .enumValue⟩, ⟨3, "options", .node .enumOptions⟩,
    ⟨4, "reserved_range", .node .enumReservedRange⟩, ⟨5, "reserved_name", .string⟩]
  | enumReservedRange => [
    ⟨1, "start", .int32⟩, ⟨2, "end", .int32⟩]
  | enumValue => [
    ⟨1, "name", .string⟩, ⟨2, "number", .int32⟩, ⟨3, "options", .node .enumValueOptions⟩]
  | service => [
    ⟨1, "name", .string⟩, ⟨2, "method", .node .method⟩, ⟨3, "options", .node .serviceOptions⟩]
  | method => [
    ⟨1, "name", .string⟩, ⟨2, "input_type", .string⟩, ⟨3, "output_type", .string⟩,
    ⟨4, "options", .node .methodOptions⟩, ⟨5, "client_streaming", .bool⟩,
    ⟨6, "server_streaming", .bool⟩]
  | fileOptions => [
    ⟨1, "java_package", .string⟩, ⟨8, "java_outer_classname", .string⟩,
    ⟨9, "optimize_for", .int32⟩, ⟨10, "java_multiple_files", .bool⟩, ⟨11, "go_package", .string⟩,
    ⟨16, "cc_generic_services", .bool⟩, ⟨17, "java_generic_services", .bool⟩,
    ⟨18, "py_generic_services", .bool⟩, ⟨20, "java_generate_equals_and_hash", .bool⟩,
    ⟨23, "deprecated", .bool⟩, ⟨27, "java_string_check_utf8", .bool⟩,
    ⟨31, "cc_enable_arenas", .bool⟩, ⟨36, "objc_class_prefix", .string⟩,
    ⟨37, "csharp_namespace", .string⟩, ⟨39, "swift_prefix", .string⟩,
    ⟨40, "php_class_prefix", .string⟩, ⟨41, "php_namespace", .string⟩,
    ⟨42, "php_generic_services", .bool⟩, ⟨44, "php_metadata_namespace", .string⟩,
    ⟨45, "ruby_package", .string⟩, ⟨999, "uninterpreted_option", .node .uninterpretedOption⟩]
  | messageOptions => [
    ⟨1, "message_set_wire_format", .bool⟩, ⟨2, "no_standard_descriptor_accessor", .bool⟩,
    ⟨3, "deprecated", .bool⟩, ⟨7, "map_entry", .bool⟩,
    ⟨999, "uninterpreted_option", .node .uninterpretedOption⟩]
  | fieldOptions => [
    ⟨1, "ctype", .int32⟩, ⟨2, "packed", .bool⟩, ⟨3, "deprecated", .bool⟩, ⟨5, "lazy", .bool⟩,
    ⟨6, "jstype", .int32⟩, ⟨10, "weak", .bool⟩,
    ⟨999, "uninterpreted_option", .node .uninterpretedOption⟩]
  | oneofOptions => [
    ⟨999, "uninterpreted_option", .node .uninterpretedOption⟩]
  | enumOptions => [
    ⟨2, "allow_alias", .bool⟩, ⟨3, "deprecated", .bool⟩,
    ⟨999, "uninterpreted_option", .node .uninterpretedOption⟩]
  | enumValueOptions => [
    ⟨1, "deprecated", .bool⟩, ⟨999, "uninterpreted_option", .node .uninterpretedOption⟩]
  | serviceOptions => [
    ⟨33, "deprecated", .bool⟩, ⟨999, "uninterpreted_option", .node .uninterpretedOption⟩]
  | methodOptions => [
    ⟨33, "deprecated", .bool⟩, ⟨34, "idempotency_level", .int32⟩,
    ⟨999, "uninterpreted_option", .node .uninterpretedOption⟩]
  | uninterpretedOption => [
    ⟨2, "name", .node .namePart⟩, ⟨3, "identifier_value", .string⟩,
    ⟨4, "positive_int_value", .uint64⟩, ⟨5, "negative_int_value", .int64⟩,
    ⟨6, "double_value", .double⟩, ⟨7, "string_value", .bytes⟩, ⟨8, "aggregate_value", .string⟩]
  | namePart => [
    ⟨1, "name_part", .string⟩, ⟨2, "is_extension", .bool⟩]
  | sourceCodeInfo => [
    ⟨1, "location", .node .location⟩]
  | location => [
    ⟨1, "path", .int32s⟩, ⟨2, "span", .int32s⟩, ⟨3, "leading_comments", .string⟩,
    ⟨4, "trailing_comments", .string⟩, ⟨6, "leading_detached_comments", .string⟩]

/-- The field with a number. -/
def field? (kind : NodeKind) (number : Nat) : Option FieldLayout :=
  kind.fields.find? fun field => field.number == number

end NodeKind

end DynProto.Descriptor
