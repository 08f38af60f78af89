import RosZ.Dynamic.TypeDescription
import RosZ.Protocol.Entity
import Mathlib.Logic.Function.Basic

/-!
# The type description service of a node

`dynamic/type_description_service.rs`: the schemas that are registered under their type names
and the response to a request for one of them; with `create_dyn_pub` of `node.rs`, which
registers the schema of a publisher and advertises its type, and the request that
`dynamic/type_description_client.rs` derives from what is advertised.

The SHA-256 digest behind `calculate_hash` is the parameter `calculateHash`.  Whether a
publisher can be built on its topic is decided by Zenoh; it is an argument of the call.
-/

namespace RosZ.Dynamic

open RosZ.Schema RosZ.Protocol

/-! ## Names of types -/

/-- Convert ROS 2 canonical name to DDS name:
"std_msgs/msg/String" → "std_msgs::msg::dds_::String_" -/
def ddsName (typeName : String) : String :=
  Names.replace "/action/" "::action::dds_::"
    (Names.replace "/srv/" "::srv::dds_::"
      (Names.replace "/msg/" "::msg::dds_::" typeName)) ++ "_"

/-- Normalize DDS type name to ROS 2 canonical format. -/
def normalizeTypeName (ddsName : String) : String :=
  Text.trimEndMatches '_'
    (Names.replace "::action::dds_::" "/action/"
      (Names.replace "::srv::dds_::" "/srv/"
        (Names.replace "::msg::dds_::" "/msg/" ddsName)))

/-! ## Registered schemas -/

/-- The digest of a description, 32 octets. -/
abbrev CalculateHash : Type := TypeDescriptionMsg → Vector UInt8 32

/-- `TypeHash::to_rihs_string` of ros-z-schema -/
def rihsString (hash : Vector UInt8 32) : String := "RIHS01_" ++ TypeHash.hexString hash.toList

/-- Source file for a type definition. -/
structure TypeSource where
  encoding : String
  rawContent : String

/-- Schema registered with the service. -/
structure RegisteredSchema where
  schema : MessageSchema
  /-- Precomputed type hash (RIHS01 format) -/
  typeHash : String
  source : Option TypeSource

/-- Create a new registered schema, computing the type hash. -/
def RegisteredSchema.new (calculateHash : CalculateHash) (schema : MessageSchema) :
    RegisteredSchema where
  schema := schema
  typeHash := rihsString (calculateHash (toTypeDescriptionMsg schema))
  source := none

/-- Registered schemas by type name -/
abbrev Schemas : Type := String → Option RegisteredSchema

/-- Register a schema with this service. -/
def registerSchema (calculateHash : CalculateHash) (schemas : Schemas) (schema : MessageSchema) :
    Schemas :=
  Function.update schemas schema.typeName (some (RegisteredSchema.new calculateHash schema))

/-! ## Requests -/

structure GetTypeDescriptionRequest where
  typeName : String
  typeHash : String
  includeTypeSources : Bool

structure WireTypeSource where
  typeName : String
  encoding : String
  rawFileContents : String

structure WireKeyValue where
  key : String
  value : String

structure GetTypeDescriptionResponse where
  successful : Bool
  failureReason : String
  typeDescription : WireTypeDescription
  typeSources : List WireTypeSource
  extraInformation : List WireKeyValue

/-- The response that a request fails with. -/
def failureResponse (reason : String) : GetTypeDescriptionResponse where
  successful := false
  failureReason := reason
  typeDescription := ⟨⟨"", []⟩, []⟩
  typeSources := []
  extraInformation := []

/-- Collect type sources for the schema and its referenced types. -/
def collectTypeSources (registered : RegisteredSchema) (allSchemas : Schemas) :
    List WireTypeSource :=
  let main := registered.source.toList.map fun source =>
    ⟨registered.schema.typeName, source.encoding, source.rawContent⟩
  let referenced := (toTypeDescriptionMsg registered.schema).referencedTypeDescriptions.filterMap
    fun td => do
      let other ← allSchemas td.typeName
      let source ← other.source
      return ⟨td.typeName, source.encoding, source.rawContent⟩
  main ++ referenced

/-- Build a `GetTypeDescription` response for the given request. -/
def buildResponse (schemas : Schemas) (request : GetTypeDescriptionRequest) :
    GetTypeDescriptionResponse :=
  match schemas request.typeName with
  | none => failureResponse ("Type '" ++ request.typeName ++ "' not registered")
  | some registered =>
      -- Validate type hash if provided
      if request.typeHash ≠ "" ∧ request.typeHash ≠ registered.typeHash then
        failureResponse ("Type hash mismatch: expected " ++ registered.typeHash ++ ", got " ++
          request.typeHash)
      else
        { successful := true
          failureReason := ""
          typeDescription := schemaToWireTypeDescription registered.schema
          typeSources :=
            if request.includeTypeSources then collectTypeSources registered schemas else []
          extraInformation := [⟨"ros_z_version", "0.1.0"⟩] }

/-- What `get_type_description_for_topic` asks for, given what a publisher advertises. -/
def requestFor (typeInfo : TypeInfo) : GetTypeDescriptionRequest where
  typeName := normalizeTypeName typeInfo.name
  typeHash := typeInfo.hash.toRihsString false
  includeTypeSources := false

/-! ## Dynamic publishers -/

/-- A publisher that `create_dyn_pub` has created. -/
structure DynPub where
  topic : String
  typeInfo : TypeInfo
  dynSchema : MessageSchema

/-- A node with its type description service enabled. -/
structure Node where
  /-- The schemas that its service has registered -/
  schemas : Schemas
  /-- Its dynamic publishers that are alive -/
  publishers : List DynPub

def Node.new : Node where
  schemas := fun _ => none
  publishers := []

/-- The type a publisher of a schema advertises. -/
def typeInfoOf (calculateHash : CalculateHash) (schema : MessageSchema) : TypeInfo where
  name := ddsName schema.typeName
  hash := (TypeHash.fromRihsString
    (rihsString (calculateHash (toTypeDescriptionMsg schema)))).getD TypeHash.zero

/-- Create a dynamic publisher; `built` says whether it can be built on its topic. -/
def Node.createDynPub (calculateHash : CalculateHash) (node : Node) (topic : String)
    (schema : MessageSchema) (built : Bool) : Node where
  -- the schema is registered before the publisher is built
  schemas := registerSchema calculateHash node.schemas schema
  publishers :=
    if built then node.publishers ++ [⟨topic, typeInfoOf calculateHash schema, schema⟩]
    else node.publishers

/-- What an application does with its dynamic publishers. -/
inductive PubCall where
  | createDynPub (topic : String) (schema : MessageSchema) (built : Bool)
  /-- The publisher at this place goes out of scope. -/
  | drop (index : ℕ)

def Node.step (calculateHash : CalculateHash) (node : Node) : PubCall → Node
  | .createDynPub topic schema built => node.createDynPub calculateHash topic schema built
  | .drop index => { node with publishers := node.publishers.eraseIdx index }

/-- The node after a sequence of calls. -/
def Node.run (calculateHash : CalculateHash) (calls : List PubCall) : Node :=
  calls.foldl (Node.step calculateHash) Node.new

end RosZ.Dynamic
