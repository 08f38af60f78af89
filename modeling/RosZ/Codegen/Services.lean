import Mathlib.Data.List.Sort
import RosZ.Codegen.Resolver
import RosZ.Lib.Search

/-!
# Descriptions of services and actions

`resolve_service` and `resolve_action` of `ros-z-codegen/src/resolver.rs`, with
`calculate_service_type_hash` of `hashing.rs`: the description messages that are hashed
for a service, and for the five services and messages of the action protocol.

* `collect_nested_deps` is `Search.collect` on the names of nested types.  It takes as
  much fuel as there are stored descriptions, and running out of it stands for a
  recursion that does not end.
* The digest is the parameter `calculateHash`, and `zeroHash` is `TypeHash::zero()`.
  The feedback and status hashes inline the body of `calculate_hash`.
* Sources and paths of the parsed definitions are left out: nothing here reads them.
-/

namespace RosZ.Codegen

open RosZ.Schema

variable {H : Type}

/-! ## Parsed and resolved definitions -/

/-- Parsed service definition. -/
structure ParsedService where
  name : String
  package : String
  request : ParsedMessage
  response : ParsedMessage
deriving DecidableEq

/-- Parsed action definition. -/
structure ParsedAction where
  name : String
  package : String
  goal : ParsedMessage
  result : Option ParsedMessage
  feedback : Option ParsedMessage
deriving DecidableEq

/-- Resolved service with type hash. -/
structure ResolvedService (H : Type) where
  parsed : ParsedService
  request : ResolvedMessage H
  response : ResolvedMessage H
  typeHash : H

/-- Resolved action with type hash. -/
structure ResolvedAction (H : Type) where
  parsed : ParsedAction
  goal : ResolvedMessage H
  result : Option (ResolvedMessage H)
  feedback : Option (ResolvedMessage H)
  typeHash : H
  -- Type hashes for action protocol services/messages
  sendGoalHash : H
  getResultHash : H
  feedbackMessageHash : H
  -- Standard ROS2 action protocol type hashes
  cancelGoalHash : H
  statusHash : H

/-- What `resolve_service` and `resolve_action` fail with. -/
inductive ServiceError where
  | hash (error : HashError)
  /-- "ServiceEventInfo not found in builtin types" -/
  | serviceEventInfoNotBuiltin
  /-- "ServiceEventInfo not found in type descriptions" -/
  | serviceEventInfoNotDescribed
  /-- The recursion over the nested types does not end. -/
  | unboundedRecursion
deriving DecidableEq

/-! ## The description of a service -/

/-- Detect if this is an action service (contains SendGoal/GetResult/CancelGoal). -/
def isActionService (serviceName : String) : Bool :=
  Names.contains "SendGoal" serviceName || Names.contains "GetResult" serviceName ||
    Names.contains "CancelGoal" serviceName

/-- A field without default value. -/
def plainField (name : String) (fieldType : FieldTypeDescription) : FieldDescription where
  name := name
  fieldType := fieldType
  defaultValue := ""

/-- The referenced types in the order of their names. -/
def sortedValues (deps : TypeDescriptions) : List TypeDescription :=
  (KeyedMap.valuesOf deps).insertionSort fun a b => a.typeName ≤ b.typeName

/-- The Event type with three fields: info, request[], response[]. -/
def eventDescription (typeName infoTypeName requestTypeName responseTypeName : String) :
    TypeDescription where
  typeName := typeName
  fields :=
    [plainField "info" (.nested TypeId.nestedType.single infoTypeName),
      plainField "request" (.nestedArray TypeId.nestedType.boundedSequence 1 requestTypeName),
      plainField "response" (.nestedArray TypeId.nestedType.boundedSequence 1 responseTypeName)]

/-- The three types that a service adds: its event, and its request and response under the name
of the service. -/
def serviceParts (serviceTypeName : String)
    (requestDesc responseDesc serviceEventInfoDesc : TypeDescription) : List TypeDescription :=
  let requestTypeName := serviceTypeName ++ "_Request"
  let responseTypeName := serviceTypeName ++ "_Response"
  [eventDescription (serviceTypeName ++ "_Event") serviceEventInfoDesc.typeName requestTypeName
      responseTypeName,
    { requestDesc with typeName := requestTypeName },
    { responseDesc with typeName := responseTypeName }]

/-- The description of a service (Request + Response + Event). -/
def serviceDescription (package serviceName : String)
    (requestDesc responseDesc serviceEventInfoDesc : TypeDescription)
    (resolvedDeps : TypeDescriptions) : TypeDescriptionMsg :=
  -- Action services use /action/ path, regular services use /srv/ path
  let path := if isActionService serviceName then "action/" else "srv/"
  let serviceTypeName := Names.join package (path ++ serviceName)
  -- Main service type description with three fields in definition order (NOT alphabetical)
  let serviceDesc : TypeDescription :=
    { typeName := serviceTypeName
      fields :=
        [plainField "request_message"
            (.nested TypeId.nestedType.single (serviceTypeName ++ "_Request")),
          plainField "response_message"
            (.nested TypeId.nestedType.single (serviceTypeName ++ "_Response")),
          plainField "event_message"
            (.nested TypeId.nestedType.single (serviceTypeName ++ "_Event"))] }
  -- Add ServiceEventInfo and its dependencies (like Time), then the three service-specific types
  let referenced := KeyedMap.insertAll TypeDescription.typeName
    (KeyedMap.valuesOf resolvedDeps ++
      serviceParts serviceTypeName requestDesc responseDesc serviceEventInfoDesc) ∅
  { typeDescription := serviceDesc
    referencedTypeDescriptions := sortedValues referenced }

/-- Calculate RIHS01 hash for a service (Request + Response + Event). -/
def calculateServiceTypeHash (calculateHash : TypeDescriptionMsg → H)
    (package serviceName : String)
    (requestDesc responseDesc serviceEventInfoDesc : TypeDescription)
    (resolvedDeps : TypeDescriptions) : H :=
  calculateHash (serviceDescription package serviceName requestDesc responseDesc
    serviceEventInfoDesc resolvedDeps)

/-! ## Services -/

/-- Convert "pkg/msg/Type" to "pkg/Type" key format. -/
def nestedKey (nestedName : String) : String :=
  if Names.contains "/msg/" nestedName then Names.replace "/msg/" "/" nestedName
  else if Names.contains "/srv/" nestedName then Names.replace "/srv/" "/" nestedName
  else nestedName

/-- Insert a description under its type name. -/
def insertDesc (deps : TypeDescriptions) (desc : TypeDescription) : TypeDescriptions :=
  deps.insert desc.typeName desc

/-- Insert a description under its type name, if there is one. -/
def insertFound (deps : TypeDescriptions) (found : Option TypeDescription) : TypeDescriptions :=
  match found with
  | some desc => insertDesc deps desc
  | none => deps

namespace Resolver

/-- Collect all nested type dependencies from a type description. -/
def collectNestedDeps (self : Resolver H) (typeDesc : TypeDescription)
    (collected : TypeDescriptions) : Except ServiceError TypeDescriptions :=
  match Search.collect (fun nestedName => self.typeDescriptions[nestedKey nestedName]?)
      TypeDescription.nestedTypeNames TypeDescription.typeName
      (self.typeDescriptions.size + 1) typeDesc collected with
  | some collected => .ok collected
  | none => .error .unboundedRecursion

/-- A single message, resolved where the error may also be one of `resolve_service`. -/
def resolvePart (self : Resolver H) (calculateHash : TypeDescriptionMsg → H)
    (msg : ParsedMessage) : Except ServiceError (ResolvedMessage H) :=
  (self.resolveMessage calculateHash msg).mapError .hash

/-- Store the type description of a part, under the key of its message. -/
def storePart (self : Resolver H) (part : ResolvedMessage H) : Resolver H :=
  { self with
    typeDescriptions :=
      self.typeDescriptions.insert part.parsed.messageKey part.typeDescription }

/-- The description that is hashed for a service whose parts have been stored. -/
def describeService (self : Resolver H) (srv : ParsedService)
    (request response : ResolvedMessage H) : Except ServiceError TypeDescriptionMsg :=
  -- Get ServiceEventInfo and its dependencies for service hash
  match self.typeDescriptions["service_msgs/ServiceEventInfo"]? with
  | none => .error .serviceEventInfoNotBuiltin
  | some serviceEventInfoDesc => do
      -- Add ServiceEventInfo and Time
      let serviceDeps := insertDesc ∅ serviceEventInfoDesc
      let serviceDeps := insertFound serviceDeps self.typeDescriptions["builtin_interfaces/Time"]?
      -- Collect all nested types from request and response
      let serviceDeps ← self.collectNestedDeps request.typeDescription serviceDeps
      let serviceDeps ← self.collectNestedDeps response.typeDescription serviceDeps
      return serviceDescription srv.package srv.name request.typeDescription
        response.typeDescription serviceEventInfoDesc serviceDeps

/-- The type hash of a service whose parts have been stored. -/
def serviceTypeHash (self : Resolver H) (calculateHash : TypeDescriptionMsg → H) (zeroHash : H)
    (srv : ParsedService) (request response : ResolvedMessage H) : Except ServiceError H :=
  -- For Humble or when we have external packages, use placeholder type hash
  if self.isHumble || !self.externalPackages.isEmpty then .ok zeroHash
  else do
    let desc ← self.describeService srv request response
    .ok (calculateHash desc)

/-- Resolve a single service (Request + Response + Event). -/
def resolveService (self : Resolver H) (calculateHash : TypeDescriptionMsg → H) (zeroHash : H)
    (srv : ParsedService) : Except ServiceError (Resolver H × ResolvedService H) := do
  -- First resolve request and response as standalone messages
  let request ← self.resolvePart calculateHash srv.request
  let response ← self.resolvePart calculateHash srv.response
  -- Store their type descriptions for service hash calculation
  let self := (self.storePart request).storePart response
  let typeHash ← self.serviceTypeHash calculateHash zeroHash srv request response
  return (self, { parsed := srv, request, response, typeHash })

/-! ## Actions -/

end Resolver

/-- A field of a single nested type. -/
def nestedField (name typeName : String) : FieldDescription :=
  plainField name (.nested TypeId.nestedType.single typeName)

/-- A field of a single primitive type. -/
def primitiveField (name : String) (ids : TypeIds) : FieldDescription :=
  plainField name (.primitive ids.single)

/-- The field of a goal's id. -/
def goalIdField : FieldDescription := nestedField "goal_id" "unique_identifier_msgs/msg/UUID"

/-- The field of a time. -/
def stampField : FieldDescription := nestedField "stamp" "builtin_interfaces/msg/Time"

/-- `{package}/action/{name}{suffix}` -/
def ParsedAction.typeName (action : ParsedAction) (suffix : String) : String :=
  Names.join action.package ("action/" ++ action.name ++ suffix)

/-- SendGoal_Request type description. -/
def sendGoalRequest (action : ParsedAction) : TypeDescription where
  typeName := action.typeName "_SendGoal_Request"
  fields := [goalIdField, nestedField "goal" (action.typeName "_Goal")]

/-- SendGoal_Response type description. -/
def sendGoalResponse (action : ParsedAction) : TypeDescription where
  typeName := action.typeName "_SendGoal_Response"
  fields := [primitiveField "accepted" TypeId.bool, stampField]

/-- GetResult_Request type description. -/
def getResultRequest (action : ParsedAction) : TypeDescription where
  typeName := action.typeName "_GetResult_Request"
  fields := [goalIdField]

/-- GetResult_Response type description. -/
def getResultResponse (action : ParsedAction) : TypeDescription where
  typeName := action.typeName "_GetResult_Response"
  fields := [primitiveField "status" TypeId.int8, nestedField "result" (action.typeName "_Result")]

/-- FeedbackMessage structure: goal_id + feedback. -/
def feedbackMessage (action : ParsedAction) : TypeDescription where
  typeName := action.typeName "_FeedbackMessage"
  fields := [goalIdField, nestedField "feedback" (action.typeName "_Feedback")]

/-- CancelGoal_Request: goal_info (GoalInfo). -/
def cancelGoalRequest : TypeDescription where
  typeName := "action_msgs/srv/CancelGoal_Request"
  fields := [nestedField "goal_info" "action_msgs/msg/GoalInfo"]

/-- CancelGoal_Response: return_code (int8). -/
def cancelGoalResponse : TypeDescription where
  typeName := "action_msgs/srv/CancelGoal_Response"
  fields := [primitiveField "return_code" TypeId.int8]

/-- GoalStatusArray: status_list (GoalStatus[]). -/
def goalStatusArray : TypeDescription where
  typeName := "action_msgs/msg/GoalStatusArray"
  fields := [plainField "status_list"
    (.nested TypeId.nestedType.unboundedSequence "action_msgs/msg/GoalStatus")]

/-- GoalInfo, manually constructed. -/
def goalInfoDesc : TypeDescription where
  typeName := "action_msgs/msg/GoalInfo"
  fields := [goalIdField, stampField]

/-- GoalStatus, manually constructed. -/
def goalStatusDesc : TypeDescription where
  typeName := "action_msgs/msg/GoalStatus"
  fields := [nestedField "goal_info" "action_msgs/msg/GoalInfo",
    primitiveField "status" TypeId.int8]

/-- UUID, manually constructed. -/
def uuidDesc : TypeDescription where
  typeName := "unique_identifier_msgs/msg/UUID"
  fields := [plainField "uuid" (.array TypeId.uint8.array 16)]

namespace Resolver

/-- The hash of a service of the action protocol, with what it takes from the stored
descriptions: the types under `keys`, ServiceEventInfo, and `parts` of the action. -/
def calculateProtocolHash (self : Resolver H) (calculateHash : TypeDescriptionMsg → H)
    (zeroHash : H) (package serviceName : String) (requestDesc responseDesc : TypeDescription)
    (keys : List String) (parts : List TypeDescription) : Except ServiceError H :=
  -- For Humble, use placeholder hash (no ServiceEventInfo)
  if self.isHumble then .ok zeroHash
  else
    let deps := keys.foldl (fun deps key => insertFound deps self.typeDescriptions[key]?) ∅
    match self.typeDescriptions["service_msgs/ServiceEventInfo"]? with
    | none => .error .serviceEventInfoNotDescribed
    | some serviceEventInfoDesc =>
        let deps := parts.foldl insertDesc (insertDesc deps serviceEventInfoDesc)
        .ok (calculateServiceTypeHash calculateHash package serviceName requestDesc responseDesc
          serviceEventInfoDesc deps)

/-- Calculate type hash for action SendGoal service. -/
def calculateSendGoalHash (self : Resolver H) (calculateHash : TypeDescriptionMsg → H)
    (zeroHash : H) (action : ParsedAction) (goal : ResolvedMessage H) : Except ServiceError H :=
  self.calculateProtocolHash calculateHash zeroHash action.package (action.name ++ "_SendGoal")
    (sendGoalRequest action) (sendGoalResponse action)
    ["unique_identifier_msgs/UUID", "builtin_interfaces/Time"] [goal.typeDescription]

/-- Calculate type hash for action GetResult service. -/
def calculateGetResultHash (self : Resolver H) (calculateHash : TypeDescriptionMsg → H)
    (zeroHash : H) (action : ParsedAction) (result : ResolvedMessage H) : Except ServiceError H :=
  self.calculateProtocolHash calculateHash zeroHash action.package (action.name ++ "_GetResult")
    (getResultRequest action) (getResultResponse action)
    ["unique_identifier_msgs/UUID", "builtin_interfaces/Time"] [result.typeDescription]

/-- Calculate type hash for CancelGoal service (action_msgs/srv/CancelGoal). -/
def calculateCancelGoalHash (self : Resolver H) (calculateHash : TypeDescriptionMsg → H)
    (zeroHash : H) : Except ServiceError H :=
  self.calculateProtocolHash calculateHash zeroHash "action_msgs" "CancelGoal"
    cancelGoalRequest cancelGoalResponse
    ["action_msgs/GoalInfo", "builtin_interfaces/Time"] []

/-- Calculate type hash for action feedback message. -/
def calculateFeedbackMessageHash (self : Resolver H) (calculateHash : TypeDescriptionMsg → H)
    (action : ParsedAction) (feedback : ResolvedMessage H) : H :=
  let deps := insertFound ∅ self.typeDescriptions["unique_identifier_msgs/UUID"]?
  let deps := insertDesc deps feedback.typeDescription
  calculateHash
    { typeDescription := feedbackMessage action
      referencedTypeDescriptions := sortedValues deps }

/-- Calculate type hash for GoalStatusArray message (action_msgs/msg/GoalStatusArray). -/
def calculateStatusHash (self : Resolver H) (calculateHash : TypeDescriptionMsg → H) : H :=
  -- Manually construct dependencies to match ROS2 exactly
  let deps := insertDesc (insertDesc ∅ goalInfoDesc) goalStatusDesc
  let deps := insertFound deps self.typeDescriptions["builtin_interfaces/Time"]?
  let deps := insertDesc deps uuidDesc
  calculateHash
    { typeDescription := goalStatusArray
      referencedTypeDescriptions := sortedValues deps }

/-- An optional part of an action, resolved where it is there. -/
def resolveOptionalPart (self : Resolver H) (calculateHash : TypeDescriptionMsg → H) :
    Option ParsedMessage → Except ServiceError (Option (ResolvedMessage H))
  | none => .ok none
  | some msg => do
      let resolved ← self.resolvePart calculateHash msg
      return some resolved

/-- Store the type description of an optional part. -/
def storeOptionalPart (self : Resolver H) : Option (ResolvedMessage H) → Resolver H
  | none => self
  | some part => self.storePart part

/-- The GetResult hash of an action, with the default for actions without result. -/
def getResultHashOf (self : Resolver H) (calculateHash : TypeDescriptionMsg → H) (zeroHash : H)
    (action : ParsedAction) : Option (ResolvedMessage H) → Except ServiceError H
  | some result => self.calculateGetResultHash calculateHash zeroHash action result
  | none => .ok zeroHash

/-- The feedback hash of an action, with the default for actions without feedback. -/
def feedbackMessageHashOf (self : Resolver H) (calculateHash : TypeDescriptionMsg → H)
    (zeroHash : H) (action : ParsedAction) : Option (ResolvedMessage H) → H
  | some feedback => self.calculateFeedbackMessageHash calculateHash action feedback
  | none => zeroHash

/-- Resolve a single action (Goal + Result + Feedback). -/
def resolveAction (self : Resolver H) (calculateHash : TypeDescriptionMsg → H) (zeroHash : H)
    (action : ParsedAction) : Except ServiceError (Resolver H × ResolvedAction H) := do
  -- Resolve goal, result, and feedback as standalone messages
  let goal ← self.resolvePart calculateHash action.goal
  let result ← self.resolveOptionalPart calculateHash action.result
  let feedback ← self.resolveOptionalPart calculateHash action.feedback
  -- Store their type descriptions
  let self := ((self.storePart goal).storeOptionalPart result).storeOptionalPart feedback
  -- Calculate type hashes for action protocol services/messages
  let sendGoalHash ← self.calculateSendGoalHash calculateHash zeroHash action goal
  let getResultHash ← self.getResultHashOf calculateHash zeroHash action result
  let feedbackMessageHash := self.feedbackMessageHashOf calculateHash zeroHash action feedback
  -- Calculate standard ROS2 action protocol type hashes
  let cancelGoalHash ← self.calculateCancelGoalHash calculateHash zeroHash
  let statusHash := self.calculateStatusHash calculateHash
  return (self,
    { parsed := action, goal, result, feedback
      -- use goal hash for now
      typeHash := goal.typeHash
      sendGoalHash, getResultHash, feedbackMessageHash, cancelGoalHash, statusHash })

end Resolver

end RosZ.Codegen
