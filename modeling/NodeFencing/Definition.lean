/-
The definition under which a cluster knows requests.

A cluster learns of a new kind of object from a definition: what the kind is called,
which columns a table of such objects has, and the schema of spec and status.  A schema
is written as a JSON object that says the type of a value and what is in it.
-/
import NodeFencing.Remediation

namespace NodeFencing.Definition

/-! ### Schemas -/

/-- The members of a schema. -/
abbrev Schema := List (String × Json)

/-- A schema of one type. -/
def ofType (type : String) : Schema := [("type", .text type)]

/-- Texts. -/
def text : Schema := ofType "string"

/-- Whole numbers of 64 bits. -/
def int64 : Schema := ("format", .text "int64") :: ofType "integer"

/-- Objects with values of one schema under any names. -/
def mapOf (s : Schema) : Schema := ("additionalProperties", .object s) :: ofType "object"

/-- Arrays with items of one schema. -/
def listOf (s : Schema) : Schema := ("items", .object s) :: ofType "array"

/-- A schema with what it is for. -/
def Schema.describe (s : Schema) (description : String) : Schema :=
  ("description", .text description) :: s

/-- A schema that allows null too. -/
def Schema.nullable (s : Schema) : Schema := ("nullable", .bool true) :: s

/-- A field of an object: its name, its schema, and whether it has to be there. -/
structure Field where
  name : String
  schema : Schema
  isRequired : Bool := true

/-- Objects with certain fields. -/
def record (fields : List Field) : Schema :=
  let required := (fields.filter Field.isRequired).map Field.name
  ("properties", .object (fields.map fun f => (f.name, .object f.schema))) ::
    (if required.isEmpty then [] else [("required", Json.texts required)]) ++ ofType "object"

/-! ### Requests -/

/-- The schema of a spec. -/
def spec : Schema :=
  (record [
    ⟨"agent", text.describe "Name of the fence agent executable (e.g. `fence_ipmilan`).", true⟩,
    ⟨"nodeParameters",
      (mapOf (mapOf text)).nullable.describe
        "Per-node parameter values, keyed by flag name and then node name.", false⟩,
    ⟨"sharedParameters",
      (mapOf text).nullable.describe
        ("Parameters passed to every invocation regardless of the target node. " ++
          "An empty value renders as a bare flag."), false⟩]).describe
    ("FenceAgentsRemediation requests out-of-band fencing of a node.\n\n" ++
      "Example: ```yaml apiVersion: fence-agents-remediation.medik8s.io/v1alpha1 " ++
      "kind: FenceAgentsRemediation metadata: name: worker-0 " ++
      "namespace: fence-agents-remediation spec: agent: fence_ipmilan " ++
      "sharedParameters: --username: admin --lanplus: \"\" " ++
      "nodeParameters: --ipport: worker-0: \"6233\" ```")

/-- The schema of a condition. -/
def condition : Schema :=
  (record [
    ⟨"lastTransitionTime",
      text.describe "Last time the condition transitioned from one status to another.", true⟩,
    ⟨"message",
      text.describe "Human-readable message indicating details about last transition.", true⟩,
    ⟨"observedGeneration",
      int64.nullable.describe
        "The generation of the resource this condition was observed for.", false⟩,
    ⟨"reason",
      text.describe "Machine-readable reason for the condition's last transition.", true⟩,
    ⟨"status",
      text.describe "Status of the condition (\"True\", \"False\", \"Unknown\").", true⟩,
    ⟨"type", text.describe "Type of condition.", true⟩]).describe
    "Condition describes the state of a remediation at a certain point."

/-- The schema of a status. -/
def status : Schema :=
  (record [
    ⟨"conditions",
      ("default", .array []) ::
        (listOf condition).describe "Conditions describing remediation progress.", false⟩,
    ⟨"lastUpdateTime",
      text.nullable.describe "Last time the status was written (RFC 3339).",
      false⟩]).nullable.describe
    "Observed state of a FenceAgentsRemediation."

/-- The schema of a request. -/
def request : Schema :=
  ("title", .text Remediation.kind) ::
    (record [⟨"spec", spec, true⟩, ⟨"status", status, false⟩]).describe
      "Auto-generated derived type for FenceAgentsRemediationSpec via `CustomResource`"

/-! ### The definition -/

/-- The group of the interface that requests belong to. -/
def group : String := "fence-agents-remediation.medik8s.io"

/-- The name for many requests. -/
def plural : String := "fenceagentsremediations"

/-- The name of the definition. -/
def name : String := plural ++ "." ++ group

/-- A column of a table of requests. -/
def column (name type path : String) : Json :=
  .object [("jsonPath", .text path), ("name", .text name), ("type", .text type)]

/-- The version of the interface that is served. -/
def version : Json :=
  .object [
    ("additionalPrinterColumns", .array [
      column "Agent" "string" ".spec.agent",
      column "Age" "date" ".metadata.creationTimestamp"]),
    ("name", .text "v1alpha1"),
    ("schema", .object [("openAPIV3Schema", .object request)]),
    ("served", .bool true),
    ("storage", .bool true),
    ("subresources", .object [("status", .object [])])]

/-- The definition of requests (`FenceAgentsRemediation::crd`). -/
def definition : Json :=
  .object [
    ("apiVersion", .text "apiextensions.k8s.io/v1"),
    ("kind", .text "CustomResourceDefinition"),
    ("metadata", .object [("name", .text name)]),
    ("spec", .object [
      ("group", .text group),
      ("names", .object [
        ("categories", .array []),
        ("kind", .text Remediation.kind),
        ("plural", .text plural),
        ("shortNames", Json.texts ["far"]),
        ("singular", .text "fenceagentsremediation")]),
      ("scope", .text "Namespaced"),
      ("versions", .array [version])])]

end NodeFencing.Definition
