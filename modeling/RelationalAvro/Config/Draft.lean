import RelationalAvro.Config.Basic
import RelationalAvro.Fault

/-!
# Building configurations

A configuration is drafted step by step, starting from the default type table. The draft keeps its
table as it was written; lower case comes in when the configuration is built. A step can be refused,
and then the draft stays as it was.
-/

namespace RelationalAvro

/-- The type table that is used where nothing else is said. Null is a category that no column type
belongs to. -/
def defaultTable : TypeTable :=
  TypeTable.ofList [
    ("null", []),
    ("boolean", ["bool"]),
    ("int", ["int"]),
    ("long", ["long", "bigint"]),
    ("float", ["float"]),
    ("double", ["double"]),
    ("bytes", ["blob", "binary", "bytea", "varbinary"]),
    ("string", ["varchar", "char", "clob", "text", "string"]),
    ("decimal", ["decimal", "numeric"]),
    ("uuid", ["uuid"]),
    ("date", ["date"]),
    ("time-micros", ["time"]),
    ("timestamp-micros", ["timestamp", "datetime"]),
    ("local-timestamp-micros", ["timestamp with time zone", "timestamptz"]),
    ("duration", ["duration"])]

/-- A configuration under construction, with its type table as it was written. -/
structure Draft where
  space : String := ""
  table : TypeTable := defaultTable
  defaultScale : Nat := 0
  inlining : Inlining := .perRun

namespace Draft

/-- A step in drafting a configuration. -/
inductive Step where
  /-- Set the namespace. -/
  | space (space : String)
  /-- Replace the type table. -/
  | table (table : TypeTable)
  /-- Add one stem to a category. -/
  | add (category stem : String)
  /-- Set the scale of decimals that give none. -/
  | defaultScale (scale : Int)
  /-- Set how often enums are defined. -/
  | inlining (inlining : Inlining)

/-- The draft after a step. Only a default scale that is negative or too large is refused. -/
def apply (draft : Draft) : Step → Except Fault Draft
  | .space space => .ok { draft with space }
  | .table table => .ok { draft with table }
  | .add category stem => .ok { draft with table := draft.table.add category stem }
  | .defaultScale scale =>
    if 0 ≤ scale ∧ scale ≤ maxScale then .ok { draft with defaultScale := scale.toNat }
    else .error (.invalidScale scale)
  | .inlining inlining => .ok { draft with inlining }

/-- The draft after a step, unchanged if the step is refused. -/
def after (draft : Draft) (step : Step) : Draft :=
  match draft.apply step with
  | .ok next => next
  | .error _ => draft

/-- The configuration that the draft describes. -/
def build (draft : Draft) : Config :=
  { Config.ofTable draft.space draft.table draft.defaultScale with inlining := draft.inlining }

/-- What each step gives: the configuration built right after it, or why it was refused. -/
def outcomes (draft : Draft) : List Step → List (Except Fault Config)
  | [] => []
  | step :: steps => (draft.apply step).map build :: outcomes (draft.after step) steps

/-- The configuration at the end of the steps, passing over those that are refused. -/
def buildAll (steps : List Step) : Config :=
  (steps.foldl after {}).build

/-- The configuration at the end of the steps, or why the first refused step was. -/
def run (steps : List Step) : Except Fault Config :=
  (steps.foldlM apply {}).map build

end Draft

end RelationalAvro
