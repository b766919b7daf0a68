import RelationalAvro.Config.TypeTable
import RelationalAvro.Text.Lowercase

/-!
# Configurations

What a conversion may be told: the namespace of its schemas, the type table, the scale of decimals
that give none, and how often an enum is defined. Column types are matched without regard to case,
so a configuration holds its table in lower case.
-/

namespace RelationalAvro

/-- How often the definition of an enum is put into the schemas of one run. -/
inductive Inlining where
  /-- At the first column of that enum in all tables; every later column refers to it by name. -/
  | perRun
  /-- At the first column of that enum in each table, so that each schema stands alone. -/
  | perRecord
  deriving DecidableEq, Repr

/-- The settings of a conversion. The namespace, called `space`, stands for none if it is blank. -/
structure Config where
  space : String
  table : TypeTable
  defaultScale : Nat
  inlining : Inlining := .perRun

/-- The configuration with a type table as it was written: it is lower-cased, and categories that
differ only in case are merged. -/
def Config.ofTable (space : String) (table : TypeTable) (defaultScale : Nat) : Config :=
  { space, table := table.map Text.lowercase, defaultScale }

end RelationalAvro
