import RelationalAvro.Avro.Schema
import RelationalAvro.Fault
import RelationalAvro.Repetition

/-!
# Pools of enum definitions

During a run, the first column of an enum gets its definition and every later one its bare
name. A pool knows the definitions and which of them have been handed out.
-/

namespace RelationalAvro

open Avro (AvroType)

/-- Definitions by name, and the names whose definition has been handed out. -/
structure EnumPool where
  definitions : List (String × AvroType)
  distinct : (definitions.map Prod.fst).Nodup
  used : List String := []

namespace EnumPool

/-- A fresh pool of definitions, unless two of them have the same name. -/
def ofDefinitions (definitions : List (String × AvroType)) : Except Fault EnumPool :=
  match h : firstRepeated? (definitions.map Prod.fst) with
  | some name => .error (.duplicateEnum name)
  | none => .ok { definitions, distinct := firstRepeated?_eq_none_iff.1 h }

/-- Has the definition of that name been handed out? -/
def isUsed (pool : EnumPool) (name : String) : Bool :=
  pool.used.contains name

/-- What a reference to `name` becomes, and the pool afterwards: nothing if there is no such enum,
its definition the first time, and its bare name from then on. -/
def resolve (pool : EnumPool) (name : String) : Option AvroType × EnumPool :=
  match pool.definitions.lookup name with
  | none => (none, pool)
  | some definition =>
    if pool.isUsed name then (some (.named name), pool)
    else (some definition, { pool with used := name :: pool.used })

/-- Resolving a name changes no definitions. -/
@[simp] theorem definitions_resolve (pool : EnumPool) (name : String) :
    (pool.resolve name).2.definitions = pool.definitions := by
  unfold resolve
  split
  · rfl
  · split <;> rfl

/-- A reference becomes the bare name once the definition has been handed out. -/
theorem resolve_fst (pool : EnumPool) (name : String) :
    (pool.resolve name).1 = (pool.definitions.lookup name).map fun definition =>
      if pool.isUsed name = true then .named name else definition := by
  unfold resolve
  cases pool.definitions.lookup name with
  | none => rfl
  | some definition => by_cases h : pool.isUsed name = true <;> simp [h]

/-- A reference hands out the definition of that name, if there is one, and no other. -/
theorem isUsed_resolve (pool : EnumPool) (name x : String) :
    (pool.resolve name).2.isUsed x =
      (pool.isUsed x || (x == name && (pool.definitions.lookup name).isSome)) := by
  unfold resolve
  split
  · rename_i h
    simp [h]
  · rename_i h
    split
    · rename_i hused
      by_cases hx : x = name
      · simp [hx, hused]
      · simp [hx]
    · by_cases hx : x = name
      · simp [hx, h, isUsed]
      · simp [hx, isUsed]

end EnumPool

end RelationalAvro
