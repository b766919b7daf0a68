import RelationalAvro.EnumPool.Basic
import RelationalAvro.Proofs.FirstFault

/-!
# Pools and their histories

All that a pool remembers is which of its names have been referred to. `Follows definitions history
pool` says that `pool` is the pool of `definitions` after references to the names of `history`, in
whatever order and with whatever names that are no definition's. A reference adds its name to the
history (`Follows.resolve`), and what it becomes depends on the history alone
(`Follows.resolve_fst`).
-/

namespace RelationalAvro.EnumPool

open Avro (AvroType)

variable {definitions : List (String × AvroType)} {history : List String} {pool : EnumPool}

/-- The pool holds the definitions, and has handed out those whose names are in the history. -/
structure Follows (definitions : List (String × AvroType)) (history : List String)
    (pool : EnumPool) : Prop where
  definitions_eq : pool.definitions = definitions
  isUsed_iff : ∀ name,
    pool.isUsed name = true ↔ name ∈ history ∧ (definitions.lookup name).isSome

/-- A fresh pool has no history. -/
theorem follows_nil (hdef : pool.definitions = definitions) (hused : pool.used = []) :
    Follows definitions [] pool :=
  ⟨hdef, fun name => by simp [isUsed, hused]⟩

/-- A reference adds its name to the history. -/
theorem Follows.resolve (h : Follows definitions history pool) (name : String) :
    Follows definitions (history ++ [name]) (pool.resolve name).2 := by
  refine ⟨by rw [definitions_resolve, h.definitions_eq], fun x => ?_⟩
  rw [isUsed_resolve, Bool.or_eq_true, h.isUsed_iff, h.definitions_eq, Bool.and_eq_true, beq_iff_eq,
    List.mem_append, List.mem_singleton, or_and_right]
  refine or_congr_right (and_congr_right fun hx => ?_)
  rw [hx]

/-- A reference becomes the definition of its name if the name is new to the history, and the bare
name otherwise; it becomes nothing if there is no such definition. -/
theorem Follows.resolve_fst (h : Follows definitions history pool) (name : String) :
    (pool.resolve name).1 = (definitions.lookup name).map fun definition =>
      if name ∈ history then .named name else definition := by
  rw [EnumPool.resolve_fst, h.definitions_eq]
  cases hdef : definitions.lookup name with
  | none => rfl
  | some definition =>
    have hused : pool.isUsed name = true ↔ name ∈ history := by
      simpa [hdef] using h.isUsed_iff name
    simp only [Option.map_some, hused]

/-- Making a pool has a fault for each repeated name, and a pool that is made has no history. -/
theorem ofDefinitions_bind {α : Type} {f : EnumPool → Except Fault α} {faults : List Fault}
    {value : α} (h : ∀ pool, Follows definitions [] pool → f pool = firstFaultOr faults value) :
    (ofDefinitions definitions >>= f) =
      firstFaultOr ((repetitions (definitions.map Prod.fst)).map .duplicateEnum ++ faults)
        value := by
  unfold ofDefinitions
  split
  · rename_i name hname
    rw [firstRepeated?_eq_head?] at hname
    obtain ⟨rest, hrest⟩ := List.head?_eq_some_iff.1 hname
    rw [hrest]
    rfl
  · rename_i hname
    rw [repetitions_eq_nil_iff.2 (firstRepeated?_eq_none_iff.1 hname)]
    exact h _ (follows_nil rfl rfl)

end RelationalAvro.EnumPool
