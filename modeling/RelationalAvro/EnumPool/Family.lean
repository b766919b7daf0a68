import RelationalAvro.EnumPool.Basic

/-!
# Families of pools

A pool can be copied, and the copies go their own ways. A family is the pools that copying one pool
has led to, each known by its place.
-/

namespace RelationalAvro.EnumPool

open Avro (AvroType)

/-- A request to the pool at some place of a family. -/
inductive Request where
  /-- Refer to a name. -/
  | resolve (place : Nat) (name : String)
  /-- Ask whether a definition has been handed out. -/
  | isUsed (place : Nat) (name : String)
  /-- Copy the pool. -/
  | copy (place : Nat)
  deriving DecidableEq, Repr

/-- The answer to a request. -/
inductive Answer where
  | resolved (type : Option AvroType)
  | used (answer : Bool)
  | copied (place : Nat)
  deriving Repr

/-- The answer to a request and the family afterwards, if there is a pool at the place. -/
def answer (family : List EnumPool) : Request → Option (Answer × List EnumPool)
  | .resolve place name =>
    family[place]?.map fun pool =>
      let (type, next) := pool.resolve name
      (.resolved type, family.set place next)
  | .isUsed place name => family[place]?.map fun pool => (.used (pool.isUsed name), family)
  | .copy place => family[place]?.map fun pool => (.copied family.length, family ++ [pool])

/-- The answers to requests made one after the other, if there is a pool at each place. -/
def answers (family : List EnumPool) : List Request → Option (List Answer)
  | [] => some []
  | request :: requests => do
    let (first, next) ← answer family request
    return first :: (← answers next requests)

end RelationalAvro.EnumPool
