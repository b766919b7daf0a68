import RelationalAvro.Avro.Schema

/-!
# Reading schemas

A reader of a schema replaces each bare name by what it stands for. The name of a primitive type
stands for that type, whatever has been defined. Any other name stands for the latest definition of
it, in the namespace of the record around it; a name without a definition cannot be read. Records
and enums are definitions: a record from its start, so that its fields may refer to it, and both in
place of earlier definitions of their name.
-/

namespace RelationalAvro.Avro

/-- The names of the primitive types. -/
def primitiveNames : List String :=
  ["null", "boolean", "int", "long", "float", "double", "bytes", "string"]

/-- Definitions by namespace and name, the latest first. -/
abbrev Known := List ((Option String × String) × AvroType)

/-- A step of reading: it may need definitions and add some, and gives nothing if it needs one that
is missing. -/
abbrev Reading := StateT Known Option

/-- The latest definition of a name is the one that is known. -/
@[simp] theorem lookup_known_cons (key other : Option String × String) (type : AvroType)
    (known : Known) :
    List.lookup key ((other, type) :: known) =
      if key = other then some type else known.lookup key := by
  rw [List.lookup_cons]
  by_cases h : key = other
  · simp [h]
  · simp [h, beq_eq_false_iff_ne.2 h]

section

variable {α β γ : Type} (Tracks : List α → Known → Prop) (Good : List α → α → γ → Prop)
  {f : β → Reading γ} {g : List α → α → β}

/-- A run over the rest of a list, after the members `before`. -/
private theorem Reading.run_mapM_mapIdx_append {list : List α}
    (step : ∀ before known, ∀ a ∈ list, Tracks before known → ∃ result next,
      (f (g before a)).run known = some (result, next) ∧ Tracks (before ++ [a]) next ∧
        Good before a result)
    {before : List α} {known : Known} (h : Tracks before known) :
    ∃ results next,
      ((list.mapIdx fun i a => g (before ++ list.take i) a).mapM f).run known =
        some (results, next) ∧
      Tracks (before ++ list) next ∧ results.length = list.length ∧
      ∀ i a, list[i]? = some a → ∃ result, results[i]? = some result ∧
        Good (before ++ list.take i) a result := by
  induction list generalizing before known with
  | nil => exact ⟨[], known, rfl, by simpa using h, rfl, by simp⟩
  | cons a rest ih =>
    -- the first member is read, and then belongs to those before the rest
    obtain ⟨first, middle, hfirst, hmiddle, hgood⟩ := step before known a List.mem_cons_self h
    obtain ⟨results, next, hrest, hnext, hlength, hresults⟩ :=
      ih (fun before known b hb => step before known b (List.mem_cons_of_mem a hb)) hmiddle
    refine ⟨first :: results, next, ?_, by simpa using hnext, by simp [hlength], fun i b hb => ?_⟩
    · simp only [List.append_assoc, List.cons_append, List.nil_append] at hrest
      rw [List.mapIdx_cons, List.mapM_cons, List.take_zero, List.append_nil,
        StateT.run_bind, hfirst]
      simp only [List.take_succ_cons, Option.bind_eq_bind, Option.bind_some]
      rw [StateT.run_bind, hrest]
      rfl
    · cases i with
      | zero =>
        obtain rfl : a = b := by simpa using hb
        exact ⟨first, rfl, by simpa using hgood⟩
      | succ i =>
        obtain ⟨result, hresult, hgood⟩ := hresults i b (by simpa using hb)
        exact ⟨result, by simpa using hresult, by simpa using hgood⟩

/-- A run of readings over what each entry of a list becomes after the entries before it. If each
reading keeps what is known in step with the entries read, none of them fails. -/
theorem Reading.run_mapM_mapIdx {list : List α}
    (step : ∀ before known, ∀ a ∈ list, Tracks before known → ∃ result next,
      (f (g before a)).run known = some (result, next) ∧ Tracks (before ++ [a]) next ∧
        Good before a result)
    {known : Known} (h : Tracks [] known) :
    ∃ results next,
      ((list.mapIdx fun i a => g (list.take i) a).mapM f).run known = some (results, next) ∧
      Tracks list next ∧ results.length = list.length ∧
      ∀ i a, list[i]? = some a → ∃ result, results[i]? = some result ∧
        Good (list.take i) a result :=
  run_mapM_mapIdx_append Tracks Good step h

end

namespace AvroType

/-- Makes a definition known from here on. -/
def define (space : Option String) (name : String) (type : AvroType) : Reading Unit :=
  modify (((space, name), type) :: ·)

/-- What a bare name stands for. -/
def readName (space : Option String) (name : String) : Reading AvroType := fun known =>
  if name ∈ primitiveNames then some (.named name, known)
  else (known.lookup (space, name)).map fun type => (type, known)

mutual

/-- The type with its bare names replaced, inside the namespace `space`. -/
def read (space : Option String) : AvroType → Reading AvroType
  | .named name => readName space name
  | .logical base name precision scale size =>
    if base ∈ primitiveNames ∨ base = "fixed" then return .logical base name precision scale size
    else failure
  | .record type name own doc aliases fields => do
    define (own.or space) name (.record type name own doc aliases fields)
    return .record type name own doc aliases (← readFields (own.or space) fields)
  | .enum type name own symbols => do
    define (own.or space) name (.enum type name own symbols)
    return .enum type name own symbols
  | .union branches => return .union (← readBranches space branches)

/-- The branches of a union with their bare names replaced. -/
def readBranches (space : Option String) : List AvroType → Reading (List AvroType)
  | [] => return []
  | type :: types => return (← read space type) :: (← readBranches space types)

/-- Fields with the bare names in their types replaced. -/
def readFields (space : Option String) :
    List (RecordField AvroType) → Reading (List (RecordField AvroType))
  | [] => return []
  | field :: fields => return (← readField space field) :: (← readFields space fields)

/-- A field with the bare names in its type replaced. -/
def readField (space : Option String) : RecordField AvroType → Reading (RecordField AvroType)
  | ⟨name, doc, type⟩ => return ⟨name, doc, ← read space type⟩

end

/-! ## Types that stand for themselves -/

/-- A primitive type by name, or a logical type over a primitive or a fixed one. -/
def IsPlain : AvroType → Prop
  | .named name => name ∈ primitiveNames
  | .logical base .. => base ∈ primitiveNames ∨ base = "fixed"
  | _ => False

/-- A plain type needs no definitions and adds none. -/
theorem IsPlain.read {type : AvroType} (h : type.IsPlain) (space : Option String) (known : Known) :
    (type.read space).run known = some (type, known) := by
  cases type with
  | named name => exact if_pos h
  | logical base name precision scale size =>
    rw [AvroType.read, if_pos (show base ∈ primitiveNames ∨ base = "fixed" from h)]
    rfl
  | record | enum | union => exact h.elim

/-- A name that is of no primitive type stands for what is known under it. -/
theorem readName_of_not_primitive {space : Option String} {name : String} {known : Known}
    {type : AvroType} (hname : name ∉ primitiveNames)
    (hknown : known.lookup (space, name) = some type) :
    (readName space name).run known = some (type, known) := by
  rw [StateT.run, readName, if_neg hname, hknown]
  rfl

/-- A type or null is read as what the type is read as, or null. -/
theorem read_union_null {space : Option String} {type result : AvroType} {known next : Known}
    (h : (type.read space).run known = some (result, next)) :
    ((union [type, .named "null"]).read space).run known =
      some (.union [result, .named "null"], next) := by
  rw [AvroType.read, readBranches, readBranches, readBranches]
  simp only [StateT.run_bind, StateT.run_pure, h]
  rw [read]
  rfl

/-! ## Definitions -/

/-- An enum is read as it is, and known from then on. -/
theorem read_enum (space own : Option String) (type name : String) (symbols : List String)
    (known : Known) :
    ((AvroType.enum type name own symbols).read space).run known =
      some (.enum type name own symbols,
        ((own.or space, name), .enum type name own symbols) :: known) := by
  rw [AvroType.read]
  rfl

/-- Fields are read one after the other. -/
theorem readFields_eq_mapM (space : Option String) (fields : List (RecordField AvroType)) :
    readFields space fields = fields.mapM (readField space) := by
  induction fields with
  | nil => rw [readFields, List.mapM_nil]
  | cons field rest ih => rw [readFields, List.mapM_cons, ih]

/-- The fields of a record are read with the record itself known. -/
theorem read_record {space own doc : Option String} {type name : String}
    {aliases : Option (List String)} {fields results : List (RecordField AvroType)}
    {known next : Known}
    (h : (fields.mapM (readField (own.or space))).run
      (((own.or space, name), .record type name own doc aliases fields) :: known) =
        some (results, next)) :
    ((AvroType.record type name own doc aliases fields).read space).run known =
      some (.record type name own doc aliases results, next) := by
  rw [AvroType.read, readFields_eq_mapM, StateT.run_bind]
  simp only [define, StateT.run_modify, Option.pure_def, Option.bind_eq_bind, Option.bind_some]
  rw [StateT.run_bind, h]
  rfl

end AvroType

end RelationalAvro.Avro
