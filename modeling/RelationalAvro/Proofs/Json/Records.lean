import Mathlib.Data.List.Count
import Mathlib.Data.List.Forall2
import Mathlib.Data.List.Nodup
import Mathlib.Data.Set.List
import RelationalAvro.Json.Fields
import RelationalAvro.Repetition

/-!
# What gives a record

`Value.IsRecord` says which values give a record with certain fields, and `Value.Gives` what they
give to each of them. Reading the fields of a value finds just that (`Value.exists_fields?_iff`,
`Value.gives_iff_lookup`), so what is read from a record can be said without the list of fields in
between (`Fields.required_eq_some_iff`, `Fields.orElse_eq_some_iff`).
-/

namespace RelationalAvro.Json

/-- Results of a whole list are results of its entries. -/
theorem mapM_eq_some_iff {α β : Type} {f : α → Option β} {list : List α} {results : List β} :
    list.mapM f = some results ↔ List.Forall₂ (fun b a => f a = some b) results list := by
  induction list generalizing results with
  | nil => simp [eq_comm]
  | cons a list ih =>
    simp only [List.mapM_cons, Option.bind_eq_bind, Option.bind_eq_some_iff, ih,
      List.forall₂_cons_right_iff]
    constructor
    · rintro ⟨b, hb, rest, hrest, heq⟩
      exact ⟨b, rest, hb, hrest, (Option.some.inj heq).symm⟩
    · rintro ⟨b, rest, hb, hrest, rfl⟩
      exact ⟨b, hb, rest, hrest, rfl⟩

namespace Value

/-- The value gives a record with the fields `names`: an object whose keys all denote texts and that
names each of the fields at most once, or an array that holds no more than the fields. -/
inductive IsRecord (names : List String) : Value → Prop
  | object {members : List (Option String × Value)} (hkeys : none ∉ members.map Prod.fst)
      (honce : ∀ name ∈ names, (members.map Prod.fst).count (some name) ≤ 1) :
      IsRecord names (.object members)
  | array {items : List Value} (h : items.length ≤ names.length) : IsRecord names (.array items)

/-- A record with the fields `names` gives the field `name` the value: under that key, or at the
place of that field. -/
inductive Gives (names : List String) (name : String) : Value → Value → Prop
  | key {members : List (Option String × Value)} {given : Value}
      (h : (some name, given) ∈ members) : Gives names name (.object members) given
  | place {items : List Value} {given : Value} {i : Nat} (hname : names[i]? = some name)
      (h : items[i]? = some given) : Gives names name (.array items) given

/-- The record gives the field a value such as `p` asks for. -/
def GivesSome (names : List String) (name : String) (p : Value → Prop) (value : Value) : Prop :=
  ∃ given, value.Gives names name given ∧ p given

/-- The record gives the field a value such as `p` asks for, or it leaves the field out, which
`isDefault` permits. -/
def GivesOr (names : List String) (name : String) (isDefault : Prop) (p : Value → Prop)
    (value : Value) : Prop :=
  value.GivesSome names name p ∨ (isDefault ∧ ∀ given, ¬value.Gives names name given)

variable {names : List String} {name : String} {value given : Value} {fields : Fields}

/-- An object gives a field by its key. -/
theorem gives_object_iff {members : List (Option String × Value)} :
    Gives names name (.object members) given ↔ (some name, given) ∈ members := by
  refine ⟨?_, .key⟩
  rintro ⟨h⟩
  exact h

/-- An array gives a field by its place. -/
theorem gives_array_iff {items : List Value} :
    Gives names name (.array items) given ↔ (name, given) ∈ names.zip items := by
  simp only [List.mem_iff_getElem?, List.getElem?_zip_eq_some]
  constructor
  · rintro (_ | ⟨hname, h⟩)
    exact ⟨_, hname, h⟩
  · rintro ⟨i, hname, h⟩
    exact .place hname h

/-! ## Reading the fields -/

/-- A member whose key denotes a text. -/
private def keyed (entry : String × Value) : Option String × Value :=
  (some entry.1, entry.2)

/-- All keys have texts exactly if the members are named. -/
private theorem mapM_key_eq_some_iff {members : List (Option String × Value)} {named : Fields} :
    (members.mapM fun m => m.1.map fun key => (key, m.2)) = some named ↔
      named.map keyed = members := by
  have hkeyed : ∀ (entry : String × Value) (m : Option String × Value),
      (m.1.map fun key => (key, m.2)) = some entry ↔ keyed entry = m := by
    rintro ⟨key, value⟩ ⟨_ | key', value'⟩ <;> simp [keyed, eq_comm]
  rw [mapM_eq_some_iff, ← List.forall₂_eq_eq_eq, List.forall₂_map_left_iff]
  simp only [hkeyed]

/-- Members can be named exactly if no key is without a text. -/
private theorem exists_map_keyed_iff {members : List (Option String × Value)} :
    (∃ named : Fields, named.map keyed = members) ↔ none ∉ members.map Prod.fst := by
  have hrange := Set.ext_iff.1 (Set.range_list_map keyed) members
  rw [Set.mem_range] at hrange
  rw [hrange]
  constructor
  · intro h hnone
    obtain ⟨m, hm, hkey⟩ := List.mem_map.1 hnone
    obtain ⟨entry, rfl⟩ := h m hm
    cases hkey
  · rintro h ⟨key, value⟩ hm
    cases key with
    | none => exact absurd (List.mem_map_of_mem hm) h
    | some key => exact ⟨(key, value), rfl⟩

/-- The keys of an object name each field at most once if no known one is repeated. -/
private theorem nodup_known_iff {named : Fields} :
    ((named.filter fun m => names.contains m.1).map Prod.fst).Nodup ↔
      ∀ name ∈ names, ((named.map keyed).map Prod.fst).count (some name) ≤ 1 := by
  have hkeys : (named.filter fun m => names.contains m.1).map Prod.fst =
      (named.map Prod.fst).filter names.contains := by
    rw [List.filter_map]
    rfl
  have hcount : ∀ name, ((named.map keyed).map Prod.fst).count (some name) =
      (named.map Prod.fst).count name := by
    intro name
    rw [← List.count_map_of_injective (named.map _) some (Option.some_injective _), List.map_map,
      List.map_map]
    rfl
  simp only [hkeys, hcount, List.nodup_iff_count_le_one]
  constructor
  · intro h name hname
    rw [← List.count_filter (p := names.contains) (by simpa using hname)]
    exact h name
  · intro h name
    by_cases hname : name ∈ names
    · rw [List.count_filter (by simpa using hname)]
      exact h name hname
    · -- unknown keys are not among those that are kept
      rw [List.count_eq_zero_of_not_mem (by simp [hname])]
      exact Nat.zero_le 1

/-- An array is a record if it is no longer than the names. -/
theorem fields?_array_eq_some_iff {items : List Value} :
    fields? names (.array items) = some fields ↔
    items.length ≤ names.length ∧ names.zip items = fields := by
  rw [fields?, Option.ite_none_right_eq_some, Option.some.injEq]

/-- An object is a record if all keys have texts and no name is repeated. Members of other names are
skipped. -/
private theorem fields?_object_eq_some_iff {members : List (Option String × Value)} :
    fields? names (.object members) = some fields ↔ ∃ named : Fields, named.map keyed = members ∧
      (∀ name ∈ names, (members.map Prod.fst).count (some name) ≤ 1) ∧
      (named.filter fun m => names.contains m.1) = fields := by
  simp only [fields?, Option.bind_eq_bind, Option.bind_eq_some_iff, mapM_key_eq_some_iff,
    Option.ite_none_right_eq_some, Option.some.injEq, nodup_known_iff]
  constructor
  · rintro ⟨named, rfl, h⟩
    exact ⟨named, rfl, h⟩
  · rintro ⟨named, rfl, h⟩
    exact ⟨named, rfl, h⟩

/-- The fields of a value can be read if it gives a record. -/
theorem exists_fields?_iff :
    (∃ fields, value.fields? names = some fields) ↔ value.IsRecord names := by
  constructor
  · rintro ⟨fields, h⟩
    cases value with
    | array items => exact .array (fields?_array_eq_some_iff.1 h).1
    | object members =>
      obtain ⟨named, hnamed, honce, -⟩ := fields?_object_eq_some_iff.1 h
      exact .object (exists_map_keyed_iff.1 ⟨named, hnamed⟩) honce
    | _ => cases h
  · rintro (⟨hkeys, honce⟩ | hlength)
    · obtain ⟨named, hnamed⟩ := exists_map_keyed_iff.2 hkeys
      exact ⟨_, fields?_object_eq_some_iff.2 ⟨named, hnamed, honce, rfl⟩⟩
    · exact ⟨_, fields?_array_eq_some_iff.2 ⟨hlength, rfl⟩⟩

/-- The fields of an array stand in the order of the names. -/
private theorem map_fst_zip_sublist (names : List String) (items : List Value) :
    ((names.zip items).map Prod.fst).Sublist names := by
  induction names generalizing items with
  | nil => simp
  | cons name names ih =>
    cases items with
    | nil => simp
    | cons item items => simpa using ih items

/-- The fields that are read are what the record gives. -/
theorem gives_iff_lookup (hnames : names.Nodup) (h : value.fields? names = some fields)
    (hname : name ∈ names) : value.Gives names name given ↔ fields.lookup name = some given := by
  cases value with
  | array items =>
    obtain ⟨-, rfl⟩ := fields?_array_eq_some_iff.1 h
    rw [gives_array_iff, lookup_eq_some_iff_mem (hnames.sublist (map_fst_zip_sublist names items))]
  | object members =>
    obtain ⟨named, rfl, honce, rfl⟩ := fields?_object_eq_some_iff.1 h
    rw [gives_object_iff, lookup_eq_some_iff_mem (nodup_known_iff.2 honce)]
    simp [hname, keyed]
  | _ => cases h

/-- A record gives a field at most one value. -/
theorem IsRecord.gives_unique (hnames : names.Nodup) (h : value.IsRecord names)
    (hname : name ∈ names)
    {first second : Value} (hfirst : value.Gives names name first)
    (hsecond : value.Gives names name second) : first = second := by
  obtain ⟨fields, hfields⟩ := exists_fields?_iff.2 h
  rw [gives_iff_lookup hnames hfields hname] at hfirst hsecond
  exact Option.some.inj (hfirst.symm.trans hsecond)

end Value

namespace Fields

variable {α : Type} {names : List String} {name : String} {value : Value} {fields : Fields}
  {read : Value → Option α} {a : α} {p : Value → Prop}

/-- A field that must be given is read from what the record gives. -/
theorem required_eq_some_iff (hnames : names.Nodup) (h : value.fields? names = some fields)
    (hname : name ∈ names) (hread : ∀ given, read given = some a ↔ p given) :
    fields.required name read = some a ↔ value.GivesSome names name p := by
  rw [required, Option.bind_eq_some_iff, Value.GivesSome]
  simp only [Value.gives_iff_lookup hnames h hname, hread]

/-- A field that need not be given is read from what the record gives, or else is the default. -/
theorem orElse_eq_some_iff {default : α} (hnames : names.Nodup)
    (h : value.fields? names = some fields) (hname : name ∈ names)
    (hread : ∀ given, read given = some a ↔ p given) :
    fields.orElse name default read = some a ↔ value.GivesOr names name (a = default) p := by
  rw [orElse, Value.GivesOr, Value.GivesSome]
  simp only [Value.gives_iff_lookup hnames h hname, ← hread]
  cases fields.lookup name with
  | none => simp [eq_comm]
  | some given => simp

end Fields

end RelationalAvro.Json
