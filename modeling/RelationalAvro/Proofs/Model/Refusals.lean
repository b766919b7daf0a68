import RelationalAvro.Proofs.Model.Forms

/-!
# What gives no model

A value gives no database exactly if one of the records in it is faulty
(`Database.ofValue?_eq_none_iff`). `Kind.IsFaulty` lists what can be wrong with a record in itself,
and `Reaches` says which records are looked at: those in the fields of the database, in their
fields, and so on, but none under an unknown key.
-/

namespace RelationalAvro.Model

open Json (Value)

/-! ## Faulty records -/

/-- The value is of the form, whatever the records in it may be. -/
def Form.Takes : Form → Value → Prop
  | .text, value => ∃ s, value = .text s
  | .optionalText, value => value = .null ∨ ∃ s, value = .text s
  | .settings, value =>
    ∃ items, value = .array items ∧ ∀ item ∈ items, ∃ s : Setting, s.GivenBy item
  | .records _, value => ∃ items, value = .array items

/-- The value does not give a record of the kind, whatever the records in its fields may be. -/
inductive Kind.IsFaulty (kind : Kind) : Value → Prop
  /-- A record is an object or an array. -/
  | notRecord {value : Value} (hobject : ∀ members, value ≠ .object members)
      (harray : ∀ items, value ≠ .array items) : IsFaulty kind value
  /-- Every key denotes a text, that of an unknown field too. -/
  | loneKey {members : List (Option String × Value)} (h : none ∈ members.map Prod.fst) :
      IsFaulty kind (.object members)
  /-- No key of a field is repeated, whichever way it is written. -/
  | repeatedKey {members : List (Option String × Value)} {name : String} (hname : name ∈ kind.names)
      (h : 1 < (members.map Prod.fst).count (some name)) : IsFaulty kind (.object members)
  /-- An array holds no more than the fields. -/
  | surplus {items : List Value} (h : kind.names.length < items.length) :
      IsFaulty kind (.array items)
  /-- Required fields are given. -/
  | missing {field : Field} {value : Value} (hfield : field ∈ kind.fields)
      (hrequired : field.isRequired = true)
      (h : ∀ given, ¬value.Gives kind.names field.name given) : IsFaulty kind value
  /-- What is given to a field is of its form. -/
  | badField {field : Field} {value given : Value} (hfield : field ∈ kind.fields)
      (hgiven : value.Gives kind.names field.name given) (h : ¬field.form.Takes given) :
      IsFaulty kind value

/-- The second value is the first or one of the records in it, at any depth. -/
inductive Reaches : Kind → Value → Kind → Value → Prop
  | self {kind : Kind} {value : Value} : Reaches kind value kind value
  | item {kind child target : Kind} {field : Field} {value item part : Value} {items : List Value}
      (hfield : field ∈ kind.fields) (hform : field.form = .records child)
      (hgiven : value.Gives kind.names field.name (.array items)) (hitem : item ∈ items)
      (h : Reaches child item target part) : Reaches kind value target part

/-! ## Values that give something -/

/-- The value gives a record of the kind. -/
def Kind.Admits : Kind → Value → Prop
  | .database, value => ∃ d : Database, d.GivenBy value
  | .schema, value => ∃ s : Schema, s.GivenBy value
  | .table, value => ∃ t : Table, t.GivenBy value
  | .column, value => ∃ c : Column, c.GivenBy value
  | .enum, value => ∃ e : Enum, e.GivenBy value
  | .enumValue, value => ∃ v : EnumValue, v.GivenBy value

/-- The value gives something to a field of the form. -/
def Form.Admits : Form → Value → Prop
  | .text, value => ∃ s, value = .text s
  | .optionalText, value => ∃ s, IsOptionalText s value
  | .settings, value => ∃ settings : Settings, settings.GivenBy value
  | .records child, value => ∃ items, value = .array items ∧ ∀ item ∈ items, child.Admits item

/-- The record gives something to the field, or leaves it out if it may. -/
def Field.Admits (field : Field) (names : List String) (value : Value) : Prop :=
  (field.isRequired = true → ∃ given, value.Gives names field.name given) ∧
    ∀ given, value.Gives names field.name given → field.form.Admits given

/-- All members of a list have partners exactly if each has one. -/
private theorem exists_forall₂_iff {α β : Type} {r : α → β → Prop} {list : List β} :
    (∃ results, List.Forall₂ r results list) ↔ ∀ b ∈ list, ∃ a, r a b := by
  induction list with
  | nil => simp
  | cons b list ih =>
    rw [List.forall_mem_cons, ← ih]
    simp only [List.forall₂_cons_right_iff]
    constructor
    · rintro ⟨_, a, results, ha, hresults, -⟩
      exact ⟨⟨a, ha⟩, results, hresults⟩
    · rintro ⟨⟨a, ha⟩, results, hresults⟩
      exact ⟨_, a, results, ha, hresults, rfl⟩

/-- A value gives some list exactly if it is an array whose items all give something. -/
theorem exists_isListOf_iff {α : Type} {gives : α → Value → Prop} {value : Value} :
    (∃ list, IsListOf gives list value) ↔
      ∃ items, value = .array items ∧ ∀ item ∈ items, ∃ a, gives a item := by
  simp only [IsListOf, ← exists_forall₂_iff]
  constructor
  · rintro ⟨list, items, rfl, h⟩
    exact ⟨items, rfl, list, h⟩
  · rintro ⟨items, rfl, list, h⟩
    exact ⟨list, items, rfl, h⟩

/-- A value gives some settings exactly if it is an array of settings. -/
theorem Settings.exists_givenBy_iff {value : Value} :
    (∃ settings : Settings, settings.GivenBy value) ↔
    ∃ items, value = .array items ∧ ∀ item ∈ items, ∃ s : Setting, s.GivenBy item := by
  rw [← exists_isListOf_iff]
  constructor
  · rintro ⟨_, list, h, -⟩
    exact ⟨list, h⟩
  · rintro ⟨list, h⟩
    exact ⟨.ofList list, list, h, fun s => by simp [contains_ofList]⟩

/-- A field gets something from a value of its form in which every record gives something. -/
theorem Form.admits_iff {form : Form} {value : Value} :
    form.Admits value ↔ form.Takes value ∧ ∀ child items,
      form = .records child → value = .array items → ∀ item ∈ items, child.Admits item := by
  cases form with
  | text => simp [Admits, Takes]
  | optionalText => simp [Admits, Takes, Option.exists, IsOptionalText]
  | settings => simp [Admits, Takes, Settings.exists_givenBy_iff]
  | records child =>
    simp only [Admits, Takes]
    constructor
    · rintro ⟨items, rfl, h⟩
      refine ⟨⟨items, rfl⟩, ?_⟩
      rintro _ _ ⟨⟩ ⟨⟩
      exact h
    · rintro ⟨⟨items, rfl⟩, h⟩
      exact ⟨items, rfl, h child items rfl rfl⟩

section

variable {kind : Kind} {name : String} {value : Value}

/-- A record gives a required field if it has one and all that it has is fit for it. -/
theorem exists_givesSome_iff {α : Type} {p : α → Value → Prop} (hrecord : value.IsRecord kind.names)
    (hname : name ∈ kind.names) :
    (∃ a, value.GivesSome kind.names name (p a)) ↔ (∃ given, value.Gives kind.names name given) ∧
      ∀ given, value.Gives kind.names name given → ∃ a, p a given := by
  constructor
  · rintro ⟨a, given, hgiven, ha⟩
    refine ⟨⟨given, hgiven⟩, fun other hother => ⟨a, ?_⟩⟩
    rwa [hrecord.gives_unique kind.nodup_names hname hother hgiven]
  · rintro ⟨⟨given, hgiven⟩, h⟩
    obtain ⟨a, ha⟩ := h given hgiven
    exact ⟨a, given, hgiven, ha⟩

/-- A record gives a field with a default if all that it has is fit for it. -/
theorem exists_givesOr_iff {α : Type} {default : α} {p : α → Value → Prop}
    (hrecord : value.IsRecord kind.names) (hname : name ∈ kind.names) :
    (∃ a, value.GivesOr kind.names name (a = default) (p a)) ↔
      ∀ given, value.Gives kind.names name given → ∃ a, p a given := by
  constructor
  · rintro ⟨a, hgives | ⟨-, hnone⟩⟩
    · exact ((exists_givesSome_iff hrecord hname).1 ⟨a, hgives⟩).2
    · exact fun given hgiven => absurd hgiven (hnone given)
  · intro h
    by_cases hgiven : ∃ given, value.Gives kind.names name given
    · obtain ⟨a, ha⟩ := (exists_givesSome_iff hrecord hname).2 ⟨hgiven, h⟩
      exact ⟨a, .inl ha⟩
    · exact ⟨default, .inr ⟨rfl, not_exists.1 hgiven⟩⟩

/-- A value gives some column exactly if it gives all fields of one. -/
theorem Column.exists_givenBy_iff : (∃ c : Column, c.GivenBy value) ↔
    value.IsRecord Kind.column.names ∧
      (∃ a, value.GivesSome Kind.column.names "name" (· = .text a)) ∧
      (∃ a, value.GivesSome Kind.column.names "type" (· = .text a)) ∧
      (∃ a, value.GivesOr Kind.column.names "note" (a = none) (IsOptionalText a)) ∧
      ∃ a, value.GivesOr Kind.column.names "settings" (a = {}) (Settings.GivenBy a) := by
  constructor
  · rintro ⟨c, h⟩
    exact ⟨h.isRecord, ⟨_, h.name⟩, ⟨_, h.columnType⟩, ⟨_, h.note⟩, ⟨_, h.settings⟩⟩
  · rintro ⟨hrecord, ⟨name, hname⟩, ⟨columnType, hcolumnType⟩, ⟨note, hnote⟩, settings, hsettings⟩
    exact ⟨⟨name, columnType, note, settings⟩, hrecord, hname, hcolumnType, hnote, hsettings⟩

/-- A value gives some table exactly if it gives all fields of one. -/
theorem Table.exists_givenBy_iff : (∃ t : Table, t.GivenBy value) ↔
    value.IsRecord Kind.table.names ∧
      (∃ a, value.GivesSome Kind.table.names "name" (· = .text a)) ∧
      (∃ a, value.GivesOr Kind.table.names "alias" (a = none) (IsOptionalText a)) ∧
      (∃ a, value.GivesOr Kind.table.names "note" (a = none) (IsOptionalText a)) ∧
      ∃ a, value.GivesOr Kind.table.names "columns" (a = []) (IsListOf Column.GivenBy a) := by
  constructor
  · rintro ⟨t, h⟩
    exact ⟨h.isRecord, ⟨_, h.name⟩, ⟨_, h.otherName⟩, ⟨_, h.note⟩, ⟨_, h.columns⟩⟩
  · rintro ⟨hrecord, ⟨name, hname⟩, ⟨otherName, hotherName⟩, ⟨note, hnote⟩, columns, hcolumns⟩
    exact ⟨⟨name, otherName, note, columns⟩, hrecord, hname, hotherName, hnote, hcolumns⟩

/-- A value gives some value of an enum exactly if it gives all fields of one. -/
theorem EnumValue.exists_givenBy_iff : (∃ v : EnumValue, v.GivenBy value) ↔
    value.IsRecord Kind.enumValue.names ∧
      (∃ a, value.GivesSome Kind.enumValue.names "name" (· = .text a)) ∧
      ∃ a, value.GivesOr Kind.enumValue.names "note" (a = none) (IsOptionalText a) := by
  constructor
  · rintro ⟨v, h⟩
    exact ⟨h.isRecord, ⟨_, h.name⟩, ⟨_, h.note⟩⟩
  · rintro ⟨hrecord, ⟨name, hname⟩, note, hnote⟩
    exact ⟨⟨name, note⟩, hrecord, hname, hnote⟩

/-- A value gives some enum exactly if it gives all fields of one. -/
theorem Enum.exists_givenBy_iff : (∃ e : Enum, e.GivenBy value) ↔
    value.IsRecord Kind.enum.names ∧
      (∃ a, value.GivesSome Kind.enum.names "name" (· = .text a)) ∧
      ∃ a, value.GivesOr Kind.enum.names "values" (a = []) (IsListOf EnumValue.GivenBy a) := by
  constructor
  · rintro ⟨e, h⟩
    exact ⟨h.isRecord, ⟨_, h.name⟩, ⟨_, h.values⟩⟩
  · rintro ⟨hrecord, ⟨name, hname⟩, values, hvalues⟩
    exact ⟨⟨name, values⟩, hrecord, hname, hvalues⟩

/-- A value gives some schema exactly if it gives all fields of one. -/
theorem Schema.exists_givenBy_iff : (∃ s : Schema, s.GivenBy value) ↔
    value.IsRecord Kind.schema.names ∧
      (∃ a, value.GivesOr Kind.schema.names "name" (a = defaultSchemaName) (· = .text a)) ∧
      (∃ a, value.GivesOr Kind.schema.names "tables" (a = []) (IsListOf Table.GivenBy a)) ∧
      ∃ a, value.GivesOr Kind.schema.names "enums" (a = []) (IsListOf Enum.GivenBy a) := by
  constructor
  · rintro ⟨s, h⟩
    exact ⟨h.isRecord, ⟨_, h.name⟩, ⟨_, h.tables⟩, ⟨_, h.enums⟩⟩
  · rintro ⟨hrecord, ⟨name, hname⟩, ⟨tables, htables⟩, enums, henums⟩
    exact ⟨⟨name, tables, enums⟩, hrecord, hname, htables, henums⟩

/-- A value gives some database exactly if it gives its schemas. -/
theorem Database.exists_givenBy_iff : (∃ d : Database, d.GivenBy value) ↔
    value.IsRecord Kind.database.names ∧
      ∃ a, value.GivesOr Kind.database.names "schemas" (a = []) (IsListOf Schema.GivenBy a) := by
  constructor
  · rintro ⟨d, h⟩
    exact ⟨h.isRecord, ⟨_, h.schemas⟩⟩
  · rintro ⟨hrecord, schemas, hschemas⟩
    exact ⟨⟨schemas⟩, hrecord, hschemas⟩

/-- **A record is given** by a value that is a record and gives something to each field. -/
theorem Kind.admits_iff : kind.Admits value ↔
    value.IsRecord kind.names ∧ ∀ field ∈ kind.fields, field.Admits kind.names value := by
  cases kind with
  -- each kind asks for its own fields, so the cases differ in nothing but these
  | database =>
    refine Database.exists_givenBy_iff.trans (and_congr_right fun hrecord => ?_)
    rw [exists_givesOr_iff hrecord (by decide)]
    simp [Kind.fields, Field.Admits, Form.Admits, exists_isListOf_iff, Kind.Admits]
  | schema =>
    refine Schema.exists_givenBy_iff.trans (and_congr_right fun hrecord => ?_)
    rw [exists_givesOr_iff hrecord (by decide),
      exists_givesOr_iff hrecord (by decide),
      exists_givesOr_iff hrecord (by decide)]
    simp [Kind.fields, Field.Admits, Form.Admits, exists_isListOf_iff, Kind.Admits]
  | table =>
    refine Table.exists_givenBy_iff.trans (and_congr_right fun hrecord => ?_)
    rw [exists_givesSome_iff hrecord (by decide),
      exists_givesOr_iff hrecord (by decide),
      exists_givesOr_iff hrecord (by decide),
      exists_givesOr_iff hrecord (by decide)]
    simp [Kind.fields, Field.Admits, Form.Admits, exists_isListOf_iff, Kind.Admits]
  | column =>
    refine Column.exists_givenBy_iff.trans (and_congr_right fun hrecord => ?_)
    rw [exists_givesSome_iff hrecord (by decide),
      exists_givesSome_iff hrecord (by decide),
      exists_givesOr_iff hrecord (by decide),
      exists_givesOr_iff hrecord (by decide)]
    simp [Kind.fields, Field.Admits, Form.Admits]
  | enum =>
    refine Enum.exists_givenBy_iff.trans (and_congr_right fun hrecord => ?_)
    rw [exists_givesSome_iff hrecord (by decide),
      exists_givesOr_iff hrecord (by decide)]
    simp [Kind.fields, Field.Admits, Form.Admits, exists_isListOf_iff, Kind.Admits]
  | enumValue =>
    refine EnumValue.exists_givenBy_iff.trans (and_congr_right fun hrecord => ?_)
    rw [exists_givesSome_iff hrecord (by decide),
      exists_givesOr_iff hrecord (by decide)]
    simp [Kind.fields, Field.Admits, Form.Admits]

/-! ## Records without faults -/

/-- A value without faults is a record in which every field is given that must be, and what is given
is of the form of its field. -/
theorem Kind.not_isFaulty_iff : ¬kind.IsFaulty value ↔ value.IsRecord kind.names ∧
    ∀ field ∈ kind.fields,
      (field.isRequired = true → ∃ given, value.Gives kind.names field.name given) ∧
        ∀ given, value.Gives kind.names field.name given → field.form.Takes given := by
  constructor
  · intro h
    refine ⟨?_, fun field hfield => ⟨fun hrequired => ?_, fun given hgiven => ?_⟩⟩
    · -- of the ways not to be a record, each is a fault
      cases value with
      | object members =>
        exact .object (mt .loneKey h) fun name hname => not_lt.1 (mt (.repeatedKey hname) h)
      | array items => exact .array (not_lt.1 (mt .surplus h))
      | _ => exact absurd (.notRecord (by simp) (by simp)) h
    · by_contra hnone
      exact h (.missing hfield hrequired (not_exists.1 hnone))
    · by_contra hform
      exact h (.badField hfield hgiven hform)
  · rintro ⟨hrecord, hfields⟩ hfaulty
    cases hfaulty with
    | notRecord hobject harray =>
      rcases hrecord with _ | _
      · exact hobject _ rfl
      · exact harray _ rfl
    | loneKey hlone =>
      rcases hrecord with ⟨hkeys, -⟩
      exact hkeys hlone
    | repeatedKey hname hrepeated =>
      rcases hrecord with ⟨-, honce⟩
      exact absurd (honce _ hname) (not_le.2 hrepeated)
    | surplus hsurplus =>
      rcases hrecord with _ | hlength
      exact absurd hlength (not_le.2 hsurplus)
    | missing hfield hrequired hnone =>
      obtain ⟨given, hgiven⟩ := (hfields _ hfield).1 hrequired
      exact hnone given hgiven
    | badField hfield hgiven hform => exact hform ((hfields _ hfield).2 _ hgiven)

/-- A value gives a record if it has no fault and everything in its lists of records gives one. -/
theorem Kind.admits_iff_not_isFaulty : kind.Admits value ↔ ¬kind.IsFaulty value ∧
    ∀ field ∈ kind.fields, ∀ child items, field.form = .records child →
      value.Gives kind.names field.name (.array items) → ∀ item ∈ items, child.Admits item := by
  rw [admits_iff, not_isFaulty_iff]
  simp only [Field.Admits, Form.admits_iff]
  constructor
  · rintro ⟨hrecord, hfields⟩
    refine ⟨⟨hrecord, fun field hfield => ⟨(hfields field hfield).1, fun given hgiven =>
      ((hfields field hfield).2 given hgiven).1⟩⟩, ?_⟩
    intro field hfield child items hform hgiven
    exact ((hfields field hfield).2 _ hgiven).2 child items hform rfl
  · rintro ⟨⟨hrecord, hfields⟩, hitems⟩
    refine ⟨hrecord, fun field hfield => ⟨(hfields field hfield).1, fun given hgiven =>
      ⟨(hfields field hfield).2 given hgiven, ?_⟩⟩⟩
    rintro child items hform rfl
    exact hitems field hfield child items hform hgiven

/-- How many levels of records there are in a record of the kind. -/
def Kind.height : Kind → Nat
  | .database => 3
  | .schema => 2
  | .table | .enum => 1
  | .column | .enumValue => 0

/-- Records lie deeper than those that hold them. -/
theorem Kind.height_lt {child : Kind} {field : Field} (hfield : field ∈ kind.fields)
    (hform : field.form = .records child) : child.height < kind.height := by
  revert field
  cases kind <;> cases child <;> simp [fields, height]

/-- A fault anywhere is a fault of the whole. -/
theorem Reaches.not_admits {target : Kind} {part : Value} (h : Reaches kind value target part)
    (hfaulty : target.IsFaulty part) : ¬kind.Admits value := by
  induction h with
  | self => exact fun hadmits => (Kind.admits_iff_not_isFaulty.1 hadmits).1 hfaulty
  | item hfield hform hgiven hitem _ ih =>
    intro hadmits
    exact ih hfaulty ((Kind.admits_iff_not_isFaulty.1 hadmits).2 _ hfield _ _ hform hgiven _ hitem)

/-- What gives no record has a fault somewhere. -/
theorem exists_reaches_of_not_admits (kind : Kind) (value : Value) (h : ¬kind.Admits value) :
    ∃ target part, Reaches kind value target part ∧ target.IsFaulty part := by
  by_cases hfaulty : kind.IsFaulty value
  · exact ⟨kind, value, .self, hfaulty⟩
  · rw [Kind.admits_iff_not_isFaulty, not_and] at h
    have hbelow := h hfaulty
    push Not at hbelow
    obtain ⟨field, hfield, child, items, hform, hgiven, item, hitem, hchild⟩ := hbelow
    -- the recursion goes down the kinds and need not look at the size of the value
    have := Kind.height_lt hfield hform
    obtain ⟨target, part, hreaches, hpart⟩ := exists_reaches_of_not_admits child item hchild
    exact ⟨target, part, .item hfield hform hgiven hitem hreaches, hpart⟩
termination_by kind.height

/-- **A value gives no database exactly if a record in it is faulty.** -/
theorem Database.ofValue?_eq_none_iff : Database.ofValue? value = none ↔
    ∃ kind part, Reaches .database value kind part ∧ kind.IsFaulty part := by
  have hadmits : Database.ofValue? value = none ↔ ¬Kind.database.Admits value := by
    simp only [Option.eq_none_iff_forall_ne_some, Ne, ofValue?_eq_some_iff, Kind.Admits, not_exists]
  rw [hadmits]
  constructor
  · exact exists_reaches_of_not_admits .database value
  · rintro ⟨kind, part, hreaches, hfaulty⟩
    exact hreaches.not_admits hfaulty

end

end RelationalAvro.Model
