import Mathlib.Data.List.DropRight
import Mathlib.Data.List.Induction
import RelationalAvro.Config.Draft
import RelationalAvro.Proofs.Config.Rows

/-!
# What drafting a configuration comes to

Of the steps that set a namespace, a scale or how often enums are defined, the last one counts. Of
the steps that replace the type table, the last one counts as well, and all stems added since then
are added to that table as a set. The draft keeps categories and stems as they are written; lower
case comes in at the end and merges what it makes the same.

One step keeps a draft in line with this (`Tells.after`), and so do all (`tells_afterAll`). The main
statement is `buildAll_builds`.
-/

namespace RelationalAvro.Draft

/-! ## What steps say -/

/-- The namespace that a step sets. -/
@[simp] def Step.space? : Step → Option String
  | .space text => some text
  | _ => none

/-- The type table that a step puts in place of the old one. -/
@[simp] def Step.table? : Step → Option TypeTable
  | .table rows => some rows
  | _ => none

/-- The category and the stem that a step adds. -/
@[simp] def Step.addition? : Step → Option (String × String)
  | .add category stem => some (category, stem)
  | _ => none

/-- The scale that a step sets, if it is not refused. -/
@[simp] def Step.scale? : Step → Option Nat
  | .defaultScale scale => if 0 ≤ scale ∧ scale ≤ maxScale then some scale.toNat else none
  | _ => none

/-- How often enums are defined after a step that says so. -/
@[simp] def Step.inlining? : Step → Option Inlining
  | .inlining often => some often
  | _ => none

/-- What the last step to say something says. -/
def lastOf {α : Type} (said : Step → Option α) (steps : List Step) : Option α :=
  (steps.filterMap said).getLast?

/-- The type table that was put in place last: at first the default table. -/
def startTable (steps : List Step) : TypeTable :=
  (lastOf Step.table? steps).getD defaultTable

/-- The categories and stems added since a type table was last put in place. -/
def additions (steps : List Step) : List (String × String) :=
  (steps.rtakeWhile fun step => step.table?.isNone).filterMap Step.addition?

/-- What the last step says counts, and else what was said before. -/
@[simp] theorem lastOf_append_singleton {α : Type} (said : Step → Option α) (steps : List Step)
    (step : Step) : lastOf said (steps ++ [step]) = (said step).or (lastOf said steps) := by
  cases hsaid : said step <;> simp [lastOf, List.filterMap_append, hsaid]

/-- A step that replaces the table makes a new start. -/
@[simp] theorem startTable_append_singleton (steps : List Step) (step : Step) :
    startTable (steps ++ [step]) = step.table?.getD (startTable steps) := by
  rw [startTable, lastOf_append_singleton]
  cases step.table? <;> rfl

/-- A step that replaces the table forgets what was added. -/
@[simp] theorem additions_append_singleton (steps : List Step) (step : Step) :
    additions (steps ++ [step]) =
      if step.table?.isNone then additions steps ++ step.addition?.toList else [] := by
  unfold additions
  rw [List.rtakeWhile_concat]
  cases step <;> simp

/-! ## Drafts in line with the steps -/

variable {steps : List Step} {draft : Draft}

/-- The draft has what the steps say, as it is written. -/
structure Tells (steps : List Step) (draft : Draft) : Prop where
  space_eq : draft.space = (lastOf Step.space? steps).getD ""
  defaultScale_eq : draft.defaultScale = (lastOf Step.scale? steps).getD 0
  inlining_eq : draft.inlining = (lastOf Step.inlining? steps).getD .perRun
  mem_categories_iff : ∀ category, category ∈ draft.table.rows.map Prod.fst ↔
    category ∈ (startTable steps).rows.map Prod.fst ∨ category ∈ (additions steps).map Prod.fst
  owns_iff : ∀ category stem, draft.table.Owns category stem ↔
    (startTable steps).Owns category stem ∨ (category, stem) ∈ additions steps

/-- Without steps there is the default configuration. -/
theorem tells_nil : Tells [] {} :=
  ⟨rfl, rfl, rfl, fun _ => by simp [startTable, lastOf, additions],
    fun _ _ => by simp [startTable, lastOf, additions]⟩

/-- Only a scale out of bounds is refused. -/
theorem apply_eq_error_iff {step : Step} {fault : Fault} :
    draft.apply step = .error fault ↔ ∃ scale, step = .defaultScale scale ∧
      ¬(0 ≤ scale ∧ scale ≤ maxScale) ∧ fault = .invalidScale scale := by
  cases step with
  | defaultScale scale =>
    by_cases hscale : 0 ≤ scale ∧ scale ≤ maxScale
    · simp [apply, hscale]
    · simp only [apply, if_neg hscale, Except.error.injEq, Step.defaultScale.injEq]
      constructor
      · rintro rfl
        exact ⟨scale, rfl, hscale, rfl⟩
      · rintro ⟨_, rfl, -, rfl⟩
        rfl
  | space | table | add | inlining => simp [apply]

/-- A refused step leaves the draft as it was. -/
theorem after_eq_of_error {step : Step} {fault : Fault} (h : draft.apply step = .error fault) :
    draft.after step = draft := by
  rw [after, h]

/-- One more step keeps the draft in line with the steps. -/
theorem Tells.after (h : Tells steps draft) (step : Step) :
    Tells (steps ++ [step]) (draft.after step) := by
  obtain ⟨hspace, hscale, hinlining, hcategories, howns⟩ := h
  cases step with
  | space text =>
    constructor <;> simp [Draft.after, apply, *]
  | table rows =>
    constructor <;> simp [Draft.after, apply, *]
  | add category stem =>
    -- only this step adds to what earlier steps said, and all others say something anew
    have hadd : (draft.after (.add category stem)).table = draft.table.add category stem := rfl
    refine ⟨?_, ?_, ?_, fun c => ?_, fun c s => ?_⟩
    · simp [Draft.after, apply, *]
    · simp [Draft.after, apply, *]
    · simp [Draft.after, apply, *]
    · rw [hadd, TypeTable.add, TypeTable.mem_categories_modify, hcategories]
      simp
      tauto
    · rw [hadd, TypeTable.owns_add, howns]
      simp
      tauto
  | defaultScale scale =>
    by_cases hbounds : 0 ≤ scale ∧ scale ≤ maxScale <;>
      constructor <;> simp [Draft.after, apply, *]
  | inlining often =>
    constructor <;> simp [Draft.after, apply, *]

/-- The draft at the end of the steps, passing over those that are refused. -/
def afterAll (steps : List Step) : Draft :=
  steps.foldl after {}

/-- The draft at the end is in line with all the steps. -/
theorem tells_afterAll (steps : List Step) : Tells steps (afterAll steps) := by
  induction steps using List.reverseRecOn with
  | nil => exact tells_nil
  | append_singleton steps step ih =>
    rw [afterAll, List.foldl_concat]
    exact ih.after step

/-! ## Built configurations -/

/-- The configuration has what the steps say, in lower case. -/
structure Builds (steps : List Step) (config : Config) : Prop where
  space_eq : config.space = (lastOf Step.space? steps).getD ""
  inlining_eq : config.inlining = (lastOf Step.inlining? steps).getD .perRun
  defaultScale_eq : config.defaultScale = (lastOf Step.scale? steps).getD 0
  owns_iff : ∀ c s, config.table.Owns c s ↔ ∃ category stem,
    ((startTable steps).Owns category stem ∨ (category, stem) ∈ additions steps) ∧
      Text.lowercase category = c ∧ Text.lowercase stem = s
  mem_categories_iff : ∀ c, c ∈ config.table.rows.map Prod.fst ↔ ∃ category,
    (category ∈ (startTable steps).rows.map Prod.fst ∨
      category ∈ (additions steps).map Prod.fst) ∧ Text.lowercase category = c

/-- The configuration of a draft in line with the steps has what they say. -/
theorem Tells.builds (h : Tells steps draft) : Builds steps draft.build where
  space_eq := h.space_eq
  inlining_eq := h.inlining_eq
  defaultScale_eq := h.defaultScale_eq
  owns_iff c s := by
    have htable : draft.build.table = draft.table.map Text.lowercase := rfl
    simp only [htable, TypeTable.owns_map, h.owns_iff]
  mem_categories_iff c := by
    have htable : draft.build.table = draft.table.map Text.lowercase := rfl
    rw [htable, TypeTable.mem_categories_map, List.mem_map]
    simp only [h.mem_categories_iff]

/-- Steps that start from one table and add the same, in any order and with any repetitions, build
one table. -/
theorem Builds.table_eq {other : List Step} {config config' : Config} (h : Builds steps config)
    (h' : Builds other config') (hstart : startTable steps = startTable other)
    (hadditions : ∀ addition, addition ∈ additions steps ↔ addition ∈ additions other) :
    config.table = config'.table := by
  refine TypeTable.ext (fun c => ?_) fun c s => ?_
  · simp only [h.mem_categories_iff, h'.mem_categories_iff, hstart, List.mem_map, hadditions]
  · simp only [h.owns_iff, h'.owns_iff, hstart, hadditions]

/-- The configuration at the end of any steps has what they say: the last namespace, scale and mode,
and the lower-cased stems of the last table and of all that was added to it. The order and the
repetition of what was added do not matter. A step is refused only for a scale out of bounds, and
then it leaves the draft as it was. -/
theorem buildAll_builds (steps : List Step) :
    Builds steps (buildAll steps) ∧
    (∀ other, startTable steps = startTable other →
      (∀ addition, addition ∈ additions steps ↔ addition ∈ additions other) →
      (buildAll steps).table = (buildAll other).table) ∧
    (∀ step fault, (afterAll steps).apply step = .error fault ↔ ∃ scale,
      step = .defaultScale scale ∧ ¬(0 ≤ scale ∧ scale ≤ maxScale) ∧ fault = .invalidScale scale) ∧
    ∀ step fault, (afterAll steps).apply step = .error fault →
      afterAll (steps ++ [step]) = afterAll steps := by
  have hbuilds : ∀ steps, Builds steps (buildAll steps) :=
    fun steps => (tells_afterAll steps).builds
  refine ⟨hbuilds steps, fun other => (hbuilds steps).table_eq (hbuilds other),
    fun step fault => apply_eq_error_iff, fun step fault h => ?_⟩
  rw [afterAll, List.foldl_concat]
  exact after_eq_of_error h

end RelationalAvro.Draft
