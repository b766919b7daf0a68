import RelationalAvro.CommandLine.Word
import RelationalAvro.Config.Draft

/-!
# Options of a command line

The words of a command line say where the model is, where its documents go and how it is converted.
Type mappings may be repeated, everything else is said at most once, and the order does not matter
but for the two positional arguments.
-/

namespace RelationalAvro.CommandLine

/-- What a command line asks for. -/
structure Options where
  model : String
  directory : Option String
  space : Option String
  mappings : List (String × String)
  defaultScale : Option Int
  perRecord : Bool
  print : Bool
  deriving DecidableEq, Repr

/-- The value that a word gives to an option. -/
def Word.valueOf? (setting : Setting) : Word → Option String
  | .setting s value => if s = setting then some value else none
  | _ => none

/-- The text of a positional argument. -/
def Word.positional? : Word → Option String
  | .positional text => some text
  | _ => none

/-- The values that the words give to an option, in order. -/
def valuesOf (setting : Setting) (words : List Word) : List String :=
  words.filterMap (Word.valueOf? setting)

/-- The member of a list that has at most one. -/
def atMostOne? {α : Type} : List α → Option (Option α)
  | [] => some none
  | [x] => some (some x)
  | _ => none

/-- Is the flag among the words? It may be there once. -/
def hasFlag? (flag : Flag) (words : List Word) : Option Bool :=
  (atMostOne? (words.filter fun word => word = .flag flag)).map Option.isSome

/-- The category and the stem on the two sides of the first equals sign. Neither may be empty. -/
def typeMapping? (text : String) : Option (String × String) :=
  match Text.splitFirst '=' text.toList with
  | some (c :: category, s :: stem) =>
    some (String.ofList (c :: category), String.ofList (s :: stem))
  | _ => none

/-- The number that a text gives, if it has 64 bits with its sign. -/
def int64? (text : String) : Option Int :=
  (Text.int? text.toList).filter fun i => -9223372036854775808 ≤ i ∧ i ≤ 9223372036854775807

/-- Where the model is and where its documents go, by the positional arguments: the directory may be
left out if the documents are printed. -/
def places? (print : Bool) : List String → Option (String × Option String)
  | [model] => if print then some (model, none) else none
  | [model, directory] => if directory.isEmpty then none else some (model, some directory)
  | _ => none

/-- What the words ask for, unless something is missing, repeated or no proper value. -/
def Options.ofWords? (words : List Word) : Option Options := do
  let space ← atMostOne? (valuesOf .space words)
  let mappings ← (valuesOf .typeMapping words).mapM typeMapping?
  let scales ← (valuesOf .defaultScale words).mapM int64?
  let defaultScale ← atMostOne? scales
  let perRecord ← hasFlag? .perRecord words
  let print ← hasFlag? .print words
  let (model, directory) ← places? print (words.filterMap Word.positional?)
  return { model, directory, space, mappings, defaultScale, perRecord, print }

/-- What the arguments ask for. A request for help asks for no conversion: `--help` and `-h` are
among neither the options nor the flags, and are refused as any other unknown option is. -/
def Options.ofArguments? (arguments : List String) : Option Options :=
  (Word.ofArguments? arguments).bind Options.ofWords?

/-- The steps that draft the configuration. -/
def Options.steps (options : Options) : List Draft.Step :=
  options.space.toList.map .space
    ++ options.mappings.map (fun mapping => .add mapping.1 mapping.2)
    ++ options.defaultScale.toList.map .defaultScale
    ++ (if options.perRecord then [.inlining .perRecord] else [])

/-- The configuration asked for. -/
def Options.config (options : Options) : Except Fault Config :=
  Draft.run options.steps

end RelationalAvro.CommandLine
