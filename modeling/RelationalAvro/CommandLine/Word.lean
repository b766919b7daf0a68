import RelationalAvro.Text.Decimal
import RelationalAvro.Text.Segments

/-!
# Words of a command line

The arguments of a command line are first grouped into words: flags, options with their values, and
positional arguments. The value of an option is attached after an equals sign or is the next
argument; a double dash ends the options.
-/

namespace RelationalAvro.CommandLine

/-- An option that takes a value. -/
inductive Setting where
  | space
  | typeMapping
  | defaultScale
  deriving DecidableEq, Repr

/-- An option that takes none. -/
inductive Flag where
  | perRecord
  | print
  deriving DecidableEq, Repr

/-- The option of that name that takes a value. -/
def Setting.ofName? : String → Option Setting
  | "namespace" => some .space
  | "type-mapping" => some .typeMapping
  | "default-scale" => some .defaultScale
  | _ => none

/-- The option of that name that takes none. -/
def Flag.ofName? : String → Option Flag
  | "inline-enums-per-record" => some .perRecord
  | "stdout" => some .print
  | _ => none

/-- A word of a command line. -/
inductive Word where
  | setting (setting : Setting) (value : String)
  | flag (flag : Flag)
  | positional (text : String)
  deriving DecidableEq, Repr

/-- Does the argument look like a value or a positional argument? A single dash does. -/
def isPlain (argument : String) : Bool :=
  argument == "-" || argument.toList.head? != some '-'

/-- May the argument be the value of the option that stands before it? Only a default scale may look
like an option, and only if it is a negative number. -/
def Setting.takes (setting : Setting) (argument : String) : Bool :=
  isPlain argument || (setting == .defaultScale && (Text.int? argument.toList).isSome)

/-- The name that an argument gives after a double dash, and the value attached to it. -/
def named? (argument : String) : Option (String × Option String) :=
  match argument.toList with
  | '-' :: '-' :: text =>
    match Text.splitFirst '=' text with
    | some (name, value) => some (String.ofList name, some (String.ofList value))
    | none => some (String.ofList text, none)
  | _ => none

/-- The words of a command line, unless an option is unknown, lacks its value or has one it does not
take. -/
def Word.ofArguments? : List String → Option (List Word)
  | [] => some []
  | argument :: rest =>
    if argument = "--" then some (rest.map .positional)
    else
      match named? argument with
      | some (name, some value) =>
        match Setting.ofName? name with
        | some key => (ofArguments? rest).map (.setting key value :: ·)
        | none => none
      | some (name, none) =>
        match Flag.ofName? name, Setting.ofName? name, rest with
        | some mark, _, rest => (ofArguments? rest).map (.flag mark :: ·)
        | none, some key, value :: rest =>
          if key.takes value then (ofArguments? rest).map (.setting key value :: ·) else none
        | _, _, _ => none
      | none =>
        if isPlain argument then (ofArguments? rest).map (.positional argument :: ·) else none

end RelationalAvro.CommandLine
