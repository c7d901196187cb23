import GraphingCalculator.Decimal.Numeral

/-!
# Arguments of the command line

An argument list is a row of options and plain arguments, and among the plain
ones there may be the name of a command, which takes all arguments after it.
An option is written `-x V`, `-xV`, `-x=V`, `--x V` or `--x=V`.  After `--` all
arguments are plain.
-/

namespace GraphingCalculator
namespace CommandLine

/-- The options that take a value. -/
inductive Setting
  | define
  | x
  | xMin
  | xMax
  | yMin
  | yMax
  | width
  | guess
  deriving DecidableEq

/-- The value of an option. -/
inductive Value
  | text (text : Text)
  | number (number : Float)
  | count (count : Nat)

namespace Setting

/-- The spelling of an option after two dashes. -/
def long : Setting → Text
  | define => "define".toList
  | x => "x".toList
  | xMin => "x-min".toList
  | xMax => "x-max".toList
  | yMin => "y-min".toList
  | yMax => "y-max".toList
  | width => "width".toList
  | guess => "guess".toList

/-- The letter of an option after one dash. -/
def short? : Setting → Option Char
  | define => some 'D'
  | x => some 'x'
  | width => some 'w'
  | guess => some 'g'
  | _ => none

/-- Check whether an option may be given several times. -/
def isRepeatable (setting : Setting) : Bool :=
  setting = define

/-- Check whether the value of an option may begin with a dash, when it is a
number. -/
def allowsNegative : Setting → Bool
  | define | width => false
  | _ => true

/-- Read the value of an option. -/
def read? (setting : Setting) (text : Text) : Option Value :=
  match setting with
  | define => some (.text text)
  | width => (Numeral.readNatural? UInt64.size text).map .count
  | _ => (Numeral.read? text).map .number

end Setting

/-- Check whether the text after a dash is a number without a sign: digits,
then perhaps a point, then perhaps an exponent. -/
def isUnsignedNumber (text : Text) : Bool :=
  let afterWhole := text.dropWhile Char.isDigit
  let hasWhole := (text.takeWhile Char.isDigit) ≠ []
  let afterPoint :=
    match afterWhole with
    | '.' :: rest =>
        if hasWhole then rest.dropWhile Char.isDigit else afterWhole
    | _ => afterWhole
  match afterPoint with
  | [] => true
  | mark :: digits =>
      (mark == 'e' || mark == 'E') && afterPoint.length < text.length &&
        !digits.isEmpty && digits.all Char.isDigit

/-- What the arguments of one level may be: the options that it knows, the
number of plain arguments that it takes, and the names of the commands in
it. -/
structure Level where
  settings : List Setting
  maxPlain : Nat
  knowsVersion : Bool
  commands : List Text

/-- The arguments read so far, and the option that still waits for its
value. -/
structure Gathered where
  values : List (Setting × Value)
  plain : List Text
  waiting : Option Setting

/-- How the reading of a level ends. -/
inductive Ending
  | complete (gathered : Gathered)
  | command (name : Text) (gathered : Gathered) (rest : List Text)
  | help
  | version
  | refused

namespace Level

/-- What an argument that begins with a dash stands for. -/
inductive Dash
  | setting (setting : Setting) (value? : Option Text)
  | help
  | version
  | unknown

/-- Take an argument after two dashes apart, at its first equals sign. -/
def readLong (level : Level) (body : Text) : Dash :=
  let (name, value?) :=
    match Text.splitAtFirst? '=' body with
    | some (name, value) => (name, some value)
    | none => (body, none)
  match level.settings.find? fun setting => setting.long = name with
  | some setting => .setting setting value?
  | none =>
      if value?.isSome then .unknown
      else if name = "help".toList then .help
      else if level.knowsVersion && name = "version".toList then .version
      else .unknown

/-- Take an argument after one dash apart.  An option takes everything after
its letter, without an equals sign, as its value. -/
def readShort (level : Level) (letter : Char) (attached : Text) : Dash :=
  match level.settings.find? fun setting => setting.short? = some letter with
  | some setting =>
      match attached with
      | [] => .setting setting none
      | '=' :: value => .setting setting (some value)
      | value => .setting setting (some value)
  | none =>
      if letter = 'h' then .help
      else if level.knowsVersion && letter = 'V' then .version
      else .unknown

end Level

namespace Gathered

/-- Nothing read yet. -/
def empty : Gathered :=
  ⟨[], [], none⟩

/-- Give an option its value.  Most options are given only once. -/
def give? (gathered : Gathered) (setting : Setting) (text : Text) :
    Option Gathered :=
  let isGiven := gathered.values.any fun (other, _) => other = setting
  if isGiven && !setting.isRepeatable then none
  else
    (setting.read? text).map fun value =>
      { gathered with
        values := gathered.values ++ [(setting, value)]
        waiting := none }

/-- Add a plain argument, if one more is taken. -/
def addPlain? (gathered : Gathered) (level : Level) (text : Text) :
    Option Gathered :=
  if gathered.waiting.isNone && gathered.plain.length < level.maxPlain then
    some { gathered with plain := gathered.plain ++ [text] }
  else none

/-- Check whether an argument after one dash is the value that an option waits
for. -/
def takesNegative (gathered : Gathered) (body : Text) : Bool :=
  gathered.waiting.any Setting.allowsNegative && isUnsignedNumber body

end Gathered

/-- An argument by its shape. -/
inductive Shape
  | long (body : Text)
  | short (letter : Char) (attached : Text)
  | plain

/-- The shape of an argument.  A lone dash is plain. -/
def Shape.ofArgument : Text → Shape
  | '-' :: '-' :: body => .long body
  | '-' :: letter :: attached => .short letter attached
  | _ => .plain

/-- Read plain arguments up to the end. -/
def readPlain (level : Level) (gathered : Gathered) (arguments : List Text) :
    Ending :=
  match arguments.foldlM (fun current text => current.addPlain? level text)
      gathered with
  | some complete =>
      if complete.waiting.isNone then .complete complete else .refused
  | none => .refused

/-- Read the arguments of a level. -/
def readLevel (level : Level) (gathered : Gathered) : List Text → Ending
  | [] => if gathered.waiting.isNone then .complete gathered else .refused
  | argument :: rest =>
      let isNegative :=
        match argument with
        | '-' :: body => gathered.takesNegative body
        | _ => false
      let dash? : Option Level.Dash :=
        if isNegative then none
        else
          match Shape.ofArgument argument with
          | .long body => some (level.readLong body)
          | .short letter attached => some (level.readShort letter attached)
          | .plain => none
      if argument = ['-', '-'] then readPlain level gathered rest
      else
        match dash?, gathered.waiting with
        | none, some setting =>
            match gathered.give? setting argument with
            | some given => readLevel level given rest
            | none => .refused
        | none, none =>
            if level.commands.contains argument then
              .command argument gathered rest
            else
              match gathered.addPlain? level argument with
              | some added => readLevel level added rest
              | none => .refused
        | some _, some _ => .refused
        | some .help, none => .help
        | some .version, none => .version
        | some .unknown, none => .refused
        | some (.setting setting (some text)), none =>
            match gathered.give? setting text with
            | some given => readLevel level given rest
            | none => .refused
        | some (.setting setting none), none =>
            readLevel level { gathered with waiting := some setting } rest

end CommandLine
end GraphingCalculator
