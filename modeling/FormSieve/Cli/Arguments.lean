import FormSieve.Submission.PageLimit

/-!
# Command lines

What a command line asks for. There are two commands, each with two settings; a setting is
given once, its value behind an equal sign or as the next argument. A value that is an argument
of its own is judged only when the next setting begins or the line ends, so an unknown argument
behind it is reported first.
-/

namespace FormSieve.Cli

inductive Command where
  /-- Starts the server. -/
  | serve (config : Option String) (service : Option UInt16)
  /-- Filters one page. -/
  | filter (filters : String) (limit : Option UInt64)
deriving DecidableEq, Repr

/-- Why a command line is not carried out. -/
inductive Usage where
  | help
  | version
  /-- Nothing is asked for. -/
  | nothing
  | unknownCommand
  | unknownArgument
  | valueMissing
  | valueInvalid
  /-- A value is given where there can be none. -/
  | valueNeedless
  | settingRepeated
  | settingMissing
deriving DecidableEq, Repr

/-- Asking for help or for the version is no failure. -/
def Usage.exitCode : Usage → Nat
  | help | version => 0
  | _ => 2

/-! ## Settings -/

inductive Setting where
  | config
  | service
  | filters
  | limit
deriving DecidableEq, Repr

namespace Setting

def name : Setting → String
  | config => "config"
  | service => "port"
  | filters => "filters"
  | limit => "limit"

/-- A number of 16 bits, with a sign if one likes. -/
def service? (s : String) : Option UInt16 :=
  let small (digits : List Char) (limit : Nat) : Option UInt16 :=
    if digits.isEmpty || !digits.all Char.isDigit then none
    else
      let n := Nat.ofDigitChars 10 digits 0
      if n < limit then some (UInt16.ofNat n) else none
  match s.toList with
  | '-' :: digits => small digits 1
  | '+' :: digits => small digits (2 ^ 16)
  | digits => small digits (2 ^ 16)

/-- A number of 64 bits, with a plus sign if one likes. -/
def limit? (s : String) : Option UInt64 := PageLimit.unsigned? s.toList

/-- What is wrong with a value. -/
def flaw? (setting : Setting) (value : String) : Option Usage :=
  match setting with
  | config => if value.isEmpty then some .valueMissing else none
  | service => if (service? value).isNone then some .valueInvalid else none
  | filters => none
  | limit => if (limit? value).isNone then some .valueInvalid else none

end Setting

/-- Settings with their values. -/
abbrev Settings := List (Setting × String)

namespace Settings

def valueOf? (settings : Settings) (setting : Setting) : Option String :=
  (List.find? (fun s => s.1 = setting) settings).map (·.2)

/-- Adds a setting. That there is a value is asked first, then that the setting is new, and
then that the value is valid. -/
def add (settings : Settings) (setting : Setting) (value : Option String) :
    Except Usage Settings :=
  match value with
  | none => .error .valueMissing
  | some value =>
    if (settings.valueOf? setting).isSome then .error .settingRepeated
    else
      match setting.flaw? value with
      | some usage => .error usage
      | none => .ok ((setting, value) :: settings)

end Settings

/-! ## Reading settings -/

/-- A setting that has been begun, with its value if that has been seen. -/
abbrev Pending := Option (Setting × Option String)

/-- Adds a setting that has been begun. -/
def settle (settings : Settings) (pending : Pending) : Except Usage Settings :=
  match pending with
  | none => .ok settings
  | some (setting, value) => settings.add setting value

/-- What an argument is, apart from the value of a setting. -/
inductive Shape where
  /-- Two hyphens alone: no settings follow. -/
  | divider
  /-- A name behind two hyphens, with what stands behind an equal sign. -/
  | long (name : String) (value : Option String)
  /-- Letters behind one hyphen. -/
  | short (letters : List Char)
  | word
deriving DecidableEq, Repr

/-- A single hyphen is a word. -/
def Shape.of (argument : String) : Shape :=
  match argument.toList with
  | '-' :: '-' :: [] => .divider
  | '-' :: '-' :: rest =>
    let name := String.ofList (rest.takeWhile (· ≠ '='))
    match rest.dropWhile (· ≠ '=') with
    | [] => .long name none
    | _ :: value => .long name (some (String.ofList value))
  | '-' :: c :: rest => .short (c :: rest)
  | _ => .word

/-- Reads the settings of a command that knows those in `known`. -/
def readSettings (known : List Setting) (settings : Settings) (pending : Pending) :
    List String → Except Usage Settings
  | [] => settle settings pending
  | argument :: rest =>
    match Shape.of argument with
    | .divider =>
      -- Neither command takes anything but settings.
      if rest.isEmpty then settle settings pending else .error .unknownArgument
    | .long name value =>
      if name = "help" then
        match value with
        | some _ => .error .valueNeedless
        | none =>
          match settle settings pending with
          | .error usage => .error usage
          | .ok _ => .error .help
      else
        match known.find? (·.name = name) with
        | none => .error .unknownArgument
        | some setting =>
          match settle settings pending with
          | .error usage => .error usage
          | .ok settings =>
            match value with
            | none => readSettings known settings (some (setting, none)) rest
            | some value =>
              match settings.add setting (some value) with
              | .error usage => .error usage
              | .ok settings => readSettings known settings none rest
    | .short letters =>
      if letters.head? = some 'h' then
        match settle settings pending with
        | .error usage => .error usage
        | .ok _ => .error .help
      else .error .unknownArgument
    | .word =>
      match pending with
      | some (setting, none) => readSettings known settings (some (setting, some argument)) rest
      | _ => .error .unknownArgument

/-! ## Commands -/

/-- The arguments of the command that starts the server. -/
def readServe (arguments : List String) : Except Usage Command :=
  (readSettings [.config, .service] [] none arguments).map fun settings =>
    .serve (settings.valueOf? .config) ((settings.valueOf? .service).bind Setting.service?)

/-- The arguments of the command that filters a page. The filters must be given. -/
def readFilter (arguments : List String) : Except Usage Command :=
  match readSettings [.filters, .limit] [] none arguments with
  | .error usage => .error usage
  | .ok settings =>
    match settings.valueOf? .filters with
    | none => .error .settingMissing
    | some filters => .ok (.filter filters ((settings.valueOf? .limit).bind Setting.limit?))

/-- The names of the commands. Help can be asked for by a command of its own. -/
def serveName : String := "serve"

def filterName : String := "filter"

def helpName : String := "help"

def isCommandName (s : String) : Bool := s = serveName || s = filterName || s = helpName

/-- Help is given on at most one command. -/
def readHelp (topics : List String) : Usage :=
  match topics with
  | [] => .help
  | [topic] => if isCommandName topic then .help else .unknownCommand
  | _ => .unknownCommand

/-- Reads a command line, without the name of the program. -/
def readArguments (arguments : List String) : Except Usage Command :=
  match arguments with
  | [] => .error .nothing
  | argument :: rest =>
    if argument = serveName then readServe rest
    else if argument = filterName then readFilter rest
    else if argument = helpName then .error (readHelp rest)
    else
      match Shape.of argument with
      | .divider =>
        match rest with
        | [] => .error .nothing
        | word :: _ =>
          if isCommandName word then .error .unknownArgument else .error .unknownCommand
      | .long name value =>
        if name = "help" ∨ name = "version" then
          if value.isSome then .error .valueNeedless
          else .error (if name = "help" then .help else .version)
        else .error .unknownArgument
      | .short letters =>
        match letters.head? with
        | some 'h' => .error .help
        | some 'V' => .error .version
        | _ => .error .unknownArgument
      | .word => .error .unknownCommand

end FormSieve.Cli
