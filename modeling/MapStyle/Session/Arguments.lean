import MapStyle.Text.Numeral

/-!
# Command line arguments

Command line arguments of a session. An option is given by its name and a value, either apart or
joined by an equals sign; a short name may also be joined to the value directly. Only points of
interest to save may be given more than once.
-/

namespace MapStyle.Session

/-- What the command line asks for. -/
structure Arguments where
  style : Option String
  features : Option String
  icons : Option String
  config : Option String
  saved : List Int64
  out : Option String
  verbose : Bool

/-- The names of what may be given on the command line. -/
inductive OptionName where
  | style
  | features
  | icons
  | config
  | savePoi
  | out
  | verbose
deriving DecidableEq

/-- The option with a long name. -/
def OptionName.ofLong? : String → Option OptionName
  | "style" => some .style
  | "features" => some .features
  | "icons" => some .icons
  | "config" => some .config
  | "save-poi" => some .savePoi
  | "out" => some .out
  | "verbose" => some .verbose
  | _ => none

def OptionName.ofShort? : Char → Option OptionName
  | 's' => some .style
  | 'f' => some .features
  | 'i' => some .icons
  | 'c' => some .config
  | 'o' => some .out
  | 'v' => some .verbose
  | _ => none

namespace Arguments

def empty : Arguments := ⟨none, none, none, none, [], none, false⟩

def outDirectory (a : Arguments) : String :=
  a.out.getD "out"

/-- A value that is set for the first time and not empty. -/
def setOnce? (old : Option String) (value : String) : Option (Option String) :=
  if old.isSome ∨ value = "" then none else some (some value)

/-- The arguments with one more option that has a value. -/
def set? (a : Arguments) (option : OptionName) (value : String) : Option Arguments :=
  match option with
  | .style => (setOnce? a.style value).map fun style => { a with style }
  | .features => (setOnce? a.features value).map fun features => { a with features }
  | .icons => (setOnce? a.icons value).map fun icons => { a with icons }
  | .config => (setOnce? a.config value).map fun config => { a with config }
  | .out => (setOnce? a.out value).map fun out => { a with out }
  | .savePoi => (Text.readWord? value).map fun id => { a with saved := a.saved ++ [id] }
  | .verbose => none

/-- The name and value in the text after the hyphens of a long option. -/
def splitLong? (text : List Char) : Option (OptionName × Option String) :=
  let (name, rest) := text.span (· != '=')
  let value := match rest with
    | [] => none
    | _ :: value => some (String.ofList value)
  (OptionName.ofLong? (String.ofList name)).map (·, value)

/-- The name and value in the text after the hyphen of a short option. -/
def splitShort? : List Char → Option (OptionName × Option String)
  | [] => none
  | c :: rest =>
    let value := match rest with
      | [] => none
      | '=' :: value => some (String.ofList value)
      | value => some (String.ofList value)
    (OptionName.ofShort? c).map (·, value)

/-- The option that an argument names, with the value that is joined to it. -/
def split? (argument : String) : Option (OptionName × Option String) :=
  match argument.toList with
  | '-' :: '-' :: text => splitLong? text
  | '-' :: text => splitShort? text
  | _ => none

/-- Whether an argument can be the value of the option before it. -/
def isValue (argument : String) : Bool :=
  match argument.toList with
  | ['-'] => true
  | '-' :: _ => false
  | _ => true

/-- The arguments with more of them read, if they are usable. -/
def read? (a : Arguments) : List String → Option Arguments
  | [] => some a
  | argument :: rest =>
    match split? argument with
    | none => none
    | some (.verbose, none) => if a.verbose then none else read? { a with verbose := true } rest
    | some (option, some value) => (a.set? option value).bind fun a => read? a rest
    | some (option, none) =>
      match rest with
      | value :: rest =>
        if isValue value then (a.set? option value).bind fun a => read? a rest else none
      | [] => none
termination_by arguments => arguments.length

/-- The arguments of a command line, if they are usable. -/
def ofList? (arguments : List String) : Option Arguments :=
  empty.read? arguments

end Arguments

end MapStyle.Session
