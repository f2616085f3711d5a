import PolicyPages.Path

/-!
# Command line arguments

Words are read from left to right. An option takes its value from the next word or after an equals
sign; the next word is no value if it begins with `-` and is longer. Only the option for source roots
may be repeated. A request for help or for the version ends reading, and so does the first word that
is wrong. Nothing may follow `--`.
-/

namespace PolicyPages.CommandLine

/-- An option, which takes a path as its value. -/
inductive CommandOption where
  | out
  | root
  | settings
  | annotations
deriving DecidableEq, Repr

namespace CommandOption

/-- All options. -/
def all : List CommandOption := [out, root, settings, annotations]

/-- The name of an option, which stands after `--`. -/
def name : CommandOption → String
  | out => "adoc"
  | root => "rego"
  | settings => "config"
  | annotations => "annotations-json"

/-- The option of a name. -/
def ofName? (name : String) : Option CommandOption :=
  all.find? (·.name == name)

end CommandOption

/-- What a run of the generator is told: the directory of the pages, the source roots, the settings
file and the file for the list of annotations. -/
structure Arguments where
  out : Path
  roots : List Path
  settings : Option Path
  annotations : Option Path
deriving DecidableEq

/-- What the command line asks for. -/
inductive Command where
  | generate (arguments : Arguments)
  | help
  | version
deriving DecidableEq

/-- Why a command line is refused. -/
inductive UsageError where
  | unknownOption (word : String)
  | unexpectedWord (word : String)
  | noValue (option : CommandOption)
  /-- A value that names no path. -/
  | emptyValue (option : CommandOption)
  | repeated (option : CommandOption)
  /-- A value for an option that takes none. -/
  | needlessValue (word : String)
  | missing (option : CommandOption)
deriving DecidableEq, Repr

/-- The text of a refusal. -/
def UsageError.message : UsageError → String
  | unknownOption word => "unknown option '" ++ word ++ "'"
  | unexpectedWord word => "unexpected argument '" ++ word ++ "'"
  | noValue option => "option '--" ++ option.name ++ "' needs a value"
  | emptyValue option => "option '--" ++ option.name ++ "' needs a value that is not empty"
  | repeated option => "option '--" ++ option.name ++ "' is given more than once"
  | needlessValue word => "'" ++ word ++ "' takes no value"
  | missing option => "option '--" ++ option.name ++ "' is missing"

/-- The values of options that have been read. -/
structure Draft where
  out : Option Path
  roots : List Path
  settings : Option Path
  annotations : Option Path

namespace Draft

/-- No option has been read. -/
def empty : Draft := ⟨none, [], none, none⟩

/-- Adds the value of an option. -/
def add (draft : Draft) (option : CommandOption) (value : String) : Except UsageError Draft :=
  let path := Path.ofText value
  if value.isEmpty then .error (.emptyValue option)
  else
    match option with
    | .root => .ok { draft with roots := draft.roots ++ [path] }
    | .out => if draft.out.isSome then .error (.repeated option) else .ok { draft with out := path }
    | .settings =>
      if draft.settings.isSome then .error (.repeated option)
      else .ok { draft with settings := path }
    | .annotations =>
      if draft.annotations.isSome then .error (.repeated option)
      else .ok { draft with annotations := path }

/-- The arguments, if nothing is missing. -/
def arguments (draft : Draft) : Except UsageError Arguments :=
  match draft.out, draft.roots with
  | none, _ => .error (.missing .out)
  | _, [] => .error (.missing .root)
  | some out, roots => .ok ⟨out, roots, draft.settings, draft.annotations⟩

end Draft

/-- A word of a command line. -/
inductive Word where
  /-- An option with its name, and with a value after an equals sign. -/
  | option (name : String) (value : Option String)
  /-- The letters after a single `-`. -/
  | letters (first : Char) (rest : List Char)
  /-- The end of the options. -/
  | finish
  | other
deriving DecidableEq, Repr

/-- The word of a text. -/
def Word.ofText (text : String) : Word :=
  match text.toList with
  | ['-', '-'] => finish
  | '-' :: '-' :: rest =>
    let name := rest.takeWhile (· ≠ '=')
    match rest.drop name.length with
    | _ :: value => option (String.ofList name) (some (String.ofList value))
    | [] => option (String.ofList name) none
  | '-' :: first :: rest => letters first rest
  | _ => other

/-- Whether a word can be the value of the option before it. -/
def isValue (text : String) : Bool :=
  Word.ofText text = .other

/-- The request that an option stands for, if it takes no value. -/
def requestOfName? (name : String) : Option Command :=
  if name == "help" then some .help else if name == "version" then some .version else none

/-- The request that a letter stands for. -/
def requestOfLetter? (letter : Char) : Option Command :=
  if letter = 'h' then some .help else if letter = 'V' then some .version else none

/-- Reads the words after those that gave a draft. -/
def readFrom (draft : Draft) : List String → Except UsageError Command
  | [] => draft.arguments.map .generate
  | text :: rest =>
    match Word.ofText text with
    | .finish =>
      match rest with
      | [] => draft.arguments.map .generate
      | next :: _ => .error (.unexpectedWord next)
    | .letters first _ =>
      match requestOfLetter? first with
      | some request => .ok request
      | none => .error (.unknownOption text)
    | .other => .error (.unexpectedWord text)
    | .option name value =>
      match requestOfName? name, CommandOption.ofName? name, value with
      | some request, _, none => .ok request
      | some _, _, some _ => .error (.needlessValue text)
      | none, none, _ => .error (.unknownOption text)
      | none, some option, some value =>
        match draft.add option value with
        | .ok draft => readFrom draft rest
        | .error error => .error error
      | none, some option, none =>
        match rest with
        | [] => .error (.noValue option)
        | next :: rest =>
          if isValue next then
            match draft.add option next with
            | .ok draft => readFrom draft rest
            | .error error => .error error
          else .error (.noValue option)

/-- Reads a command line. -/
def Command.ofWords (words : List String) : Except UsageError Command :=
  readFrom .empty words

end PolicyPages.CommandLine
