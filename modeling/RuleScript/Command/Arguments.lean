/-!
The arguments of the command: the name of a script and two settings that take a value each. A
setting may have its value behind a `=` or as the next argument, the short form also right behind
its letter, and each may be given once. `--` ends the options, and `-` alone is an ordinary
argument.

Arguments are taken from left to right, and what ends the command, an error or a request for help or
for the version, does so as soon as it is reached. A setting that lacks its value is an error
whatever option comes next.
-/

namespace RuleScript.Command

/-- What the command is asked to do. -/
structure Arguments where
  script : String
  /-- Where the rendered text goes, if not to the standard output. -/
  output : Option String
  /-- Where the table is exported to. -/
  rulesJson : Option String
deriving DecidableEq, Repr

/-- Why the arguments ask for no run. -/
inductive Stop where
  | help
  | version
  | usageError
deriving DecidableEq, Repr

/-! ### Single arguments -/

/-- What one argument can be. -/
inductive Token where
  /-- The end of the options. -/
  | dashes
  /-- A long option, and the value behind its `=`, if there is one. -/
  | long (name : String) (value : Option String)
  /-- The letters behind a dash. -/
  | short (letters : List Char)
  | plain (text : String)
deriving DecidableEq, Repr

/-- A long option without its dashes. -/
def Token.ofLong (text : List Char) : Token :=
  let name := String.ofList (text.takeWhile (· ≠ '='))
  match text.dropWhile (· ≠ '=') with
  | [] => .long name none
  | _ :: value => .long name (some (String.ofList value))

/-- Tells what an argument is. -/
def Token.ofArgument (argument : String) : Token :=
  match argument.toList with
  | ['-', '-'] => .dashes
  | '-' :: '-' :: text => ofLong text
  | '-' :: first :: letters => .short (first :: letters)
  | _ => .plain argument

/-! ### All arguments -/

/-- The settings that take a value. -/
inductive Setting where
  | output
  | rulesJson
deriving DecidableEq, Repr

/-- What has been read of the arguments. -/
structure Reading where
  script : Option String
  output : Option String
  rulesJson : Option String
deriving DecidableEq, Repr

namespace Reading

/-- Nothing has been read. -/
def none : Reading := ⟨.none, .none, .none⟩

/-- Gives a setting its value, which it must not have yet. -/
def set (r : Reading) (setting : Setting) (value : String) : Except Stop Reading :=
  match setting with
  | .output =>
    if r.output.isNone then .ok ⟨r.script, value, r.rulesJson⟩ else .error .usageError
  | .rulesJson =>
    if r.rulesJson.isNone then .ok ⟨r.script, r.output, value⟩ else .error .usageError

/-- Takes the name of the script, which must not be known yet. -/
def setScript (r : Reading) (name : String) : Except Stop Reading :=
  if r.script.isNone then .ok ⟨name, r.output, r.rulesJson⟩ else .error .usageError

/-- What has been read, if it is enough. -/
def finish (r : Reading) : Except Stop Arguments :=
  match r.script with
  | some script => .ok ⟨script, r.output, r.rulesJson⟩
  | .none => .error .usageError

/-- Takes an option; gives the setting whose value must come next, if one must. -/
def option (r : Reading) : Token → Except Stop (Reading × Option Setting)
  | .long "output" (some value) => (r.set .output value).map (·, .none)
  | .long "output" .none => .ok (r, some .output)
  | .long "rules-json" (some value) => (r.set .rulesJson value).map (·, .none)
  | .long "rules-json" .none => .ok (r, some .rulesJson)
  | .long "version" .none => .error .version
  | .long "help" .none => .error .help
  | .short ['o'] => .ok (r, some .output)
  | .short ('o' :: '=' :: value) => (r.set .output (String.ofList value)).map (·, .none)
  | .short ('o' :: value) => (r.set .output (String.ofList value)).map (·, .none)
  | .short ('V' :: _) => .error .version
  | .short ('h' :: _) => .error .help
  | _ => .error .usageError

/-- Takes the arguments behind the end of the options. -/
def plainArguments (r : Reading) : List String → Except Stop Arguments
  | [] => r.finish
  | argument :: rest => do (← r.setScript argument).plainArguments rest

/-- Takes the arguments; `pending` is the setting whose value must come next. -/
def arguments (r : Reading) (pending : Option Setting) : List String → Except Stop Arguments
  | [] => if pending.isSome then .error .usageError else r.finish
  | argument :: rest =>
    match Token.ofArgument argument, pending with
    | .plain text, some setting => do (← r.set setting text).arguments .none rest
    | .plain text, .none => do (← r.setScript text).arguments .none rest
    | _, some _ => .error .usageError
    | .dashes, .none => r.plainArguments rest
    | token, .none => do
      let (r, pending) ← r.option token
      r.arguments pending rest

end Reading

/-- Reads the arguments of the command. -/
def Arguments.ofList (arguments : List String) : Except Stop Arguments :=
  Reading.none.arguments none arguments

end RuleScript.Command
