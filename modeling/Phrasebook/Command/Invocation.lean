import Phrasebook.Command.Substitution

/-!
# Command Lines

Reading the arguments of a command line: options anywhere, a command, and the command's own arguments.
Arguments are read in order, and the first one that makes no sense, or asks for help, decides. What is
missing is noticed at the end.
-/

namespace Phrasebook.Command

/-- Why there is nothing to do. -/
inductive Usage where
  /-- Help or the version was asked for. -/
  | asked
  /-- The arguments make no sense. -/
  | wrong
deriving DecidableEq, Repr

def Usage.exitCode : Usage → Nat
  | asked => 0
  | wrong => 2

structure OptionRule where
  name : String
  letter : Option Char := none
  /-- Whether a value follows. -/
  takesValue : Bool := false
  /-- Whether the value may be empty. -/
  allowsEmpty : Bool := false
deriving DecidableEq, Repr

structure Rules where
  options : List OptionRule
  /-- Whether a positional argument may follow so many others. -/
  accepts : Nat → String → Bool

/-- The arguments of a command as far as they were read. -/
structure Parsed where
  verbosity : Nat := 0
  /-- Options that were given, with their values. -/
  options : List (String × String) := []
  positionals : List String := []
deriving DecidableEq, Repr

/-- Options that wait for nothing, or for the value that is the next argument. -/
inductive Pending where
  | settled (parsed : Parsed)
  | awaiting (rule : OptionRule) (parsed : Parsed)
deriving DecidableEq, Repr

namespace Parsed

def has (parsed : Parsed) (name : String) : Bool := (parsed.options.lookup name).isSome

/-- Takes an option. No option is given twice. -/
def option (parsed : Parsed) (rule : OptionRule) (value : String) : Except Usage Parsed :=
  if parsed.has rule.name || (rule.takesValue && value.isEmpty && !rule.allowsEmpty) then
    .error .wrong
  else .ok { parsed with options := parsed.options ++ [(rule.name, value)] }

def positional (rules : Rules) (parsed : Parsed) (argument : String) : Except Usage Parsed :=
  if rules.accepts parsed.positionals.length argument then
    .ok { parsed with positionals := parsed.positionals ++ [argument] }
  else .error .wrong

def louder (parsed : Parsed) : Parsed := { parsed with verbosity := parsed.verbosity + 1 }

/-- Takes a long option, given without its hyphens. -/
def long (rules : Rules) (parsed : Parsed) (argument : List Char) : Except Usage Pending :=
  let name := String.ofList (argument.takeWhile (· ≠ '='))
  let value? := match argument.dropWhile (· ≠ '=') with
    | _ :: value => some (String.ofList value)
    | [] => none
  match rules.options.find? (·.name = name), value? with
  | some rule, none =>
    if rule.takesValue then
      if parsed.has rule.name then .error .wrong else .ok (.awaiting rule parsed)
    else (parsed.option rule "").map .settled
  | some rule, some value =>
    if rule.takesValue then (parsed.option rule value).map .settled else .error .wrong
  | none, none =>
    if name = "verbose" then .ok (.settled parsed.louder)
    else if name = "help" then .error .asked
    else .error .wrong
  | none, some _ => .error .wrong

def short (rules : Rules) (parsed : Parsed) : List Char → Except Usage Pending
  | [] => .ok (.settled parsed)
  | c :: rest =>
    match rules.options.find? (·.letter = some c) with
    | some rule =>
      if rule.takesValue then
        match rest with
        | [] => if parsed.has rule.name then .error .wrong else .ok (.awaiting rule parsed)
        | '=' :: value => (parsed.option rule (String.ofList value)).map .settled
        | value => (parsed.option rule (String.ofList value)).map .settled
      else
        match parsed.option rule "" with
        | .ok parsed => parsed.short rules rest
        | .error usage => .error usage
    | none =>
      if c = 'v' then parsed.louder.short rules rest
      else if c = 'h' then .error .asked
      else .error .wrong

/-- Takes the arguments of a command; all of them are positional if `escaped`. -/
def arguments (rules : Rules) (escaped : Bool) : Pending → List String → Except Usage Parsed
  | .settled parsed, [] => .ok parsed
  | .awaiting _ _, [] => .error .wrong
  | .awaiting rule parsed, argument :: rest =>
    if argument.startsWith "-" && argument ≠ "-" then .error .wrong
    else match parsed.option rule argument with
      | .ok parsed => arguments rules escaped (.settled parsed) rest
      | .error usage => .error usage
  | .settled parsed, argument :: rest =>
    let next : Except Usage Pending :=
      match escaped, argument.toList with
      | false, '-' :: '-' :: name => if name.isEmpty then .ok (.settled parsed)
        else parsed.long rules name
      | false, '-' :: c :: letters => parsed.short rules (c :: letters)
      | _, _ => (parsed.positional rules argument).map .settled
    match next with
    | .ok pending => arguments rules (escaped || argument = "--") pending rest
    | .error usage => .error usage

end Parsed

inductive Name where
  | check
  | render
  | normalize
  | hash
deriving DecidableEq, Repr

namespace Name

def ofString? (name : String) : Option Name :=
  if name = "check" then some check
  else if name = "render" then some render
  else if name = "normalize" then some normalize
  else if name = "hash" then some hash
  else none

/-- What a command accepts. Names of files are not empty. -/
def rules : Name → Rules
  | check =>
    { options := [{ name := "allow-reserved" }, { name := "stale-hashes" }]
      accepts := fun _ argument => !argument.isEmpty }
  | render =>
    { options := [{ name := "strict" }, { name := "locale", takesValue := true, allowsEmpty := true }]
      accepts := fun position argument =>
        match position with
        | 0 => !argument.isEmpty
        | 1 => true
        | _ => (parsePair argument).isOk }
  | normalize =>
    { options :=
        [{ name := "output", letter := some 'o', takesValue := true }, { name := "keep-timestamp" }]
      accepts := fun position argument => position = 0 && !argument.isEmpty }
  | hash =>
    { options := [{ name := "file", takesValue := true }], accepts := fun _ _ => true }

def command (name : Name) (parsed : Parsed) : Except Usage Command :=
  match name, parsed.positionals with
  | check, [] => .error .wrong
  | check, files => .ok (.check files (parsed.has "allow-reserved") (parsed.has "stale-hashes"))
  | render, file :: key :: pairs =>
    let pairs := pairs.filterMap fun pair => (parsePair pair).toOption
    .ok (.render file key pairs (parsed.has "strict") (parsed.options.lookup "locale"))
  | render, _ => .error .wrong
  | normalize, [input] =>
    .ok (.normalize input (parsed.options.lookup "output") (parsed.has "keep-timestamp"))
  | normalize, _ => .error .wrong
  | hash, texts =>
    if parsed.has "file" && !texts.isEmpty then .error .wrong
    else .ok (.hash texts (parsed.options.lookup "file"))

end Name

/-- Help on something: on the whole, on a command, or on help itself. -/
def help : List String → Usage
  | [] => .asked
  | [topic] => if topic = "help" || (Name.ofString? topic).isSome then .asked else .wrong
  | _ => .wrong

/-- Counts the letters of short options in front of a command. -/
def leadingLetters (verbosity : Nat) : List Char → Except Usage Nat
  | [] => .ok verbosity
  | c :: rest =>
    if c = 'v' then leadingLetters (verbosity + 1) rest
    else if c = 'h' || c = 'V' then .error .asked
    else .error .wrong

/-- Reads arguments up to the command and then the command's. How much is to be said is decided by
the options behind the command, if there are any. -/
def leading (verbosity : Nat) : List String → Except Usage Invocation
  | [] => .error .wrong
  | argument :: rest =>
    if argument = "--verbose" then leading (verbosity + 1) rest
    else if argument = "--help" || argument = "--version" then .error .asked
    else if argument = "help" then .error (help rest)
    else match argument.toList with
      | '-' :: '-' :: _ => .error .wrong
      | '-' :: c :: letters =>
        match leadingLetters verbosity (c :: letters) with
        | .ok verbosity => leading verbosity rest
        | .error usage => .error usage
      | _ =>
        match Name.ofString? argument with
        | none => .error .wrong
        | some name => do
          let parsed ← Parsed.arguments name.rules false (.settled {}) rest
          let command ← name.command parsed
          return ⟨if parsed.verbosity = 0 then verbosity else parsed.verbosity, command⟩

/-- Reads the arguments of a command line, the name of the program aside. -/
def Invocation.parse (arguments : List String) : Except Usage Invocation := leading 0 arguments

end Phrasebook.Command
