import Negotiation.Market.Report

/-!
The command line of the program. Options stand before or behind a command's name, each with the
place that knows it; a value follows its option as the next word, behind `=`, or, for a short
option, directly. A value that follows as a word of its own is checked when the next known option
comes or the words end, so a word that is not known at all is reported first. Behind `--` there are
no options and no commands. The plan's file may also come from the environment.
-/

namespace Negotiation

/-- What the program is asked to do. -/
inductive Command where
  | run (stations : UInt64) (timeout : Option UInt64)
  | checkConfig (path : String)
  | keygen
  deriving DecidableEq

/-- A command with the options of all commands. -/
structure Invocation where
  /-- The file of the plan. -/
  config : Option String := none
  style : Style := .table
  command : Command
  deriving DecidableEq

/-- Why there is no command: help or the version is asked for, or the words are wrong. -/
inductive UsageError where
  | help
  | version
  | noArguments
  | noCommand
  | unknownCommand
  | unknownArgument
  | missingArgument
  | invalidValue
  | malformedNumber
  | repeatedOption
  | superfluousValue
  deriving DecidableEq

namespace CommandLine

/-- Something that is given a value. -/
inductive Slot where
  | config
  | format
  | stations
  | timeout
  | path
  deriving DecidableEq

/-- What a named argument stands for. -/
inductive Named where
  | help
  | version
  | slot (s : Slot)
  deriving DecidableEq

/-- Where an argument stands: before the command's name or behind it. -/
inductive Place where
  | top
  | run
  | checkConfig
  | keygen
  deriving DecidableEq

/-- The place that a command's name opens. -/
def Place.ofName? : String → Option Place
  | "run" => some .run
  | "check-config" => some .checkConfig
  | "keygen" => some .keygen
  | _ => none

/-- Whether a word is the name of a command. -/
def isCommand (w : String) : Bool := w = "help" || (Place.ofName? w).isSome

/-- The named arguments of a place: short letter, long name, meaning. -/
def Place.named : Place → List (Char × String × Named)
  | .top => [('h', "help", .help), ('V', "version", .version), ('c', "config", .slot .config),
      ('f', "format", .slot .format)]
  | .run => [('h', "help", .help), ('s', "stations", .slot .stations),
      ('t', "timeout-secs", .slot .timeout)]
  | .checkConfig => [('h', "help", .help)]
  | .keygen => [('h', "help", .help)]

/-- The meaning of a short letter. -/
def Place.short? (p : Place) (c : Char) : Option Named :=
  (p.named.find? fun n => n.1 = c).map fun n => n.2.2

/-- The meaning of a long name. -/
def Place.long? (p : Place) (name : String) : Option Named :=
  (p.named.find? fun n => n.2.1 = name).map fun n => n.2.2

/-- A decimal number of 64 bits, perhaps behind a plus sign. -/
def number? (w : String) : Option UInt64 :=
  let ds := match w.toList with
    | '+' :: r => r
    | r => r
  if ds.isEmpty ∨ ds.any (!·.isDigit) then none
  else
    let n := Text.numberOf 10 (ds.map fun c => c.toNat - 48)
    if n < UInt64.size then some n.toUInt64 else none

/-- The style of a name. -/
def style? : String → Option Style
  | "table" => some .table
  | "json" => some .json
  | _ => none

/-- Refuses a value that does not fit. -/
def Slot.check (s : Slot) (value : String) : Except UsageError Unit :=
  match s with
  | .config | .path => if value = "" then .error .invalidValue else .ok ()
  | .format => if (style? value).isNone then .error .invalidValue else .ok ()
  | .stations | .timeout => if (number? value).isNone then .error .malformedNumber else .ok ()

/-- What was read: values that were checked, and a slot whose value is awaited or not yet checked. -/
structure Reading where
  values : List (Slot × String) := []
  pending : Option (Slot × Option String) := none
  /-- Options have ended. -/
  trailing : Bool := false
  deriving DecidableEq

namespace Reading

/-- The value of a slot. -/
def value? (r : Reading) (s : Slot) : Option String := r.values.lookup s

/-- Gives a slot its value. -/
def give (r : Reading) (s : Slot) (value : String) : Except UsageError Reading := do
  if (r.value? s).isSome then .error .repeatedOption
  s.check value
  .ok { r with values := (s, value) :: r.values }

/-- Checks what is pending. -/
def resolve (r : Reading) : Except UsageError Reading :=
  match r.pending with
  | none => .ok r
  | some (_, none) => .error .invalidValue
  | some (s, some value) => give { r with pending := none } s value

/-- The slot whose value must follow. -/
def awaited (r : Reading) : Option Slot :=
  match r.pending with
  | some (s, none) => if r.trailing then none else some s
  | _ => none

/-- A named argument, perhaps with a value attached. -/
def named (r : Reading) (n : Named) (attached : Option String) : Except UsageError Reading := do
  let r ← r.resolve
  match n, attached with
  | .help, _ => .error .help
  | .version, _ => .error .version
  | .slot s, some value => r.give s value
  | .slot s, none => .ok { r with pending := some (s, none) }

/-- A word that is neither an option nor an awaited value. -/
def bare (r : Reading) (p : Place) (w : String) : Except UsageError Reading :=
  let pathGiven := (r.value? .path).isSome ∨ r.pending.any (·.1 = .path)
  match p with
  | .checkConfig =>
    if pathGiven then .error .unknownArgument
    else do
      let r ← r.resolve
      .ok { r with pending := some (.path, some w) }
  | .top => .error (if r.trailing ∧ isCommand w then .unknownArgument else .unknownCommand)
  | _ => .error .unknownArgument

/-- A long option, without its dashes. -/
def long (r : Reading) (p : Place) (body : List Char) : Except UsageError Reading :=
  let name := String.ofList (body.takeWhile (· ≠ '='))
  let attached := match body.dropWhile (· ≠ '=') with
    | _ :: value => some (String.ofList value)
    | [] => none
  match p.long? name, attached with
  | none, _ => .error .unknownArgument
  | some (.slot s), _ => r.named (.slot s) attached
  | some _, some _ => .error .superfluousValue
  | some n, none => r.named n none

/-- A short option with what follows it in the word. -/
def short (r : Reading) (p : Place) (c : Char) (rest : List Char) : Except UsageError Reading :=
  match p.short? c with
  | none => .error .unknownArgument
  | some n =>
    r.named n <|
      match rest with
      | [] => none
      | '=' :: value => some (String.ofList value)
      | value => some (String.ofList value)

/-- One word of a place. -/
def word (r : Reading) (p : Place) (w : String) : Except UsageError Reading :=
  if r.trailing then r.bare p w
  else
    match w.toList with
    | ['-', '-'] => .ok { r with trailing := true }
    | '-' :: '-' :: body => r.long p body
    | '-' :: c :: rest => r.short p c rest
    | _ =>
      match r.awaited with
      | some s => .ok { r with pending := some (s, some w) }
      | none => r.bare p w

end Reading

/-- Reads all words of a command. -/
def readWords (p : Place) (ws : List String) : Except UsageError Reading := do
  (← ws.foldlM (fun r w => r.word p w) ({} : Reading)).resolve

/-- Reads the command of a name from the words behind it. -/
def readCommand (name : String) (ws : List String) : Except UsageError Command :=
  match Place.ofName? name with
  | none =>
    .error <|
      match ws with
      | [] => .help
      | [w] => if isCommand w then .help else .unknownCommand
      | _ => .unknownCommand
  | some p => do
    let r ← readWords p ws
    match p with
    | .run => .ok (.run (((r.value? .stations).bind number?).getD 3) ((r.value? .timeout).bind number?))
    | .checkConfig =>
      match r.value? .path with
      | some path => .ok (.checkConfig path)
      | none => .error .missingArgument
    | _ => .ok .keygen

/-- Checks what is pending and takes the plan's file from the environment unless it was given. -/
def Reading.finish (r : Reading) (environment : Option String) : Except UsageError Reading := do
  let r ← r.resolve
  match r.value? .config, environment with
  | none, some path => r.give .config path
  | _, _ => .ok r

/-- Reads words up to the command's name, and then the command. -/
def readFrom (environment : Option String) (r : Reading) : List String → Except UsageError Invocation
  | [] => do
    let r ← r.finish environment
    .error (if r.values.isEmpty then .noArguments else .noCommand)
  | w :: ws =>
    if ¬ r.trailing ∧ r.awaited.isNone ∧ isCommand w then do
      let command ← readCommand w ws
      let r ← r.finish environment
      .ok {
        config := r.value? .config
        style := ((r.value? .format).bind style?).getD .table
        command }
    else do
      readFrom environment (← r.word .top w) ws

end CommandLine

/-- Reads a command line. The environment may name the plan's file. -/
def Invocation.ofArguments (environment : Option String) (arguments : List String) :
    Except UsageError Invocation :=
  CommandLine.readFrom environment {} arguments

end Negotiation
