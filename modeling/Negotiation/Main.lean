import Negotiation.Program

/-!
The program: reads files and random bytes, prints results. Results go to standard output, errors to
standard error.
-/

namespace Negotiation.Main

/-- The text of the help. -/
def helpText : String :=
  "Negotiate a weather measurement between local agents.\n\n" ++
  "Usage: negotiation [OPTIONS] <COMMAND>\n\n" ++
  "Commands:\n" ++
  "  run           Run the weather negotiation\n" ++
  "                  -s, --stations <N>      stations to generate without a file [default: 3]\n" ++
  "                  -t, --timeout-secs <N>  seconds to wait for a measurement\n" ++
  "  check-config  Validate a demo configuration file\n" ++
  "  keygen        Generate a base58 agent key\n" ++
  "  help          Print this message\n\n" ++
  "Options:\n" ++
  "  -c, --config <FILE>    demo configuration file [env: OEF_CONFIG]\n" ++
  "  -f, --format <FORMAT>  table or json [default: table]\n" ++
  "  -h, --help             Print help\n" ++
  "  -V, --version          Print version\n"

/-- What is wrong with the words of a command line. -/
def complaint : UsageError → String
  | .help | .version | .noArguments => ""
  | .noCommand => "a command is required"
  | .unknownCommand => "unrecognized command"
  | .unknownArgument => "unexpected argument"
  | .missingArgument => "a required argument was not given"
  | .invalidValue => "a value is missing or not valid"
  | .malformedNumber => "a value is not a number of its range"
  | .repeatedOption => "an option cannot be given more than once"
  | .superfluousValue => "an option that takes no value was given one"

/-- Why a file could not be read. -/
def reason : IO.Error → Files.Refusal
  | .noFileOrDirectory _ _ _ => .missing
  | .permissionDenied _ _ _ => .denied
  | .inappropriateType none _ _ => .directory
  | .inappropriateType (some _) _ _ => .notDirectory
  | .invalidArgument _ 22 _ => .nullCharacter
  | .invalidArgument _ _ _ => .nameTooLong
  | e => .other e.toString

/-- The bytes of a file, or why there are none. -/
def find (path : String) : IO Toml.Found := do
  try
    return .ok (← IO.FS.readBinFile path)
  catch e => return .error (reason e)

/-- Random bytes for a key. -/
def keyBytes : IO (List UInt8) := do return (← IO.getRandomBytes 32).toList

/-- The plan that is run. -/
def plan (config : Option String) (stations : Nat) : IO (Except CommandError Plan) := do
  match config with
  | some path => return Program.planOf path (← find path)
  | none =>
    let keys ← (List.range stations).mapM fun _ => keyBytes
    return .ok (Program.planFor (← keyBytes) keys)

/-- Carries a command out. -/
def perform (config : Option String) : Command → IO (Except CommandError Report)
  | .run stations timeout => do
    let start ← IO.rand 1 0xFFFFFFFF
    return (← plan config stations.toNat).bind fun p =>
      (Program.trade p timeout fun _ => start.toUInt32).map .purchase
  | .checkConfig path => do return Program.check path (← find path)
  | .keygen => do return .ok (Program.newKey (← keyBytes))

/-- Runs the program and gives its exit code. -/
def runWith (arguments : List String) : IO UInt32 := do
  match Invocation.ofArguments (← IO.getEnv "OEF_CONFIG") arguments with
  | .ok i =>
    match ← perform i.config i.command with
    | .ok report =>
      IO.print (report.text i.style)
      return 0
    | .error e =>
      IO.eprintln ("Error: " ++ e.message)
      return 1
  | .error .help =>
    IO.print helpText
    return 0
  | .error .version =>
    IO.println "negotiation 0.1.0"
    return 0
  | .error .noArguments =>
    IO.eprint helpText
    return 2
  | .error e =>
    IO.eprintln ("error: " ++ complaint e)
    return 2

end Negotiation.Main

def main (arguments : List String) : IO UInt32 := Negotiation.Main.runWith arguments
