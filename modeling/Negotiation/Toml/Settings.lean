import Negotiation.Files
import Negotiation.Forms.Dialogue
import Negotiation.Toml.Document

/-!
Settings kept in TOML. A document is read through the JSON form of the settings' type. Whoever looked
for a file says what was found: its bytes, or why it has none.
-/

namespace Negotiation

namespace Toml

/-- The bytes of a file, or why it cannot be read. -/
abbrev Found := Except Files.Refusal ByteArray

/-- Why there are no settings. -/
inductive ReadError where
  | unreadable (path : String) (reason : Files.Refusal)
  | malformed
  deriving DecidableEq

/-- The wording of a read error. -/
def ReadError.message : ReadError → String
  | .unreadable path reason => "failed to read config file '" ++ path ++ "': " ++ reason.message
  | .malformed => "invalid TOML"

/-- Reads settings from a text. -/
def read {α : Type} [Json.Form α] (text : String) : Except ReadError α :=
  match (parse? text).bind Json.decode with
  | some a => .ok a
  | none => .error .malformed

/-- The text of a file. -/
def textOf (path : String) (found : Found) : Except ReadError String :=
  (Files.text found).mapError (.unreadable path)

end Toml

namespace Limits

/-- Reads limits from a text and refuses those under which an engine cannot run. -/
def ofText (text : String) : Except Failure Limits := do
  let limits : Limits ← (Toml.read text).mapError fun e => .settings e.message
  limits.validate
  .ok limits

/-- Reads limits from a file. -/
def ofFile (path : String) (found : Toml.Found) : Except Failure Limits := do
  ofText (← (Toml.textOf path found).mapError fun e => .settings e.message)

end Limits

end Negotiation
