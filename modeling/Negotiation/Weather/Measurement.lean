import Negotiation.Json.Form
import Negotiation.Json.Number
import Negotiation.Json.Printer

/-!
Weather measurements, and the JSON text that carries them. A reader takes a text with the three
numbers and nothing that contradicts it: other members are passed over without a look at what their
values mean, and a number that is given twice is refused.
-/

namespace Negotiation.Weather

/-- What a station measured. -/
structure Measurement where
  /-- Degrees Celsius. -/
  temperature : Float := 15.0
  /-- Relative humidity from 0 to 1. -/
  humidity : Float := 0.7
  /-- Hectopascal. -/
  airPressure : Float := 1019.0
  deriving DecidableEq, Inhabited

namespace Measurement

open Json

/-- The names of the numbers, in the order in which they are written. -/
def fields : List String := ["temperature", "humidity", "air_pressure"]

instance : Form Measurement where
  encode m := .obj [("temperature", encode m.temperature), ("humidity", encode m.humidity),
    ("air_pressure", encode m.airPressure)]
  decodeWith naming j := do
    let ms ← j.members? fields []
    some {
      temperature := ← Members.read naming ms "temperature"
      humidity := ← Members.read naming ms "humidity"
      airPressure := ← Members.read naming ms "air_pressure" }

/-- The text that is sent, as bytes. -/
def toBytes (m : Measurement) : List UInt8 := (compact (encode m)).toUTF8.toList

/-- The only value given under a name. -/
def given? (ms : List (String × Written)) (name : String) : Option Written :=
  match ms.filter (·.1 = name) with
  | [(_, w)] => some w
  | _ => none

/-- A number of a measurement. -/
def number? : Written → Option Float
  | .num n => n.json?.bind decode
  | _ => none

/-- The measurement that a text means. -/
def ofWritten? : Written → Option Measurement
  | .arr [t, h, p] => do some ⟨← number? t, ← number? h, ← number? p⟩
  | .obj ms => do
    let ms ← ms.mapM fun (k, w) => (textOf k).map (·, w)
    some ⟨← number? (← given? ms "temperature"), ← number? (← given? ms "humidity"),
      ← number? (← given? ms "air_pressure")⟩
  | _ => none

/-- Reads a measurement. -/
def ofBytes? (text : List UInt8) : Option Measurement := (Written.ofBytes? text).bind ofWritten?

end Measurement

end Negotiation.Weather
