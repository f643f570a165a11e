import Playback.Decimal.Layout
import Playback.Json.Number
import Playback.Scalar

/-!
# Scalars with texts

Configurations, snapshots and messages show scalars. `TextScalar` adds the four texts that are needed and
leaves their digits to the type; for doubles they are the shortest decimals that read back.
-/

namespace Playback

/-- Scalars that can be shown and read. -/
class TextScalar (R : Type) extends Scalar R where
  /-- The text in an error message. -/
  plain : R → String
  /-- The text in a description of an object. -/
  debug : R → String
  /-- The JSON number of the value; `none` if JSON has none for it. -/
  toNumber? : R → Option Json.Number
  /-- The value of a JSON number; `none` if it is out of range. -/
  ofNumber? : Json.Number → Option R

instance : TextScalar Float where
  plain := Decimal.Layout.plain.writeDouble
  debug := Decimal.Layout.debug.writeDouble
  toNumber? := Json.Number.ofDouble?
  ofNumber? := Json.Number.toDouble?

namespace Json

/-- A scalar as a JSON value; what has no number is `null`. -/
def ofScalar {R : Type} [TextScalar R] (x : R) : Json :=
  match TextScalar.toNumber? x with
  | some n => .number n
  | none => .null

end Json
end Playback
