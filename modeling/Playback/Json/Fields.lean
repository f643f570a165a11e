import Playback.Json.Value
import Playback.TextScalar

/-!
# Reading records from JSON values

A record is written as an object or as an array of its fields in their order. In an object the order is
free and unknown entries are ignored, but a field may appear only once; an array may not be longer than
the record. `Fields` is what such a value gives for each field; the readers below say what a single value
may be.
-/

namespace Playback.Json

/-- The values that a JSON value gives for the fields of a record. -/
structure Fields where
  /-- Whether the fields were given by position. -/
  positional : Bool
  value? : String → Option Json

/-- How often an entry has this name. -/
def occurrences (name : String) (entries : List (Option String × Json)) : Nat :=
  entries.countP fun entry => entry.1 == some name

/-- A value as a record with these fields. -/
def fields? (names : List String) : Json → Option Fields
  | .object entries =>
    if entries.all (·.1.isSome) && names.all (fun name => occurrences name entries ≤ 1) then
      some ⟨false, fun name => lookup name entries⟩
    else none
  | .array items =>
    if items.length ≤ names.length then
      some ⟨true, fun name => (names.zip items).lookup name⟩
    else none
  | _ => none

/-- A field that must be there. -/
def Fields.required {α : Type} (f : Fields) (name : String) (read : Json → Option α) : Option α :=
  (f.value? name).bind read

/-- A field that keeps a default where it is missing. -/
def Fields.default {α : Type} (f : Fields) (name : String) (default : α) (read : Json → Option α) :
    Option α :=
  match f.value? name with
  | none => some default
  | some value => read value

def readBool : Json → Option Bool
  | .bool b => some b
  | _ => none

def readString : Json → Option String
  | .string content => content
  | _ => none

/-- A natural number of at most so many bits, written as an integer. -/
def readNat (bits : Nat) : Json → Option Nat
  | .number n =>
    match n.toInt? with
    | some (.ofNat k) => if k < Nat.pow 2 bits then some k else none
    | _ => none
  | _ => none

def readScalar {R : Type} [TextScalar R] : Json → Option R
  | .number n => TextScalar.ofNumber? n
  | _ => none

/-- One of several names, as a string or as the only entry of an object with the value `null`. -/
def readName {α : Type} (name : α → String) (all : List α) : Json → Option α
  | .string (some s) => all.find? fun a => name a == s
  | .object [(some s, .null)] => all.find? fun a => name a == s
  | _ => none

end Playback.Json
