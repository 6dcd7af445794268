import ContentIndex.Calendar.Reading
import ContentIndex.Json.Record

/-
  A custom field's value with every typed reading of it that applies: integer, real number, switch,
  date and time. A reading that does not apply is absent. `MetaValue.project` reads the stored
  text without the blanks around it and keeps the text itself as it is.
-/

namespace ContentIndex

open Calendar (Moment timeOfDay?)
open Json (Value Reader)
open Number (Double int64? real?)
open Text (trim lower twoDigits)

/-- One value of a custom field. -/
structure MetaValue where
  value : String := ""
  raw : String := ""
  long : Option Int64 := none
  double : Option Double := none
  boolean : Option Bool := none
  date : Option String := none
  datetime : Option String := none
  time : Option String := none
deriving DecidableEq, Repr

namespace MetaValue

/-- The integer and the real number that a text writes. The integer part of a finite real number
is its integer, cut to 64 bits. -/
def numbers (s : String) : Option Int64 × Option Double :=
  match int64? s with
  | some n => (some n, some (Double.ofInt n.toInt))
  | none =>
    match real? s with
    | some x => if x.isFinite then (some x.toInt64, some x) else (none, none)
    | none => (none, none)

/-- The switch that a word names; a number is on unless it is zero, and the empty text is off. -/
def switch (s : String) (number : Option Double) : Option Bool :=
  match lower s with
  | "true" | "yes" | "on" => some true
  | "false" | "no" | "off" | "" => some false
  | _ => number.map (! ·.isZero)

/-- The text of a time of day. -/
def timeText (h m s : Nat) : String :=
  String.ofList (twoDigits h ++ ':' :: twoDigits m ++ ':' :: twoDigits s)

/-- All readings of a stored text. -/
def project (raw : String) : MetaValue :=
  let s := trim raw
  let (long, double) := numbers s
  let known : MetaValue := { value := raw, raw, long, double, boolean := switch s double }
  match Moment.read? s with
  | some t =>
    { known with date := some t.dateText, datetime := some t.text, time := some t.timeText }
  | none =>
    { known with time := (timeOfDay? s).map fun (h, m, s) => timeText h m s }

/-- Absent readings are not written. -/
def toJson (m : MetaValue) : Value :=
  let member {α : Type} (name : String) (f : α → Value) (o : Option α) :=
    o.toList.map fun a => (name, f a)
  .object ([("value", .string m.value), ("raw", .string m.raw)]
    ++ member "long" .ofInt64 m.long
    ++ member "double" .ofDouble m.double
    ++ member "boolean" .bool m.boolean
    ++ member "date" .string m.date
    ++ member "datetime" .string m.datetime
    ++ member "time" .string m.time)

def fields : List (Json.Field MetaValue) := [
  .of "value" Reader.string fun x m => { m with value := x },
  .of "raw" Reader.string fun x m => { m with raw := x },
  (Json.Field.of "long" (.nullable Reader.int64) fun x m => { m with long := x }).optional,
  (Json.Field.of "double" (.nullable Reader.double) fun x m => { m with double := x }).optional,
  (Json.Field.of "boolean" (.nullable Reader.bool) fun x m => { m with boolean := x }).optional,
  (Json.Field.of "date" (.nullable Reader.string) fun x m => { m with date := x }).optional,
  (Json.Field.of "datetime" (.nullable Reader.string) fun x m => { m with datetime := x }).optional,
  (Json.Field.of "time" (.nullable Reader.string) fun x m => { m with time := x }).optional]

def read : Reader MetaValue :=
  Reader.record fields {}

end MetaValue
end ContentIndex
