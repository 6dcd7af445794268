import ContentIndex.Calendar.Moment
import ContentIndex.Json.Record

/-
  The calendar units of a moment, as a document stores them for queries by year, week, weekday and
  the like.
-/

namespace ContentIndex

open Calendar (Moment)
open Json (Value Reader)

/-- The calendar units of a moment. -/
structure DateTerms where
  year : Int32 := 0
  month : UInt32 := 0
  /-- The ISO week. -/
  week : UInt32 := 0
  dayOfYear : UInt32 := 0
  day : UInt32 := 0
  /-- Sunday is 0. -/
  dayOfWeek : UInt32 := 0
  /-- Monday is 1. -/
  isoDayOfWeek : UInt32 := 0
  hour : UInt32 := 0
  minute : UInt32 := 0
  second : UInt32 := 0
  /-- A hundred times the year, and the month; years before zero count as zero. -/
  yearMonth : UInt32 := 0
deriving DecidableEq, Repr

namespace DateTerms

def ofMoment (t : Moment) : DateTerms :=
  let n := t.date.dayNumber
  { year := Int32.ofInt t.date.year
    month := .ofNat t.date.month
    week := .ofNat (Calendar.isoWeekOf n)
    dayOfYear := .ofNat t.date.ordinal
    day := .ofNat t.date.day
    dayOfWeek := .ofNat (Calendar.weekdayOf n)
    isoDayOfWeek := .ofNat (Calendar.isoWeekdayOf n)
    hour := .ofNat t.hour
    minute := .ofNat t.minute
    second := .ofNat t.secondOfMinute
    yearMonth := .ofNat (t.date.year.toNat * 100 + t.date.month) }

def toJson (d : DateTerms) : Value :=
  .object [
    ("year", .ofInt d.year.toInt),
    ("month", .ofNat d.month.toNat),
    ("week", .ofNat d.week.toNat),
    ("dayofyear", .ofNat d.dayOfYear.toNat),
    ("day", .ofNat d.day.toNat),
    ("dayofweek", .ofNat d.dayOfWeek.toNat),
    ("dayofweek_iso", .ofNat d.isoDayOfWeek.toNat),
    ("hour", .ofNat d.hour.toNat),
    ("minute", .ofNat d.minute.toNat),
    ("second", .ofNat d.second.toNat),
    ("yearmonth", .ofNat d.yearMonth.toNat)]

def fields : List (Json.Field DateTerms) := [
  .of "year" Reader.int32 fun x d => { d with year := x },
  .of "month" Reader.uint32 fun x d => { d with month := x },
  .of "week" Reader.uint32 fun x d => { d with week := x },
  .of "dayofyear" Reader.uint32 fun x d => { d with dayOfYear := x },
  .of "day" Reader.uint32 fun x d => { d with day := x },
  .of "dayofweek" Reader.uint32 fun x d => { d with dayOfWeek := x },
  .of "dayofweek_iso" Reader.uint32 fun x d => { d with isoDayOfWeek := x },
  .of "hour" Reader.uint32 fun x d => { d with hour := x },
  .of "minute" Reader.uint32 fun x d => { d with minute := x },
  .of "second" Reader.uint32 fun x d => { d with second := x },
  .of "yearmonth" Reader.uint32 fun x d => { d with yearMonth := x }]

def read : Reader DateTerms :=
  Reader.record fields {}

end DateTerms
end ContentIndex
