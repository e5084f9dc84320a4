/-!
# Dates and times

The grammar of dates, times of day and both together, as in `1979-05-27T07:32:00.5+01:00`. Only
days that exist are dates; a minute may have a 61st second.
-/

namespace LiveSound.Toml.Moment

/-- A number of exactly so many digits. -/
def digits? : Nat → Nat → List Char → Option (Nat × List Char)
  | 0, n, cs => some (n, cs)
  | count + 1, n, c :: cs =>
    if c.isDigit then digits? count (n * 10 + (c.toNat - '0'.toNat)) cs else none
  | _ + 1, _, [] => none

/-- A number of two digits up to a bound. -/
def upTo? (low high : Nat) (cs : List Char) : Option (Nat × List Char) :=
  (digits? 2 0 cs).filter fun (n, _) => low ≤ n && n ≤ high

def mark? (c : Char) : List Char → Option (List Char)
  | d :: cs => if d = c then some cs else none
  | [] => none

def isLeap (year : Nat) : Bool := year % 4 == 0 && (year % 100 != 0 || year % 400 == 0)

def daysIn (year month : Nat) : Nat :=
  if month = 2 then if isLeap year then 29 else 28
  else if month ∈ [4, 6, 9, 11] then 30 else 31

def date? (cs : List Char) : Option (List Char) := do
  let (year, cs) ← digits? 4 0 cs
  let (month, cs) ← upTo? 1 12 (← mark? '-' cs)
  let (_, cs) ← upTo? 1 (daysIn year month) (← mark? '-' cs)
  return cs

/-- Parts of a second. -/
def fraction (cs : List Char) : List Char :=
  match cs with
  | '.' :: c :: rest => if c.isDigit then rest.dropWhile Char.isDigit else cs
  | _ => cs

/-- The text after a time of day. -/
def time? (cs : List Char) : Option (List Char) := do
  let (_, cs) ← upTo? 0 23 cs
  let (_, cs) ← upTo? 0 59 (← mark? ':' cs)
  let (_, cs) ← upTo? 0 60 (← mark? ':' cs)
  return fraction cs

/-- The text after a distance from universal time, which may be left out. -/
def offset? : List Char → Option (List Char)
  | c :: cs =>
    if c = 'Z' ∨ c = 'z' then some cs
    else if c = '+' ∨ c = '-' then do
      let (_, cs) ← upTo? 0 23 cs
      let (_, cs) ← upTo? 0 59 (← mark? ':' cs)
      return cs
    else some (c :: cs)
  | [] => some []

/-- What follows a date: a time of day, unless what stands there is none. -/
def afterDate? (cs : List Char) : Option (List Char) :=
  match cs with
  | c :: rest =>
    if c = 'T' ∨ c = 't' ∨ c = ' ' then
      match time? rest with
      | some rest => offset? rest
      | none => some cs
    else some cs
  | [] => some cs

/-- The text after a date, a time or both. -/
def rest? (cs : List Char) : Option (List Char) :=
  match date? cs with
  | some rest => afterDate? rest
  | none => time? cs

end LiveSound.Toml.Moment
