import SimplexAgent.Hub.JsValue
import SimplexAgent.Verified.Rounding

/-!
# Reading JSON

`JSON.parse`, on a string of code units. The numbers of the result are as they are written; the
runtime rounds them to doubles, which `toDouble` does. Of several members with one name the last
one counts.
-/

namespace SimplexAgent.Hub.Js

open Verified.Rounding

/-! ## Numbers -/

/-- A number as it is written: digits and a power of ten. -/
structure Literal where
  negative : Bool
  mantissa : Nat
  exponent : Int

def Literal.value (literal : Literal) : Rat :=
  let magnitude := scale 10 literal.mantissa literal.exponent
  if literal.negative then -magnitude else magnitude

/-! ## The grammar -/

def isWhite (u : UInt16) : Bool := u == 0x20 || u == 0x09 || u == 0x0a || u == 0x0d

def isDigit (u : UInt16) : Bool := 0x30 ≤ u.toNat && u.toNat ≤ 0x39

def digitsValue (digits : Text) : Nat := digits.foldl (fun n d => 10 * n + (d.toNat - 0x30)) 0

def digitRun (s : Text) : Option (Text × Text) :=
  if (s.takeWhile isDigit).isEmpty then none else some (s.takeWhile isDigit, s.dropWhile isDigit)

def optionalPart {α : Type} (marks : List UInt16) (s : Text) (absent : α)
    (part : Text → Option (α × Text)) : Option (α × Text) :=
  match s with
  | u :: rest => if u ∈ marks then part rest else some (absent, s)
  | [] => some (absent, s)

def exponentPart (s : Text) : Option (Int × Text) :=
  match s with
  | 0x2d :: rest => (digitRun rest).map fun (digits, rest) => (-(digitsValue digits : Int), rest)
  | 0x2b :: rest => (digitRun rest).map fun (digits, rest) => ((digitsValue digits : Int), rest)
  | _ => (digitRun s).map fun (digits, rest) => ((digitsValue digits : Int), rest)

def parseNumber (s : Text) : Option (Literal × Text) := do
  let negative := s.head? == some 0x2d
  let (whole, s) ← digitRun (if negative then s.tail else s)
  guard (whole.length = 1 ∨ whole.head? ≠ some 0x30)
  let (fraction, s) ← optionalPart [0x2e] s [] digitRun
  let (exponent, s) ← optionalPart [0x65, 0x45] s 0 exponentPart
  return ({
    negative := negative
    mantissa := digitsValue (whole ++ fraction)
    exponent := exponent - fraction.length }, s)

def hexValue (u : UInt16) : Option Nat :=
  let n := u.toNat
  if 0x30 ≤ n ∧ n ≤ 0x39 then some (n - 0x30)
  else if 0x61 ≤ n ∧ n ≤ 0x66 then some (n - 0x61 + 10)
  else if 0x41 ≤ n ∧ n ≤ 0x46 then some (n - 0x41 + 10)
  else none

/-- The code unit of an escape of one character. -/
def unescaped (u : UInt16) : Option UInt16 :=
  [((0x22 : UInt16), (0x22 : UInt16)), (0x5c, 0x5c), (0x2f, 0x2f), (0x62, 8), (0x66, 12),
    (0x6e, 10), (0x72, 13), (0x74, 9)].lookup u

def parseString : Text → Option (Text × Text)
  | [] => none
  | u :: rest =>
    if u = 0x22 then some ([], rest)
    else if u = 0x5c then
      match rest with
      | [] => none
      | e :: more =>
        if e = 0x75 then
          match more with
          | a :: b :: c :: d :: more => do
            let a ← hexValue a
            let b ← hexValue b
            let c ← hexValue c
            let d ← hexValue d
            let (value, rest) ← parseString more
            return (UInt16.ofNat (((a * 16 + b) * 16 + c) * 16 + d) :: value, rest)
          | _ => none
        else do
          let unit ← unescaped e
          let (value, rest) ← parseString more
          return (unit :: value, rest)
    else if u.toNat < 0x20 then none
    else do
      let (value, rest) ← parseString rest
      return (u :: value, rest)

/-- A member is created, or gets another value. -/
def assign {ν : Type} (members : List (Text × Value ν)) (key : Text) (value : Value ν) :
    List (Text × Value ν) :=
  if members.any (·.1 == key) then
    members.map fun member => if member.1 = key then (key, value) else member
  else members ++ [(key, value)]

def keyword (s : Text) : Option (Value Literal × Text) :=
  [(text "true", Value.bool true), (text "false", .bool false), (text "null", .null)].findSome?
    fun (word, value) => if word.isPrefixOf s then some (value, s.drop word.length) else none

mutual

def parseValue : Nat → Text → Option (Value Literal × Text)
  | 0, _ => none
  | fuel + 1, s =>
    match s.dropWhile isWhite with
    | [] => none
    | u :: rest =>
      if u = 0x7b then
        match rest.dropWhile isWhite with
        | 0x7d :: more => some (.obj [], more)
        | more => (parseMembers fuel [] more).map fun (members, rest) => (.obj members, rest)
      else if u = 0x5b then
        match rest.dropWhile isWhite with
        | 0x5d :: more => some (.arr [], more)
        | more => (parseItems fuel more).map fun (items, rest) => (.arr items, rest)
      else if u = 0x22 then
        (parseString rest).map fun (value, rest) => (.str value, rest)
      else if isDigit u || u = 0x2d then
        (parseNumber (u :: rest)).map fun (value, rest) => (.num value, rest)
      else keyword (u :: rest)

/-- Elements up to the closing bracket. -/
def parseItems : Nat → Text → Option (List (Value Literal) × Text)
  | 0, _ => none
  | fuel + 1, s => do
    let (item, s) ← parseValue fuel s
    match s.dropWhile isWhite with
    | 0x2c :: more => do
      let (items, rest) ← parseItems fuel more
      return (item :: items, rest)
    | 0x5d :: more => return ([item], more)
    | _ => none

/-- Members up to the closing brace, behind those that are there. -/
def parseMembers : Nat → List (Text × Value Literal) → Text →
    Option (List (Text × Value Literal) × Text)
  | 0, _, _ => none
  | fuel + 1, members, s =>
    match s.dropWhile isWhite with
    | 0x22 :: rest => do
      let (key, s) ← parseString rest
      match s.dropWhile isWhite with
      | 0x3a :: more => do
        let (value, s) ← parseValue fuel more
        match s.dropWhile isWhite with
        | 0x2c :: more => parseMembers fuel (assign members key value) more
        | 0x7d :: more => return (assign members key value, more)
        | _ => none
      | _ => none
    | _ => none

end

/-- `JSON.parse`. Two calls for each code unit are enough. -/
def parse (s : Text) : Option (Value Literal) :=
  match parseValue (2 * s.length + 1) s with
  | some (value, rest) => if (rest.dropWhile isWhite).isEmpty then some value else none
  | none => none

end SimplexAgent.Hub.Js
