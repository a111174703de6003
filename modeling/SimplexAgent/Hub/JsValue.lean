import SimplexAgent.Verified.Utf16
import Mathlib.Algebra.Order.BigOperators.Group.List
import Mathlib.Algebra.Order.Ring.Nat

/-!
# Values of the hub

What `JSON.parse` makes of a text and `JSON.stringify` a text of: the strings are strings of
code units, and an object is the list of its members in their order. `bytes` is
`Buffer.byteLength(JSON.stringify(value))`, in which a lone surrogate is escaped and everything
else outside of ASCII is written as it is.
-/

namespace SimplexAgent.Hub.Js

open Verified

/-- A string. -/
abbrev Text := List UInt16

def text (literal : String) : Text := Utf16.encode literal.toList

inductive Value (ν : Type) where
  | null
  | bool (value : Bool)
  | num (value : ν)
  | str (value : Text)
  | arr (items : List (Value ν))
  | obj (members : List (Text × Value ν))

/-! ## Numbers -/

/-- The shortest decimal numeral of a finite double that is not zero: its digits, of which
neither the first nor the last is zero, and the position of the point among them. -/
structure Numeral where
  negative : Bool
  digits : List Char
  point : Int
  first : digits.head? ≠ some '0'
  last : digits.getLast? ≠ some '0'
  many : 0 < digits.length ∧ digits.length ≤ 17
  range : -323 ≤ point ∧ point ≤ 309

/-- A number that is not negative and safe, or another one by its numeral. -/
inductive Number where
  | safe (value : Nat)
  | other (numeral : Numeral)

/-- `Number::toString`, without the sign. -/
def Numeral.magnitude (n : Numeral) : List Char :=
  let k : Int := n.digits.length
  if k ≤ n.point ∧ n.point ≤ 21 then
    n.digits ++ List.replicate (n.point - k).toNat '0'
  else if 0 < n.point ∧ n.point ≤ 21 then
    n.digits.take n.point.toNat ++ '.' :: n.digits.drop n.point.toNat
  else if -6 < n.point ∧ n.point ≤ 0 then
    '0' :: '.' :: List.replicate (-n.point).toNat '0' ++ n.digits
  else
    let mantissa := if n.digits.length = 1 then n.digits
      else n.digits.take 1 ++ '.' :: n.digits.drop 1
    mantissa ++ 'e' :: (if n.point - 1 < 0 then '-' else '+') ::
      Nat.toDigits 10 (n.point - 1).natAbs

def Number.text : Number → List Char
  | .safe n => Nat.toDigits 10 n
  | .other n => (if n.negative then ['-'] else []) ++ n.magnitude

def Number.bytes (n : Number) : Nat := n.text.length

def Numeral.value (n : Numeral) : Rat :=
  let exponent := n.point - n.digits.length
  let magnitude := (Nat.ofDigitChars 10 n.digits 0 : Rat) * 10 ^ exponent.toNat /
    10 ^ (-exponent).toNat
  if n.negative then -magnitude else magnitude

def Number.value : Number → Rat
  | .safe n => n
  | .other n => n.value

/-! ## Sizes -/

/-- The bytes of a character or lone surrogate in a JSON text. -/
def pointBytes : Utf16.Point → Nat
  | .scalar c =>
    if c.toNat ∈ [8, 9, 10, 12, 13, 34, 92] then 2
    else if c.toNat < 32 then 6
    else c.utf8Size
  | .lone _ => 6

def textBytes (s : Text) : Nat := 2 + ((Utf16.points s).map pointBytes).sum

def boolBytes (value : Bool) : Nat := if value then 4 else 5

/-- Elements between brackets or braces, separated by commas. -/
def listBytes (elements : List Nat) : Nat := 2 + elements.sum + (elements.length - 1)

def memberBytes (key : Text) (value : Nat) : Nat := textBytes key + 1 + value

namespace Value

mutual

/-- The bytes of `JSON.stringify`. -/
def bytes : Value Number → Nat
  | null => 4
  | bool value => boolBytes value
  | num value => value.bytes
  | str value => textBytes value
  | arr items => listBytes (itemBytes items)
  | obj members => listBytes (membersBytes members)

def itemBytes : List (Value Number) → List Nat
  | [] => []
  | item :: rest => bytes item :: itemBytes rest

def membersBytes : List (Text × Value Number) → List Nat
  | [] => []
  | (key, value) :: rest => memberBytes key (bytes value) :: membersBytes rest

end

theorem itemBytes_eq (items : List (Value Number)) : itemBytes items = items.map bytes := by
  induction items with
  | nil => rw [itemBytes, List.map_nil]
  | cons item rest ih => rw [itemBytes, List.map_cons, ih]

theorem membersBytes_eq (members : List (Text × Value Number)) :
    membersBytes members = members.map fun member => memberBytes member.1 (bytes member.2) := by
  induction members with
  | nil => rw [membersBytes, List.map_nil]
  | cons member rest ih =>
    obtain ⟨key, value⟩ := member
    rw [membersBytes, List.map_cons, ih]

theorem bytes_arr (items : List (Value Number)) :
    (arr items).bytes = listBytes (items.map bytes) := by
  rw [bytes, itemBytes_eq]

theorem bytes_obj (members : List (Text × Value Number)) : (obj members).bytes =
      listBytes (members.map fun member => memberBytes member.1 (bytes member.2)) := by
  rw [bytes, membersBytes_eq]

end Value

/-! ## Smaller values -/

theorem safe_bytes_le {n m : Nat} (h : n ≤ m) : (Number.safe n).bytes ≤ (Number.safe m).bytes := by
  refine (Nat.length_toDigits_le_iff (by decide) Nat.length_toDigits_pos).mpr ?_
  exact Nat.lt_of_le_of_lt h
    ((Nat.length_toDigits_le_iff (by decide) Nat.length_toDigits_pos).mp (Nat.le_refl _))

theorem listBytes_le {a b : List Nat} (h : List.Forall₂ (· ≤ ·) a b) :
    listBytes a ≤ listBytes b := by
  have hSum := List.Forall₂.sum_le_sum h
  have hLength := h.length_eq
  unfold listBytes
  omega

theorem le_listBytes {n : Nat} {elements : List Nat} (h : n ∈ elements) :
    n ≤ listBytes elements := by
  have hSum := List.le_sum_of_mem h
  unfold listBytes
  omega

theorem Value.member_bytes_le {key : Text} {value : Value Number}
    {members : List (Text × Value Number)} (h : (key, value) ∈ members) :
    value.bytes ≤ (Value.obj members).bytes := by
  have hMember := le_listBytes (List.mem_map_of_mem
    (f := fun member : Text × Value Number => memberBytes member.1 member.2.bytes) h)
  rw [Value.bytes_obj]
  exact (Nat.le_add_left _ _).trans hMember

theorem listBytes_sublist {a b : List Nat} (h : a.Sublist b) : listBytes a ≤ listBytes b := by
  have hSum := h.sum_le_sum fun _ _ => Nat.zero_le _
  have hLength := h.length_le
  unfold listBytes
  omega

end SimplexAgent.Hub.Js
