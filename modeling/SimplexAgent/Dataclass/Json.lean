import SimplexAgent.Verified.Tables
import Mathlib.Algebra.Order.Ring.Int
import Mathlib.Data.Rat.Defs

/-!
# JSON values

The in-memory values of the JSON library the data contract is written against.
Three facts about it matter here. Objects are ordered by key, and a list of pairs
becomes an object by insertion in which the first occurrence of a key stays.
Looking a key up in something that is not an object finds nothing, so a reader
that only uses `find` accepts any value. Equality compares numbers by value: the
signed, unsigned and floating representations of one number are equal.

A number is an integer between the least signed and the largest unsigned 64-bit
value or a finite floating value, as a rational. Whether the library holds a
non-negative integer as signed or as unsigned is not part of the value: text does
not tell, and equality and the conversions do not depend on it.
-/

namespace SimplexAgent.Dataclass

/-- The integers the library can hold. -/
@[ext]
structure JsonInteger where
  value : Int
  lower : -2 ^ 63 ≤ value
  upper : value < 2 ^ 64
  deriving DecidableEq

instance : Inhabited JsonInteger := ⟨⟨0, by decide, by decide⟩⟩

inductive Json where
  | null
  | bool (value : Bool)
  | integer (value : JsonInteger)
  | float (value : Rat)
  | str (value : String)
  | arr (items : List Json)
  | obj (fields : List (String × Json))
  deriving Inhabited

/-- The classes of exceptions that decoding can raise. -/
inductive JsonError where
  /-- A value of another type: the expected type and what was found. -/
  | typeError (expected : String) (found : Json)
  /-- `at` on a missing key. -/
  | outOfRange (key : String)
  | invalidArgument (what : String)
  | logicError (what : String)

namespace Json

/-! ## Decidable equality -/

mutual

def decEq : (a b : Json) → Decidable (a = b)
  | .null, b => match b with
      | .null => isTrue rfl
      | .bool _ | .integer _ | .float _ | .str _ | .arr _ | .obj _ =>
        isFalse (by simp)
  | .bool x, b => match b with
      | .bool y => decidable_of_iff (x = y) (by simp)
      | .null | .integer _ | .float _ | .str _ | .arr _ | .obj _ =>
        isFalse (by simp)
  | .integer x, b => match b with
      | .integer y => decidable_of_iff (x = y) (by simp)
      | .null | .bool _ | .float _ | .str _ | .arr _ | .obj _ =>
        isFalse (by simp)
  | .float x, b => match b with
      | .float y => decidable_of_iff (x = y) (by simp)
      | .null | .bool _ | .integer _ | .str _ | .arr _ | .obj _ =>
        isFalse (by simp)
  | .str x, b => match b with
      | .str y => decidable_of_iff (x = y) (by simp)
      | .null | .bool _ | .integer _ | .float _ | .arr _ | .obj _ =>
        isFalse (by simp)
  | .arr xs, b => match b with
      | .arr ys => match decEqItems xs ys with
          | isTrue h => isTrue (by rw [h])
          | isFalse h => isFalse (by simpa using h)
      | .null | .bool _ | .integer _ | .float _ | .str _ | .obj _ =>
        isFalse (by simp)
  | .obj xs, b => match b with
      | .obj ys => match decEqFields xs ys with
          | isTrue h => isTrue (by rw [h])
          | isFalse h => isFalse (by simpa using h)
      | .null | .bool _ | .integer _ | .float _ | .str _ | .arr _ =>
        isFalse (by simp)

def decEqItems : (xs ys : List Json) → Decidable (xs = ys)
  | [], [] => isTrue rfl
  | [], _ :: _ => isFalse (by simp)
  | _ :: _, [] => isFalse (by simp)
  | x :: xs, y :: ys => match decEq x y, decEqItems xs ys with
      | isTrue h, isTrue h' => isTrue (by rw [h, h'])
      | isFalse h, _ => isFalse (by simp [h])
      | _, isFalse h => isFalse (by simp [h])

def decEqFields : (xs ys : List (String × Json)) → Decidable (xs = ys)
  | [], [] => isTrue rfl
  | [], _ :: _ => isFalse (by simp)
  | _ :: _, [] => isFalse (by simp)
  | (k, x) :: xs, (l, y) :: ys =>
    match decEq x y, decEqFields xs ys with
    | isTrue h, isTrue h' => decidable_of_iff (k = l) (by simp [h, h'])
    | isFalse h, _ => isFalse (by simp [h])
    | _, isFalse h => isFalse (by simp [h])

end

instance : DecidableEq Json := decEq

/-! ## Objects -/

def setField (fields : List (String × Json)) (key : String) (value : Json) :
    List (String × Json) :=
  match fields with
  | [] => [(key, value)]
  | (k, v) :: rest =>
    if key = k then (key, value) :: rest
    else if key < k then (key, value) :: (k, v) :: rest
    else (k, v) :: setField rest key value

/-- `j[key] = value` on an object. -/
def set (j : Json) (key : String) (value : Json) : Json :=
  match j with
  | .obj fields => .obj (setField fields key value)
  | other => other

/-- `if (value) j[key] = *value`. -/
def setOptional (j : Json) (key : String) (value : Option Json) : Json :=
  match value with
  | some v => j.set key v
  | none => j

/-- An object from a list of pairs; of two pairs with one key the first stays. -/
def object (fields : List (String × Json)) : Json :=
  .obj (fields.foldr (fun field acc => setField acc field.1 field.2) [])

/-- `find`: nothing in a value that is not an object. -/
def find? (j : Json) (key : String) : Option Json :=
  match j with
  | .obj fields => fields.lookup key
  | _ => none

/-- `at`. -/
def atKey (j : Json) (key : String) : Except JsonError Json :=
  match j with
  | .obj fields =>
    match fields.lookup key with
    | some v => .ok v
    | none => .error (.outOfRange key)
  | other => .error (.typeError "object" other)

theorem lookup_setField (fields : List (String × Json)) (key key' : String) (value : Json) :
    (setField fields key value).lookup key' =
      if key' = key then some value else fields.lookup key' := by
  induction fields with
  | nil =>
    by_cases h : key' = key
    · simp [setField, h]
    · simp [setField, List.lookup_cons, List.lookup_nil, h, beq_eq_false_iff_ne.mpr h]
  | cons field rest ih =>
    obtain ⟨k, v⟩ := field
    unfold setField
    split
    · rename_i hk
      subst hk
      by_cases h : key' = key
      · simp [h]
      · simp [List.lookup_cons, h, beq_eq_false_iff_ne.mpr h]
    · rename_i hk
      split
      · by_cases h : key' = key
        · simp [h]
        · simp [List.lookup_cons, h, beq_eq_false_iff_ne.mpr h]
      · by_cases h : key' = k
        · subst h
          simp [Ne.symm hk]
        · simp only [List.lookup_cons, beq_eq_false_iff_ne.mpr h, ih]

/-- Values on which `set` assigns and `at` looks up. -/
def IsObject : Json → Prop
  | .obj _ => True
  | _ => False

instance : DecidablePred IsObject := fun j => by
  cases j <;> unfold IsObject <;> infer_instance

@[simp] theorem isObject_object (fields : List (String × Json)) : (object fields).IsObject :=
  trivial

@[simp] theorem isObject_set (j : Json) (key : String) (value : Json) :
    (j.set key value).IsObject ↔ j.IsObject := by
  cases j <;> simp [set, IsObject]

@[simp] theorem isObject_setOptional (j : Json) (key : String) (value : Option Json) :
    (j.setOptional key value).IsObject ↔ j.IsObject := by
  cases value <;> simp [setOptional]

theorem find?_set {j : Json} (hObj : j.IsObject) (key key' : String) (value : Json) :
    (j.set key value).find? key' = if key' = key then some value else j.find? key' := by
  cases j with
  | obj fields => exact lookup_setField fields key key' value
  | _ => exact absurd hObj (by simp [IsObject])

theorem find?_setOptional {j : Json} (hObj : j.IsObject) (key key' : String)
    (value : Option Json) :
    (j.setOptional key value).find? key' =
      if key' = key then value.or (j.find? key') else j.find? key' := by
  cases value with
  | none => simp [setOptional]
  | some v => simp [setOptional, find?_set hObj]

@[simp] theorem find?_object_nil (key : String) : (object []).find? key = none := rfl

@[simp] theorem find?_object_cons (k key : String) (v : Json) (rest : List (String × Json)) :
    (object ((k, v) :: rest)).find? key = if key = k then some v else (object rest).find? key :=
  lookup_setField _ k key v

theorem atKey_eq_find? {j : Json} (hObj : j.IsObject) {key : String} {v : Json}
    (hFind : j.find? key = some v) : j.atKey key = .ok v := by
  cases j with
  | obj fields =>
    simp only [find?] at hFind
    simp [atKey, hFind]
  | _ => exact absurd hObj (by simp [IsObject])

/-! ## Scalars -/

def number? : Json → Option Rat
  | .integer n => some (n.value : Rat)
  | .float q => some q
  | _ => none

/-- A number from an unsigned counter. -/
def uint (u : UInt64) : Json :=
  .integer ⟨u.toNat, by omega, by have := u.toNat_lt; omega⟩

/-- A number from a signed value. -/
def int (i : Int32) : Json :=
  .integer ⟨i.toInt, by have := i.le_toInt; omega, by have := i.toInt_lt; omega⟩

def isNull : Json → Bool
  | .null => true
  | _ => false

theorem isNull_of_isObject {j : Json} (hObj : j.IsObject) : j.isNull = false := by
  cases j with
  | null => exact absurd hObj (by simp [IsObject])
  | _ => rfl

def getString : Json → Except JsonError String
  | .str s => .ok s
  | other => .error (.typeError "string" other)

/-- `get<std::uint64_t>`: integers modulo its width, floating values truncated. -/
def getUInt64 : Json → Except JsonError UInt64
  | .integer n => .ok (UInt64.ofInt n.value)
  | .float q => .ok (UInt64.ofInt (q.num.tdiv q.den))
  | other => .error (.typeError "number" other)

/-- `get<std::uint32_t>`; this conversion also takes booleans. -/
def getUInt32 : Json → Except JsonError UInt32
  | .integer n => .ok (UInt32.ofInt n.value)
  | .float q => .ok (UInt32.ofInt (q.num.tdiv q.den))
  | .bool b => .ok (if b then 1 else 0)
  | other => .error (.typeError "number" other)

/-- `get<int>`; this conversion also takes booleans. -/
def getInt32 : Json → Except JsonError Int32
  | .integer n => .ok (Int32.ofInt n.value)
  | .float q => .ok (Int32.ofInt (q.num.tdiv q.den))
  | .bool b => .ok (if b then 1 else 0)
  | other => .error (.typeError "number" other)

@[simp] theorem getUInt64_uint (u : UInt64) : getUInt64 (uint u) = .ok u := by
  have hLt := u.toNat_lt
  have hWrap : ((u.toNat : Int) % 2 ^ 64).toNat = u.toNat := by omega
  simp only [getUInt64, uint, UInt64.ofInt, hWrap, UInt64.ofNat_toNat]

@[simp] theorem getUInt32_uint (u : UInt32) : getUInt32 (uint u.toUInt64) = .ok u := by
  have hLt := u.toNat_lt
  have hWrap : ((u.toUInt64.toNat : Int) % 2 ^ 32).toNat = u.toNat := by
    rw [UInt32.toNat_toUInt64]
    omega
  simp only [getUInt32, uint, UInt32.ofInt, hWrap, UInt32.ofNat_toNat]

@[simp] theorem getInt32_int (i : Int32) : getInt32 (int i) = .ok i := by
  simp [getInt32, int]

/-! ## Equality -/

mutual

/-- `operator==`: numbers by value, everything else by structure. -/
def equals : Json → Json → Bool
  | .null, .null => true
  | .bool x, .bool y => x == y
  | .str x, .str y => x == y
  | .arr xs, .arr ys => equalsItems xs ys
  | .obj xs, .obj ys => equalsFields xs ys
  | x, y =>
    match x.number?, y.number? with
    | some p, some q => p == q
    | _, _ => false

def equalsItems : List Json → List Json → Bool
  | [], [] => true
  | x :: xs, y :: ys => equals x y && equalsItems xs ys
  | _, _ => false

def equalsFields : List (String × Json) → List (String × Json) → Bool
  | [], [] => true
  | (k, x) :: xs, (l, y) :: ys => k == l && equals x y && equalsFields xs ys
  | _, _ => false

end

theorem lookup_of_equalsFields (key : String) : ∀ fields fields' : List (String × Json),
    equalsFields fields fields' = true →
      (fields.lookup key = none ∧ fields'.lookup key = none) ∨
      ∃ v v', fields.lookup key = some v ∧ fields'.lookup key = some v' ∧ equals v v' = true := by
  intro fields
  induction fields with
  | nil =>
    intro fields' hEq
    cases fields' with
    | nil => exact Or.inl ⟨rfl, rfl⟩
    | cons field' rest' => simp [equalsFields] at hEq
  | cons field rest ih =>
    obtain ⟨k, x⟩ := field
    intro fields' hEq
    cases fields' with
    | nil => simp [equalsFields] at hEq
    | cons field' rest' =>
      obtain ⟨l, y⟩ := field'
      simp only [equalsFields, Bool.and_eq_true, beq_iff_eq] at hEq
      obtain ⟨⟨rfl, hValue⟩, hRest⟩ := hEq
      by_cases hk : key = k
      · subst hk
        exact Or.inr ⟨x, y, List.lookup_cons_self, List.lookup_cons_self, hValue⟩
      · simp only [List.lookup_cons, beq_eq_false_iff_ne.mpr hk]
        exact ih rest' hRest

theorem find?_of_equals {j j' : Json} (hEq : equals j j' = true) (key : String) :
    (j.find? key = none ∧ j'.find? key = none) ∨
      ∃ v v', j.find? key = some v ∧ j'.find? key = some v' ∧ equals v v' = true := by
  cases j with
  | obj fields =>
    cases j' with
    | obj fields' =>
      simp only [equals] at hEq
      exact lookup_of_equalsFields key fields fields' hEq
    | _ => simp [equals, number?] at hEq
  | _ =>
    cases j' with
    | obj fields' => simp [equals, number?] at hEq
    | _ => exact Or.inl ⟨rfl, rfl⟩

theorem eq_of_equals_str {a b : String} (hEq : equals (.str a) (.str b) = true) : a = b := by
  simpa [equals] using hEq

theorem map_eq_of_equalsItems {α κ : Type} {encode : α → Json} {key : α → κ}
    (hKey : ∀ x y, equals (encode x) (encode y) = true → key x = key y) :
    ∀ xs ys : List α, equalsItems (xs.map encode) (ys.map encode) = true →
      xs.map key = ys.map key := by
  intro xs
  induction xs with
  | nil =>
    intro ys hEq
    cases ys with
    | nil => rfl
    | cons y ys => simp [equalsItems] at hEq
  | cons x xs ih =>
    intro ys hEq
    cases ys with
    | nil => simp [equalsItems] at hEq
    | cons y ys =>
      simp only [List.map_cons, equalsItems, Bool.and_eq_true] at hEq
      simp [hKey x y hEq.1, ih ys hEq.2]

/-! ## Field readers and writers -/

def readField {α : Type} (j : Json) (key : String) (fallback : α)
    (decode : Json → Except JsonError α) : Except JsonError α :=
  match j.find? key with
  | some v => decode v
  | none => .ok fallback

/-- `read_optional`: a missing key and an explicit null both read as absent. -/
def readOptional {α : Type} (j : Json) (key : String) (decode : Json → Except JsonError α) :
    Except JsonError (Option α) :=
  match j.find? key with
  | some v => if v.isNull then .ok none else (decode v).map some
  | none => .ok none

/-- `get<std::vector<T>>`. -/
def getArray {α : Type} (decode : Json → Except JsonError α) : Json → Except JsonError (List α)
  | .arr items => items.mapM decode
  | other => .error (.typeError "array" other)

/-- `get<nlohmann::json>`: any value. -/
def getJson (j : Json) : Except JsonError Json := .ok j

/-- What `read_optional` makes of an engaged null. -/
def dropNull (value : Option Json) : Option Json := value.filter fun v => !v.isNull

theorem readField_of_find {α : Type} {j : Json} {key : String} {fallback : α}
    {decode : Json → Except JsonError α} {v : Json} (hFind : j.find? key = some v) :
    readField j key fallback decode = decode v := by
  simp [readField, hFind]

theorem readOptional_record {α β : Type} {j : Json} {key : String} {x : Option α}
    {encode : α → Json} {decode : Json → Except JsonError β} {f : α → β}
    (hFind : j.find? key = x.map encode) (hNull : ∀ a, (encode a).isNull = false)
    (hDecode : ∀ a, x = some a → decode (encode a) = .ok (f a)) :
    readOptional j key decode = .ok (x.map f) := by
  cases x with
  | none => simp [readOptional, hFind]
  | some a => simp [readOptional, hFind, hNull, hDecode a rfl, Except.map]

theorem readOptional_json {j : Json} {key : String} {x : Option Json}
    (hFind : j.find? key = x) : readOptional j key getJson = .ok (dropNull x) := by
  cases x with
  | none => simp [readOptional, hFind, dropNull]
  | some v =>
    cases hNull : v.isNull with
    | true => simp [readOptional, hFind, hNull, dropNull, Option.filter]
    | false => simp [readOptional, hFind, hNull, dropNull, getJson, Except.map, Option.filter]

theorem dropNull_eq_self_iff (x : Option Json) : dropNull x = x ↔ x ≠ some .null := by
  cases x with
  | none => simp [dropNull]
  | some v => cases v <;> simp [dropNull, isNull, Option.filter]

theorem getArray_map {α β : Type} (encode : α → Json) (decode : Json → Except JsonError β)
    (f : α → β) (xs : List α) (hItem : ∀ x ∈ xs, decode (encode x) = .ok (f x)) :
    getArray decode (.arr (xs.map encode)) = .ok (xs.map f) :=
  Verified.Tables.mapM_map_ok encode decode f xs hItem

end Json

end SimplexAgent.Dataclass
