import FluentSql.Failure
import FluentSql.Number.Numeral
import FluentSql.Value.Equality

/-!
# Values as numbers

* `Value.toInt` is the integer that a value reads as: numbers lose their
  fraction, texts and bytes must be numerals.
* `Value.minus` and `Value.timesInt` are the arithmetic of page numbers: whole
  numbers stay exact, doubles round, and a list or a text times a whole number
  is repeated.
* `Value.plus` joins two values of one kind.
-/

namespace FluentSql

open Number

-- Powers are those of the core library, whatever else is imported.
attribute [local instance (10000)] instPowNat

namespace Value

/-- The integer that a value reads as. -/
def toInt : Value → Except Failure Int
  | bool b => .ok (if b then 1 else 0)
  | int i => .ok i
  | double x =>
    if x.isNaN then .error .badValue
    else if x.isInfinite then .error (.value .overflow)
    else .ok x.truncate
  | text s => (readInt s.toList).elim (.error .badValue) .ok
  | bytes bs =>
    if bs.all (·.toNat < 128) then
      (readInt (bs.map fun b => Char.ofNat b.toNat)).elim (.error .badValue) .ok
    else .error .badValue
  | _ => .error .wrongType

/-- The double that a number reads as. -/
def toDouble : Numeric → Except Failure Double
  | .int i => (Double.ofInt? i).elim (.error (.value .overflow)) .ok
  | .double x => .ok x

/-- A whole-number operation, or the rounding one if a double takes part. -/
def arithmetic (onInts : Int → Int → Int) (onDoubles : Double → Double → Double)
    (x y : Numeric) : Except Failure Value :=
  match x, y with
  | .int i, .int j => .ok (int (onInts i j))
  | x, y => do return double (onDoubles (← toDouble x) (← toDouble y))

/-- The difference of two numbers. -/
def minus (v w : Value) : Except Failure Value :=
  match v.numeric?, w.numeric? with
  | some x, some y => arithmetic (· - ·) Double.sub x y
  | _, _ => .error .wrongType

/-- The least number of bytes that no sequence may take. -/
def memoryLimit : Nat := 2 ^ (36 : Nat)

/-- The number of bytes that a character takes in a text. -/
def charWidth (cs : List Char) : Nat :=
  if cs.all (·.toNat < 256) then 1 else if cs.all (·.toNat < 65536) then 2 else 4

/-- Checks the number of copies of a sequence of `length` elements, each of `width` bytes.  A number
that is no index is out of range; `tooLong` is the failure of a length that is none. -/
def checkCopies (n : Int) (length width : Nat) (tooLong : ValueFault) : Except Failure Unit :=
  if n < -2 ^ (63 : Nat) ∨ 2 ^ (63 : Nat) ≤ n then .error (.value .overflow)
  else if 2 ^ (63 : Nat) ≤ n.toNat * length then .error (.value tooLong)
  else if memoryLimit ≤ n.toNat * length * width then .error (.value .memory)
  else .ok ()

/-- Some elements, `n` times in a row.  More copies than a numeral has digits are no numeral, so it
does not matter how many more. -/
def numeralCopies {α : Type} (n : Int) (items : List α) : List α :=
  (List.replicate (min n.toNat (maxNumeralDigits + 1)) items).flatten

/-- The integer that a sequence reads as when it is written `n` times in a row. -/
def repeatedInt (n : Int) : Value → Except Failure Int
  | text s => do
    checkCopies n s.length (charWidth s.toList) .overflow
    (text (String.ofList (numeralCopies n s.toList))).toInt
  | bytes bs => do
    checkCopies n bs.length 1 .overflow
    (bytes (numeralCopies n bs)).toInt
  | list items | tuple items => do
    checkCopies n items.length 8 .memory
    .error .wrongType
  | _ => .error .wrongType

/-- The integer that the product of two numbers, or of a whole number and a sequence, reads as. -/
def timesInt (v w : Value) : Except Failure Int :=
  match v.numeric?, w.numeric? with
  | some x, some y => do (← arithmetic (· * ·) Double.mul x y).toInt
  | some (.int i), none => w.repeatedInt i
  | none, some (.int i) => v.repeatedInt i
  | _, _ => .error .wrongType

/-- The sum of two numbers, or two sequences of one kind joined. -/
def plus (v w : Value) : Except Failure Value :=
  match v, w with
  | text s, text t => .ok (text (s ++ t))
  | bytes s, bytes t => .ok (bytes (s ++ t))
  | list s, list t => .ok (list (s ++ t))
  | tuple s, tuple t => .ok (tuple (s ++ t))
  | v, w =>
    match v.numeric?, w.numeric? with
    | some x, some y => arithmetic (· + ·) Double.add x y
    | _, _ => .error .wrongType

end Value

end FluentSql
