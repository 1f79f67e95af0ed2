import Mathlib

/-! Lua 5.3 values as the C libraries see them. A table is given by its entries in the order
of lua_next and by what lua_rawlen answers; keys are scalars. -/
namespace Skynet.Lua

inductive Key where
  | boolean (b : Bool)
  | integer (n : Int64)
  | real (bits : UInt64)
  | string (s : List UInt8)
  | lightuserdata (p : UInt64)
  deriving DecidableEq, Repr

inductive Value where
  | nil
  | boolean (b : Bool)
  | integer (n : Int64)
  | real (bits : UInt64)
  | string (s : List UInt8)
  | lightuserdata (p : UInt64)
  | table (len : Nat) (entries : List (Key × Value))
  | unsupported (typename : String)

def Key.value : Key → Value
  | .boolean b => .boolean b
  | .integer n => .integer n
  | .real bits => .real bits
  | .string s => .string s
  | .lightuserdata p => .lightuserdata p

def Value.isNil : Value → Bool
  | .nil => true
  | _ => false

/- The fields of a double. -/
def exponent (bits : UInt64) : Nat := (bits.toNat / 2 ^ 52) % 2 ^ 11
def mantissa (bits : UInt64) : Nat := bits.toNat % 2 ^ 52

def isNaN (bits : UInt64) : Bool := exponent bits = 2047 ∧ mantissa bits ≠ 0

/-- The absolute value of a double that is a whole number. -/
def wholeNumber (bits : UInt64) : Option Nat :=
  let e := exponent bits
  let m := if e = 0 then mantissa bits else 2 ^ 52 + mantissa bits
  let e := max e 1
  if exponent bits = 2047 then none
  else if 1075 ≤ e then some (m * 2 ^ (e - 1075))
  else if m % 2 ^ (1075 - e) = 0 then some (m / 2 ^ (1075 - e))
  else none

/-- The integer with the value of a double, if there is one. -/
def realInteger (bits : UInt64) : Option Int64 := do
  let magnitude ← wholeNumber bits
  let n : Int := if bits.toNat / 2 ^ 63 = 1 then -magnitude else magnitude
  if -2 ^ 63 ≤ n ∧ n < 2 ^ 63 then some (Int64.ofInt n) else none

def find (entries : List (Key × Value)) (k : Key) : Option Value :=
  (entries.find? fun e => e.1 = k).map (·.2)

/- Storing nil takes the entry away. -/
def rawset (entries : List (Key × Value)) (k : Key) (v : Value) : List (Key × Value) :=
  let others := entries.filter fun e => e.1 ≠ k
  if v.isNil then others else others ++ [(k, v)]

def rawgeti (entries : List (Key × Value)) (i : Nat) : Value :=
  (find entries (.integer (Int64.ofNat i))).getD .nil

/-- A length that Lua may answer. -/
def border (entries : List (Key × Value)) : Nat :=
  ((List.range entries.length).find? fun i => (rawgeti entries (i + 1)).isNil).getD entries.length

/- What a double becomes as a key; the others stay. -/
def Key.normal : Key → Option Key
  | .real bits => if isNaN bits then none else some ((realInteger bits).elim (.real bits) .integer)
  | k => some k

/-- Tables as Lua keeps them, of supported values. -/
inductive Valid : Value → Prop
  | nil : Valid .nil
  | boolean (b : Bool) : Valid (.boolean b)
  | integer (n : Int64) : Valid (.integer n)
  | real (bits : UInt64) : Valid (.real bits)
  | string (s : List UInt8) (short : s.length < 2 ^ 31) : Valid (.string s)
  | lightuserdata (p : UInt64) : Valid (.lightuserdata p)
  | table (len : Nat) (entries : List (Key × Value)) (bound : len < 2 ^ 31)
      (distinct : (entries.map (·.1)).Nodup) (normal : ∀ e ∈ entries, e.1.normal = some e.1)
      (scalars : ∀ e ∈ entries, Valid e.1.value) (filled : ∀ e ∈ entries, e.2.isNil = false)
      (values : ∀ e ∈ entries, Valid e.2) : Valid (.table len entries)

/-- Equal values; tables are equal when they map equal keys to equal values. -/
inductive Same : Value → Value → Prop
  | nil : Same .nil .nil
  | boolean (b : Bool) : Same (.boolean b) (.boolean b)
  | integer (n : Int64) : Same (.integer n) (.integer n)
  | real (bits : UInt64) : Same (.real bits) (.real bits)
  | string (s : List UInt8) : Same (.string s) (.string s)
  | lightuserdata (p : UInt64) : Same (.lightuserdata p) (.lightuserdata p)
  | table (len len' : Nat) (entries entries' : List (Key × Value))
      (same : ∀ k, Option.Rel Same (find entries k) (find entries' k)) :
      Same (.table len entries) (.table len' entries')

end Skynet.Lua
