import Mathlib.Algebra.Ring.Int.Defs
import Mathlib.Algebra.Ring.Nat

/-!
JavaScript values as far as the event pipeline reads them: the JSON payload of
a contract event and the coercions `String(x)`, `Number(x)`, `BigInt(x)` and
`Boolean(x)` that the handlers apply to its entries. A missing array entry is
`undefined`, written `none`.

Soroban values have no fractional numbers, so a JSON number is an integer. The
results of `Number` are only used as `Int` columns: `none` stands for every
result that Prisma rejects there (`NaN`, a fraction, or more than 32 bits).
-/

namespace ChainSettle

inductive Json where
  | null
  | bool (b : Bool)
  | num (n : Int)
  | str (s : String)
  | arr (items : List Json)
  | obj (fields : List (String × Json))

namespace Json

/-- `Boolean(value)`. -/
def truthy : Json → Bool
  | .null => false
  | .bool b => b
  | .num n => n != 0
  | .str s => s != ""
  | .arr _ | .obj _ => true

mutual

/-- `String(value)`. An array is joined with commas. -/
def toJsString : Json → String
  | .null => "null"
  | .bool b => if b then "true" else "false"
  | .num n => toString n
  | .str s => s
  | .arr items => ",".intercalate (joinItems items)
  | .obj _ => "[object Object]"

/-- `Array.prototype.join` writes `null` entries as empty strings. -/
def joinItems : List Json → List String
  | [] => []
  | .null :: rest => "" :: joinItems rest
  | item :: rest => item.toJsString :: joinItems rest

end

end Json

/-- The white space and line terminators that JavaScript trims. -/
def isJsSpace (c : Char) : Bool :=
  c ∈ [' ', '\t', '\n', '\r', '\x0b', '\x0c', '\u00a0', '\u1680', '\u2028', '\u2029',
    '\u202f', '\u205f', '\u3000', '\ufeff'] || (0x2000 ≤ c.toNat && c.toNat ≤ 0x200a)

def jsTrim (cs : List Char) : List Char :=
  ((cs.dropWhile isJsSpace).reverse.dropWhile isJsSpace).reverse

def digitValue (c : Char) : Option Nat :=
  if '0' ≤ c ∧ c ≤ '9' then some (c.toNat - '0'.toNat)
  else if 'a' ≤ c ∧ c ≤ 'f' then some (c.toNat - 'a'.toNat + 10)
  else if 'A' ≤ c ∧ c ≤ 'F' then some (c.toNat - 'A'.toNat + 10)
  else none

/-- A non-empty run of digits in the given base. -/
def parseDigits (base : Nat) (cs : List Char) : Option Nat :=
  if cs.isEmpty then none
  else cs.foldlM (fun acc c => do
    let d ← digitValue c
    if d < base then some (acc * base + d) else none) 0

/-- A `0x`, `0o` or `0b` literal. -/
def parseRadix : List Char → Option Nat
  | '0' :: 'x' :: rest | '0' :: 'X' :: rest => parseDigits 16 rest
  | '0' :: 'o' :: rest | '0' :: 'O' :: rest => parseDigits 8 rest
  | '0' :: 'b' :: rest | '0' :: 'B' :: rest => parseDigits 2 rest
  | _ => none

def parseSigned : List Char → Option Int
  | '-' :: rest => (parseDigits 10 rest).map fun n => -(n : Int)
  | '+' :: rest => (parseDigits 10 rest).map fun n => (n : Int)
  | rest => (parseDigits 10 rest).map fun n => (n : Int)

/-- `BigInt(text)`; `none` is the `SyntaxError`. The empty string is zero. -/
def bigIntOfString (text : String) : Option Int :=
  let cs := jsTrim text.toList
  if cs.isEmpty then some 0
  else match parseRadix cs with
    | some n => some n
    | none => parseSigned cs

/-- The integer that the double nearest to `a / b` is, for integers below `2 ^ 52`. The doubles around
an integer are `2 ^ -52` of its leading power of two apart, and half of that below such a power. -/
def doubleInteger (a b : Nat) : Option Nat :=
  let n := (2 * a + b) / (2 * b)
  let leading := 2 ^ n.log2
  let near : Bool :=
    if n = 0 then a * 2 ^ 1075 ≤ b
    else if n * b ≤ a then (a - n * b) * 2 ^ 53 ≤ b * leading
    else (n * b - a) * 2 ^ (if n = leading then 54 else 53) ≤ b * leading
  if near then some n else none

/-- An unsigned decimal literal with optional fraction and exponent, when its number is an integer of
at most 20 digits more than it spells out. -/
def parseDecimal (cs : List Char) : Option Nat := do
  let (mantissa, exponentPart) := cs.span fun c => c != 'e' && c != 'E'
  let (whole, fractionPart) := mantissa.span (· != '.')
  let fraction := fractionPart.drop 1
  let digits ← parseDigits 10 (whole ++ fraction)
  let exponent ← if exponentPart.isEmpty then some 0 else parseSigned (exponentPart.drop 1)
  let shift := exponent - (fraction.length : Int)
  if digits = 0 then some 0
  else if 0 ≤ shift then
    if shift ≤ 20 then some (digits * 10 ^ shift.toNat) else none
  else doubleInteger digits (10 ^ (-shift).toNat)

/-- A value that fits a Prisma `Int` column. -/
def prismaInt (n : Int) : Option Int :=
  if -2147483648 ≤ n ∧ n ≤ 2147483647 then some n else none

/-- A value that fits a Prisma `BigInt` column. -/
def fitsBigInt (n : Int) : Prop :=
  -9223372036854775808 ≤ n ∧ n ≤ 9223372036854775807

instance (n : Int) : Decidable (fitsBigInt n) :=
  inferInstanceAs (Decidable (_ ∧ _))

def numberOfString (text : String) : Option Int :=
  let cs := jsTrim text.toList
  if cs.isEmpty then some 0
  else match parseRadix cs with
    | some n => prismaInt n
    | none =>
        match cs with
        | '-' :: rest => (parseDecimal rest).bind fun n => prismaInt (-(n : Int))
        | '+' :: rest => (parseDecimal rest).bind fun n => prismaInt n
        | rest => (parseDecimal rest).bind fun n => prismaInt n

/-- `String.prototype.toLowerCase` and `toUpperCase`, which follow the Unicode
tables of the engine. Nothing here depends on what they do. -/
structure CaseMapping where
  toLowerCase : String → String
  toUpperCase : String → String

/-- The mapping of the letters that addresses are made of. -/
def CaseMapping.ascii : CaseMapping where
  toLowerCase text := String.ofList (text.toList.map Char.toLower)
  toUpperCase text := String.ofList (text.toList.map Char.toUpper)

/-- In milliseconds. -/
def dayLength : Nat := 24 * 60 * 60 * 1000

/-- An optional text as a condition: `undefined` and the empty string are falsy. -/
def truthyText (text : Option String) : Option String :=
  text.filter (· ≠ "")

/-- `String(x)`. -/
def jsString : Option Json → String
  | none => "undefined"
  | some value => value.toJsString

/-- `Number(x)` as the value of an `Int` column. -/
def jsNumber : Option Json → Option Int
  | none => none
  | some .null => some 0
  | some (.bool b) => some (if b then 1 else 0)
  | some (.num n) => prismaInt n
  | some (.str s) => numberOfString s
  | some (.arr items) => numberOfString (Json.arr items).toJsString
  | some (.obj _) => none

/-- `BigInt(x ?? 0)`; `none` is a thrown `SyntaxError`. -/
def jsBigIntOrZero : Option Json → Option Int
  | none | some .null => some 0
  | some (.bool b) => some (if b then 1 else 0)
  | some (.num n) => some n
  | some (.str s) => bigIntOfString s
  | some (.arr items) => bigIntOfString (Json.arr items).toJsString
  | some (.obj _) => none

/-- `Boolean(x)`. -/
def jsBoolean : Option Json → Bool
  | none => false
  | some value => value.truthy

/-- Entry `n` of `Array.isArray(payload) ? payload : [payload, ...defaults]`. -/
def payloadItem (payload : Json) (defaults : List Json) (n : Nat) : Option Json :=
  match payload with
  | .arr items => items[n]?
  | other => (other :: defaults)[n]?

example : bigIntOfString " 1000000000 " = some 1000000000 := by decide
example : numberOfString "1.99999999999999999" = some 2 := by decide

end ChainSettle
