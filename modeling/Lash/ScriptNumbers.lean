import Mathlib.Algebra.Group.Int.Defs
import Mathlib.Algebra.GroupWithZero.Nat

/-!
# The numbers of the script language

A number is a double. Sums, products, quotients and comparisons are the ones of
the format; here are the conversions to integers, the remainder, and the texts a
number is read from and shown as.
-/

namespace ScriptNumbers

variable (x : Float)

/-- The integer part. It is zero where there is none. -/
def integerPart : Int := x.toModel.unpack.toInt 0 0

def ofInt (n : Int) : Float := .ofModel (.ofInt n)

def ofNat (n : Nat) : Float := ofInt n

/-- The conversion `as i64`: rounded towards zero, clamped, zero for a value that is no number. -/
def asI64 : Int := x.toModel.toInt64.toInt

/-- The conversion `as u64`. -/
def asU64 : Nat := x.toUInt64.toNat

/-- Whether a finite number has no fractional part. -/
def isIntegral : Bool :=
  match x.toModel.unpack with
  | .zero _ => true
  | .finite _ m e _ => decide (0 ≤ e) || m % 2 ^ (-e).toNat == 0
  | .infinity _ | .notANumber => false

def isNegative : Bool :=
  match x.toModel.unpack with
  | .zero s | .infinity s | .finite s _ _ _ => s == .negative
  | .notANumber => false

def trunc : Float :=
  if isIntegral x || !x.isFinite then x
  else if integerPart x = 0 then (if isNegative x then -0.0 else 0.0)
  else ofInt (integerPart x)

def floor : Float :=
  if isIntegral x || !x.isFinite then x
  else if isNegative x then ofInt (integerPart x - 1)
  else ofInt (integerPart x)

def ceil : Float :=
  if isIntegral x || !x.isFinite then x
  else if isNegative x then trunc x
  else ofInt (integerPart x + 1)

/-- The remainder `a % b`: exact, with the sign of the dividend. -/
def remainder (a b : Float) : Float :=
  match a.toModel.unpack, b.toModel.unpack with
  | .notANumber, _ | _, .notANumber | .infinity _, _ | _, .zero _ => 0.0 / 0.0
  | _, .infinity _ | .zero _, _ => a
  | .finite s m e _, .finite _ n f _ =>
    let low := min e f
    let rest := (m * 2 ^ (e - low).toNat) % (n * 2 ^ (f - low).toNat)
    .ofModel (.pack (.normalize .binary64 (s.apply rest) low s))

/-! ## Texts -/

def isWhiteSpace (c : Char) : Bool :=
  let n := c.toNat
  (9 ≤ n && n ≤ 13) || n == 32 || n == 0x85 || n == 0xA0 || n == 0x1680 ||
    (0x2000 ≤ n && n ≤ 0x200A) || n == 0x2028 || n == 0x2029 || n == 0x202F ||
    n == 0x205F || n == 0x3000

def trimChars (cs : List Char) : List Char :=
  ((cs.dropWhile isWhiteSpace).reverse.dropWhile isWhiteSpace).reverse

def trimText (text : String) : String := String.ofList (trimChars text.toList)

def digitsValue (digits : List Char) : Nat :=
  digits.foldl (fun n c => 10 * n + (c.toNat - '0'.toNat)) 0

def scientific (mantissa : Nat) (exponent : Int) : Float :=
  .ofModel (.ofScientific mantissa exponent)

/-- The exponent that ends a numeral: nothing, or `e`, a sign and digits. -/
def parseExponent : List Char → Option Int
  | [] => some 0
  | c :: rest =>
    if c = 'e' ∨ c = 'E' then
      let (negative, digits) := match rest with
        | '-' :: ds => (true, ds)
        | '+' :: ds => (false, ds)
        | ds => (false, ds)
      if digits.isEmpty || !digits.all Char.isDigit then none
      else some (if negative then -(digitsValue digits : Int) else digitsValue digits)
    else none

def parseMagnitude (cs : List Char) : Option Float :=
  let lower := String.ofList (cs.map Char.toLower)
  if lower = "inf" ∨ lower = "infinity" then some (1.0 / 0.0)
  else if lower = "nan" then some (0.0 / 0.0)
  else
    let whole := cs.takeWhile Char.isDigit
    let (fraction, rest) := match cs.dropWhile Char.isDigit with
      | '.' :: ds => (ds.takeWhile Char.isDigit, ds.dropWhile Char.isDigit)
      | ds => ([], ds)
    if whole.isEmpty && fraction.isEmpty then none
    else (parseExponent rest).map fun exponent =>
      scientific (digitsValue (whole ++ fraction)) (exponent - fraction.length)

/-- The number a text stands for, as `str::parse::<f64>` reads it. -/
def parseNumber (text : String) : Option Float :=
  match text.toList with
  | '-' :: cs => (parseMagnitude cs).map fun x => -x
  | '+' :: cs => parseMagnitude cs
  | cs => parseMagnitude cs

/-- The multiple of `10 ^ k` that is nearest to `m * 2 ^ e`. -/
def nearestMultiple (m : Nat) (e k : Int) : Nat :=
  let numerator := m * 2 ^ e.toNat * 10 ^ (-k).toNat
  let denominator := 2 ^ (-e).toNat * 10 ^ k.toNat
  (2 * numerator + denominator) / (2 * denominator)

/-- The shortest decimal that is read back as the number: its digits and its last place. -/
def shortestDecimal : Nat × Int :=
  match x.toModel.unpack with
  | .finite _ m e _ =>
    let found := (List.range 660).findSome? fun (i : Nat) =>
      let k : Int := 308 - i
      let q := nearestMultiple m e k
      if q ≠ 0 ∧ scientific q k = x.abs then some (q, k) else none
    found.getD (0, 0)
  | _ => (0, 0)

def zeros (n : Nat) : String := String.ofList (List.replicate n '0')

def signText : String := if isNegative x then "-" else ""

/-- A digit string with the decimal point set before its last `places` digits. -/
def withPoint (digits : String) (places : Nat) : String :=
  if places < digits.length then
    String.ofList (digits.toList.take (digits.length - places)) ++ "." ++
      String.ofList (digits.toList.drop (digits.length - places))
  else "0." ++ zeros (places - digits.length) ++ digits

/-- The number as `Display` shows it, without an exponent. -/
def displayNumber : String :=
  if x.isNaN then "NaN"
  else if x.isInf then signText x ++ "inf"
  else
    let (q, k) := shortestDecimal x
    let digits := toString q
    signText x ++ if 0 ≤ k then digits ++ zeros k.toNat else withPoint digits (-k).toNat

/-- The number as a JSON text shows it, with an exponent where it is far from one. -/
def jsonFloatText : String :=
  let (q, k) := shortestDecimal x
  let digits := toString q
  let point : Int := digits.length + k
  signText x ++
    if 0 ≤ k ∧ point ≤ 16 then digits ++ zeros k.toNat ++ ".0"
    else if -5 < point ∧ point ≤ 16 then withPoint digits (-k).toNat
    else
      let mantissa := if digits.length = 1 then digits else withPoint digits (digits.length - 1)
      mantissa ++ "e" ++ toString (point - 1)

/-- A number that is written as an integer, by what it is converted to. -/
inductive WholeNumber where
  | signed (n : Int)
  | unsigned (n : Nat)
deriving DecidableEq

/-- The check both writers of numbers make: does the value survive a round trip through an
integer type? -/
def wholeNumber : Option WholeNumber :=
  if x.isFinite && isIntegral x then
    if ofInt (asI64 x) == x then some (.signed (asI64 x))
    else if ofInt (asU64 x) == x then some (.unsigned (asU64 x))
    else none
  else none

/-- The source's `write_number`. -/
def writeNumber : String :=
  match wholeNumber x with
  | some (.signed n) => toString n
  | some (.unsigned n) => toString n
  | none => displayNumber x

end ScriptNumbers
