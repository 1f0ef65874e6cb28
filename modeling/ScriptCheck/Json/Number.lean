import ScriptCheck.Json.Basic

/-!
# Number texts

Reading: a number without fraction and exponent is an integer as long as it fits an unsigned, or
with a sign a signed, 64 bit word; `-0` and integers beyond these are reals. A real is the number
formed by the leading digits that fit 64 bits, multiplied or divided by a power of ten in double
precision; a real beyond the largest double is refused.

Writing: the fewest digits that read back to the same double, positional while the decimal point
falls within the first 16 digits or at most five places before them, and with at least one digit
after the point; otherwise in scientific form.
-/

namespace ScriptCheck.Json

/-! ## Reading -/

/-- The value of a decimal digit. -/
def digit? (c : Char) : Option Nat :=
  if '0' ≤ c ∧ c ≤ '9' then some (c.toNat - '0'.toNat) else none

/-- The leading decimal digits of a text, and what follows them. -/
def digits : List Char → List Nat × List Char
  | [] => ([], [])
  | c :: rest =>
    match digit? c with
    | some d => let (ds, after) := digits rest; (d :: ds, after)
    | none => ([], c :: rest)

/-- Extends a 64 bit number by digits while it fits, and gives the digits left over. -/
def absorb (n : Nat) : List Nat → Nat × List Nat
  | [] => (n, [])
  | d :: rest => if n * 10 + d < Nat.pow 2 64 then absorb (n * 10 + d) rest else (n, d :: rest)

/-- Ten to the power of `n` as a double. -/
def tenPow (n : Nat) : Float := Float.ofScientific 1 false n

/-- Divides by ten to the power of `n`, in steps that each stay within the range of doubles. -/
def divTenPow (x : Float) (n : Nat) : Float :=
  if n ≤ 308 then x / tenPow n
  else if x == 0 then x
  else divTenPow (x / tenPow 308) (n - 308)
termination_by n

/-- `significand * 10 ^ exponent` as a double, or nothing if it is too large. -/
def scale? (significand : Nat) (exponent : Int) : Option Float :=
  let x := significand.toUInt64.toFloat
  if exponent < 0 then some (divTenPow x exponent.natAbs)
  else if exponent ≤ 308 then
    let y := x * tenPow exponent.natAbs
    if y.isInf then none else some y
  else if x == 0 then some x
  else none

/-- The exponent part of a number text: nothing at all, or a mark, a sign and digits to the end. -/
def exponent? : List Char → Option Int
  | [] => some 0
  | mark :: rest =>
    if mark = 'e' ∨ mark = 'E' then
      let (negative, rest) :=
        match rest with
        | '+' :: r => (false, r)
        | '-' :: r => (true, r)
        | r => (false, r)
      match digits rest with
      | ([], _) => none
      | (ds, []) =>
        let n : Nat := ds.foldl (fun n d => n * 10 + d) 0
        some (if negative then -(n : Int) else n)
      | _ => none
    else none

/-- The integer that a digit sequence of either sign stands for, if it is within 64 bits. -/
def integer? (negative : Bool) (n : Nat) : Option Int :=
  if negative then
    if 0 < n ∧ n ≤ Nat.pow 2 63 then some (-(n : Int)) else none
  else some n

/-- A number text without its sign. -/
def unsigned? (negative : Bool) (text : List Char) : Option Json :=
  let (whole, rest) := digits text
  let real? (significand : Nat) (exponent : Int) : Option Json :=
    (scale? significand exponent).map fun x => .real (if negative then -x else x)
  if whole.isEmpty ∨ (whole.head? = some 0 ∧ 1 < whole.length) then none
  else
    let (n, unread) := absorb 0 whole
    match rest with
    | [] =>
      if unread.isEmpty then
        match integer? negative n with
        | some i => some (.int i)
        | none => real? n 0
      else real? n unread.length
    | '.' :: rest =>
      let (places, rest) := digits rest
      if places.isEmpty then none
      else
        let (m, dropped) := absorb n places
        let read := places.length - dropped.length
        (exponent? rest).bind fun e => real? m (e + unread.length - read)
    | rest => (exponent? rest).bind fun e => real? n (e + unread.length)

/-- The value of a complete number text. -/
def number? : List Char → Option Json
  | '-' :: rest => unsigned? true rest
  | text => unsigned? false text

/-- Whether a text without a sign has the form of a number. -/
def isUnsigned (text : List Char) : Bool :=
  let (whole, rest) := digits text
  let isWhole := !whole.isEmpty && (whole.head? != some 0 || whole.length == 1)
  match rest with
  | '.' :: rest =>
    let (places, rest) := digits rest
    isWhole && !places.isEmpty && (exponent? rest).isSome
  | rest => isWhole && (exponent? rest).isSome

/-- Whether a text has the form of a number, however large. -/
def isNumber : List Char → Bool
  | '-' :: rest => isUnsigned rest
  | text => isUnsigned text

/-! ## Writing -/

/-- A positive decimal number `digits * 10 ^ exponent`. -/
structure Decimal where
  digits : Nat
  exponent : Int

/-- The same number without zeros at the end of its digits. -/
def Decimal.trim (d : Decimal) : Decimal :=
  let zeros := ((Nat.toDigits 10 d.digits).reverse.takeWhile (· = '0')).length
  ⟨d.digits / Nat.pow 10 zeros, d.exponent + zeros⟩

/-- The mantissa and the binary exponent of a finite double, and whether the next smaller double
is nearer than the next larger one. -/
def binaryParts (x : Float) : Nat × Int × Bool :=
  let bits := x.toBits.toNat
  let fraction : Nat := bits % Nat.pow 2 52
  let field : Nat := bits / Nat.pow 2 52 % Nat.pow 2 11
  if field = 0 then (fraction, -1074, false)
  else (fraction + Nat.pow 2 52, (field : Int) - 1075, fraction == 0 && 1 < field)

/-- `n * base ^ e` for a positive exponent, and `n` otherwise. -/
def scaleUp (n base : Nat) (e : Int) : Nat := n * Nat.pow base e.toNat

/-- Compares `a * 10 ^ i` with `b * 2 ^ j`. -/
def compareScaled (a : Nat) (i : Int) (b : Nat) (j : Int) : Ordering :=
  compare (scaleUp (scaleUp a 10 i) 2 (-j)) (scaleUp (scaleUp b 2 j) 10 (-i))

/-- The greatest `e` with `10 ^ e ≤ m * 2 ^ q`, for a positive mantissa of a double. -/
def decimalExponent (m : Nat) (q : Int) : Int :=
  let places : Nat := 400
  let n := scaleUp (scaleUp m 10 places) 2 q / scaleUp 1 2 (-q)
  (Nat.toDigits 10 n).length - 1 - (places : Int)

/-- Among decimals of `count` digits, the one that reads back to `m * 2 ^ q`, if there is any. Of
two, the nearer one is taken, and of two at equal distance the even one. -/
def candidate? (m : Nat) (q : Int) (narrow : Bool) (count : Nat) : Option Decimal :=
  let k := decimalExponent m q - (count : Int) + 1
  let low := scaleUp (scaleUp m 2 q) 10 (-k) / scaleUp (scaleUp 1 2 (-q)) 10 k
  let below := if narrow then 4 * m - 1 else 4 * m - 2
  let above := 4 * m + 2
  let inside (d : Nat) : Bool :=
    match compareScaled d k below (q - 2), compareScaled d k above (q - 2) with
    | .gt, .lt => true
    | .eq, _ => m % 2 == 0
    | _, .eq => m % 2 == 0
    | _, _ => false
  match inside low, inside (low + 1) with
  | false, false => none
  | true, false => some ⟨low, k⟩
  | false, true => some ⟨low + 1, k⟩
  | true, true =>
    match compareScaled (2 * low + 1) k (2 * m) q with
    | .gt => some ⟨low, k⟩
    | .lt => some ⟨low + 1, k⟩
    | .eq => some ⟨if low % 2 = 0 then low else low + 1, k⟩

/-- The decimal with the fewest digits that reads back to the positive double `x`. -/
def shortest (x : Float) : Decimal :=
  let (m, q, narrow) := binaryParts x
  match (List.range 17).findSome? fun i => candidate? m q narrow (i + 1) with
  | some d => d.trim
  | none => ⟨scaleUp m 2 q, 0⟩

/-- Writes a positive decimal, positionally where its point lies near its digits. -/
def Decimal.render (d : Decimal) : String :=
  let text := Nat.toDigits 10 d.digits
  let point : Int := text.length + d.exponent
  let zeros (n : Int) : List Char := List.replicate n.toNat '0'
  if 0 ≤ d.exponent ∧ point ≤ 16 then String.ofList (text ++ zeros d.exponent ++ ['.', '0'])
  else if 0 < point ∧ point ≤ 16 then
    String.ofList (text.take point.toNat ++ '.' :: text.drop point.toNat)
  else if -5 < point ∧ point ≤ 0 then String.ofList ('0' :: '.' :: zeros (-point) ++ text)
  else
    let mantissa := match text with
      | [c] => [c]
      | c :: rest => c :: '.' :: rest
      | [] => []
    String.ofList mantissa ++ "e" ++ toString (point - 1)

/-- Writes a finite double. -/
def renderReal (x : Float) : String :=
  let sign := if x.toBits.toNat / Nat.pow 2 63 = 1 then "-" else ""
  let magnitude := x.abs
  sign ++ if magnitude == 0 then "0.0" else (shortest magnitude).render

end ScriptCheck.Json
