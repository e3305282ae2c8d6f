import Startup.Decimal.Shortest
import Startup.Text.Digits

/-!
# Written decimals

How a double is written: the decimal exponents that are written positionally, and which of two
equally near texts is taken. A positional text always has a digit on both sides of its point.
-/

namespace Startup.Decimal

/-- Numbers with a decimal exponent outside the two limits are written with an exponent. -/
structure Style where
  lowest : Option Int
  highest : Option Int
  tie : Tie

def Style.document : Style :=
  ⟨some (-5), some 15, .even⟩

def Style.report : Style :=
  ⟨none, none, .up⟩

def zeros (n : Nat) : String :=
  String.ofList (List.replicate n '0')

def positional (digits : List Char) (exponent : Int) : String :=
  let count := digits.length
  if exponent < 0 then "0." ++ zeros (-exponent - 1).toNat ++ String.ofList digits
  else if count ≤ exponent.toNat + 1 then
    String.ofList digits ++ zeros (exponent.toNat + 1 - count) ++ ".0"
  else
    String.ofList (digits.take (exponent.toNat + 1)) ++ "." ++
      String.ofList (digits.drop (exponent.toNat + 1))

def signed (exponent : Int) : String :=
  (if exponent < 0 then "-" else "+") ++ Text.decimal exponent.natAbs

def scientific (digits : List Char) (exponent : Int) : String :=
  String.ofList (digits.take 1) ++
    (if digits.length = 1 then "" else "." ++ String.ofList (digits.drop 1)) ++ "e" ++
    signed exponent

def Style.isPositional (style : Style) (exponent : Int) : Bool :=
  style.lowest.all (· ≤ exponent) && style.highest.all (exponent ≤ ·)

def Style.write (style : Style) (x : Float) : String :=
  let sign := if x.toBits.toNat < Nat.pow 2 63 then "" else "-"
  match Binary.ofFloat? x with
  | none => sign ++ "0.0"
  | some b =>
    let s := b.shortest style.tie
    let digits := Nat.toDigits 10 s.significand
    let exponent := s.exponent + (digits.length - 1 : Nat)
    sign ++
      if style.isPositional exponent then positional digits exponent else scientific digits exponent

end Startup.Decimal
