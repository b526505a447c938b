import LoopLowering.Number.Shortest

/-!
How a double is written: shortest digits, positional for decimal exponents from -4 to 15 and with
an exponent otherwise. Two styles differ in the exponent and in the names of what is not finite.
-/

namespace LoopLowering.Number

structure FloatStyle where
  exponentMark : String
  signedExponent : Bool
  fullMantissa : Bool
  infinite : String
  undefined : String

def FloatStyle.source : FloatStyle := ⟨"e", true, false, "inf", "nan"⟩

def FloatStyle.display : FloatStyle := ⟨"E", false, true, "Infinity", "NaN"⟩

def FloatStyle.exponent (st : FloatStyle) (e : Int) : String :=
  let digits := toString e.natAbs
  let padded := if st.signedExponent && digits.length < 2 then "0" ++ digits else digits
  let sign := if e < 0 then "-" else if st.signedExponent then "+" else ""
  st.exponentMark ++ sign ++ padded

def positional (digits : String) (point : Int) : String :=
  let n := digits.length
  if point ≤ 0 then "0." ++ "".pushn '0' (-point).toNat ++ digits
  else if point.toNat < n then
    String.ofList (digits.toList.take point.toNat) ++ "." ++
      String.ofList (digits.toList.drop point.toNat)
  else digits ++ "".pushn '0' (point.toNat - n) ++ ".0"

def FloatStyle.scientific (st : FloatStyle) (digits : String) (e : Int) : String :=
  let mantissa :=
    match digits.toList with
    | [d] => if st.fullMantissa then String.ofList [d, '.', '0'] else String.ofList [d]
    | d :: ds => String.ofList (d :: '.' :: ds)
    | [] => ""
  mantissa ++ st.exponent e

def FloatStyle.format (st : FloatStyle) (x : Float) : String :=
  match read x with
  | .undefined => st.undefined
  | .infinite negative => if negative then "-" ++ st.infinite else st.infinite
  | .finite negative m e =>
    let sign := if negative then "-" else ""
    if m = 0 then sign ++ "0.0" else
    let d := shortest m e
    let digits := toString d.digits
    let point := (digits.length : Int) + d.exponent
    if -3 ≤ point && point ≤ 16 then sign ++ positional digits point
    else sign ++ st.scientific digits (point - 1)

end LoopLowering.Number
