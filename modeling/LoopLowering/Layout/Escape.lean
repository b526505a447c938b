import LoopLowering.Text.Quoted

/-!
Texts inside character and string literals of source text.
-/

namespace LoopLowering.Layout

def escapeChar (quote c : Char) : List Char :=
  if c = '\n' then ['\\', 'n']
  else if c = '\t' then ['\\', 't']
  else if c = Char.ofNat 8 then ['\\', 'b']
  else if c = '\r' then ['\\', 'r']
  else if c = Char.ofNat 12 then ['\\', 'f']
  else if c = '\\' then ['\\', '\\']
  else if c = quote then ['\\', c]
  else if c.toNat < 0x20 then '\\' :: 'u' :: Text.hexDigits 4 c.toNat
  else [c]

def escape (quote : Char) (s : String) : String :=
  String.ofList (s.toList.flatMap (escapeChar quote))

end LoopLowering.Layout
