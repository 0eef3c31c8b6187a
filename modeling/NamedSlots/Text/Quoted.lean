import NamedSlots.Text.Printable

/-!
# Quoted text

A text stands between single quotes, or between double quotes when it holds a single quote and
no double one. Backslashes, the quote in use and unprintable characters are escaped.
-/

namespace NamedSlots.Text.Quoted

/-- The lower-case hexadecimal digits of `n`, at least `width` of them. -/
def hex (width n : Nat) : List Char :=
  let ds := Nat.toDigits 16 n
  List.replicate (width - ds.length) '0' ++ ds

def escape (quote c : Char) : List Char :=
  if c = '\\' ∨ c = quote then ['\\', c]
  else if c = '\n' then ['\\', 'n']
  else if c = '\r' then ['\\', 'r']
  else if c = '\t' then ['\\', 't']
  else if isPrintable c then [c]
  else if c.toNat < 0x100 then '\\' :: 'x' :: hex 2 c.toNat
  else if c.toNat < 0x10000 then '\\' :: 'u' :: hex 4 c.toNat
  else '\\' :: 'U' :: hex 8 c.toNat

def quoteFor (cs : List Char) : Char :=
  if cs.contains '\'' && !cs.contains '"' then '"' else '\''

def encode (s : String) : String :=
  let cs := s.toList
  let q := quoteFor cs
  String.ofList (q :: cs.flatMap (escape q) ++ [q])

end NamedSlots.Text.Quoted
