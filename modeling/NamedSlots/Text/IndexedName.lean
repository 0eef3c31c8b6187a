import NamedSlots.Shape
import NamedSlots.Text.Numeral

/-!
# Indexed names

A name may carry indices in brackets, as in `pos[0,1]`. Reading splits such a text into the
base and the indices; a text that is not of this form is a base without indices.
-/

namespace NamedSlots.Text.IndexedName

def splitCommas (cs : List Char) : List (List Char) :=
  cs.splitOn ','

def parse (name : String) : String × List Int :=
  let cs := name.toList
  let base := cs.takeWhile (· != '[')
  match cs.dropWhile (· != '[') with
  | [] => (name, [])
  | _ :: rest =>
    if cs.getLast? = some ']' then
      match (splitCommas rest.dropLast).mapM fun part => Numeral.integer? (String.ofList part) with
      | some indices => (String.ofList base, indices)
      | none => (name, [])
    else (name, [])

def format (base : String) (indices : List Index) : String :=
  base ++ Index.bracketed indices

end NamedSlots.Text.IndexedName
