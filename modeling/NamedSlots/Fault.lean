/-!
# Faults

The kinds of failure. A fault without further detail comes out of arithmetic, storage access or
a violated declaration; the failures of the library itself add the detail.
-/

namespace NamedSlots

inductive Fault
  | wrongType | wrongValue | outOfRange | missingKey | missingAttribute
  | overflow | divisionByZero | notImplemented | mismatch
  | badArgument | badResult
  | unknownSymbol | ambiguousSymbol | missingCapability | notSettable | versionMismatch
  | general
deriving DecidableEq, Repr

/-- The wider families that faults belong to. -/
inductive Family
  | library | lookup | type
deriving DecidableEq, Repr

namespace Fault

def families : Fault → List Family
  | unknownSymbol => [.library, .lookup]
  | notSettable => [.library, .type]
  | ambiguousSymbol | missingCapability | versionMismatch | general => [.library]
  | outOfRange | missingKey => [.lookup]
  | wrongType => [.type]
  | _ => []

end Fault
end NamedSlots
