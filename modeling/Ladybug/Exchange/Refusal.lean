import Ladybug.Decimal.Whole
import Ladybug.Fault

/-!
# Refusals: why a document is not taken

Most documents that cannot be taken have a fault. Three mistakes are reported in ways of their own:
a size or a coordinate that is too large, a whole number with too many digits, and half a character
where only whole ones can be read.
-/

namespace Ladybug.Exchange
open Ladybug

inductive Refusal where
  | fault (f : Fault)
  | tooLarge
  | tooLong (digits : Nat)
  | half
deriving DecidableEq, Repr

/-- A result that may have a fault, as one that may be refused. -/
def orRefusal {α : Type} (r : Except Fault α) : Except Refusal α := r.mapError .fault

end Ladybug.Exchange
