import Ill.Harness.Harness
import Ill.Lower.Recovery
import Ill.Render
import Mathlib.Algebra.GroupWithZero.Nat
import Mathlib.Data.List.Forall2

/-!
# The commands `ill check` and `ill test`

Both commands check every selected file first. `ill check` renders what the
check reports and counts it; `ill test` refuses to run anything unless the
whole list is free of errors. The runs themselves are a parameter: a run may
depend on everything run before it.
-/

namespace Ill.Main

open Ast Lower Render Harness
open Base.Utf8 (Text)

def hasError (file : CheckedFile) : Bool :=
  file.diags.any fun d => d.severity = .error

section

variable {parse : Text → Node}

end

/-! ## Concrete lists -/

end Ill.Main
