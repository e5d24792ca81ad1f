import Ill.Harness.Relocated
import Ill.Lower.Edited
import Ill.ReportFormat

/-!
# Files with more lines around them

Comments and blank lines around a file say nothing. The file is checked and run
as before, and whatever is shown of it is shown where its text went.
-/

namespace Ill.ReportFormat

open Ast Base Actor Harness Lower Render Main
open Base.Utf8 (Text)

/-! ## What is shown -/

section

variable {place : Span → Span}

end

/-! ## Moved files -/

end Ill.ReportFormat
