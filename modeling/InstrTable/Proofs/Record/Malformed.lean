import InstrTable.Proofs.Operand.Core
import InstrTable.Proofs.Record.Assembly
import InstrTable.Proofs.Record.Decorations
import InstrTable.Proofs.Text.Words

/-!
When an instruction cannot be read. Three texts are split on the way, the list of operands, the
alternatives of an operand of x86 and the components of a memory operand of ARM, and a text that
cannot be split is the only thing that is written wrongly. Where the operands can be split, an
opcode of ARM may still have fixed bits for which there is no room.
-/

namespace InstrTable

namespace Operand

end Operand

theorem mapError_eq_error_iff {ε ε' α : Type} {f : ε → ε'} {x : Except ε α} {e' : ε'} :
    x.mapError f = .error e' ↔ ∃ e, x = .error e ∧ f e = e' := by
  cases x <;> simp [Except.mapError]

namespace Grammar

variable {g : Grammar} {token : String} {fallback : Option Access}

end Grammar

namespace Operand.Arm

variable {cs rest : List Char} {alt : String}

end Operand.Arm

variable {d : Dictionaries}

namespace Record

end Record

end InstrTable
