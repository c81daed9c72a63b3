import InstrTable.Dictionaries

/-!
The built-in dictionaries and instructions of ARM.
-/

namespace InstrTable.Builtin.Arm

def extensions : List Extension :=
  [{ name := "ARMv6T2" }, { name := "IDIVA" }, { name := "IDIVT" }]

def attributes : List Attribute :=
  [⟨"IT", .texts, "Allowed positions relative to an IT block (IN, OUT, LAST)"⟩,
   ⟨"UNPRED", .text, "Condition under which the instruction is unpredictable"⟩,
   ⟨"VOLATILE", .flag, "Has side effects that cannot be reordered"⟩]

def specialRegisters : List SpecialRegister :=
  [⟨"APSR.N", "APSR", "Negative flag"⟩,
   ⟨"APSR.Z", "APSR", "Zero flag"⟩,
   ⟨"APSR.C", "APSR", "Carry flag"⟩,
   ⟨"APSR.V", "APSR", "Overflow flag"⟩,
   ⟨"APSR.Q", "APSR", "Saturation flag"⟩,
   ⟨"APSR.GE", "APSR", "Greater than or equal flags"⟩]

def shortcuts : List Shortcut :=
  [⟨"NZCV", "N|Z|C|V", "Condition flags"⟩]

def dictionaries : Dictionaries where
  dialect := .arm
  architectures := ["THUMB", "A32", "A64"]
  cpuLevels := ["ARMv6", "ARMv7"]
  extensions := Dictionaries.byName (·.name) extensions
  attributes := Dictionaries.byName (·.name) attributes
  specialRegisters := Dictionaries.byName (·.name) specialRegisters
  shortcuts := Dictionaries.byName (·.name) shortcuts

def entries : List Entry :=
  [⟨"adc/adcs", "Rd, Rn, #ImmA", "A32", "Cond|0010101|S|Rn|Rd|ImmA:12", "Op=Adc APSR.C=R"⟩,
   ⟨"adc/adcs", "Rd, Rn, Rm, \x7bSOP #Shift\x7d", "A32",
    "Cond|0000101|S|Rn|Rd|Shift:5|SOP|0|Rm", "Op=Adc APSR.C=R"⟩,
   ⟨"adc/adcs", "Rd!=PC, Rn!=PC, #ImmA", "T32",
    "11110|ImmA[11]|01010|S|Rn|0|ImmA[10:8]|Rd|ImmA[7:0]", "Op=Adc APSR.C=R"⟩,
   ⟨"adcs", "Rx, Rm", "T16", "0100000101|Rm:3|Rx:3", "Op=Adc APSR.NZCV=W IT=OUT"⟩,
   ⟨"bl", "#RelA", "T32",
    "11110|RelA[24]|RelA[21:12]|11|J1|1|J2|RelA[11:1]", "Op=Call IT=OUT|LAST"⟩,
   ⟨"ldr", "Rd, [Rn, #+/-ImmA]!", "A32", "Cond|010|1|U|0|1|1|Rn|Rd|ImmA:12", "Op=Load"⟩,
   ⟨"ldr", "Rd, [Rn!=PC, #ImmZ]\x7b!\x7d", "T32", "111110000101|Rn|Rd|1|P|U|W|ImmZ:8", "Op=Load"⟩,
   ⟨"mov/movs", "Rd, Rm", "A32", "Cond|0001101|S|0000|Rd|00000000|Rm", "Op=Mov"⟩,
   ⟨"movs", "Rd, #ImmZ", "T16", "00100|Rd:3|ImmZ:8", "Op=Mov APSR.N=W APSR.Z=W IT=OUT"⟩,
   ⟨"nop", "", "T16", "1011111100000000", "IT=IN|OUT"⟩,
   ⟨"push", "RsList", "A32", "Cond|100100101101|RsList:16", "Op=Push"⟩,
   ⟨"rsc/rscs", "Rd, Rn, #ImmA", "A32", "Cond|0010111S|Rn|Rd|ImmA:12", "Op=Rsc APSR.C=R"⟩,
   ⟨"sdiv", "Rd, Rn, Rm", "A32", "Cond|01110001|Rd|1111|Rm|0001|Rn", "IDIVA"⟩,
   ⟨"sdiv", "Rd, Rn, Rm", "T32", "111110111001|Rn|1111|Rd|1111|Rm", "IDIVT"⟩]

def table : Table := ⟨dictionaries, entries⟩

end InstrTable.Builtin.Arm
