import InstrTable.Dictionaries

/-!
The built-in dictionaries and instructions of x86.
-/

namespace InstrTable.Builtin.X86

def extensions : List Extension :=
  [{ name := "I486" }, { name := "MMX" }, { name := "3DNOW", base := "MMX" }, { name := "SSE" },
   { name := "SSE2", base := "SSE" }, { name := "SSE4_2", base := "SSE2" }, { name := "POPCNT" },
   { name := "AVX", base := "SSE4_2" }, { name := "AVX2", base := "AVX" },
   { name := "XOP", base := "AVX" }, { name := "AVX512F", base := "AVX2" },
   { name := "AVX512BW", base := "AVX512F" }, { name := "AVX512VL", base := "AVX512F" },
   { name := "VMX" }, { name := "XSAVE" }]

def attributes : List Attribute :=
  [⟨"LOCK", .flag, "Can be used with LOCK prefix"⟩,
   ⟨"XACQUIRE", .flag, "Can be used with XACQUIRE prefix"⟩,
   ⟨"XRELEASE", .flag, "Can be used with XRELEASE prefix"⟩,
   ⟨"REP", .flag, "Can be used with REP (REPE/REPZ) prefix"⟩,
   ⟨"REPNE", .flag, "Can be used with REPNE (REPNZ) prefix"⟩,
   ⟨"VOLATILE", .flag, "Has side effects that cannot be reordered"⟩,
   ⟨"Deprecated", .flag, "Not available in 64-bit mode"⟩,
   ⟨"XCR", .text, "Access to an extended control register"⟩]

def specialRegisters : List SpecialRegister :=
  [⟨"OF", "FLAGS", "Overflow flag"⟩,
   ⟨"SF", "FLAGS", "Sign flag"⟩,
   ⟨"ZF", "FLAGS", "Zero flag"⟩,
   ⟨"AF", "FLAGS", "Adjust flag"⟩,
   ⟨"PF", "FLAGS", "Parity flag"⟩,
   ⟨"CF", "FLAGS", "Carry flag"⟩,
   ⟨"DF", "FLAGS", "Direction flag"⟩,
   ⟨"IF", "FLAGS", "Interrupt enable flag"⟩,
   ⟨"AC", "FLAGS", "Alignment check flag"⟩,
   ⟨"C0", "FPUSW", "FPU C0 condition flag"⟩,
   ⟨"C1", "FPUSW", "FPU C1 condition flag"⟩,
   ⟨"C2", "FPUSW", "FPU C2 condition flag"⟩,
   ⟨"C3", "FPUSW", "FPU C3 condition flag"⟩]

def shortcuts : List Shortcut :=
  [⟨"_XLock", "LOCK|XACQUIRE|XRELEASE", "All lock prefixes"⟩,
   ⟨"OSZAPC", "OF|SF|ZF|AF|PF|CF", "Arithmetic flags"⟩]

def registerClasses : List (Scalar × RegisterClass) :=
  [(.text "r8", ⟨some (.text "gp"), "r8", ["al", "cl", "dl", "bl", "ah", "ch", "dh", "bh"]⟩),
   (.text "r16", ⟨some (.text "gp"), "r16", ["ax", "cx", "dx", "bx", "sp", "bp", "si", "di"]⟩),
   (.text "r32", ⟨some (.text "gp"), "r32", ["eax", "ecx", "edx", "ebx", "esp", "ebp", "esi", "edi"]⟩),
   (.text "r64", ⟨some (.text "gp"), "r64", ["rax", "rcx", "rdx", "rbx", "rsp", "rbp", "rsi", "rdi"]⟩),
   (.text "rz", ⟨some (.text "gp"), "", ["zax", "zcx", "zdx", "zbx", "zsp", "zbp", "zsi", "zdi"]⟩),
   (.text "mm", ⟨some (.text "mmx"), "mm", ["mm0-7"]⟩),
   (.text "st", ⟨some (.text "fp"), "st(i)", ["st(0-7)"]⟩),
   (.text "xmm", ⟨some (.text "vec"), "xmm", ["xmm0-31"]⟩),
   (.text "ymm", ⟨some (.text "vec"), "ymm", ["ymm0-31"]⟩),
   (.text "zmm", ⟨some (.text "vec"), "zmm", ["zmm0-31"]⟩),
   (.text "k", ⟨some (.text "mask"), "k", ["k0-7"]⟩)]

def dictionaries : Dictionaries where
  dialect := .x86
  architectures := ["ANY", "X86", "X64"]
  cpuLevels := ["I386", "I486"]
  extensions := Dictionaries.byName (·.name) extensions
  attributes := Dictionaries.byName (·.name) attributes
  specialRegisters := Dictionaries.byName (·.name) specialRegisters
  shortcuts := Dictionaries.byName (·.name) shortcuts
  registers := registerTable registerClasses

def entries : List Entry :=
  [⟨"aaa", "X:<ax>", "NONE", "37", "X86 Deprecated OF=U SF=U ZF=U AF=W PF=U CF=W"⟩,
   ⟨"adc", "X:al, ib", "I", "14 ib", "_XLock OF=W SF=W ZF=W AF=W PF=W CF=X"⟩,
   ⟨"adc", "X:r8/m8, ib", "MI", "80 /2 ib", "_XLock OF=W SF=W ZF=W AF=W PF=W CF=X"⟩,
   ⟨"adc", "X:r32/m32, r32", "MR", "11 /r", "_XLock OF=W SF=W ZF=W AF=W PF=W CF=X"⟩,
   ⟨"add", "X:r32/m32, r32", "MR", "01 /r", "_XLock OSZAPC=W"⟩,
   ⟨"bswap", "X:r32", "O", "0F C8+r", "I486"⟩,
   ⟨"call", "rel32", "D", "E8 cd", ""⟩,
   ⟨"cpuid", "X:<eax>, W:<ebx>, X:<ecx>, W:<edx>", "NONE", "0F A2", "I486"⟩,
   ⟨"crc32", "X:r32, r8/m8", "RM", "F2 0F 38 F0 /r", "SSE4_2"⟩,
   ⟨"crc32", "X:r32, r16/m16", "RM", "66 F2 0F 38 F1 /r", "SSE4_2"⟩,
   ⟨"enter", "iw, ib", "II", "C8 iw ib", "VOLATILE"⟩,
   ⟨"fadd", "X:<st(0)>, st(i)", "O", "D8 C0+i", "FPU C0=U C1=W C2=U C3=U"⟩,
   ⟨"fld", "R:m32fp", "M", "D9 /0", "FPU FPU_PUSH C0=U C1=W C2=U C3=U"⟩,
   ⟨"fstp", "W:m32fp", "M", "D9 /3", "FPU FPU_POP=1 C0=U C1=W C2=U C3=U"⟩,
   ⟨"fstsw", "W:m16", "M", "9B DD /7", "FPU C0=U C1=U C2=U C3=U"⟩,
   ⟨"fstsw", "W:<ax>", "NONE", "9B DF E0", "FPU C0=U C1=U C2=U C3=U"⟩,
   ⟨"hlt", "", "NONE", "F4", "PRIVILEGE=L0"⟩,
   ⟨"int", "ib", "I", "CD ib", "VOLATILE"⟩,
   ⟨"invlpg", "R:mem", "M", "0F 01 /7", "PRIVILEGE=L0"⟩,
   ⟨"jecxz", "rel8", "D", "67 E3 cb", "X64"⟩,
   ⟨"jmp", "rel8", "D", "EB cb", ""⟩,
   ⟨"lea", "W:r32, mem", "RM", "8D /r", ""⟩,
   ⟨"lfence", "", "NONE", "0F AE E8", "SSE2"⟩,
   ⟨"mov", "W:r64, iq", "OI", "REX.W B8+r iq", "X64"⟩,
   ⟨"movsb", "X:<es:zdi>, X:<ds:zsi>", "NONE", "A4", "REP DF=R"⟩,
   ⟨"nop", "", "NONE", "90", ""⟩,
   ⟨"pause", "", "NONE", "F3 90", ""⟩,
   ⟨"pfadd", "X:mm, mm/m64", "RM", "0F 0F /r 9E", "3DNOW"⟩,
   ⟨"popcnt", "W:r32, r32/m32", "RM", "F3 0F B8 /r", "POPCNT OF=0 SF=0 ZF=W AF=0 PF=0 CF=0"⟩,
   ⟨"sal/shl", "X:r8/m8, 1", "M1", "D0 /4", "OF=W SF=W ZF=W AF=U PF=W CF=W"⟩,
   ⟨"sal/shl", "X:r8/m8, ib", "MI", "C0 /4 ib", "OF=W SF=W ZF=W AF=U PF=W CF=W"⟩,
   ⟨"salc", "W:<al>", "NONE", "D6", "X86 ?"⟩,
   ⟨"vaddpd", "W:xmm, xmm, xmm/m128", "RVM", "VEX.128.66.0F.WIG 58 /r", "AVX"⟩,
   ⟨"vaddpd", "W:xmm \x7bkz\x7d, xmm, xmm/m128/b64", "RVM-FV",
    "EVEX.128.66.0F.W1 58 /r", "AVX512F-VL"⟩,
   ⟨"vaddpd", "W:zmm \x7bkz\x7d, zmm, zmm/m512/b64 \x7ber\x7d", "RVM-FV",
    "EVEX.512.66.0F.W1 58 /r", "AVX512F"⟩,
   ⟨"vmcall", "", "NONE", "0F 01 C1", "VMX"⟩,
   ⟨"vmovdqu8", "W:xmm \x7bkz\x7d, xmm/m128", "RM-FVM", "EVEX.128.F2.0F.W0 6F /r", "AVX512BW-VL"⟩,
   ⟨"vpcmov", "W:xmm, xmm, xmm/m128, xmm", "RVMR", "XOP.L0.P0.M8.W0 A2 /r /is4", "XOP"⟩,
   ⟨"vpgatherdd", "X:xmm, X:vm32x, X:xmm", "RMV", "VEX.128.66.0F38.W0 90 /r", "AVX2"⟩,
   ⟨"vpshufd", "W:xmm, xmm/m128, ib", "RMI", "VEX.128.66.0F.WIG 70 /r ib", "AVX"⟩,
   ⟨"xgetbv", "W:<edx>, W:<eax>, R:<ecx>", "NONE", "0F 01 D0", "XSAVE XCR=R"⟩]

def table : Table := ⟨dictionaries, entries⟩

end InstrTable.Builtin.X86
