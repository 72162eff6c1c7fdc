/-
The instruction sets, in layers.

A processor's table starts with nothing defined and is overlaid by layers, later ones over earlier
ones: every processor has the documented set of the oldest one, and adds and replaces opcodes.
Opcodes that no manual lists are layers of their own.
-/
import Disasm65.Cpu.Opcode

namespace Disasm65.Layer

/-- Zero is written. -/
def writesZ : FlagRule := .forget [.zero]

/-- Carry is written. -/
def writesC : FlagRule := .forget [.carry]

/-- Negative and zero are written. -/
def writesNZ : FlagRule := .forget [.negative, .zero]

/-- Negative, zero and carry are written. -/
def writesNZC : FlagRule := .forget [.negative, .zero, .carry]

/-- Negative, overflow and zero are written. -/
def writesNVZ : FlagRule := .forget [.negative, .overflow, .zero]

/-- All arithmetic flags are written; so they are when a subroutine has run. -/
def writesNVZC : FlagRule := .forget [.negative, .overflow, .zero, .carry]

/-- An opcode with all its parts. -/
def op (code : UInt8) (mnemonic : Mnemonic) (mode : AddressMode) (effect : FlowEffect)
    (rule : FlagRule) : Opcode :=
  ⟨code, mnemonic, mode, effect, rule, false⟩

/-- An opcode after which the next instruction follows. -/
def plain (code : UInt8) (mnemonic : Mnemonic) (mode : AddressMode) (rule : FlagRule) : Opcode :=
  op code mnemonic mode .next rule

/-- An opcode that gives one flag a fixed value. -/
def force (code : UInt8) (mnemonic : Mnemonic) (flag : Flag) (value : Bool) : Opcode :=
  plain code mnemonic .implied (.force flag value)

/-- A branch taken when the flag has the value. -/
def branch (code : UInt8) (mnemonic : Mnemonic) (flag : Flag) (value : Bool) : Opcode :=
  op code mnemonic .pcRel .conditionalBranch (.test flag value)

/-- The same opcodes, marked as listed in no manual. -/
def undocumented (layer : List Opcode) : List Opcode :=
  layer.map fun op => { op with undocumented := true }

/-- The documented instructions of the 6502. -/
def nmos : List Opcode :=
  [plain 0x69 .adc .imm writesNVZC,
   plain 0x65 .adc .dp writesNVZC,
   plain 0x75 .adc .dpIndexX writesNVZC,
   plain 0x6d .adc .abs writesNVZC,
   plain 0x7d .adc .absIndexX writesNVZC,
   plain 0x79 .adc .absIndexY writesNVZC,
   plain 0x61 .adc .dpIndexXInd writesNVZC,
   plain 0x71 .adc .dpIndIndexY writesNVZC,
   plain 0x29 .and .imm .andImmediate,
   plain 0x25 .and .dp writesNZ,
   plain 0x35 .and .dpIndexX writesNZ,
   plain 0x2d .and .abs writesNZ,
   plain 0x3d .and .absIndexX writesNZ,
   plain 0x39 .and .absIndexY writesNZ,
   plain 0x21 .and .dpIndexXInd writesNZ,
   plain 0x31 .and .dpIndIndexY writesNZ,
   plain 0x0a .asl .accumulator writesNZC,
   plain 0x06 .asl .dp writesNZC,
   plain 0x16 .asl .dpIndexX writesNZC,
   plain 0x0e .asl .abs writesNZC,
   plain 0x1e .asl .absIndexX writesNZC,
   branch 0x10 .bpl .negative false,
   branch 0x30 .bmi .negative true,
   branch 0x50 .bvc .overflow false,
   branch 0x70 .bvs .overflow true,
   branch 0x90 .bcc .carry false,
   branch 0xb0 .bcs .carry true,
   branch 0xd0 .bne .zero false,
   branch 0xf0 .beq .zero true,
   plain 0x24 .bit .dp writesNVZ,
   plain 0x2c .bit .abs writesNVZ,
   op 0x00 .brk .stackInt .stop .keep,
   force 0x18 .clc .carry false,
   force 0xd8 .cld .decimal false,
   force 0x58 .cli .interrupt false,
   force 0xb8 .clv .overflow false,
   plain 0xc9 .cmp .imm writesNZC,
   plain 0xc5 .cmp .dp writesNZC,
   plain 0xd5 .cmp .dpIndexX writesNZC,
   plain 0xcd .cmp .abs writesNZC,
   plain 0xdd .cmp .absIndexX writesNZC,
   plain 0xd9 .cmp .absIndexY writesNZC,
   plain 0xc1 .cmp .dpIndexXInd writesNZC,
   plain 0xd1 .cmp .dpIndIndexY writesNZC,
   plain 0xe0 .cpx .imm writesNZC,
   plain 0xe4 .cpx .dp writesNZC,
   plain 0xec .cpx .abs writesNZC,
   plain 0xc0 .cpy .imm writesNZC,
   plain 0xc4 .cpy .dp writesNZC,
   plain 0xcc .cpy .abs writesNZC,
   plain 0xc6 .dec .dp writesNZ,
   plain 0xd6 .dec .dpIndexX writesNZ,
   plain 0xce .dec .abs writesNZ,
   plain 0xde .dec .absIndexX writesNZ,
   plain 0xca .dex .implied writesNZ,
   plain 0x88 .dey .implied writesNZ,
   plain 0x49 .eor .imm writesNZ,
   plain 0x45 .eor .dp writesNZ,
   plain 0x55 .eor .dpIndexX writesNZ,
   plain 0x4d .eor .abs writesNZ,
   plain 0x5d .eor .absIndexX writesNZ,
   plain 0x59 .eor .absIndexY writesNZ,
   plain 0x41 .eor .dpIndexXInd writesNZ,
   plain 0x51 .eor .dpIndIndexY writesNZ,
   plain 0xe6 .inc .dp writesNZ,
   plain 0xf6 .inc .dpIndexX writesNZ,
   plain 0xee .inc .abs writesNZ,
   plain 0xfe .inc .absIndexX writesNZ,
   plain 0xe8 .inx .implied writesNZ,
   plain 0xc8 .iny .implied writesNZ,
   op 0x4c .jmp .abs .branch .keep,
   op 0x6c .jmp .absInd .branch .keep,
   op 0x20 .jsr .abs .call writesNVZC,
   plain 0xa9 .lda .imm .loadImmediate,
   plain 0xa5 .lda .dp writesNZ,
   plain 0xb5 .lda .dpIndexX writesNZ,
   plain 0xad .lda .abs writesNZ,
   plain 0xbd .lda .absIndexX writesNZ,
   plain 0xb9 .lda .absIndexY writesNZ,
   plain 0xa1 .lda .dpIndexXInd writesNZ,
   plain 0xb1 .lda .dpIndIndexY writesNZ,
   plain 0xa2 .ldx .imm .loadImmediate,
   plain 0xa6 .ldx .dp writesNZ,
   plain 0xb6 .ldx .dpIndexY writesNZ,
   plain 0xae .ldx .abs writesNZ,
   plain 0xbe .ldx .absIndexY writesNZ,
   plain 0xa0 .ldy .imm .loadImmediate,
   plain 0xa4 .ldy .dp writesNZ,
   plain 0xb4 .ldy .dpIndexX writesNZ,
   plain 0xac .ldy .abs writesNZ,
   plain 0xbc .ldy .absIndexX writesNZ,
   plain 0x4a .lsr .accumulator writesNZC,
   plain 0x46 .lsr .dp writesNZC,
   plain 0x56 .lsr .dpIndexX writesNZC,
   plain 0x4e .lsr .abs writesNZC,
   plain 0x5e .lsr .absIndexX writesNZC,
   plain 0xea .nop .implied .keep,
   plain 0x09 .ora .imm .orImmediate,
   plain 0x05 .ora .dp writesNZ,
   plain 0x15 .ora .dpIndexX writesNZ,
   plain 0x0d .ora .abs writesNZ,
   plain 0x1d .ora .absIndexX writesNZ,
   plain 0x19 .ora .absIndexY writesNZ,
   plain 0x01 .ora .dpIndexXInd writesNZ,
   plain 0x11 .ora .dpIndIndexY writesNZ,
   plain 0x48 .pha .stackPush .keep,
   plain 0x08 .php .stackPush .keep,
   plain 0x68 .pla .stackPull writesNZ,
   plain 0x28 .plp .stackPull .pull,
   plain 0x2a .rol .accumulator .rotateLeft,
   plain 0x26 .rol .dp .rotateLeft,
   plain 0x36 .rol .dpIndexX .rotateLeft,
   plain 0x2e .rol .abs .rotateLeft,
   plain 0x3e .rol .absIndexX .rotateLeft,
   plain 0x6a .ror .accumulator .rotateRight,
   plain 0x66 .ror .dp .rotateRight,
   plain 0x76 .ror .dpIndexX .rotateRight,
   plain 0x6e .ror .abs .rotateRight,
   plain 0x7e .ror .absIndexX .rotateRight,
   op 0x40 .rti .stackRti .stop .keep,
   op 0x60 .rts .stackRts .stop .keep,
   plain 0xe9 .sbc .imm writesNVZC,
   plain 0xe5 .sbc .dp writesNVZC,
   plain 0xf5 .sbc .dpIndexX writesNVZC,
   plain 0xed .sbc .abs writesNVZC,
   plain 0xfd .sbc .absIndexX writesNVZC,
   plain 0xf9 .sbc .absIndexY writesNVZC,
   plain 0xe1 .sbc .dpIndexXInd writesNVZC,
   plain 0xf1 .sbc .dpIndIndexY writesNVZC,
   force 0x38 .sec .carry true,
   force 0xf8 .sed .decimal true,
   force 0x78 .sei .interrupt true,
   plain 0x85 .sta .dp .keep,
   plain 0x95 .sta .dpIndexX .keep,
   plain 0x8d .sta .abs .keep,
   plain 0x9d .sta .absIndexX .keep,
   plain 0x99 .sta .absIndexY .keep,
   plain 0x81 .sta .dpIndexXInd .keep,
   plain 0x91 .sta .dpIndIndexY .keep,
   plain 0x86 .stx .dp .keep,
   plain 0x96 .stx .dpIndexY .keep,
   plain 0x8e .stx .abs .keep,
   plain 0x84 .sty .dp .keep,
   plain 0x94 .sty .dpIndexX .keep,
   plain 0x8c .sty .abs .keep,
   plain 0xaa .tax .implied writesNZ,
   plain 0xa8 .tay .implied writesNZ,
   plain 0xba .tsx .implied writesNZ,
   plain 0x8a .txa .implied writesNZ,
   plain 0x9a .txs .implied .keep,
   plain 0x98 .tya .implied writesNZ]

/-- The undocumented instructions of the 6502. -/
def nmosUndocumented : List Opcode := undocumented
  [op 0x02 .jam .implied .stop .keep,
   op 0x12 .jam .implied .stop .keep,
   op 0x22 .jam .implied .stop .keep,
   op 0x32 .jam .implied .stop .keep,
   op 0x42 .jam .implied .stop .keep,
   op 0x52 .jam .implied .stop .keep,
   op 0x62 .jam .implied .stop .keep,
   op 0x72 .jam .implied .stop .keep,
   op 0x92 .jam .implied .stop .keep,
   op 0xb2 .jam .implied .stop .keep,
   op 0xd2 .jam .implied .stop .keep,
   op 0xf2 .jam .implied .stop .keep,
   plain 0x03 .slo .dpIndexXInd writesNZC,
   plain 0x07 .slo .dp writesNZC,
   plain 0x0f .slo .abs writesNZC,
   plain 0x13 .slo .dpIndIndexY writesNZC,
   plain 0x17 .slo .dpIndexX writesNZC,
   plain 0x1b .slo .absIndexY writesNZC,
   plain 0x1f .slo .absIndexX writesNZC,
   plain 0x23 .rla .dpIndexXInd writesNZC,
   plain 0x27 .rla .dp writesNZC,
   plain 0x2f .rla .abs writesNZC,
   plain 0x33 .rla .dpIndIndexY writesNZC,
   plain 0x37 .rla .dpIndexX writesNZC,
   plain 0x3b .rla .absIndexY writesNZC,
   plain 0x3f .rla .absIndexX writesNZC,
   plain 0x43 .sre .dpIndexXInd writesNZC,
   plain 0x47 .sre .dp writesNZC,
   plain 0x4f .sre .abs writesNZC,
   plain 0x53 .sre .dpIndIndexY writesNZC,
   plain 0x57 .sre .dpIndexX writesNZC,
   plain 0x5b .sre .absIndexY writesNZC,
   plain 0x5f .sre .absIndexX writesNZC,
   plain 0x63 .rra .dpIndexXInd writesNVZC,
   plain 0x67 .rra .dp writesNVZC,
   plain 0x6f .rra .abs writesNVZC,
   plain 0x73 .rra .dpIndIndexY writesNVZC,
   plain 0x77 .rra .dpIndexX writesNVZC,
   plain 0x7b .rra .absIndexY writesNVZC,
   plain 0x7f .rra .absIndexX writesNVZC,
   plain 0x83 .sax .dpIndexXInd writesNZ,
   plain 0x87 .sax .dp writesNZ,
   plain 0x8f .sax .abs writesNZ,
   plain 0x97 .sax .dpIndexY writesNZ,
   plain 0xa3 .lax .dpIndexXInd writesNZ,
   plain 0xa7 .lax .dp writesNZ,
   plain 0xaf .lax .abs writesNZ,
   plain 0xb3 .lax .dpIndIndexY writesNZ,
   plain 0xb7 .lax .dpIndexY writesNZ,
   plain 0xbf .lax .absIndexY writesNZ,
   plain 0xab .lax .imm writesNZ,
   plain 0xc3 .dcp .dpIndexXInd writesC,
   plain 0xc7 .dcp .dp writesC,
   plain 0xcf .dcp .abs writesC,
   plain 0xd3 .dcp .dpIndIndexY writesC,
   plain 0xd7 .dcp .dpIndexX writesC,
   plain 0xdb .dcp .absIndexY writesC,
   plain 0xdf .dcp .absIndexX writesC,
   plain 0xe3 .isc .dpIndexXInd writesNVZC,
   plain 0xe7 .isc .dp writesNVZC,
   plain 0xef .isc .abs writesNVZC,
   plain 0xf3 .isc .dpIndIndexY writesNVZC,
   plain 0xf7 .isc .dpIndexX writesNVZC,
   plain 0xfb .isc .absIndexY writesNVZC,
   plain 0xff .isc .absIndexX writesNVZC,
   plain 0x0b .anc .imm writesNZC,
   plain 0x2b .anc .imm writesNZC,
   plain 0x4b .alr .imm writesNZC,
   plain 0x6b .arr .imm writesNVZC,
   plain 0x8b .ane .imm .keep,
   plain 0xcb .sbx .imm writesNZC,
   plain 0xbb .las .absIndexY writesNZ,
   plain 0x9b .tas .absIndexY .keep,
   plain 0x93 .sha .dpIndIndexY .keep,
   plain 0x9f .sha .absIndexY .keep,
   plain 0x9c .shy .absIndexX .keep,
   plain 0x9e .shx .absIndexY .keep,
   plain 0x04 .dop .dp .keep,
   plain 0x44 .dop .dp .keep,
   plain 0x64 .dop .dp .keep,
   plain 0x14 .dop .dpIndexX .keep,
   plain 0x34 .dop .dpIndexX .keep,
   plain 0x54 .dop .dpIndexX .keep,
   plain 0x74 .dop .dpIndexX .keep,
   plain 0xd4 .dop .dpIndexX .keep,
   plain 0xf4 .dop .dpIndexX .keep,
   plain 0x80 .dop .imm .keep,
   plain 0x82 .dop .imm .keep,
   plain 0x89 .dop .imm .keep,
   plain 0xc2 .dop .imm .keep,
   plain 0xe2 .dop .imm .keep,
   plain 0x0c .top .abs .keep,
   plain 0x1c .top .absIndexX .keep,
   plain 0x3c .top .absIndexX .keep,
   plain 0x5c .top .absIndexX .keep,
   plain 0x7c .top .absIndexX .keep,
   plain 0xdc .top .absIndexX .keep,
   plain 0xfc .top .absIndexX .keep,
   plain 0x1a .nop .implied .keep,
   plain 0x3a .nop .implied .keep,
   plain 0x5a .nop .implied .keep,
   plain 0x7a .nop .implied .keep,
   plain 0xda .nop .implied .keep,
   plain 0xfa .nop .implied .keep,
   plain 0xeb .sbc .imm writesNVZC]

/-- What the 65C02 adds and replaces. -/
def cmos : List Opcode :=
  [plain 0x12 .ora .dpInd writesNZ,
   plain 0x32 .and .dpInd writesNZ,
   plain 0x52 .eor .dpInd writesNZ,
   plain 0x72 .adc .dpInd writesNVZC,
   plain 0x92 .sta .dpInd .keep,
   plain 0xb2 .lda .dpInd writesNZ,
   plain 0xd2 .cmp .dpInd writesNZC,
   plain 0xf2 .sbc .dpInd writesNVZC,
   plain 0x89 .bit .imm writesZ,
   plain 0x34 .bit .dpIndexX writesNVZ,
   plain 0x3c .bit .absIndexX writesNVZ,
   plain 0x1a .inc .accumulator writesNZ,
   plain 0x3a .dec .accumulator writesNZ,
   plain 0x04 .tsb .dp writesZ,
   plain 0x0c .tsb .abs writesZ,
   plain 0x14 .trb .dp writesZ,
   plain 0x1c .trb .abs writesZ,
   plain 0x64 .stz .dp .keep,
   plain 0x74 .stz .dpIndexX .keep,
   plain 0x9c .stz .abs .keep,
   plain 0x9e .stz .absIndexX .keep,
   plain 0x5a .phy .stackPush .keep,
   plain 0x7a .ply .stackPull writesNZ,
   plain 0xda .phx .stackPush .keep,
   plain 0xfa .plx .stackPull writesNZ,
   op 0x80 .bra .pcRel .branch .keep,
   op 0x7c .jmp .absIndexXInd .branch .keep]

/-- The opcodes the 65C02 reserves: they do nothing, at various lengths.  One-byte ones fill the
columns 3, 7, B and F. -/
def cmosUndocumented : List Opcode := undocumented
  (((List.range 16).flatMap fun row => [0x03, 0x07, 0x0b, 0x0f].map fun column =>
      plain (UInt8.ofNat (row * 16 + column)) .nop .implied .keep)
    ++
    [plain 0x02 .ldd .imm .keep,
     plain 0x22 .ldd .imm .keep,
     plain 0x42 .ldd .imm .keep,
     plain 0x62 .ldd .imm .keep,
     plain 0x82 .ldd .imm .keep,
     plain 0xc2 .ldd .imm .keep,
     plain 0xe2 .ldd .imm .keep,
     plain 0x44 .ldd .dp .keep,
     plain 0x54 .ldd .dpIndexX .keep,
     plain 0xd4 .ldd .dpIndexX .keep,
     plain 0xf4 .ldd .dpIndexX .keep,
     plain 0x5c .ldd .abs .keep,
     plain 0xdc .ldd .abs .keep,
     plain 0xfc .ldd .abs .keep])

/-- What the 65816 adds to the 65C02 and replaces. -/
def wide : List Opcode :=
  [op 0x02 .cop .stackInt .next .keep,
   plain 0x03 .ora .stackRel writesNZ,
   plain 0x07 .ora .dpIndLong writesNZ,
   plain 0x0f .ora .absLong writesNZ,
   plain 0x13 .ora .stackRelIndIndexY writesNZ,
   plain 0x17 .ora .dpIndIndexYLong writesNZ,
   plain 0x1f .ora .absIndexXLong writesNZ,
   plain 0x23 .and .stackRel writesNZ,
   plain 0x27 .and .dpIndLong writesNZ,
   plain 0x2f .and .absLong writesNZ,
   plain 0x33 .and .stackRelIndIndexY writesNZ,
   plain 0x37 .and .dpIndIndexYLong writesNZ,
   plain 0x3f .and .absIndexXLong writesNZ,
   plain 0x43 .eor .stackRel writesNZ,
   plain 0x47 .eor .dpIndLong writesNZ,
   plain 0x4f .eor .absLong writesNZ,
   plain 0x53 .eor .stackRelIndIndexY writesNZ,
   plain 0x57 .eor .dpIndIndexYLong writesNZ,
   plain 0x5f .eor .absIndexXLong writesNZ,
   plain 0x63 .adc .stackRel writesNVZC,
   plain 0x67 .adc .dpIndLong writesNVZC,
   plain 0x6f .adc .absLong writesNVZC,
   plain 0x73 .adc .stackRelIndIndexY writesNVZC,
   plain 0x77 .adc .dpIndIndexYLong writesNVZC,
   plain 0x7f .adc .absIndexXLong writesNVZC,
   plain 0x83 .sta .stackRel .keep,
   plain 0x87 .sta .dpIndLong .keep,
   plain 0x8f .sta .absLong .keep,
   plain 0x93 .sta .stackRelIndIndexY .keep,
   plain 0x97 .sta .dpIndIndexYLong .keep,
   plain 0x9f .sta .absIndexXLong .keep,
   plain 0xa3 .lda .stackRel writesNZ,
   plain 0xa7 .lda .dpIndLong writesNZ,
   plain 0xaf .lda .absLong writesNZ,
   plain 0xb3 .lda .stackRelIndIndexY writesNZ,
   plain 0xb7 .lda .dpIndIndexYLong writesNZ,
   plain 0xbf .lda .absIndexXLong writesNZ,
   plain 0xc3 .cmp .stackRel writesNZC,
   plain 0xc7 .cmp .dpIndLong writesNZC,
   plain 0xcf .cmp .absLong writesNZC,
   plain 0xd3 .cmp .stackRelIndIndexY writesNZC,
   plain 0xd7 .cmp .dpIndIndexYLong writesNZC,
   plain 0xdf .cmp .absIndexXLong writesNZC,
   plain 0xe3 .sbc .stackRel writesNVZC,
   plain 0xe7 .sbc .dpIndLong writesNVZC,
   plain 0xef .sbc .absLong writesNVZC,
   plain 0xf3 .sbc .stackRelIndIndexY writesNVZC,
   plain 0xf7 .sbc .dpIndIndexYLong writesNVZC,
   plain 0xff .sbc .absIndexXLong writesNVZC,
   plain 0x0b .phd .stackPush .keep,
   plain 0x2b .pld .stackPull writesNZ,
   plain 0x4b .phk .stackPush .keep,
   plain 0x8b .phb .stackPush .keep,
   plain 0xab .plb .stackPull writesNZ,
   plain 0x1b .tcs .implied .keep,
   plain 0x3b .tsc .implied writesNZ,
   plain 0x5b .tcd .implied writesNZ,
   plain 0x7b .tdc .implied writesNZ,
   plain 0x9b .txy .implied writesNZ,
   plain 0xbb .tyx .implied writesNZ,
   plain 0xeb .xba .implied writesNZ,
   plain 0xfb .xce .implied .exchangeEmulation,
   plain 0xcb .wai .implied .keep,
   op 0xdb .stp .implied .stop .keep,
   op 0x22 .jsl .absLong .call writesNVZC,
   op 0x5c .jml .absLong .branch .keep,
   op 0xdc .jml .absIndLong .branch .keep,
   op 0xfc .jsr .absIndexXInd .call writesNVZC,
   op 0x6b .rtl .stackRtl .stop .keep,
   plain 0x44 .mvp .blockMove .keep,
   plain 0x54 .mvn .blockMove .keep,
   plain 0xd4 .pei .stackDpInd .keep,
   plain 0xf4 .pea .stackAbs .keep,
   plain 0x62 .per .stackPcRelLong .keep,
   op 0x82 .brl .pcRelLong .branch .keep,
   plain 0xc2 .rep .imm .clearSelected,
   plain 0xe2 .sep .imm .setSelected,
   plain 0x42 .wdm .wdm .keep,
   plain 0x09 .ora .immAccumulator .orImmediate,
   plain 0x29 .and .immAccumulator .andImmediate,
   plain 0x49 .eor .immAccumulator writesNZ,
   plain 0x69 .adc .immAccumulator writesNVZC,
   plain 0x89 .bit .immAccumulator writesZ,
   plain 0xa9 .lda .immAccumulator .loadImmediate,
   plain 0xc9 .cmp .immAccumulator writesNZC,
   plain 0xe9 .sbc .immAccumulator writesNVZC,
   plain 0xa0 .ldy .immIndex .loadImmediate,
   plain 0xa2 .ldx .immIndex .loadImmediate,
   plain 0xc0 .cpy .immIndex writesNZC,
   plain 0xe0 .cpx .immIndex writesNZC]

end Disasm65.Layer
