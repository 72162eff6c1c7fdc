/-
Instruction names.
-/

namespace Disasm65

/-- The names of instructions over all processors.  `undefined` stands where a processor defines
no instruction. -/
inductive Mnemonic where
  | undefined
  | adc | alr | anc | and | ane | arr | asl
  | bcc | bcs | beq | bit | bmi | bne | bpl | bra | brk | brl | bvc | bvs
  | clc | cld | cli | clv | cmp | cop | cpx | cpy
  | dcp | dec | dex | dey | dop
  | eor
  | inc | inx | iny | isc
  | jam | jml | jmp | jsl | jsr
  | las | lax | lda | ldd | ldx | ldy | lsr
  | mvn | mvp
  | nop
  | ora
  | pea | pei | per | pha | phb | phd | phk | php | phx | phy
  | pla | plb | pld | plp | plx | ply
  | rep | rla | rol | ror | rra | rti | rtl | rts
  | sax | sbc | sbx | sec | sed | sei | sep | sha | shx | shy | slo | sre
  | sta | stp | stx | sty | stz
  | tas | tax | tay | tcd | tcs | tdc | top | trb | tsb | tsc | tsx | txa | txs | txy | tya | tyx
  | wai | wdm
  | xba | xce
deriving DecidableEq

def Mnemonic.name : Mnemonic → String
  | .undefined => "???"
  | .adc => "ADC" | .alr => "ALR" | .anc => "ANC" | .and => "AND" | .ane => "ANE"
  | .arr => "ARR" | .asl => "ASL"
  | .bcc => "BCC" | .bcs => "BCS" | .beq => "BEQ" | .bit => "BIT" | .bmi => "BMI"
  | .bne => "BNE" | .bpl => "BPL" | .bra => "BRA" | .brk => "BRK" | .brl => "BRL"
  | .bvc => "BVC" | .bvs => "BVS"
  | .clc => "CLC" | .cld => "CLD" | .cli => "CLI" | .clv => "CLV" | .cmp => "CMP"
  | .cop => "COP" | .cpx => "CPX" | .cpy => "CPY"
  | .dcp => "DCP" | .dec => "DEC" | .dex => "DEX" | .dey => "DEY" | .dop => "DOP"
  | .eor => "EOR"
  | .inc => "INC" | .inx => "INX" | .iny => "INY" | .isc => "ISC"
  | .jam => "JAM" | .jml => "JML" | .jmp => "JMP" | .jsl => "JSL" | .jsr => "JSR"
  | .las => "LAS" | .lax => "LAX" | .lda => "LDA" | .ldd => "LDD" | .ldx => "LDX"
  | .ldy => "LDY" | .lsr => "LSR"
  | .mvn => "MVN" | .mvp => "MVP"
  | .nop => "NOP"
  | .ora => "ORA"
  | .pea => "PEA" | .pei => "PEI" | .per => "PER" | .pha => "PHA" | .phb => "PHB"
  | .phd => "PHD" | .phk => "PHK" | .php => "PHP" | .phx => "PHX" | .phy => "PHY"
  | .pla => "PLA" | .plb => "PLB" | .pld => "PLD" | .plp => "PLP" | .plx => "PLX"
  | .ply => "PLY"
  | .rep => "REP" | .rla => "RLA" | .rol => "ROL" | .ror => "ROR" | .rra => "RRA"
  | .rti => "RTI" | .rtl => "RTL" | .rts => "RTS"
  | .sax => "SAX" | .sbc => "SBC" | .sbx => "SBX" | .sec => "SEC" | .sed => "SED"
  | .sei => "SEI" | .sep => "SEP" | .sha => "SHA" | .shx => "SHX" | .shy => "SHY"
  | .slo => "SLO" | .sre => "SRE" | .sta => "STA" | .stp => "STP" | .stx => "STX"
  | .sty => "STY" | .stz => "STZ"
  | .tas => "TAS" | .tax => "TAX" | .tay => "TAY" | .tcd => "TCD" | .tcs => "TCS"
  | .tdc => "TDC" | .top => "TOP" | .trb => "TRB" | .tsb => "TSB" | .tsc => "TSC"
  | .tsx => "TSX" | .txa => "TXA" | .txs => "TXS" | .txy => "TXY" | .tya => "TYA"
  | .tyx => "TYX"
  | .wai => "WAI" | .wdm => "WDM"
  | .xba => "XBA" | .xce => "XCE"

end Disasm65
