/-
The persisted forms of the library's records.

Reading checks the form only: whether numbers fit and names are known.  What a constructor would
refuse can be read, except a status with undefined bits.
-/
import Disasm65.AddressMap
import Disasm65.Cpu.Processor
import Disasm65.Image.Attribute
import Disasm65.Persist.BitSet
import Disasm65.Report
import Disasm65.Symbol.Definition

namespace Disasm65

/-- A status, packed in one number. -/
def StatusFlags.codec : Codec StatusFlags where
  write status := .nat status.pack
  read? json :=
    match (Codec.word 32).read? json with
    | some value => (unpack value).toOption
    | none => none

def Family.codec : Codec Family := .named all name

def Hint.codec : Codec Hint := .named all name

def Verdict.codec : Codec Verdict := .named all name

def LabelPart.codec : Codec LabelPart := .named all name

def LabelRef.codec : Codec LabelRef where
  write ref := .object [("label", .string ref.label), ("part", LabelPart.codec.write ref.part)]
  read? json := do
    let record ← Record.ofJson? ["label", "part"] json
    return {
      label := ← record.get "label" .text
      part := ← record.get "part" LabelPart.codec }

def FormatKind.codec : Codec FormatKind := .named all name

def FormatDetail.codec : Codec FormatDetail := .named all name

def Format.codec : Codec Format where
  write format := .object [
    ("length", .nat format.length),
    ("format_type", FormatKind.codec.write format.kind),
    ("sub_type", FormatDetail.codec.write format.detail),
    ("symbol_ref", LabelRef.codec.option.write format.label)]
  read? json := do
    let record ← Record.ofJson? ["length", "format_type", "sub_type", "symbol_ref"] json
    return {
      length := ← record.get "length" (.word 64)
      kind := ← record.get "format_type" FormatKind.codec
      detail := ← record.get "sub_type" FormatDetail.codec
      label := ← record.get? "symbol_ref" LabelRef.codec }

def Origin.codec : Codec Origin := .named all name

def SymbolKind.codec : Codec SymbolKind := .named all name

def Remark.codec : Codec Remark := .named all name

def Symbol.codec : Codec Symbol where
  write symbol := .object [
    ("label", .string symbol.label),
    ("value", .nat symbol.value),
    ("source", Origin.codec.write symbol.origin),
    ("sym_type", SymbolKind.codec.write symbol.kind),
    ("anno", Remark.codec.write symbol.remark)]
  read? json := do
    let record ← Record.ofJson? ["label", "value", "source", "sym_type", "anno"] json
    return {
      label := ← record.get "label" .text
      value := ← record.get "value" (.word 32)
      origin := ← record.get "source" Origin.codec
      kind := ← record.get "sym_type" SymbolKind.codec
      remark := ← record.getD "anno" Remark.codec .plain }

/-- The names of the directions of access. -/
def Access.names : BitNames 8 where
  single := [("READ", read.bits), ("WRITE", write.bits)]
  combined := [("READ_WRITE", readWrite.bits)]

def Access.codec : Codec Access where
  write access := names.codec.write access.bits
  read? json := (names.codec.read? json).map Access.mk

def RepeatMask.codec : Codec RepeatMask where
  write mask := .object [
    ("compare_mask", .nat mask.compareMask),
    ("compare_value", .nat mask.compareValue),
    ("address_mask", .nat mask.addressMask)]
  read? json := do
    let record ← Record.ofJson? ["compare_mask", "compare_value", "address_mask"] json
    return {
      compareMask := ← record.get "compare_mask" (.word 32)
      compareValue := ← record.get "compare_value" (.word 32)
      addressMask := ← record.get "address_mask" (.word 32) }

def Definition.codec : Codec Definition where
  write definition := .object [
    ("symbol", Symbol.codec.write definition.symbol),
    ("data_descriptor", Format.codec.write definition.format),
    ("has_width", .bool definition.hasWidth),
    ("comment", .string definition.comment),
    ("tag", .string definition.tag),
    ("direction", Access.codec.write definition.access),
    ("multi_mask", RepeatMask.codec.option.write definition.mask),
    ("load_ordinal", .integer definition.loadOrdinal),
    ("file_ident", .string definition.file)]
  read? json := do
    let record ← Record.ofJson? ["symbol", "data_descriptor", "has_width", "comment", "tag",
      "direction", "multi_mask", "load_ordinal", "file_ident"] json
    return {
      symbol := ← record.get "symbol" Symbol.codec
      format := ← record.get "data_descriptor" Format.codec
      hasWidth := ← record.get "has_width" .bool
      comment := ← record.get "comment" .text
      tag := ← record.get "tag" .text
      access := ← record.get "direction" Access.codec
      mask := ← record.get? "multi_mask" RepeatMask.codec
      loadOrdinal := ← record.get "load_ordinal" (.signed 32)
      file := ← record.get "file_ident" .text }

/-- An entry, under a name that tells labels from definitions. -/
def Entry.codec : Codec Entry where
  write
    | .label symbol => .object [("Label", Symbol.codec.write symbol)]
    | .defined definition => .object [("Def", Definition.codec.write definition)]
  read?
    | .object [("Label", json)] => (Symbol.codec.read? json).map .label
    | .object [("Def", json)] => (Definition.codec.read? json).map .defined
    | _ => none

def Region.codec : Codec Region where
  write region := .object [
    ("offset", .nat region.offset),
    ("length", .nat region.length),
    ("address", .nat region.address)]
  read? json := do
    let record ← Record.ofJson? ["offset", "length", "address"] json
    return {
      offset := ← record.get "offset" (.word 64)
      length := ← record.get "length" (.word 64)
      address := ← record.get "address" (.word 32) }

def AddressMap.codec : Codec AddressMap where
  write map := .object [
    ("entries", Region.codec.list.write map.regions),
    ("total_length", .nat map.totalLength)]
  read? json := do
    let record ← Record.ofJson? ["entries", "total_length"] json
    return {
      regions := ← record.get "entries" Region.codec.list
      totalLength := ← record.get "total_length" (.word 64) }

def Severity.codec : Codec Severity := .named all name

def Topic.codec : Codec Topic := .named all name

def Resolution.codec : Codec Resolution := .named all name

def Message.codec : Codec Message where
  write message := .object [
    ("severity", Severity.codec.write message.severity),
    ("offset", .nat message.offset),
    ("msg_type", Topic.codec.write message.topic),
    ("context", .string message.context),
    ("resolution", Resolution.codec.write message.resolution)]
  read? json := do
    let record ← Record.ofJson? ["severity", "offset", "msg_type", "context", "resolution"] json
    return {
      severity := ← record.get "severity" Severity.codec
      offset := ← record.get "offset" (.word 64)
      topic := ← record.get "msg_type" Topic.codec
      context := ← record.get "context" .text
      resolution := ← record.get "resolution" Resolution.codec }

def Report.codec : Codec Report where
  write report := .object [("entries", Message.codec.list.write report)]
  read? json := do
    let record ← Record.ofJson? ["entries"] json
    record.get "entries" Message.codec.list

/-- The names of the marks. -/
def Marks.names : BitNames 16 where
  single := Mark.all.map fun mark => (mark.name, BitVec.twoPow 16 mark.position)
  combined := []

def Marks.codec : Codec Marks where
  write marks := names.codec.write marks.bits
  read? json := (names.codec.read? json).map Marks.mk

def Attribute.codec : Codec Attribute where
  write a := .object [
    ("flags", Marks.codec.write a.marks),
    ("address", .nat a.address),
    ("instr_length", .nat a.instructionLength),
    ("status_flags", StatusFlags.codec.write a.status),
    ("branch_taken", Verdict.codec.write a.verdict),
    ("operand_address", .ofOption .nat a.operandAddress),
    ("operand_offset", .ofOption .nat a.operandOffset),
    ("is_operand_offset_direct", .bool a.operandIsDirect),
    ("symbol", Symbol.codec.option.write a.symbol),
    ("data_descriptor", Format.codec.option.write a.format)]
  read? json := do
    let record ← Record.ofJson? ["flags", "address", "instr_length", "status_flags",
      "branch_taken", "operand_address", "operand_offset", "is_operand_offset_direct", "symbol",
      "data_descriptor"] json
    return {
      marks := ← record.get "flags" Marks.codec
      address := ← record.get "address" (.word 32)
      instructionLength := ← record.get "instr_length" (.word 64)
      status := ← record.get "status_flags" StatusFlags.codec
      verdict := ← record.get "branch_taken" Verdict.codec
      operandAddress := ← record.get? "operand_address" (.word 32)
      operandOffset := ← record.get? "operand_offset" (.word 64)
      operandIsDirect := ← record.get "is_operand_offset_direct" .bool
      symbol := ← record.get? "symbol" Symbol.codec
      format := ← record.get? "data_descriptor" Format.codec }

/-- Attributes in the order of their bytes. -/
def Attributes.codec : Codec Attributes where
  write attributes := Attribute.codec.list.write attributes.toList
  read? json := (Attribute.codec.list.read? json).map List.toArray

end Disasm65
