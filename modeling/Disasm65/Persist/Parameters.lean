/-
The persisted form of the parameters: an indented object.  A field that is missing has its initial
value.
-/
import Disasm65.Json.Reader
import Disasm65.Json.Writer
import Disasm65.Parameters
import Disasm65.Persist.Codec

namespace Disasm65

def TextScan.codec : Codec TextScan := .named all name

def LabelStyle.codec : Codec LabelStyle := .named all name

namespace Parameters

/-- The names of the fields, in order. -/
def fieldNames : List String :=
  ["analyze_uncategorized_data", "default_text_scan_mode", "min_chars_for_string",
   "seek_nearby_targets", "smart_plp_handling", "plp_search_window", "min_run_length",
   "max_string_run_length", "auto_label_style"]

def codec : Codec Parameters where
  write p := .object [
    ("analyze_uncategorized_data", .bool p.cutsUnclaimed),
    ("default_text_scan_mode", TextScan.codec.write p.textScan),
    ("min_chars_for_string", .nat p.minString),
    ("seek_nearby_targets", .bool p.seeksNearby),
    ("smart_plp_handling", .bool p.matchesPlp),
    ("plp_search_window", .nat p.plpWindow),
    ("min_run_length", .nat p.minRun),
    ("max_string_run_length", .nat p.maxStringRun),
    ("auto_label_style", LabelStyle.codec.write p.labelStyle)]
  read? json := do
    let record ← Record.ofJson? fieldNames json
    return {
      cutsUnclaimed := ← record.getD "analyze_uncategorized_data" .bool initial.cutsUnclaimed
      textScan := ← record.getD "default_text_scan_mode" TextScan.codec initial.textScan
      minString := ← record.getD "min_chars_for_string" (.word 64) initial.minString
      seeksNearby := ← record.getD "seek_nearby_targets" .bool initial.seeksNearby
      matchesPlp := ← record.getD "smart_plp_handling" .bool initial.matchesPlp
      plpWindow := ← record.getD "plp_search_window" (.word 64) initial.plpWindow
      minRun := ← record.getD "min_run_length" (.word 64) initial.minRun
      maxStringRun := ← record.getD "max_string_run_length" (.word 64) initial.maxStringRun
      labelStyle := ← record.getD "auto_label_style" LabelStyle.codec initial.labelStyle }

/-- The parameters that a JSON value stands for. -/
def ofJson (json : Json) : Except Fault Parameters :=
  match codec.read? json with
  | some parameters => .ok parameters
  | none => .error .malformedText

/-- The parameters as text. -/
def toText (parameters : Parameters) : String := Json.indented 0 (codec.write parameters)

/-- The parameters that a text stands for. -/
def ofText (text : String) : Except Fault Parameters :=
  match Json.parse? text with
  | some json => ofJson json
  | none => .error .malformedText

/-- The parameters in a file, given its contents if it can be read. -/
def ofFile : Option String → Except Fault Parameters
  | some text => ofText text
  | none => .error .unreadableFile

end Parameters

end Disasm65
