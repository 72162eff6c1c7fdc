/-
The opcodes of the processors.

A table is built by laying one list of opcodes over another, so a byte decodes to the last opcode
that the lists have for it (`Processor.opcode_ofFamily`).  What every opcode of these lists has in
common is then true of every byte that a processor decodes (`Processor.forall_opcode`), and can be
read off the lists.
-/
import Mathlib
import Disasm65.Cpu.Processor

namespace Disasm65

/-- A byte gets the last opcode of a layer that is meant for it. -/
theorem OpcodeTable.get_overlay (layer : List Opcode) (table : OpcodeTable) (code : UInt8) :
    (table.overlay layer).get code.toFin
      = (layer.reverse.find? (·.code == code)).getD (table.get code.toFin) := by
  induction layer generalizing table with
  | nil => rfl
  | cons first rest ih =>
      have hcons : table.overlay (first :: rest)
          = OpcodeTable.overlay (table.setIfInBounds first.code.toNat first) rest := rfl
      have hset : (table.setIfInBounds first.code.toNat first).get code.toFin
          = if first.code == code then first else table.get code.toFin := by
        rw [Vector.get_eq_getElem, Vector.getElem_setIfInBounds, Vector.get_eq_getElem]
        refine if_congr ?_ rfl rfl
        rw [beq_iff_eq, ← UInt8.toNat_inj]
        rfl
      rw [hcons, ih, hset, List.reverse_cons, List.find?_append]
      cases rest.reverse.find? (·.code == code) with
      | some op => rfl
      | none => cases h : first.code == code <;> simp [List.find?, h]

/-- **A byte decodes to the last opcode that any layer of the family has for it.** -/
theorem Processor.opcode_ofFamily (family : Family) (hasUndocumented : Bool) (code : UInt8) :
    (ofFamily family hasUndocumented).opcode code
      = let op := (family.layers.flatten.reverse.find? (·.code == code)).getD (.invalid code)
        if !hasUndocumented && op.undocumented then .invalid op.code else op := by
  have hblank : OpcodeTable.blank.get code.toFin = .invalid code := by
    rw [OpcodeTable.blank, Vector.get_eq_getElem, Vector.getElem_ofFn]
    exact congrArg _ (UInt8.ofNat_toNat)
  have htable : (OpcodeTable.ofFamily family).get code.toFin
      = (family.layers.flatten.reverse.find? (·.code == code)).getD (.invalid code) := by
    have hflat : OpcodeTable.ofFamily family
        = OpcodeTable.blank.overlay family.layers.flatten :=
      List.foldl_flatten.symm
    rw [hflat, OpcodeTable.get_overlay, hblank]
  rw [← htable]
  cases hasUndocumented with
  | true => rfl
  | false =>
      rw [opcode, Vector.get_eq_getElem]
      unfold ofFamily OpcodeTable.documented
      simp [Vector.get_eq_getElem]

/-- What holds of the opcodes that are not defined and of all layers of a family holds of every
opcode of its processors. -/
theorem Processor.forall_opcode {P : Opcode → Prop} (hinvalid : ∀ code, P (.invalid code))
    {family : Family} (hlayers : ∀ layer ∈ family.layers, ∀ op ∈ layer, P op)
    (hasUndocumented : Bool) (code : UInt8) :
    P ((ofFamily family hasUndocumented).opcode code) := by
  rw [opcode_ofFamily]
  dsimp only
  split
  · exact hinvalid _
  cases hfound : family.layers.flatten.reverse.find? (·.code == code) with
  | none => exact hinvalid code
  | some op =>
      obtain ⟨layer, hlayer, hop⟩ :=
        List.mem_flatten.mp (List.mem_reverse.mp (List.mem_of_find?_eq_some hfound))
      exact hlayers layer hlayer op hop

/-- PLP goes on to the next instruction. -/
theorem Processor.effect_of_isPlp {family : Family} {hasUndocumented : Bool} {code : UInt8}
    (h : ((ofFamily family hasUndocumented).opcode code).isPlp = true) :
    ((ofFamily family hasUndocumented).opcode code).effect = .next := by
  refine forall_opcode (P := fun op => op.isPlp = true → op.effect = .next) ?_ ?_ _ code h
  · intro code hplp
    simp [Opcode.invalid, Opcode.isPlp] at hplp
  · cases family <;> decide +kernel

end Disasm65
