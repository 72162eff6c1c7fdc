/-
Machine words.

Offsets into an image and lengths of its items are 64-bit words; addresses and symbol values are
32-bit words.  Both are natural numbers here, so that a bound is a plain inequality.

Where the numbers of a sum are given from outside, `addWords` takes it, and a sum that passes the
top of the word is a fault.  What is meant to come round there goes through `wrap32`.  Every other
sum is one of places in the image, and is taken as it stands.
-/
import Disasm65.Fault

namespace Disasm65

/-- The sum of two words, which must be a word. -/
def addWords (a b : Nat) : Except Fault Nat :=
  if a + b < 0x10000000000000000 then .ok (a + b) else .error (.overflow a b)

theorem addWords_of_lt {a b : Nat} (h : a + b < 0x10000000000000000) :
    addWords a b = .ok (a + b) :=
  if_pos h

theorem addWords_of_le {a b : Nat} (h : 0x10000000000000000 ≤ a + b) :
    addWords a b = .error (.overflow a b) :=
  if_neg (Nat.not_lt_of_le h)

theorem addWords_eq_ok {a b c : Nat} :
    addWords a b = .ok c ↔ a + b < 0x10000000000000000 ∧ c = a + b := by
  by_cases h : a + b < 0x10000000000000000
  · rw [addWords_of_lt h, Except.ok.injEq]
    exact ⟨fun heq => ⟨h, heq.symm⟩, fun heq => heq.2.symm⟩
  · rw [addWords_of_le (Nat.le_of_not_lt h)]
    exact ⟨fun heq => (by cases heq), fun heq => absurd heq.1 h⟩

/-- A natural number taken modulo the size of a 32-bit word. -/
def wrap32 (n : Nat) : Nat := n % 0x100000000

theorem wrap32_of_lt {n : Nat} (h : n < 0x100000000) : wrap32 n = n :=
  Nat.mod_eq_of_lt h

theorem wrap32_lt (n : Nat) : wrap32 n < 0x100000000 :=
  Nat.mod_lt _ (by decide)

/-- The 64K bank an address lies in, as the address of the bank's first byte.  Bit 31 is not part
of a bank number. -/
def bankOf (address : Nat) : Nat := address / 0x10000 % 0x8000 * 0x10000

end Disasm65
