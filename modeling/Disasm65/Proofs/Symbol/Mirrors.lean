/-
Registers that repeat through the address space.

Where all masked entries share one mask, an address and its mirrors are answered by the same
entries (`maskedAt_congr`), and the preferred one has the same origin and comes from the same file
everywhere.  Between entries that are alike in both, the nearer value decides, and that is measured
from the address itself and not from its place under the mask.  So mirrors can be told apart: the
preferred entry changes on the way from one address to the other exactly if the two entries have
their values on either side of the way (`isFirst_mirrors`).
-/
import Mathlib
import Disasm65.Proofs.Symbol.Lookup

namespace Disasm65

/-- How far one climbs from `low` to `high` inside a bank, coming round at its top. -/
def climb (low high : Nat) : Nat := (high + 0x100000000 - low) % 0x10000

namespace Entry

/-- On the climb from `low` to `high` one comes past the entry's value, at `high` at the latest. -/
def Passed (low high : Nat) (entry : Entry) : Prop := entry.distance high < climb low high

/-! ### Preference, key by key -/

/-- The keys of an entry that is preferred, in the order in which they count. -/
theorem Precedes.keys {address : Nat} {x y : Entry} (h : Precedes address x y) :
    x.origin.rank ≤ y.origin.rank ∧ (x.origin = y.origin → x.fileRank ≤ y.fileRank
      ∧ (x.fileRank = y.fileRank → x.distance address ≤ y.distance address
        ∧ (x.distance address = y.distance address → x.name < y.name))) := by
  rw [Precedes, precedence_eq_compareLex, compareLex_apply, compareLex_apply, compareLex_apply,
    compareOn_apply, compareOn_apply, compareOn_apply, compareOn_apply] at h
  simp only [Ordering.then_eq_lt, compare_lt_iff_lt, compare_eq_iff_eq] at h
  rcases h with hrank | ⟨hrank, hfile | ⟨hfile, hdistance | ⟨hdistance, hname⟩⟩⟩
  · exact ⟨hrank.le, fun horigin => absurd (congrArg Origin.rank horigin) hrank.ne⟩
  · exact ⟨hrank.le, fun _ => ⟨hfile.le, fun hsame => absurd hsame hfile.ne⟩⟩
  · exact ⟨hrank.le, fun _ => ⟨hfile.le, fun _ => ⟨hdistance.le, fun hsame =>
      absurd hsame hdistance.ne⟩⟩⟩
  · exact ⟨hrank.le, fun _ => ⟨hfile.le, fun _ => ⟨hdistance.le, fun _ => hname⟩⟩⟩

/-! ### Distances from two addresses -/

section Distance

variable {a b : Nat} {x y : Entry}

/-- On a climb all distances grow alike, and come round inside the bank. -/
theorem distance_climb (ha : a < 0x100000000) (hx : x.value < 0x100000000) (b : Nat) :
    x.distance b = (x.distance a + climb a b) % 0x10000 := by
  unfold distance climb
  omega

theorem climb_comm (ha : a < 0x100000000) (hb : b < 0x100000000) :
    climb b a = (0x10000 - climb a b) % 0x10000 := by
  unfold climb
  omega

/-- Two values change places in the order of their distances if each is passed on the climb to the
address that it is nearer to. -/
theorem passed_of_distance_lt (ha : a < 0x100000000) (hb : b < 0x100000000)
    (hx : x.value < 0x100000000) (hy : y.value < 0x100000000)
    (hnear : x.distance a < y.distance a) (hfar : y.distance b < x.distance b) :
    x.Passed b a ∧ y.Passed a b := by
  unfold Passed
  rw [distance_climb ha hx b, distance_climb ha hy b] at hfar
  rw [distance_climb ha hy b, climb_comm ha hb]
  have hlt : ∀ entry : Entry, entry.distance a < 0x10000 := fun entry =>
    Nat.mod_lt _ (by decide)
  have hclimb : climb a b < 0x10000 := Nat.mod_lt _ (by decide)
  have hxlt := hlt x
  have hylt := hlt y
  omega

/-- No value is passed both ways. -/
theorem not_passed_both (ha : a < 0x100000000) (hb : b < 0x100000000) (hx : x.value < 0x100000000)
    (hdown : x.Passed b a) : ¬ x.Passed a b := by
  unfold Passed at *
  rw [climb_comm ha hb] at hdown
  rw [distance_climb ha hx b]
  have hclimb : climb a b < 0x10000 := Nat.mod_lt _ (by decide)
  omega

end Distance

end Entry

/-! ### The first of the same entries, seen from two addresses -/

/-- Entries that are preferred at two addresses, each at one, differ at most in how near they are:
the first is nearer to the one address, and the second to the other. -/
theorem Entry.passed_of_precedes {a b : Nat} {x y : Entry} (ha : a < 0x100000000)
    (hb : b < 0x100000000) (hx : x.value < 0x100000000) (hy : y.value < 0x100000000)
    (hxy : Precedes a x y) (hyx : Precedes b y x) :
    x.origin = y.origin ∧ x.fileRank = y.fileRank ∧ x.Passed b a ∧ y.Passed a b := by
  obtain ⟨hrank, hxy⟩ := hxy.keys
  obtain ⟨hrank', hyx⟩ := hyx.keys
  have horigin : x.origin = y.origin := Origin.rank_injective (Nat.le_antisymm hrank hrank')
  obtain ⟨hfile, hxy⟩ := hxy horigin
  obtain ⟨hfile', hyx⟩ := hyx horigin.symm
  have hrankFile : x.fileRank = y.fileRank := le_antisymm hfile hfile'
  obtain ⟨hnear, hxy⟩ := hxy hrankFile
  obtain ⟨hfar, hyx⟩ := hyx hrankFile.symm
  refine ⟨horigin, hrankFile, ?_⟩
  -- equal distances from one address are equal from the other, and then the labels decide at both
  have hne : x.distance a ≠ y.distance a := by
    intro hsame
    have hsame' : y.distance b = x.distance b := by
      rw [distance_climb ha hx b, distance_climb ha hy b, hsame]
    exact (hxy hsame).asymm (hyx hsame')
  have hne' : y.distance b ≠ x.distance b := by
    intro hsame
    refine hne ?_
    rw [distance_climb hb hx a, distance_climb hb hy a, hsame]
  exact passed_of_distance_lt ha hb hx hy (Nat.lt_of_le_of_ne hnear hne)
    (Nat.lt_of_le_of_ne hfar hne')

/-- **The preferred one of a set of entries, at two addresses.**  It has one origin and one file,
and it is another one at the second address exactly if the values of the two are passed on the ways
between the addresses, each on the way to its own. -/
theorem isFirst_mirrors {S : Set Entry} {a b : Nat} {found other : Option Entry}
    (ha : a < 0x100000000) (hb : b < 0x100000000) (hvalue : ∀ entry ∈ S, entry.value < 0x100000000)
    (hfound : IsFirst (Entry.Precedes a) S found) (hother : IsFirst (Entry.Precedes b) S other) :
    (found.map fun entry => (entry.origin, entry.fileRank))
        = (other.map fun entry => (entry.origin, entry.fileRank))
      ∧ (found ≠ other ↔ ∃ x y, found = some x ∧ other = some y ∧ x.Passed b a ∧ y.Passed a b) := by
  cases found with
  | none =>
      have hempty : S = ∅ := hfound
      cases other with
      | none => simp
      | some y => exact absurd (hempty ▸ hother.mem) (Set.notMem_empty y)
  | some x =>
      cases other with
      | none =>
          have hempty : S = ∅ := hother
          exact absurd (hempty ▸ hfound.mem) (Set.notMem_empty x)
      | some y =>
          by_cases hsame : x = y
          · subst hsame
            refine ⟨rfl, fun hne => absurd rfl hne, ?_⟩
            rintro ⟨low, high, hlow, hhigh, hdown, hup⟩
            obtain rfl := Option.some.inj hlow
            obtain rfl := Option.some.inj hhigh
            exact absurd hup (Entry.not_passed_both ha hb (hvalue x hfound.mem) hdown)
          · obtain ⟨horigin, hfile, hpassed⟩ := Entry.passed_of_precedes ha hb
              (hvalue x hfound.mem) (hvalue y hother.mem)
              (hfound.2 y hother.mem (Ne.symm hsame)) (hother.2 x hfound.mem hsame)
            refine ⟨by rw [Option.map_some, Option.map_some, horigin, hfile], ?_⟩
            exact ⟨fun _ => ⟨x, y, rfl, rfl, hpassed⟩,
              fun _ => by rwa [Ne, Option.some.injEq]⟩

namespace SymbolTable

/-- No unmasked entry covers the address. -/
def Clear (table : SymbolTable) (address : Nat) : Prop :=
  ∀ entry ∈ table, entry.isAddressable = true → entry.mask = none → ¬ entry.Covers address

/-- Every masked entry that stands for addresses has the mask. -/
def SharesMask (table : SymbolTable) (mask : RepeatMask) : Prop :=
  ∀ entry ∈ table, entry.isAddressable = true → ∀ own, entry.mask = some own → own = mask

/-- Where no unmasked entry covers the address, the answer is the first masked one. -/
theorem Clear.findByAddress? {table : SymbolTable} (hindexed : table.Indexed) {address : Nat}
    (h : table.Clear address) (access : Access) :
    IsFirst (Entry.Precedes address)
      {entry | entry ∈ table ∧ entry.MaskedAt access.Selects address}
      (table.findByAddress? address access) := by
  obtain ⟨reader, writer, masked, hreader, hwriter, hmasked, heq⟩ :=
    findByAddress?_finds hindexed address access
  have hnone : ∀ (direction : Access → Bool) (found : Option Entry),
      IsFirst (Entry.Precedes address)
        {entry | entry ∈ table ∧ entry.ClaimsAt direction address} found → found = none := by
    intro direction found hfirst
    cases found with
    | none => rfl
    | some entry =>
        obtain ⟨hmem, hclaims⟩ := hfirst.mem
        have hstands := Entry.isAddressable_iff.mpr ⟨hclaims.notVariable, hclaims.notConstant⟩
        exact absurd hclaims.covers (h entry hmem hstands hclaims.unmasked)
  rw [hnone _ _ hreader, hnone _ _ hwriter, Option.or_none, ite_self, ite_self,
    Option.none_or] at heq
  rw [heq]
  exact hmasked

/-- An address and its mirror are answered by the same entries. -/
theorem maskedAt_congr {table : SymbolTable} {mask : RepeatMask} (hshares : table.SharesMask mask)
    {a b : Nat} (ha : mask.admits a = true) (hb : mask.admits b = true)
    (hplace : a &&& mask.addressMask = b &&& mask.addressMask) (asked : Access → Prop) :
    {entry | entry ∈ table ∧ entry.MaskedAt asked a}
      = {entry | entry ∈ table ∧ entry.MaskedAt asked b} := by
  have hone : ∀ {address other : Nat}, mask.admits other = true →
      address &&& mask.addressMask = other &&& mask.addressMask → ∀ entry ∈ table,
      entry.MaskedAt asked address → entry.MaskedAt asked other := by
    intro address other hother hsame entry hmem hat
    obtain ⟨own, hown, -, hlow, hhigh⟩ := hat.reached
    have hstands := Entry.isAddressable_iff.mpr ⟨hat.notVariable, hat.notConstant⟩
    obtain rfl := hshares entry hmem hstands own hown
    rw [hsame] at hlow hhigh
    exact ⟨hat.notVariable, hat.notConstant, hat.admitted, own, hown, beq_iff_eq.mp hother, hlow,
      hhigh⟩
  ext entry
  exact and_congr_right fun hmem => ⟨hone hb hplace entry hmem, hone ha hplace.symm entry hmem⟩

/-- **Where the mirrors of a register are told apart.**  After any changes of a table, if all masked
entries share one mask, two addresses that the mask admits, that agree in what it tells apart and
that no unmasked entry covers, are both answered or neither is, by entries of the same origin and
file.  The two answers differ exactly if, inside a bank, the value of the first lies on the way from
the second address up to the first one, and the value of the second on the way from the first
address up to the second. -/
theorem ofEdits_mirrors (edits : List Edit) {mask : RepeatMask} {a b : Nat}
    (hshares : (ofEdits edits).SharesMask mask)
    (hvalue : ∀ entry ∈ ofEdits edits, entry.value < 0x100000000)
    (ha : a < 0x100000000 ∧ mask.admits a = true ∧ (ofEdits edits).Clear a)
    (hb : b < 0x100000000 ∧ mask.admits b = true ∧ (ofEdits edits).Clear b)
    (hplace : a &&& mask.addressMask = b &&& mask.addressMask) (access : Access) :
    (((ofEdits edits).findByAddress? a access).map fun entry => (entry.origin, entry.fileRank))
        = (((ofEdits edits).findByAddress? b access).map fun entry =>
            (entry.origin, entry.fileRank))
      ∧ ((ofEdits edits).findByAddress? a access ≠ (ofEdits edits).findByAddress? b access
        ↔ ∃ x y, (ofEdits edits).findByAddress? a access = some x
          ∧ (ofEdits edits).findByAddress? b access = some y
          ∧ x.Passed b a ∧ y.Passed a b) := by
  obtain ⟨haword, hamask, haclear⟩ := ha
  obtain ⟨hbword, hbmask, hbclear⟩ := hb
  have hfirst := haclear.findByAddress? (ofEdits_indexed edits) access
  rw [maskedAt_congr hshares hamask hbmask hplace] at hfirst
  exact isFirst_mirrors haword hbword (fun entry hentry => hvalue entry hentry.1) hfirst
    (hbclear.findByAddress? (ofEdits_indexed edits) access)

/-- A bank of 32 registers that repeats every 64 bytes from `$d000` to `$d3ff`. -/
def registerBank : Entry :=
  .defined { Definition.ofSymbol ⟨"BANK", 0xd000, .project, .global, .plain⟩ with
    format := ⟨32, .littleEndian, .hex, none⟩
    mask := some ⟨0xfc00, 0xd000, 0x3f⟩ }

/-- Eight registers of the bank with a name of their own, given by an address in the second
mirror. -/
def registerPort : Entry :=
  .defined { Definition.ofSymbol ⟨"PORT", 0xd050, .project, .global, .plain⟩ with
    format := ⟨8, .littleEndian, .hex, none⟩
    mask := some ⟨0xfc00, 0xd000, 0x3f⟩ }

/-- The table of the bank and the port in it. -/
def portEdits : List Edit := [.put registerBank, .put registerPort]

theorem mem_portEdits {entry : Entry} (h : entry ∈ ofEdits portEdits) :
    entry = registerBank ∨ entry = registerPort := by
  have hentries : (ofEdits portEdits).entries = [registerBank, registerPort] := by decide
  rw [← mem_entries (ofEdits_indexed portEdits).named, hentries] at h
  simpa using h

theorem portEdits_sharesMask : (ofEdits portEdits).SharesMask ⟨0xfc00, 0xd000, 0x3f⟩ := by
  intro entry hmem _ own hown
  rcases mem_portEdits hmem with rfl | rfl
  · exact (Option.some.inj hown).symm
  · exact (Option.some.inj hown).symm

theorem portEdits_value : ∀ entry ∈ ofEdits portEdits, entry.value < 0x100000000 := by
  intro entry hmem
  rcases mem_portEdits hmem with rfl | rfl
  · decide
  · decide

theorem portEdits_clear (address : Nat) : (ofEdits portEdits).Clear address := by
  intro entry hmem _ hmask
  rcases mem_portEdits hmem with rfl | rfl
  · cases hmask
  · cases hmask

/-- Two mirrors of the port above its value are answered alike. -/
theorem ofEdits_mirrors_port :
    ((ofEdits portEdits).findByAddress? 0xd052 .read = some registerPort
        ∧ (ofEdits portEdits).findByAddress? 0xd092 .read = some registerPort)
      ∧ ¬ ∃ x y, (ofEdits portEdits).findByAddress? 0xd052 .read = some x
        ∧ (ofEdits portEdits).findByAddress? 0xd092 .read = some y
        ∧ x.Passed 0xd092 0xd052 ∧ y.Passed 0xd052 0xd092 := by
  have hfound : (ofEdits portEdits).findByAddress? 0xd052 .read = some registerPort
      ∧ (ofEdits portEdits).findByAddress? 0xd092 .read = some registerPort := by decide
  have hmirrors := ofEdits_mirrors portEdits (a := 0xd052) (b := 0xd092) portEdits_sharesMask
    portEdits_value ⟨by decide, by decide, portEdits_clear _⟩
    ⟨by decide, by decide, portEdits_clear _⟩ (by decide) .read
  exact ⟨hfound, fun hpassed => hmirrors.2.mpr hpassed (hfound.1.trans hfound.2.symm)⟩

/-- Two mirrors of one register that are answered by different entries: below the port's value the
bank is nearer, and above it the port is. -/
theorem mirrors_told_apart :
    (ofEdits portEdits).SharesMask ⟨0xfc00, 0xd000, 0x3f⟩
      ∧ (⟨0xfc00, 0xd000, 0x3f⟩ : RepeatMask).admits 0xd012 = true
      ∧ (⟨0xfc00, 0xd000, 0x3f⟩ : RepeatMask).admits 0xd052 = true
      ∧ (ofEdits portEdits).Clear 0xd012 ∧ (ofEdits portEdits).Clear 0xd052
      ∧ 0xd012 &&& 0x3f = 0xd052 &&& 0x3f
      ∧ (ofEdits portEdits).findByAddress? 0xd012 .read = some registerBank
      ∧ (ofEdits portEdits).findByAddress? 0xd052 .read = some registerPort
      ∧ registerBank ≠ registerPort :=
  ⟨portEdits_sharesMask, by decide, by decide, portEdits_clear _, portEdits_clear _, by decide,
    by decide, by decide, by decide⟩

end SymbolTable

end Disasm65
