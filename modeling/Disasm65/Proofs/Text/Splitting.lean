/-
Bytes cut into strings.

A recogniser reads a run of bytes as strings that follow each other, and it never looks back: it
takes the string at the front, refuses it or counts it, and goes on behind it.  `Reads` says this of
a recogniser, for strings of any layout, and `Reads.eq_some_iff` says what it comes to: the answer is
a number exactly for the runs that can be cut into strings, all of them sound, and it is the number
of those that count.

Where no string is the beginning of another, a run can be cut in one way only
(`uniquelyDecodable_of_fronts`).

A verifier looks at one string, at its place in the image.  The strings that an image is cut into
are the ones that are verified there (`Image.filledBy_iff`).
-/
import Mathlib
import Disasm65.Proofs.Image.Bytes
import Disasm65.Text.Strings

namespace Disasm65

namespace Strings

/-! ### One way to cut -/

/-- Strings of which none is empty and none is the beginning of another can be told apart when they
follow each other. -/
theorem uniquelyDecodable_of_fronts {S : Set (List UInt8)} (hnil : [] ∉ S)
    (hfront : ∀ p ∈ S, ∀ q ∈ S, p <+: q → p = q) : InformationTheory.UniquelyDecodable S := by
  intro ps
  induction ps with
  | nil =>
      intro qs _ hqs hflat
      cases qs with
      | nil => rfl
      | cons q qs =>
          have hq : q = [] := by
            rw [List.flatten_nil, List.flatten_cons] at hflat
            exact (List.append_eq_nil_iff.mp hflat.symm).1
          exact absurd (hq ▸ hqs q List.mem_cons_self) hnil
  | cons p ps ih =>
      intro qs hps hqs hflat
      have hp := hps p List.mem_cons_self
      cases qs with
      | nil =>
          rw [List.flatten_nil, List.flatten_cons] at hflat
          exact absurd ((List.append_eq_nil_iff.mp hflat).1 ▸ hp) hnil
      | cons q qs =>
          have hq := hqs q List.mem_cons_self
          rw [List.flatten_cons, List.flatten_cons] at hflat
          -- both first strings begin the same bytes, so one of them begins the other
          have hsame : p = q := by
            rcases List.prefix_or_prefix_of_prefix (List.prefix_append p ps.flatten)
              (hflat ▸ List.prefix_append q qs.flatten) with hpq | hqp
            · exact hfront p hp q hq hpq
            · exact (hfront q hq p hp hqp).symm
          subst hsame
          rw [ih qs (fun w hw => hps w (List.mem_cons_of_mem _ hw))
            (fun w hw => hqs w (List.mem_cons_of_mem _ hw)) (List.append_cancel_left hflat)]

/-! ### Reading one string after the other -/

/-- `read` takes strings of `S` off the front of the bytes.  It gives up at one that is not `sound`
and where there is none, and adds the ones that are `counted` to the number it is given. -/
structure Reads (S : Set (List UInt8)) (sound counted : List UInt8 → Bool)
    (read : Nat → List UInt8 → Option Nat) : Prop where
  /-- Nothing is left. -/
  done : ∀ count, read count [] = some count
  /-- A string is at the front. -/
  piece : ∀ count, ∀ piece ∈ S, ∀ rest,
    read count (piece ++ rest)
      = if sound piece then read (if counted piece then count + 1 else count) rest else none
  /-- There are bytes, but no string is at the front. -/
  stuck : ∀ count bytes, bytes ≠ [] → (∀ piece ∈ S, ¬ piece <+: bytes) → read count bytes = none

variable {S : Set (List UInt8)} {sound counted : List UInt8 → Bool}
  {read : Nat → List UInt8 → Option Nat}

/-- A run of sound strings is read to its end. -/
theorem Reads.read_flatten (h : Reads S sound counted read) {pieces : List (List UInt8)}
    (hpieces : ∀ piece ∈ pieces, piece ∈ S ∧ sound piece = true) (count : Nat) :
    read count pieces.flatten = some (count + pieces.countP counted) := by
  induction pieces generalizing count with
  | nil => exact h.done count
  | cons piece rest ih =>
      obtain ⟨hmem, hsound⟩ := hpieces piece List.mem_cons_self
      rw [List.flatten_cons, h.piece count piece hmem, if_pos hsound,
        ih fun w hw => hpieces w (List.mem_cons_of_mem _ hw), List.countP_cons]
      split
      · rw [Nat.add_assoc, Nat.add_comm 1]
      · rfl

/-- What is read to its end is a run of sound strings. -/
theorem Reads.exists_pieces (h : Reads S sound counted read) (hnil : [] ∉ S) :
    ∀ (bytes : List UInt8) (count k : Nat), read count bytes = some k →
      ∃ pieces : List (List UInt8), pieces.flatten = bytes
        ∧ (∀ piece ∈ pieces, piece ∈ S ∧ sound piece = true) := by
  intro bytes
  induction hn : bytes.length using Nat.strong_induction_on generalizing bytes with
  | _ n ih =>
      intro count k hread
      by_cases hempty : bytes = []
      · exact ⟨[], hempty.symm, fun _ hmem => absurd hmem List.not_mem_nil⟩
      by_cases hfront : ∃ piece ∈ S, piece <+: bytes
      · obtain ⟨piece, hmem, rest, rfl⟩ := hfront
        have hpos : 0 < piece.length := List.length_pos_iff.mpr fun hc => hnil (hc ▸ hmem)
        rw [h.piece count piece hmem] at hread
        split at hread
        · rename_i hsound
          rw [List.length_append] at hn
          obtain ⟨pieces, hflat, hpieces⟩ := ih rest.length (by omega) rest rfl _ k hread
          refine ⟨piece :: pieces, by rw [List.flatten_cons, hflat], ?_⟩
          rw [List.forall_mem_cons]
          exact ⟨⟨hmem, hsound⟩, hpieces⟩
        · cases hread
      · rw [h.stuck count bytes hempty fun piece hmem hp => hfront ⟨piece, hmem, hp⟩] at hread
        cases hread

/-- **The runs that are recognised are those that can be cut into sound strings**, and the answer is
the number of strings that count. -/
theorem Reads.eq_some_iff (h : Reads S sound counted read) (hnil : [] ∉ S) {bytes : List UInt8}
    {count k : Nat} :
    read count bytes = some k ↔ ∃ pieces : List (List UInt8), pieces.flatten = bytes
      ∧ (∀ piece ∈ pieces, piece ∈ S ∧ sound piece = true) ∧ k = count + pieces.countP counted := by
  constructor
  · intro hread
    obtain ⟨pieces, rfl, hpieces⟩ := h.exists_pieces hnil bytes count k hread
    rw [h.read_flatten hpieces, Option.some.injEq] at hread
    exact ⟨pieces, rfl, hpieces, hread.symm⟩
  · rintro ⟨pieces, rfl, hpieces, rfl⟩
    exact h.read_flatten hpieces count

end Strings

/-! ### Strings at their places -/

namespace Image

/-- The strings fill the image, one after the other, and each is verified as one of the kind at its
place. -/
structure FilledBy (image : Image) (kind : FormatKind) (pieces : List (List UInt8)) : Prop where
  flatten : pieces.flatten = image.toList
  verified : ∀ (n : Nat) (piece : List UInt8), pieces[n]? = some piece →
    image.stringFlaw? (pieces.take n).flatten.length piece.length kind = none

/-- A string is found at its place. -/
theorem slice?_place {image : Image} {pieces : List (List UInt8)}
    (hflat : pieces.flatten = image.toList) {n : Nat} {piece : List UInt8}
    (hn : pieces[n]? = some piece) :
    image.slice? (pieces.take n).flatten.length piece.length = some piece := by
  obtain ⟨hlt, rfl⟩ := List.getElem?_eq_some_iff.mp hn
  have hsplit : image.toList
      = (pieces.take n).flatten ++ (pieces[n] ++ (pieces.drop (n + 1)).flatten) := by
    rw [← hflat, ← List.flatten_cons, ← List.drop_eq_getElem_cons hlt, ← List.flatten_append,
      List.take_append_drop]
  have hlength := congrArg List.length hsplit
  rw [Array.length_toList, List.length_append, List.length_append] at hlength
  rw [slice?, if_pos (by omega), Array.toList_extract, List.extract_eq_take_drop, hsplit,
    List.drop_left, Nat.add_sub_cancel_left, List.take_left]

/-- **The strings an image is cut into are those that are verified in it.** -/
theorem filledBy_iff {image : Image} {kind : FormatKind} {pieces : List (List UInt8)} :
    image.FilledBy kind pieces ↔ pieces.flatten = image.toList
      ∧ ∀ piece ∈ pieces, Strings.flaw? kind piece = none := by
  have hflaw : ∀ (n : Nat) (piece : List UInt8), pieces.flatten = image.toList →
      pieces[n]? = some piece →
      image.stringFlaw? (pieces.take n).flatten.length piece.length kind
        = Strings.flaw? kind piece := by
    intro n piece hflat hn
    rw [stringFlaw?, slice?_place hflat hn]
  constructor
  · rintro ⟨hflat, hverified⟩
    refine ⟨hflat, fun piece hmem => ?_⟩
    obtain ⟨n, hn⟩ := List.mem_iff_getElem?.mp hmem
    rw [← hflaw n piece hflat hn]
    exact hverified n piece hn
  · rintro ⟨hflat, hpieces⟩
    refine ⟨hflat, fun n piece hn => ?_⟩
    rw [hflaw n piece hflat hn]
    exact hpieces piece (List.mem_of_getElem? hn)

/-- An image is filled in one way only, if the strings of the kind can be told apart. -/
theorem filledBy_subsingleton {kind : FormatKind}
    (h : InformationTheory.UniquelyDecodable {piece | Strings.flaw? kind piece = none})
    (image : Image) : {pieces | image.FilledBy kind pieces}.Subsingleton := by
  intro ps hps qs hqs
  obtain ⟨hpflat, hp⟩ := filledBy_iff.mp hps
  obtain ⟨hqflat, hq⟩ := filledBy_iff.mp hqs
  exact h ps qs hp hq (hpflat.trans hqflat.symm)

end Image

end Disasm65
