/-
Where items end at a break of the addresses.

The walk that gathers ranges comes to every byte, one after the other (`gatherFrom_comes`).  At a
bare data byte after which the addresses break it ends the range, so that the data behind it starts
an item (`formatUnclaimed_breaks`).  At a byte with a label or a comment, with which a range starts,
it does not look at the addresses.
-/
import Mathlib
import Disasm65.Proofs.Data.Tiling

namespace Disasm65.Data

variable {survey : Survey} {w v : Workspace}

/-- **The walk comes to every byte**, and finds it as it was. -/
theorem gatherFrom_comes {fuel offset : Nat} {start : Option Nat}
    (hw : Walk survey offset start w) (h : gatherFrom survey (fuel + 1) offset start w = v.done)
    {j : Nat} (hlow : offset ≤ j) (hhigh : j ≤ w.attributes.size) :
    ∃ left start' u, Walk survey j start' u
      ∧ gatherFrom survey (left + 1) j start' u = v.done ∧ ∀ i, j ≤ i → u.info i = w.info i := by
  induction j, hlow using Nat.le_induction with
  | base => exact ⟨fuel, start, w, hw, h, fun _ _ => rfl⟩
  | succ j _ ih =>
      obtain ⟨left, start', u, hu, hgather, hsame⟩ := ih (by omega)
      have hsize : u.attributes.size = w.attributes.size := hu.image.trans hw.image.symm
      obtain ⟨next, t, hstep, hrest⟩ := gatherFrom_step hu (by omega) hgather
      -- a walk that ends well has a step left wherever it comes to
      cases left with
      | zero => exact absurd hrest stop_ne_done
      | succ left =>
          refine ⟨left, next, t, hstep.walk, hrest, fun i hi => ?_⟩
          rw [hstep.after i (by omega), hsame i (by omega)]

/-- The first byte of what is tiled has a format, if it is data. -/
theorem Tiled.format_first {comments : List Nat} {attributes : Attributes} {lo hi : Nat}
    (h : Tiled comments attributes lo hi) (hlt : lo < hi)
    (hdata : (attributes.info lo).isData = true) : (attributes.info lo).format.isSome = true := by
  obtain ⟨start, length, hplace, hitem⟩ := h lo (Nat.le_refl _) hlt hdata
  obtain rfl : start = lo := by omega
  rw [← Option.isSome_map (f := (·.length)), hitem.first]
  rfl

theorem Formats.symbol {i : Nat} (h : Formats w v) : (v.info i).symbol = (w.info i).symbol := by
  rcases h.byte i with heq | ⟨format, -, heq⟩ <;> rw [heq]

/-- **Data behind a break of the addresses starts an item**, if the byte before it is bare. -/
theorem formatUnclaimed_breaks (himage : w.attributes.size = survey.image.size)
    (hunmixed : ∀ i, (w.info i).Unmixed) (hdrafted : ∀ i, Drafted (w.info i))
    (h : formatUnclaimed survey w = v.done) {i : Nat}
    (hsymbol : (v.info i).symbol = none) (hcomment : i ∉ survey.comments)
    (hbreak : survey.map.isContiguous i 2 = false) (hdata : (v.info (i + 1)).isData = true) :
    (v.info (i + 1)).format.isSome = true := by
  have hformats := formatUnclaimed_formats h
  have hlt : i + 1 < (classBytes w.attributes).size := by
    rw [← hformats.size]
    exact Attributes.lt_size_of_has hdata
  obtain ⟨left, start, u, hu, hgather, hsame⟩ :=
    gatherFrom_comes (walk_classBytes himage hunmixed hdrafted) (formatUnclaimed_eq_done h).2
      (Nat.zero_le i) (Nat.le_of_lt (Nat.lt_of_succ_lt hlt))
  have hsize : u.attributes.size = (classBytes w.attributes).size :=
    hu.image.trans (himage.symm.trans (size_classBytes _).symm)
  obtain ⟨next, t, hstep, hrest⟩ := gatherFrom_step hu (by omega) hgather
  -- nothing is under way behind the byte, so what is laid from there on is tiled by itself
  obtain rfl : next = none := hstep.breaks
    (by rw [hsame i (Nat.le_refl i), ← hformats.symbol, hsymbol]) hcomment (by omega) hbreak
  have hsize' : t.attributes.size = u.attributes.size := hstep.walk.image.trans hu.image.symm
  exact (gatherFrom_lays hstep.walk hrest).tiled.format_first (by
    rw [Option.getD_none]
    omega) hdata

end Disasm65.Data
