/-
What is cut off the front of a range.

The bytes at the front that pass some test make a stretch, which goes on as far as it can
(`Stretch`): a run is a stretch of bytes equal to the first one, a string a stretch of text.  At
every offset the cut takes a string, a fill or the single bytes of a run, and `Cut` says for each
what is true of the bytes.  A cut fails in one case only: strings without characters are asked for,
and no string starts there (`frontItems_cut`).
-/
import Mathlib
import Disasm65.Data.Ranges
import Disasm65.Proofs.Image.Bytes
import Disasm65.Proofs.Text.Charset

namespace Disasm65

namespace Format

theorem create_text {length : Nat} (hlength : 0 < length) {detail : FormatDetail}
    (hdetail : detail.isCharacter = true) :
    create length .text detail = .ok ⟨length, .text, detail, none⟩ := by
  have hflaw : flaw? length .text detail = none := by
    have hzero : length ≠ 0 := Nat.ne_of_gt hlength
    cases detail <;> simp_all [flaw?, FormatDetail.isCharacter, FormatDetail.isAlignment,
      FormatDetail.alignment?]
  rw [create, hflaw]

theorem create_fill {length : Nat} (hlength : 0 < length) :
    create length .fill .plain = .ok ⟨length, .fill, .plain, none⟩ := by
  have hzero : length ≠ 0 := Nat.ne_of_gt hlength
  simp [create, flaw?, hzero, FormatDetail.isAlignment, FormatDetail.alignment?]

end Format

namespace Image

/-- The bytes from `lo` on that pass the test go up to `hi` and no further, or up to the end of the
range at `stop`. -/
structure Stretch (image : Image) (test : UInt8 → Bool) (stop lo hi : Nat) : Prop where
  le : lo ≤ hi
  le_stop : hi ≤ stop
  all : ∀ i, lo ≤ i → i < hi → test (image.byteAt i) = true
  ends : hi < stop → test (image.byteAt hi) = false

namespace Stretch

variable {image : Image} {test : UInt8 → Bool} {stop lo mid hi : Nat}

/-- A stretch goes on over all bytes that pass the test. -/
theorem le_of_all (h : image.Stretch test stop lo hi) (hmid : mid ≤ stop)
    (hall : ∀ i, lo ≤ i → i < mid → test (image.byteAt i) = true) : mid ≤ hi := by
  by_contra hlt
  have hends := h.ends (by omega)
  rw [hall hi h.le (by omega)] at hends
  cases hends

/-- A stretch with bytes in front of it that pass the test, too. -/
theorem prepend (h : image.Stretch test stop mid hi) (hle : lo ≤ mid)
    (hall : ∀ i, lo ≤ i → i < mid → test (image.byteAt i) = true) :
    image.Stretch test stop lo hi := by
  refine ⟨Nat.le_trans hle h.le, h.le_stop, fun i hlo hhi => ?_, h.ends⟩
  by_cases hi' : i < mid
  · exact hall i hlo hi'
  · exact h.all i (by omega) hhi

/-- The bytes that are taken while they pass a test are a stretch. -/
theorem of_takeWhile (image : Image) (test : UInt8 → Bool) (lo length : Nat) :
    image.Stretch test (lo + length) lo
      (lo + ((image.bytesFrom lo length).takeWhile test).length) := by
  have htaken : ((image.bytesFrom lo length).takeWhile test).length
      = (image.bytesFrom lo length).findIdx fun b => !test b := by
    rw [List.takeWhile_eq_take_findIdx_not, List.length_take]
    exact Nat.min_eq_left List.findIdx_le_length
  have hle : (image.bytesFrom lo length).findIdx (fun b => !test b)
      ≤ (image.bytesFrom lo length).length := List.findIdx_le_length
  rw [length_bytesFrom] at hle
  rw [htaken]
  refine ⟨Nat.le_add_right _ _, by omega, fun i hlo hhi => ?_, fun hlt => ?_⟩
  · have hpass := List.not_of_lt_findIdx (p := fun b => !test b)
      (show i - lo < (image.bytesFrom lo length).findIdx _ by omega)
    simpa [Nat.add_sub_cancel' hlo] using hpass
  · have hin : (image.bytesFrom lo length).findIdx (fun b => !test b)
        < (image.bytesFrom lo length).length := by
      rw [length_bytesFrom]
      omega
    simpa using List.findIdx_getElem (w := hin)

end Stretch

end Image

namespace Data

open Image

variable {parameters : Parameters} {image : Image} {stop p : Nat}

theorem bytesFrom_of_lt (image : Image) (h : p < stop) :
    image.bytesFrom p (stop - p)
      = image.byteAt p :: image.bytesFrom (p + 1) (stop - p - 1) := by
  rw [← bytesFrom_succ]
  congr 1
  omega

theorem bytesFrom_of_le (image : Image) (h : stop ≤ p) : image.bytesFrom p (stop - p) = [] := by
  rw [Nat.sub_eq_zero_of_le h]
  rfl

/-- The run at the front is a stretch of bytes equal to the first. -/
theorem stretch_runLength (image : Image) (h : p < stop) :
    image.Stretch (· == image.byteAt p) stop p
      (p + runLength (image.bytesFrom p (stop - p))) := by
  have hrun : runLength (image.bytesFrom p (stop - p))
      = ((image.bytesFrom p (stop - p)).takeWhile (· == image.byteAt p)).length := by
    rw [bytesFrom_of_lt image h, runLength, List.takeWhile_cons_of_pos (by simp),
      List.length_cons, Nat.add_comm]
  have hstretch := Stretch.of_takeWhile image (· == image.byteAt p) p (stop - p)
  rwa [← hrun, Nat.add_sub_cancel' (Nat.le_of_lt h)] at hstretch

theorem runLength_pos (image : Image) (h : p < stop) :
    0 < runLength (image.bytesFrom p (stop - p)) := by
  rw [bytesFrom_of_lt image h, runLength]
  omega

/-- What is found when text is looked for at `p`: a string that goes on as far as it can, or none,
because of the first byte or because the run it starts is too long. -/
inductive FrontText (parameters : Parameters) (image : Image) (stop p : Nat) :
    Nat × FormatDetail → Prop where
  | found (encoding : Charset) (hmem : encoding ∈ parameters.textScan.encodings) (length : Nat)
      (hpos : 0 < length)
      (hstretch : image.Stretch encoding.isText stop p (p + length)) :
      FrontText parameters image stop p (length, encoding.detail)
  | missing
      (hnone : parameters.textScan.charset.isText (image.byteAt p) = false
        ∨ parameters.maxStringRun < runLength (image.bytesFrom p (stop - p))) :
      FrontText parameters image stop p (0, parameters.textScan.charset.detail)

theorem frontText_spec (parameters : Parameters) (image : Image) (h : p < stop) :
    FrontText parameters image stop p
      (frontText parameters (image.bytesFrom p (stop - p))) := by
  have hrun := stretch_runLength image h
  have hpos := runLength_pos image h
  have hfront : frontText parameters (image.bytesFrom p (stop - p))
      = let run := runLength (image.bytesFrom p (stop - p))
        let encoding := parameters.textScan.charset.refine (image.byteAt p)
        if parameters.textScan.charset.isText (image.byteAt p) && run ≤ parameters.maxStringRun
        then (run + ((image.bytesFrom (p + run) (stop - p - run)).takeWhile encoding.isText).length,
          encoding.detail)
        else (0, parameters.textScan.charset.detail) := by
    dsimp only
    rw [← drop_bytesFrom, bytesFrom_of_lt image h]
    rfl
  rw [hfront]
  dsimp only
  generalize hr : runLength (image.bytesFrom p (stop - p)) = run at hrun hpos ⊢
  split
  · rename_i htext
    rw [Bool.and_eq_true, decide_eq_true_eq] at htext
    have hfirst := TextScan.isText_refine htext.1
    have hrest := Stretch.of_takeWhile image
      (parameters.textScan.charset.refine (image.byteAt p)).isText (p + run) (stop - p - run)
    have hstop : p + run + (stop - p - run) = stop := by
      have := hrun.le_stop
      omega
    rw [hstop, Nat.add_assoc] at hrest
    refine .found _ (TextScan.refine_mem_encodings _ _) _ (by omega)
      (hrest.prepend (Nat.le_add_right _ _) fun i hlo hhi => ?_)
    rw [beq_iff_eq.mp (hrun.all i hlo hhi)]
    exact hfirst
  · rename_i htext
    rw [Bool.and_eq_true, not_and_or, decide_eq_true_eq, Nat.not_le, Bool.not_eq_true,
      ← hr] at htext
    exact .missing htext

/-- No string starts with the run at `p`: if the run is not too long for text, the text at `p` is
too short. -/
def Barren (parameters : Parameters) (image : Image) (stop p : Nat) : Prop :=
  runLength (image.bytesFrom p (stop - p)) ≤ parameters.maxStringRun →
    ∀ encoding ∈ parameters.textScan.encodings, ∀ hi, p < hi → hi ≤ stop →
      parameters.minString ≤ hi - p → ∃ i, p ≤ i ∧ i < hi ∧ encoding.isText (image.byteAt i) = false

/-- How a range is cut at `p`.  If strings need no characters, nothing but a string is cut off. -/
inductive Cut (parameters : Parameters) (image : Image) (stop p : Nat) :
    Except Fault (List Format × Nat) → Prop where
  | text (encoding : Charset) (hmem : encoding ∈ parameters.textScan.encodings) (length : Nat)
      (hpos : 0 < length) (hmin : parameters.minString ≤ length)
      (hstretch : image.Stretch encoding.isText stop p (p + length)) :
      Cut parameters image stop p (.ok ([⟨length, .text, encoding.detail, none⟩], length))
  | fill (hsome : 0 < parameters.minString) (length : Nat) (hpos : 0 < length)
      (hmin : parameters.minRun ≤ length)
      (hstretch : image.Stretch (· == image.byteAt p) stop p (p + length)) :
      Cut parameters image stop p (.ok ([⟨length, .fill, .plain, none⟩], length))
  | singles (hsome : 0 < parameters.minString) (length : Nat) (hpos : 0 < length)
      (hshort : length < parameters.minRun)
      (hstretch : image.Stretch (· == image.byteAt p) stop p (p + length))
      (hbarren : Barren parameters image stop p) :
      Cut parameters image stop p (.ok (List.replicate length .oneByte, length))
  | fault (hmin : parameters.minString = 0)
      (hnone : parameters.textScan.charset.isText (image.byteAt p) = false
        ∨ parameters.maxStringRun < runLength (image.bytesFrom p (stop - p))) :
      Cut parameters image stop p
        (.error (.badFormat .zeroLength 0 .text parameters.textScan.charset.detail))

/-- Where the text is shorter than a string has to be, no string starts. -/
theorem FrontText.barren {length : Nat} {detail : FormatDetail}
    (h : FrontText parameters image stop p (length, detail))
    (hshort : length < parameters.minString) : Barren parameters image stop p := by
  intro hrun encoding hmem hi hlt hle hmin
  by_contra hall
  push Not at hall
  have htext : ∀ i, p ≤ i → i < hi → encoding.isText (image.byteAt i) = true := fun i hlo hhi =>
    Bool.eq_true_of_not_eq_false (hall i hlo hhi)
  have hfirst := htext p (Nat.le_refl _) hlt
  obtain ⟨hscan, hencoding⟩ := TextScan.eq_refine hmem hfirst
  cases h with
  | found other hother _ hpos hstretch =>
      have hsame : encoding = other := by
        rw [hencoding, (TextScan.eq_refine hother
          (hstretch.all p (Nat.le_refl _) (by omega))).2]
      rw [← hsame] at hstretch
      have := hstretch.le_of_all hle htext
      omega
  | missing hnone =>
      rcases hnone with hnone | hnone
      · rw [hscan] at hnone
        cases hnone
      · omega

/-- **What a cut takes, and the one way it fails.** -/
theorem frontItems_cut (parameters : Parameters) (image : Image) (h : p < stop) :
    Cut parameters image stop p (frontItems parameters (image.bytesFrom p (stop - p))) := by
  have hrun := stretch_runLength image h
  have hpos := runLength_pos image h
  have hspec := frontText_spec parameters image h
  unfold frontItems
  dsimp only
  generalize frontText parameters (image.bytesFrom p (stop - p)) = front at hspec ⊢
  obtain ⟨length, detail⟩ := front
  dsimp only
  split
  · rename_i hmin
    cases hspec with
    | found encoding hmem _ hsome hstretch =>
        rw [Format.create_text hsome (TextScan.detail_of_mem_encodings hmem).1]
        exact .text encoding hmem length hsome hmin hstretch
    | missing hnone =>
        exact .fault (Nat.le_zero.mp hmin) hnone
  · rename_i hmin
    have hshort := Nat.lt_of_not_le hmin
    have hsome := Nat.zero_lt_of_lt hshort
    split
    · rename_i hrunMin
      rw [Format.create_fill hpos]
      exact .fill hsome _ hpos hrunMin hrun
    · rename_i hrunMin
      exact .singles hsome _ hpos (Nat.lt_of_not_le hrunMin) hrun (hspec.barren hshort)

end Data

end Disasm65
