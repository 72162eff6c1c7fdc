/-
Strings that end at a zero byte or come after their length.

The recognisers of these layouts and the verifier of one string are two programs.  They agree on
what a string is: a run of bytes is recognised exactly if it can be cut into strings that are all
verified, with bodies that are made of characters (`framed_strings_recognised`).

For each layout three things are shown of the recogniser, and `Reads` does the rest: it comes to an
end, it takes a verified string off the front as a whole (`nullTerminated_reads`,
`countedFrom_piece`), and where there is none it gives up.  Of the search for the zero bytes nothing
is used but that it finds them in order.
-/
import Mathlib
import Disasm65.Proofs.Text.Splitting

namespace Disasm65

namespace Strings

/-- The bytes of a string without its terminator or header. -/
def bodyOf : FormatKind → List UInt8 → List UInt8
  | .nullTerminated, piece => piece.dropLast
  | .length8, piece => piece.drop 1
  | .length16, piece => piece.drop 2
  | _, piece => piece

theorem isBody_iff {accepts : UInt8 → Bool} {oneHighBit : Bool} {body : List UInt8} :
    isBody accepts oneHighBit body = true ↔ (∀ b ∈ body, accepts b = true)
      ∧ (oneHighBit = true → ∀ b ∈ body, ∀ c ∈ body, highBit b = highBit c) := by
  cases body with
  | nil => simp [isBody]
  | cons first rest =>
      simp only [isBody, List.all_eq_true, Bool.and_eq_true, Bool.or_eq_true, Bool.not_eq_true',
        beq_iff_eq]
      constructor
      · intro h
        refine ⟨fun b hb => (h b hb).1, fun hone b hb c hc => ?_⟩
        have hhigh : ∀ x ∈ first :: rest, highBit x = highBit first := fun x hx =>
          (h x hx).2.resolve_left (by simp [hone])
        rw [hhigh b hb, hhigh c hc]
      · rintro ⟨haccepts, hhigh⟩ b hb
        refine ⟨haccepts b hb, ?_⟩
        cases oneHighBit with
        | false => exact Or.inl rfl
        | true => exact Or.inr (hhigh rfl b hb first List.mem_cons_self)

/-! ### Strings that end at a zero byte -/

/-- A string ends at its only zero byte. -/
theorem flaw?_nullTerminated {piece : List UInt8} :
    flaw? .nullTerminated piece = none ↔ ∃ body, 0 ∉ body ∧ piece = body ++ [0] := by
  unfold flaw?
  dsimp only
  constructor
  · intro h
    split at h
    · rename_i position hfound
      split at h
      · rename_i hend
        obtain ⟨hlt, hzero, hbefore⟩ := List.findIdx?_eq_some_iff_getElem.mp hfound
        rw [beq_iff_eq] at hzero
        refine ⟨piece.take position, fun hmem => ?_, ?_⟩
        · obtain ⟨i, hi, hat⟩ := List.mem_iff_getElem.mp hmem
          rw [List.length_take] at hi
          rw [List.getElem_take] at hat
          exact hbefore i (by omega) (beq_iff_eq.mpr hat)
        · rw [← hzero, List.take_concat_get' piece position hlt, hend, List.take_length]
      · cases h
    · cases h
  · rintro ⟨body, hbody, rfl⟩
    have hfound : (body ++ [0]).findIdx? (· == 0) = some body.length := by
      have hnone : body.findIdx? (· == 0) = none := by
        rw [List.findIdx?_eq_none_iff]
        intro b hb
        rw [beq_eq_false_iff_ne]
        exact fun hzero => hbody (hzero ▸ hb)
      simp [List.findIdx?_append, hnone]
    rw [hfound]
    simp

theorem nullTerminated_uniquelyDecodable :
    InformationTheory.UniquelyDecodable {piece | flaw? .nullTerminated piece = none} := by
  refine uniquelyDecodable_of_fronts (by decide) fun p hp q hq hpq => ?_
  obtain ⟨_, _, rfl⟩ := flaw?_nullTerminated.mp hp
  obtain ⟨body, hbody, rfl⟩ := flaw?_nullTerminated.mp hq
  rcases List.prefix_concat_iff.mp hpq with heq | hinside
  · exact heq
  · exact absurd (hinside.subset (by simp)) hbody

section NullTerminated

variable (search : ByteSearch) (accepts : UInt8 → Bool) (oneHighBit : Bool)

/-- The zero bytes behind a body that has none are its end and those of the rest. -/
theorem places_piece {body : List UInt8} (hbody : 0 ∉ body) (rest : List UInt8) :
    search.places 0 (body ++ 0 :: rest)
      = body.length :: (search.places 0 rest).map (body.length + 1 + ·) := by
  have hordered : (body.length :: (search.places 0 rest).map (body.length + 1 + ·)).Pairwise
      (· < ·) := by
    refine List.pairwise_cons.mpr ⟨fun i hi => ?_, ?_⟩
    · obtain ⟨j, _, rfl⟩ := List.mem_map.mp hi
      omega
    · exact List.pairwise_map.mpr ((search.ordered 0 rest).imp fun hlt => by omega)
  refine (search.ordered 0 _).eq_of_mem_iff hordered fun i => ?_
  rw [search.mem_places, List.mem_cons, List.mem_map]
  rcases Nat.lt_trichotomy i body.length with hlt | rfl | hgt
  · rw [List.getElem?_append_left hlt]
    refine iff_of_false (fun hzero => hbody (List.mem_of_getElem? hzero)) ?_
    rintro (rfl | ⟨j, _, rfl⟩) <;> omega
  · simp
  · obtain ⟨j, rfl⟩ := Nat.exists_eq_add_of_lt hgt
    rw [List.getElem?_append_right (by omega),
      show body.length + j + 1 - body.length = j + 1 by omega, List.getElem?_cons_succ,
      ← search.mem_places]
    constructor
    · exact fun hj => Or.inr ⟨j, hj, by omega⟩
    · rintro (heq | ⟨k, hk, heq⟩)
      · omega
      · rwa [show j = k by omega]

/-- Bytes in front of the first string are passed over. -/
theorem nullTerminatedFrom_append (front bytes : List UInt8) (stops : List Nat) :
    ∀ start count,
      nullTerminatedFrom accepts oneHighBit (front ++ bytes) (front.length + start) count
          (stops.map (front.length + ·))
        = nullTerminatedFrom accepts oneHighBit bytes start count stops := by
  induction stops with
  | nil => exact fun _ _ => rfl
  | cons stop stops ih =>
      intro start count
      have hbody : ((front ++ bytes).drop (front.length + start)).take
          (front.length + stop - (front.length + start))
            = (bytes.drop start).take (stop - start) := by
        rw [List.drop_length_add_append, Nat.add_sub_add_left]
      rw [List.map_cons, nullTerminatedFrom, nullTerminatedFrom, hbody, Nat.add_assoc, ih]

/-- Read strings that end at a zero byte each and fill the bytes, or none if there are no bytes. -/
def readNullTerminated (count : Nat) (bytes : List UInt8) : Option Nat :=
  if bytes = [] ∨ bytes.getLast? = some 0 then
    nullTerminatedFrom accepts oneHighBit bytes 0 count (search.places 0 bytes)
  else none

theorem nullTerminated_reads :
    Reads {piece | flaw? .nullTerminated piece = none}
      (fun piece => isBody accepts oneHighBit (bodyOf .nullTerminated piece))
      (fun piece => !(bodyOf .nullTerminated piece).isEmpty)
      (readNullTerminated search accepts oneHighBit) where
  done count := by
    have hnone : search.places 0 [] = [] :=
      List.eq_nil_iff_forall_not_mem.mpr fun i hi => by
        rw [search.mem_places, List.getElem?_nil] at hi
        cases hi
    rw [readNullTerminated, if_pos (Or.inl rfl), hnone]
    rfl
  piece count piece hpiece rest := by
    obtain ⟨body, hbody, rfl⟩ := flaw?_nullTerminated.mp hpiece
    have hends : (body ++ [0] ++ rest = [] ∨ (body ++ [0] ++ rest).getLast? = some 0)
        ↔ (rest = [] ∨ rest.getLast? = some 0) := by
      cases rest <;> simp
    have hskip := nullTerminatedFrom_append accepts oneHighBit (body ++ [0]) rest
      (search.places 0 rest) 0
    rw [List.length_append, List.length_singleton, Nat.add_zero] at hskip
    rw [readNullTerminated, readNullTerminated, if_congr hends rfl rfl, List.append_assoc,
      List.singleton_append, places_piece search hbody, nullTerminatedFrom, List.drop_zero,
      Nat.sub_zero, List.take_left, bodyOf, List.dropLast_concat]
    rw [List.append_assoc, List.singleton_append] at hskip
    rw [hskip]
    cases body <;> grind [countBody]
  stuck count bytes hne hfront := by
    have hzero : 0 ∉ bytes := by
      intro hmem
      obtain ⟨body, rest, rfl, hbody⟩ := List.eq_append_cons_of_mem hmem
      exact hfront (body ++ [0]) (flaw?_nullTerminated.mpr ⟨body, hbody, rfl⟩) ⟨rest, by simp⟩
    rw [readNullTerminated, if_neg]
    rintro (hnil | hlast)
    · exact hne hnil
    · exact hzero (List.mem_of_getLast? hlast)

end NullTerminated

/-! ### Strings after their length -/

/-- A string whose length stands in the `headerSize` bytes in front of it. -/
def IsCounted (headerSize : Nat) (piece : List UInt8) : Prop :=
  headerSize ≤ piece.length
    ∧ littleEndian (piece.take headerSize) = (piece.drop headerSize).length

/-- The header is there and tells the number of bytes behind it. -/
theorem splitHeader_elim_eq_none {headerSize : Nat} {piece : List UInt8} {flaw : StringFlaw} :
    ((splitHeader headerSize piece).elim (some flaw) fun split =>
      if split.1 = split.2.length then none else some flaw) = none
        ↔ IsCounted headerSize piece := by
  unfold splitHeader IsCounted
  by_cases hsize : headerSize ≤ piece.length
  · simp [hsize]
  · simp [hsize]

theorem flaw?_length8 {piece : List UInt8} : flaw? .length8 piece = none ↔ IsCounted 1 piece := by
  rw [← @splitHeader_elim_eq_none 1 piece .length8Differs, flaw?]
  cases splitHeader 1 piece <;> rfl

theorem flaw?_length16 {piece : List UInt8} :
    flaw? .length16 piece = none ↔ IsCounted 2 piece := by
  rw [← @splitHeader_elim_eq_none 2 piece .length16Differs, flaw?]
  cases splitHeader 2 piece <;> rfl

theorem counted_uniquelyDecodable {headerSize : Nat} (hheader : 0 < headerSize) :
    InformationTheory.UniquelyDecodable {piece | IsCounted headerSize piece} := by
  refine uniquelyDecodable_of_fronts (fun hnil => absurd hnil.1 (Nat.not_le.mpr hheader)) ?_
  rintro p ⟨hpsize, hp⟩ q ⟨hqsize, hq⟩ hpq
  -- both have the same header, so both have the length that it gives
  obtain ⟨rest, rfl⟩ := hpq
  rw [List.take_append_of_le_length hpsize, hp, List.length_drop, List.length_drop] at hq
  exact (List.prefix_append p rest).eq_of_length (by omega)

section Counted

variable (accepts : UInt8 → Bool) (oneHighBit : Bool) {headerSize : Nat}

/-- What happens to a string at the front. -/
theorem countedFrom_piece (hheader : 0 < headerSize) {piece : List UInt8}
    (hpiece : IsCounted headerSize piece) (fuel count : Nat) (rest : List UInt8) :
    countedFrom accepts oneHighBit headerSize (fuel + 1) count (piece ++ rest)
      = if isBody accepts oneHighBit (piece.drop headerSize) then
          countedFrom accepts oneHighBit headerSize fuel
            (countBody (piece.drop headerSize) count) rest
        else none := by
  obtain ⟨hsize, hlength⟩ := hpiece
  have hsplit : splitHeader headerSize (piece ++ rest)
      = some ((piece.drop headerSize).length, piece.drop headerSize ++ rest) := by
    rw [splitHeader, if_pos (by rw [List.length_append]; omega),
      List.take_append_of_le_length hsize, hlength, List.drop_append_of_le_length hsize]
  cases piece with
  | nil => exact absurd hsize (Nat.not_le.mpr hheader)
  | cons b piece =>
      rw [List.cons_append, countedFrom, ← List.cons_append, hsplit]
      dsimp only
      rw [List.take_left, List.drop_left, List.length_append, decide_eq_true (Nat.le_add_right _ _),
        Bool.true_and]

/-- Where no string is at the front, there is no answer. -/
theorem countedFrom_stuck {bytes : List UInt8} (hne : bytes ≠ [])
    (hfront : ∀ piece, IsCounted headerSize piece → ¬ piece <+: bytes) (fuel count : Nat) :
    countedFrom accepts oneHighBit headerSize fuel count bytes = none := by
  cases bytes with
  | nil => exact absurd rfl hne
  | cons b bytes =>
      cases fuel with
      | zero => rfl
      | succ fuel =>
          rw [countedFrom, splitHeader]
          by_cases hsize : headerSize ≤ (b :: bytes).length
          · rw [if_pos hsize]
            dsimp only
            have hlong : ¬ littleEndian ((b :: bytes).take headerSize)
                ≤ ((b :: bytes).drop headerSize).length := by
              intro hle
              set length := littleEndian ((b :: bytes).take headerSize) with hlength
              rw [List.length_drop] at hle
              -- the header and as many bytes as it says would be a string
              refine hfront ((b :: bytes).take (headerSize + length)) ⟨?_, ?_⟩ ?_
              · rw [List.length_take]
                omega
              · rw [List.take_take, Nat.min_eq_left (Nat.le_add_right _ _), ← hlength,
                  List.length_drop, List.length_take]
                omega
              · exact List.take_prefix _ _
            rw [decide_eq_false hlong, Bool.false_and]
            rfl
          · rw [if_neg hsize]

/-- More steps than bytes change nothing. -/
theorem countedFrom_fuel (hheader : 0 < headerSize) {fuel : Nat} {bytes : List UInt8}
    (hfuel : bytes.length ≤ fuel) (count : Nat) :
    countedFrom accepts oneHighBit headerSize fuel count bytes
      = countedFrom accepts oneHighBit headerSize bytes.length count bytes := by
  induction hn : bytes.length using Nat.strong_induction_on generalizing bytes fuel count with
  | _ n ih =>
      by_cases hne : bytes = []
      · subst hne
        cases fuel <;> cases n <;> rfl
      by_cases hfront : ∃ piece, IsCounted headerSize piece ∧ piece <+: bytes
      · obtain ⟨piece, hpiece, rest, rfl⟩ := hfront
        have hsize := hpiece.1
        rw [List.length_append] at hfuel hn
        obtain ⟨more, rfl⟩ : ∃ more, fuel = more + 1 := ⟨fuel - 1, by omega⟩
        obtain ⟨less, rfl⟩ : ∃ less, n = less + 1 := ⟨n - 1, by omega⟩
        -- both have enough steps left for the rest
        have hrest : ∀ enough, rest.length ≤ enough → ∀ count,
            countedFrom accepts oneHighBit headerSize enough count rest
              = countedFrom accepts oneHighBit headerSize rest.length count rest :=
          fun enough hle count => ih rest.length (by omega) hle count rfl
        rw [countedFrom_piece _ _ hheader hpiece, countedFrom_piece _ _ hheader hpiece,
          hrest more (by omega), hrest less (by omega)]
      · have hstuck := fun piece hpiece hp => hfront ⟨piece, hpiece, hp⟩
        rw [countedFrom_stuck _ _ hne hstuck, countedFrom_stuck _ _ hne hstuck]

theorem counted_reads (hheader : 0 < headerSize) :
    Reads {piece | IsCounted headerSize piece}
      (fun piece => isBody accepts oneHighBit (piece.drop headerSize))
      (fun piece => !(piece.drop headerSize).isEmpty)
      (fun count bytes => countedFrom accepts oneHighBit headerSize bytes.length count bytes) where
  done count := rfl
  piece count piece hpiece rest := by
    have hsize := hpiece.1
    obtain ⟨fuel, hfuel⟩ : ∃ fuel, (piece ++ rest).length = fuel + 1 :=
      ⟨(piece ++ rest).length - 1, by rw [List.length_append]; omega⟩
    rw [List.length_append] at hfuel
    rw [List.length_append, hfuel, countedFrom_piece _ _ hheader hpiece,
      countedFrom_fuel _ _ hheader (by omega)]
    cases piece.drop headerSize <;> rfl
  stuck count bytes hne hfront := countedFrom_stuck _ _ hne hfront _ _

end Counted

/-! ### What is recognised -/

/-- The strings fill the image, their bodies are made of characters, each with one high bit
throughout where that matters, and `k` of the bodies are not empty. -/
structure Spelled (kind : FormatKind) (accepts : UInt8 → Bool) (oneHighBit : Bool) (image : Image)
    (k : Nat) (pieces : List (List UInt8)) : Prop where
  filled : image.FilledBy kind pieces
  character : ∀ piece ∈ pieces, ∀ b ∈ bodyOf kind piece, accepts b = true
  oneHigh : oneHighBit = true → ∀ piece ∈ pieces, ∀ b ∈ bodyOf kind piece,
    ∀ c ∈ bodyOf kind piece, highBit b = highBit c
  count : pieces.countP (fun piece => !(bodyOf kind piece).isEmpty) = k

theorem Reads.eq_some_iff_spelled {kind : FormatKind} {accepts : UInt8 → Bool} {oneHighBit : Bool}
    {read : Nat → List UInt8 → Option Nat}
    (h : Reads {piece | flaw? kind piece = none}
      (fun piece => isBody accepts oneHighBit (bodyOf kind piece))
      (fun piece => !(bodyOf kind piece).isEmpty) read)
    (hnil : flaw? kind [] ≠ none) (image : Image) (k : Nat) :
    read 0 image.toList = some k ↔ ∃ pieces, Spelled kind accepts oneHighBit image k pieces := by
  rw [h.eq_some_iff hnil]
  refine exists_congr fun pieces => ?_
  constructor
  · rintro ⟨hflat, hpieces, hk⟩
    have hbody := fun piece hmem => isBody_iff.mp (hpieces piece hmem).2
    exact ⟨Image.filledBy_iff.mpr ⟨hflat, fun piece hmem => (hpieces piece hmem).1⟩,
      fun piece hmem => (hbody piece hmem).1, fun hone piece hmem => (hbody piece hmem).2 hone,
      by rw [hk, Nat.zero_add]⟩
  · rintro ⟨hfilled, hcharacter, hhigh, hcount⟩
    obtain ⟨hflat, hflaw⟩ := Image.filledBy_iff.mp hfilled
    refine ⟨hflat, fun piece hmem => ⟨hflaw piece hmem, isBody_iff.mpr ?_⟩, ?_⟩
    · exact ⟨hcharacter piece hmem, fun hone => hhigh hone piece hmem⟩
    · rw [Nat.zero_add, hcount]

/-- **The framed strings are recognised where they are verified.**  However zero bytes are searched
for, strings that end at one are found in a run of bytes exactly if there are bytes and they can be
cut into such strings; strings after a length of one or two bytes exactly if the bytes, of which
there may be none, can be cut into such strings.  Each string is verified at its place, its body is
made of characters, of one high bit where that matters, and the answer is the number of bodies that
are not empty.  There is one way to cut the bytes at most. -/
theorem framed_strings_recognised (search : ByteSearch) (accepts : UInt8 → Bool)
    (oneHighBit : Bool) (image : Image) :
    (∀ k, nullTerminated? search accepts oneHighBit image.toList = some k
        ↔ image.size ≠ 0 ∧ ∃ pieces, Spelled .nullTerminated accepts oneHighBit image k pieces)
      ∧ (∀ k, length8? accepts oneHighBit image.toList = some k
        ↔ ∃ pieces, Spelled .length8 accepts oneHighBit image k pieces)
      ∧ (∀ k, length16? accepts oneHighBit image.toList = some k
        ↔ ∃ pieces, Spelled .length16 accepts oneHighBit image k pieces)
      ∧ {pieces | image.FilledBy .nullTerminated pieces}.Subsingleton
      ∧ {pieces | image.FilledBy .length8 pieces}.Subsingleton
      ∧ {pieces | image.FilledBy .length16 pieces}.Subsingleton := by
  have h8 : {piece | flaw? .length8 piece = none} = {piece | IsCounted 1 piece} :=
    Set.ext fun _ => flaw?_length8
  have h16 : {piece | flaw? .length16 piece = none} = {piece | IsCounted 2 piece} :=
    Set.ext fun _ => flaw?_length16
  refine ⟨fun k => ?_, fun k => ?_, fun k => ?_,
    Image.filledBy_subsingleton nullTerminated_uniquelyDecodable image,
    Image.filledBy_subsingleton (h8 ▸ counted_uniquelyDecodable Nat.one_pos) image,
    Image.filledBy_subsingleton (h16 ▸ counted_uniquelyDecodable Nat.two_pos) image⟩
  · by_cases hsize : image.size = 0
    · simp [nullTerminated?, Array.eq_empty_of_size_eq_zero hsize]
    · have hreads := nullTerminated_reads search accepts oneHighBit
      have hne : image.toList ≠ [] := fun hnil => hsize (by simpa using congrArg List.length hnil)
      rw [and_iff_right hsize, ← hreads.eq_some_iff_spelled (by decide) image k,
        readNullTerminated, if_congr (or_iff_right hne) rfl rfl, nullTerminated?]
  · have hreads := counted_reads accepts oneHighBit Nat.one_pos
    rw [← h8] at hreads
    exact hreads.eq_some_iff_spelled (by decide) image k
  · have hreads := counted_reads accepts oneHighBit Nat.two_pos
    rw [← h16] at hreads
    exact hreads.eq_some_iff_spelled (by decide) image k

/-- Two strings after their lengths, and an empty one between them. -/
example : length8? (CharClass.extended .lowAscii).accepts true [3, 65, 66, 67, 0, 2, 72, 73]
    = some 2 := by
  decide

end Strings

end Disasm65
