import LabProbe.Relay.Sanitize

/-!
# What the scrubber leaves

The spans of the first loop are the segments behind a keyword, those of the
second the runs of 44 token bytes, and all of them begin and end on character
boundaries. So the loops end, no slice panics, and what comes out is the text
with those positions blanked. No keyword is left in it. A token is left where
it stands beside a base64 character or an equals sign, outside of a segment.
-/

namespace LabProbe.Relay

open Spans Utf8

variable {l lower rest bytes out w : List UInt8} {b : UInt8} {n i p q start index fuel : Nat}
  {text : String}

-- ---------------------------------------------------------------------------
-- The parts of a text
-- ---------------------------------------------------------------------------

def StartsKeyword (lower : List UInt8) (p : Nat) : Prop :=
  ∃ keyword ∈ keywords, keyword <+: lower.drop p

/-- The position is in a segment that begins with a keyword, at an offset or
behind it. -/
def SegmentFrom (lower : List UInt8) (n i : Nat) : Prop :=
  ∃ p, n ≤ p ∧ p ≤ i ∧ i < lower.length ∧ StartsKeyword lower p ∧
    ∀ j b, p ≤ j → j ≤ i → lower[j]? = some b → isSeparator b = false

def InSegment (bytes : List UInt8) (i : Nat) : Prop := SegmentFrom (bytes.map byteLowercase) 0 i

/-- A base64 text of 44 characters, the padding at its end included. -/
def IsToken (w : List UInt8) : Prop :=
  ∃ body padding, w = body ++ List.replicate padding '='.toUInt8 ∧ w.length = 44 ∧
    padding ≤ 2 ∧ ∀ b ∈ body, isB64 b = true

def TokenAt (bytes : List UInt8) (i : Nat) : Prop := ∃ b, bytes[i]? = some b ∧ inToken b = true

/-- A base64 character or an equals sign stands right before or right behind
the 44 bytes from an offset. -/
def Attached (bytes : List UInt8) (p : Nat) : Prop :=
  (p ≠ 0 ∧ TokenAt bytes (p - 1)) ∨ TokenAt bytes (p + 44)

/-- A token on its own: the byte before it is no base64 character (it may be
the equals sign of an assignment), and the one behind it goes on with none. -/
def Standalone (bytes w : List UInt8) (p : Nat) : Prop :=
  IsToken w ∧ w <+: bytes.drop p ∧
    (∀ b, p ≠ 0 → bytes[p - 1]? = some b → isB64 b = false) ∧ ¬ TokenAt bytes (p + 44)

/-- What the scrubber is for. -/
structure Clean (bytes out : List UInt8) : Prop where
  removed : ∃ covered : Nat → Bool, out = blank marker covered bytes ∧
    ∀ i, InSegment bytes i → covered i = true
  keyword : ∀ p, ¬ StartsKeyword (out.map byteLowercase) p
  token : ∀ w p, Standalone bytes w p → ¬ w <:+: out

/-- A token that stands on its own somewhere stands attached outside of the
segments. -/
def AttachedToken (bytes : List UInt8) : Prop :=
  ∃ w p q, Standalone bytes w p ∧ w <+: bytes.drop q ∧ Attached bytes q ∧
    ∀ j < 44, ¬ InSegment bytes (q + j)

-- ---------------------------------------------------------------------------
-- Bytes
-- ---------------------------------------------------------------------------

theorem keyword_shape : ∀ keyword ∈ keywords, keyword ≠ [] ∧
    ∀ b ∈ keyword, b < 128 ∧ isSeparator b = false ∧ b ≠ '['.toUInt8 ∧ b ≠ ']'.toUInt8 := by
  decide +kernel

theorem separator_ascii (h : isSeparator b = true) : b < 128 := by
  simp only [isSeparator, Bool.or_eq_true, beq_iff_eq] at h
  rcases h with rfl | rfl <;> decide

theorem inToken_shape (h : inToken b = true) : b < 128 ∧ b ≠ '['.toUInt8 ∧ b ≠ ']'.toUInt8 := by
  refine ⟨?_, ?_, ?_⟩
  · simp only [inToken, isB64, isAsciiAlphanumeric, Bool.or_eq_true, Bool.and_eq_true,
      decide_eq_true_eq, beq_iff_eq] at h
    rcases h with ((((h | h) | h) | rfl) | rfl) | rfl
    · grind
    · grind
    · grind
    all_goals decide
  · rintro rfl
    exact absurd h (by decide)
  · rintro rfl
    exact absurd h (by decide)

theorem byteLowercase_first (b : UInt8) :
    (byteLowercase b < 128 || 192 ≤ byteLowercase b) = (b < 128 || 192 ≤ b) := by
  unfold byteLowercase
  split
  · rename_i h
    simp only [Bool.and_eq_true, decide_eq_true_eq] at h
    rw [Bool.eq_iff_iff]
    simp only [Bool.or_eq_true, decide_eq_true_eq]
    grind
  · rfl

theorem isBoundary_map : isBoundary (l.map byteLowercase) i = isBoundary l i := by
  unfold isBoundary
  rw [List.getElem?_map, List.length_map]
  cases l[i]? with
  | none => rfl
  | some b => simp only [Option.map_some, byteLowercase_first]

-- ---------------------------------------------------------------------------
-- Segments
-- ---------------------------------------------------------------------------

theorem StartsKeyword.first (h : StartsKeyword lower p) :
    ∃ b, lower[p]? = some b ∧ b < 128 ∧ isSeparator b = false := by
  obtain ⟨keyword, hmem, hprefix⟩ := h
  obtain ⟨hne, hbytes⟩ := keyword_shape keyword hmem
  cases keyword with
  | nil => exact absurd rfl hne
  | cons b k =>
    obtain ⟨later, hlater⟩ := hprefix
    have hb := hbytes b List.mem_cons_self
    refine ⟨b, ?_, hb.1, hb.2.1⟩
    have hget : (lower.drop p)[0]? = lower[p + 0]? := List.getElem?_drop
    rw [← hlater] at hget
    simpa using hget.symm

theorem firstKeyword_some (h : firstKeyword rest = some i) :
    StartsKeyword rest i ∧ ∀ j < i, ¬ StartsKeyword rest j := by
  obtain ⟨hmem, hmin⟩ := List.min?_eq_some_iff.mp h
  obtain ⟨keyword, hkeyword, hfind⟩ := List.mem_filterMap.mp hmem
  refine ⟨⟨keyword, hkeyword, (find_some hfind).1⟩, ?_⟩
  rintro j hj ⟨other, hother, hprefix⟩
  cases hfound : find other rest with
  | none => exact find_none (keyword_shape other hother).1 hfound j hprefix
  | some k =>
    have hk := hmin k (List.mem_filterMap.mpr ⟨other, hother, hfound⟩)
    exact (find_some hfound).2 j (Nat.lt_of_lt_of_le hj hk) hprefix

theorem firstKeyword_none (h : firstKeyword rest = none) (j : Nat) : ¬ StartsKeyword rest j := by
  rintro ⟨keyword, hkeyword, hprefix⟩
  have hnone := List.filterMap_eq_nil_iff.mp (List.min?_eq_none_iff.mp h) keyword hkeyword
  exact find_none (keyword_shape keyword hkeyword).1 hnone j hprefix

theorem startsKeyword_drop : StartsKeyword (lower.drop n) i ↔ StartsKeyword lower (n + i) := by
  simp only [StartsKeyword, List.drop_drop]

/-- From an offset to another one there is no separator, and then there is one
or the end of the text. -/
structure EndsAt (lower : List UInt8) (start stop : Nat) : Prop where
  le : start ≤ stop
  within : stop ≤ lower.length
  inside : ∀ j b, start ≤ j → j < stop → lower[j]? = some b → isSeparator b = false
  separator : stop < lower.length → ∃ b, lower[stop]? = some b ∧ isSeparator b = true

theorem endsAt_segmentEnd (hstart : start ≤ lower.length) :
    EndsAt lower start (segmentEnd lower (lower.drop start) start) := by
  unfold segmentEnd
  split
  · rename_i offset hfound
    obtain ⟨hlt, hsep, hbefore⟩ := List.findIdx?_eq_some_iff_getElem.mp hfound
    rw [List.length_drop] at hlt
    rw [List.getElem_drop] at hsep
    refine ⟨Nat.le_add_right _ _, by omega, fun j b hj hlt' hb => ?_, fun hlen =>
      ⟨_, List.getElem?_eq_getElem hlen, hsep⟩⟩
    have hnot := hbefore (j - start) (by omega)
    rw [List.getElem_drop] at hnot
    obtain ⟨hjlen, rfl⟩ := List.getElem?_eq_some_iff.mp hb
    simpa [Nat.add_sub_cancel' hj] using hnot
  · rename_i hnone
    refine ⟨hstart, Nat.le_refl _, fun j b hj hlt hb => ?_, fun hlen => absurd hlen (lt_irrefl _)⟩
    refine List.findIdx?_eq_none_iff.mp hnone b ?_
    obtain ⟨hjlen, rfl⟩ := List.getElem?_eq_some_iff.mp hb
    exact List.mem_drop_iff_getElem.mpr ⟨j - start, by omega, by simp [Nat.add_sub_cancel' hj]⟩

theorem EndsAt.boundary (h : EndsAt lower start i) : isBoundary lower i = true := by
  rcases Nat.lt_or_ge i lower.length with hlt | hge
  · obtain ⟨b, hb, hsep⟩ := h.separator hlt
    exact isBoundary_of_ascii hb (separator_ascii hsep)
  · rw [Nat.le_antisymm h.within hge]
    exact isBoundary_length

theorem EndsAt.lt (h : EndsAt lower start i) (hat : StartsKeyword lower start) : start < i := by
  obtain ⟨b, hb, -, hsep⟩ := hat.first
  refine Nat.lt_of_le_of_ne h.le ?_
  rintro rfl
  obtain ⟨b', hb', hsep'⟩ := h.separator (List.getElem?_eq_some_iff.mp hb).1
  rw [hb] at hb'
  cases hb'
  rw [hsep] at hsep'
  cases hsep'

theorem SegmentFrom.lt (h : SegmentFrom lower n i) : n < lower.length := by
  obtain ⟨p, hnp, hpi, hi, -⟩ := h
  omega

theorem segmentFrom_iff {stop : Nat} (hn : n ≤ start) (hat : StartsKeyword lower start)
    (hbefore : ∀ p, n ≤ p → p < start → ¬ StartsKeyword lower p) (h : EndsAt lower start stop) :
    SegmentFrom lower n i ↔ (start ≤ i ∧ i < stop) ∨ SegmentFrom lower stop i := by
  have hstop := h.le
  have hlen := h.within
  constructor
  · rintro ⟨p, hnp, hpi, hi, hat', hnone⟩
    have hfirst : start ≤ p := by
      by_contra hlt
      exact hbefore p hnp (Nat.lt_of_not_le hlt) hat'
    rcases Nat.lt_or_ge i stop with hlt | hge
    · exact .inl ⟨Nat.le_trans hfirst hpi, hlt⟩
    · rcases Nat.lt_or_ge p stop with hp | hp
      · -- the separator is between the keyword and the position
        obtain ⟨b, hb, hsep⟩ := h.separator (Nat.lt_of_le_of_lt hge hi)
        rw [hnone stop b hp.le hge hb] at hsep
        cases hsep
      · exact .inr ⟨p, hp, hpi, hi, hat', hnone⟩
  · rintro (⟨hi, hlt⟩ | ⟨p, hp, hpi, hi, hat', hnone⟩)
    · exact ⟨start, hn, hi, by omega, hat, fun j b hj hji => h.inside j b hj (by omega)⟩
    · exact ⟨p, by omega, hpi, hi, hat', hnone⟩

theorem slice_drop (hn : n ≤ l.length) (hb : isBoundary l n = true) :
    slice l n l.length = some (l.drop n) := by
  rw [slice_eq hn hb isBoundary_length, List.take_length]

theorem keywordSpans_spec (lower : List UInt8) (hfuel : lower.length ≤ n + fuel)
    (hn : n < lower.length → isBoundary lower n = true) :
    ∃ spans, keywordSpans lower fuel n = some spans ∧ (∀ s ∈ spans, Proper lower s) ∧
      ∀ i, Covers spans i ↔ SegmentFrom lower n i := by
  induction fuel generalizing n with
  | zero =>
    have hlen : ¬ n < lower.length := by omega
    exact ⟨[], if_neg hlen, nofun, fun i => iff_of_false covers_nil fun h => hlen h.lt⟩
  | succ fuel ih =>
    by_cases hlen : n < lower.length
    · rw [keywordSpans, if_pos hlen, slice_drop hlen.le (hn hlen)]
      cases hfirst : firstKeyword (lower.drop n) with
      | none =>
        refine ⟨[], by simp [hfirst], nofun, fun i => iff_of_false covers_nil ?_⟩
        rintro ⟨p, hnp, -, -, hat, -⟩
        rw [← Nat.add_sub_cancel' hnp, ← startsKeyword_drop] at hat
        exact firstKeyword_none hfirst _ hat
      | some offset =>
        obtain ⟨hat, hbefore⟩ := firstKeyword_some hfirst
        rw [startsKeyword_drop] at hat
        obtain ⟨b, hb, hascii, -⟩ := hat.first
        have hstart := (List.getElem?_eq_some_iff.mp hb).1
        have hboundary := isBoundary_of_ascii hb hascii
        have hends := endsAt_segmentEnd hstart.le
        generalize hstop : segmentEnd lower (lower.drop (n + offset)) (n + offset) = stop at hends
        have hproper := hends.lt hat
        obtain ⟨spans, hspans, hpropers, hcovers⟩ := ih (n := stop) (by omega)
          fun _ => hends.boundary
        refine ⟨(n + offset, stop) :: spans, ?_, ?_, fun i => ?_⟩
        · simp [hfirst, slice_drop hstart.le hboundary, hstop, hspans, hproper]
        · intro s hs
          rcases List.mem_cons.mp hs with rfl | hs
          · exact ⟨hproper, hends.within, hboundary, hends.boundary⟩
          · exact hpropers s hs
        · rw [covers_cons, hcovers, segmentFrom_iff (Nat.le_add_right _ _) hat ?_ hends]
          intro p hnp hlt hat'
          rw [← Nat.add_sub_cancel' hnp, ← startsKeyword_drop] at hat'
          exact hbefore _ (by omega) hat'
    · rw [keywordSpans, if_neg hlen]
      exact ⟨[], rfl, nofun, fun i => iff_of_false covers_nil fun h => hlen h.lt⟩

-- ---------------------------------------------------------------------------
-- Tokens
-- ---------------------------------------------------------------------------

structure TokenRun (bytes : List UInt8) (p : Nat) : Prop where
  first : ∃ b, bytes[p]? = some b ∧ isB64 b = true
  all : ∀ j < 44, TokenAt bytes (p + j)
  alone : ¬ Attached bytes p

theorem any_inToken_iff : (bytes[i]?.any inToken) = true ↔ TokenAt bytes i := by
  cases h : bytes[i]? <;> simp [TokenAt, h]

/-- The run of token bytes from an offset: all of it is, and what is behind it
is not. -/
theorem takeWhile_run (h : ((bytes.drop start).takeWhile inToken).length = n) :
    (∀ j < n, TokenAt bytes (start + j)) ∧ ¬ TokenAt bytes (start + n) := by
  have hget : ∀ j, bytes[start + j]? =
      ((bytes.drop start).takeWhile inToken ++ (bytes.drop start).dropWhile inToken)[j]? := by
    intro j
    rw [List.takeWhile_append_dropWhile, List.getElem?_drop]
  constructor
  · intro j hj
    rw [← h] at hj
    refine ⟨_, ?_, List.all_eq_true.mp List.all_takeWhile _ (List.getElem_mem hj)⟩
    rw [hget, List.getElem?_append_left hj, List.getElem?_eq_getElem hj]
  · rintro ⟨b, hb, htoken⟩
    rw [hget, List.getElem?_append_right h.le, h, Nat.sub_self, ← List.head?_eq_getElem?] at hb
    have hnot := List.head?_dropWhile_not inToken (bytes.drop start)
    rw [hb] at hnot
    exact Bool.false_ne_true (hnot.symm.trans htoken)

theorem TokenRun.length (h : TokenRun bytes start) (hall : ∀ j < n, TokenAt bytes (start + j))
    (hend : ¬ TokenAt bytes (start + n)) : n = 44 := by
  rcases Nat.lt_trichotomy n 44 with hlt | heq | hgt
  · exact absurd (h.all n hlt) hend
  · exact heq
  · exact absurd (.inr (hall 44 hgt)) h.alone

theorem boundaryOk_iff : boundaryOk bytes start = true ↔ ¬ (start ≠ 0 ∧ TokenAt bytes (start - 1)) := by
  rw [← any_inToken_iff, boundaryOk]
  by_cases hstart : start = 0 <;> simp [hstart]

theorem boundaryEndOk_iff : boundaryEndOk bytes index = true ↔ ¬ TokenAt bytes index := by
  rw [← any_inToken_iff, boundaryEndOk]
  rcases Nat.lt_or_ge index bytes.length with hlt | hge
  · simp [Nat.not_le.mpr hlt]
  · simp [hge]

/-- The third case of the test never holds: the run goes on with an equals
sign. -/
theorem validKey_iff (hend : ¬ TokenAt bytes (start + n)) :
    validKey bytes start (start + n) = true ↔ n = 44 := by
  simp only [validKey, Nat.add_sub_cancel_left, Bool.or_eq_true, Bool.and_eq_true, beq_iff_eq,
    bne_iff_ne]
  constructor
  · rintro ((⟨hn, -⟩ | ⟨hn, -⟩) | ⟨-, heq⟩)
    · exact hn
    · exact hn
    · exact absurd ⟨_, heq, by decide⟩ hend
  · rintro rfl
    by_cases heq : bytes[start + 43]? = some '='.toUInt8
    · exact .inl (.inl ⟨rfl, heq⟩)
    · exact .inl (.inr ⟨rfl, heq⟩)

theorem tokenRun_iff (hfirst : ∃ b, bytes[start]? = some b ∧ isB64 b = true)
    (h : ((bytes.drop start).takeWhile inToken).length = n) :
    (validKey bytes start (start + n) && boundaryOk bytes start &&
      boundaryEndOk bytes (start + n)) = true ↔ n = 44 ∧ TokenRun bytes start := by
  obtain ⟨hall, hend⟩ := takeWhile_run h
  rw [Bool.and_eq_true, Bool.and_eq_true, validKey_iff hend, boundaryOk_iff, boundaryEndOk_iff]
  constructor
  · rintro ⟨⟨rfl, hbegin⟩, -⟩
    exact ⟨rfl, hfirst, hall, fun h => h.elim hbegin hend⟩
  · rintro ⟨rfl, hrun⟩
    exact ⟨⟨rfl, fun hbegin => hrun.alone (.inl hbegin)⟩, hend⟩

theorem tokenSpans_spec (bytes : List UInt8) (hfuel : bytes.length ≤ n + fuel) :
    ∃ spans, tokenSpans bytes fuel n = some spans ∧
      ∀ s, s ∈ spans ↔ n ≤ s.1 ∧ s.2 = s.1 + 44 ∧ TokenRun bytes s.1 := by
  induction fuel generalizing n with
  | zero =>
    refine ⟨[], if_neg (by omega), fun s => iff_of_false List.not_mem_nil ?_⟩
    rintro ⟨hn, -, ⟨b, hb, -⟩, -⟩
    have hlen := (List.getElem?_eq_some_iff.mp hb).1
    omega
  | succ fuel ih =>
    unfold tokenSpans
    split
    · rename_i hnone
      refine ⟨[], rfl, fun s => iff_of_false List.not_mem_nil ?_⟩
      rintro ⟨hn, -, ⟨b, hb, -⟩, -⟩
      have hlen := (List.getElem?_eq_some_iff.mp hb).1
      have hover := List.getElem?_eq_none_iff.mp hnone
      omega
    · rename_i byte hbyte
      split
      · rename_i hnot
        obtain ⟨spans, hspans, hmem⟩ := ih (n := n + 1) (by omega)
        refine ⟨spans, hspans, fun s => (hmem s).trans ?_⟩
        refine ⟨fun ⟨hn, h⟩ => ⟨Nat.le_of_succ_le hn, h⟩, fun ⟨hn, h⟩ => ⟨?_, h⟩⟩
        refine Nat.lt_of_le_of_ne hn ?_
        rintro rfl
        obtain ⟨b, hb, hb64⟩ := h.2.first
        rw [hbyte] at hb
        cases hb
        simp [hb64] at hnot
      · rename_i hb64
        simp only [Bool.not_eq_true', Bool.not_eq_false] at hb64
        dsimp only
        generalize hlen : ((bytes.drop n).takeWhile inToken).length = len
        have hrun := tokenRun_iff ⟨byte, hbyte, hb64⟩ hlen
        obtain ⟨hall, hend⟩ := takeWhile_run hlen
        have hpos : 0 < len := by
          refine Nat.pos_of_ne_zero ?_
          rintro rfl
          exact hend ⟨byte, hbyte, by simp [inToken, hb64]⟩
        obtain ⟨spans, hspans, hmem⟩ := ih (n := n + len) (by omega)
        -- within the run none begins but at its start
        have hlater : ∀ s : Nat × Nat, TokenRun bytes s.1 →
            (n ≤ s.1 ↔ s.1 = n ∨ n + len ≤ s.1) := by
          intro s hs
          refine ⟨fun hn => ?_, by omega⟩
          by_contra! hbetween
          refine hs.alone (.inl ⟨by omega, ?_⟩)
          have hbefore := hall (s.1 - 1 - n) (by omega)
          rwa [Nat.add_sub_cancel' (by omega)] at hbefore
        rw [hspans]
        refine ⟨_, rfl, fun s => ?_⟩
        split
        · rename_i hok
          obtain ⟨rfl, htoken⟩ := hrun.mp hok
          rw [List.mem_cons, hmem]
          constructor
          · rintro (rfl | ⟨hn, h⟩)
            · exact ⟨Nat.le_refl _, rfl, htoken⟩
            · exact ⟨by omega, h⟩
          · rintro ⟨hn, h2, h⟩
            rcases (hlater s h).mp hn with heq | hge
            · exact .inl (Prod.ext heq (by rw [h2, heq]))
            · exact .inr ⟨hge, h2, h⟩
        · rename_i hok
          rw [hmem]
          constructor
          · rintro ⟨hn, h⟩
            exact ⟨by omega, h⟩
          · rintro ⟨hn, h2, h⟩
            rcases (hlater s h).mp hn with heq | hge
            · rw [heq] at h
              exact absurd (hrun.mpr ⟨h.length hall hend, h⟩) hok
            · exact ⟨hge, h2, h⟩

-- ---------------------------------------------------------------------------
-- The scrubbed text
-- ---------------------------------------------------------------------------

theorem sorted_sortSpans (spans : List (Nat × Nat)) : Sorted (sortSpans spans) :=
  haveI : Std.Total fun s t : Nat × Nat => s.1 ≤ t.1 := ⟨fun s t => Nat.le_total s.1 t.1⟩
  haveI : IsTrans (Nat × Nat) fun s t => s.1 ≤ t.1 := ⟨fun _ _ _ => Nat.le_trans⟩
  List.pairwise_insertionSort _ _

theorem TokenRun.proper (h : TokenRun (encode text.toList) p) :
    Proper (encode text.toList) (p, p + 44) := by
  obtain ⟨b, hb, htoken⟩ := h.all 43 (by decide)
  obtain ⟨c, hc, hc64⟩ := h.first
  have hlen := (List.getElem?_eq_some_iff.mp hb).1
  refine ⟨Nat.lt_add_of_pos_right (by decide), by omega, ?_, ?_⟩
  · exact isBoundary_of_ascii hc (inToken_shape (by simp [inToken, hc64])).1
  · exact isBoundary_succ hb (inToken_shape htoken).1

/-- The scrubber ends, no slice panics, and the text comes out with the segments
and the runs of 44 token bytes blanked. -/
theorem sanitizeSensitive_eq (text : String) : ∃ covered : Nat → Bool,
    sanitizeSensitive text = some (blank marker covered (encode text.toList)) ∧
      ∀ i, covered i = true ↔ InSegment (encode text.toList) i ∨
        ∃ p, TokenRun (encode text.toList) p ∧ p ≤ i ∧ i < p + 44 := by
  unfold sanitizeSensitive InSegment
  have hrunproper : ∀ p, TokenRun (encode text.toList) p → _ := fun p h => h.proper
  generalize encode text.toList = bytes at hrunproper ⊢
  obtain ⟨segments, hsegments, hproper, hcovers⟩ := keywordSpans_spec (n := 0)
    (bytes.map byteLowercase) (Nat.le_add_left _ _) fun _ => isBoundary_zero
  obtain ⟨tokens, htokens, hmem⟩ := tokenSpans_spec (n := 0) bytes (Nat.le_add_left _ _)
  have hall : ∀ s ∈ segments ++ tokens, Proper bytes s := by
    intro s hs
    rcases List.mem_append.mp hs with hs | hs
    · simpa [Proper, isBoundary_map] using hproper s hs
    · obtain ⟨-, h2, hrun⟩ := (hmem s).mp hs
      have h := hrunproper s.1 hrun
      rwa [← h2] at h
  refine ⟨fun i => decide (Covers (segments ++ tokens) i), ?_, fun i => ?_⟩
  · simp only [hsegments, htokens, Option.bind_eq_bind, Option.bind_some]
    split
    · rename_i hempty
      rw [List.isEmpty_iff.mp hempty, blank_of_not_covered (by simp)]
      rfl
    · have hperm : (sortSpans (segments ++ tokens)).Perm (segments ++ tokens) :=
        List.perm_insertionSort _ _
      rw [splice_merge (sorted_sortSpans _) fun s hs => hall s (hperm.mem_iff.mp hs)]
      simp only [covers_perm hperm]
  · rw [decide_eq_true_iff, covers_append, hcovers]
    refine or_congr_right ?_
    constructor
    · rintro ⟨s, hs, hle, hlt⟩
      obtain ⟨-, h2, hrun⟩ := (hmem s).mp hs
      exact ⟨s.1, hrun, hle, h2 ▸ hlt⟩
    · rintro ⟨p, hrun, hle, hlt⟩
      exact ⟨(p, p + 44), (hmem _).mpr ⟨Nat.zero_le _, rfl, hrun⟩, hle, hlt⟩

theorem sanitizeSensitive_of_no_ascii (h : ∀ b ∈ encode text.toList, ¬ b < 128) :
    sanitizeSensitive text = some (encode text.toList) := by
  obtain ⟨covered, heq, hcovered⟩ := sanitizeSensitive_eq text
  rw [heq, blank_of_not_covered fun i _ => ?_]
  rw [← Bool.not_eq_true, hcovered]
  rintro (⟨p, -, -, -, hat, -⟩ | ⟨p, hrun, -, -⟩)
  · obtain ⟨b, hb, hascii, -⟩ := hat.first
    rw [List.getElem?_map] at hb
    obtain ⟨b', hb', rfl⟩ := Option.map_eq_some_iff.mp hb
    refine h b' (List.mem_of_getElem? hb') ?_
    unfold byteLowercase at hascii
    split at hascii
    · grind
    · exact hascii
  · obtain ⟨b, hb, hb64⟩ := hrun.first
    exact h b (List.mem_of_getElem? hb) (inToken_shape (by simp [inToken, hb64])).1

theorem IsToken.inToken (h : IsToken w) : ∀ b ∈ w, inToken b = true := by
  obtain ⟨body, padding, rfl, -, -, hbody⟩ := h
  intro b hb
  rcases List.mem_append.mp hb with hb | hb
  · simp [Relay.inToken, hbody b hb]
  · rw [List.eq_of_mem_replicate hb]
    decide

theorem IsToken.first (h : IsToken w) : ∃ b, w[0]? = some b ∧ isB64 b = true := by
  obtain ⟨body, padding, rfl, hlen, hpadding, hbody⟩ := h
  cases body with
  | nil =>
    rw [List.nil_append, List.length_replicate] at hlen
    omega
  | cons b body => exact ⟨b, rfl, hbody b List.mem_cons_self⟩

theorem IsToken.length (h : IsToken w) : w.length = 44 := by
  obtain ⟨-, -, -, hlen, -⟩ := h
  exact hlen

theorem getElem?_prefixed (h : w <+: l.drop p) (hi : i < w.length) : l[p + i]? = w[i]? := by
  obtain ⟨later, hlater⟩ := h
  rw [← List.getElem?_drop, ← hlater, List.getElem?_append_left hi]

theorem IsToken.tokenAt (h : IsToken w) (hp : w <+: bytes.drop p) (hi : i < 44) :
    TokenAt bytes (p + i) := by
  have hlt : i < w.length := h.length ▸ hi
  refine ⟨w[i], ?_, h.inToken _ (List.getElem_mem hlt)⟩
  rw [getElem?_prefixed hp hlt, List.getElem?_eq_getElem hlt]

theorem IsToken.run (h : IsToken w) (hp : w <+: bytes.drop p) (halone : ¬ Attached bytes p) :
    TokenRun bytes p := by
  obtain ⟨b, hb, hb64⟩ := h.first
  have hlen : 0 < w.length := by rw [h.length]; decide
  exact ⟨⟨b, (getElem?_prefixed hp hlen).trans hb, hb64⟩, fun j hj => h.tokenAt hp hj, halone⟩

theorem TokenRun.eq_of_meets (hrun : TokenRun bytes p) (hw : IsToken w) (hq : w <+: bytes.drop q)
    (h1 : p < q + 44) (h2 : q < p + 44) : p = q := by
  rcases Nat.lt_trichotomy p q with hlt | heq | hgt
  · have htoken := hw.tokenAt hq (show p + 44 - q < 44 by omega)
    rw [Nat.add_sub_cancel' h2.le] at htoken
    exact absurd (.inr htoken) hrun.alone
  · exact heq
  · have htoken := hw.tokenAt hq (show p - 1 - q < 44 by omega)
    rw [Nat.add_sub_cancel' (by omega)] at htoken
    exact absurd (.inl ⟨by omega, htoken⟩) hrun.alone

variable {covered : Nat → Bool}

theorem uncovered_iff (hcovered : ∀ i, covered i = true ↔ InSegment bytes i ∨
      ∃ p, TokenRun bytes p ∧ p ≤ i ∧ i < p + 44) (hw : IsToken w) :
    Uncovered covered w bytes q ↔
      w <+: bytes.drop q ∧ Attached bytes q ∧ ∀ j < 44, ¬ InSegment bytes (q + j) := by
  simp only [Uncovered, hw.length, ← Bool.not_eq_true, hcovered, not_or]
  refine and_congr_right fun hq => ⟨fun h => ⟨?_, fun j hj => (h j hj).1⟩, ?_⟩
  · by_contra halone
    exact (h 0 (by decide)).2 ⟨q, hw.run hq halone, Nat.le_add_right _ _, by omega⟩
  · rintro ⟨hattached, hoff⟩ j hj
    refine ⟨hoff j hj, ?_⟩
    rintro ⟨p, hrun, hle, hlt⟩
    obtain rfl := hrun.eq_of_meets hw hq (by omega) (by omega)
    exact hrun.alone hattached

theorem StartsKeyword.inSegment (h : StartsKeyword (bytes.map byteLowercase) p) :
    InSegment bytes p := by
  obtain ⟨b, hb, -, hsep⟩ := h.first
  refine ⟨p, Nat.zero_le _, Nat.le_refl _, (List.getElem?_eq_some_iff.mp hb).1, h, ?_⟩
  intro j b' hj hjp hb'
  obtain rfl := Nat.le_antisymm hjp hj
  rw [hb] at hb'
  cases hb'
  exact hsep

theorem not_startsKeyword_blank (hcovered : ∀ i, InSegment bytes i → covered i = true) (q : Nat) :
    ¬ StartsKeyword ((blank marker covered bytes).map byteLowercase) q := by
  rintro ⟨keyword, hmem, hprefix⟩
  obtain ⟨hne, hbytes⟩ := keyword_shape keyword hmem
  have hinfix := hprefix.isInfix.trans (List.drop_suffix _ _).isInfix
  have hmarker : marker.map byteLowercase =
      '['.toUInt8 :: redacted.map byteLowercase ++ [']'.toUInt8] := by decide
  rw [map_blank, hmarker] at hinfix
  rcases infix_blank (fun h => (hbytes _ h).2.2.1 rfl) (fun h => (hbytes _ h).2.2.2 rfl) hinfix
    with hword | ⟨p, hat, hfree⟩
  · have hother : ∀ k ∈ keywords, ¬ ∀ b ∈ k, b ∈ redacted.map byteLowercase := by decide +kernel
    exact hother keyword hmem fun b hb => hword.subset hb
  · have hpos := List.length_pos_iff.mpr hne
    have hnot := hfree 0 hpos
    rw [Nat.add_zero, hcovered p (StartsKeyword.inSegment ⟨keyword, hmem, hat⟩)] at hnot
    cases hnot

/-- The scrubber always ends, and what comes out is clean if and only if no
token of the text stands attached outside of the segments. -/
theorem sanitize_sensitive_clean_iff (text : String) :
    (∃ out, sanitizeSensitive text = some out ∧ Clean (encode text.toList) out) ↔
      ¬ AttachedToken (encode text.toList) := by
  obtain ⟨covered, heq, hcovered⟩ := sanitizeSensitive_eq text
  generalize encode text.toList = bytes at heq hcovered ⊢
  rw [heq]
  constructor
  · rintro ⟨out, hout, hclean⟩ ⟨w, p, q, hw, hq, hattached, hoff⟩
    cases hout
    have huncovered := (uncovered_iff hcovered hw.1).mpr ⟨hq, hattached, hoff⟩
    exact hclean.token w p hw huncovered.infix
  · intro hnone
    refine ⟨_, rfl, ⟨covered, rfl, fun i h => (hcovered i).mpr (.inl h)⟩,
      not_startsKeyword_blank fun i h => (hcovered i).mpr (.inl h), fun w p hw hinfix => ?_⟩
    have hbytes : ∀ b ∈ w, _ := fun b hb => (inToken_shape (hw.1.inToken b hb)).2
    rcases infix_blank (fun h => (hbytes _ h).1 rfl) (fun h => (hbytes _ h).2 rfl) hinfix
      with hword | ⟨q, hq⟩
    · have hlen := hword.length_le
      rw [hw.1.length] at hlen
      revert hlen
      decide
    · obtain ⟨hat, hattached, hoff⟩ := (uncovered_iff hcovered hw.1).mp hq
      exact hnone ⟨w, p, q, hw, hat, hattached, hoff⟩

def assignedKey : String := "psk=yAnz5TF+lXXJte14tji3zlMNq+hd2rYUIgJBgB3fBmk="

/-- A key behind an equals sign stays. -/
theorem assigned_key_stays :
    ¬ ∃ out, sanitizeSensitive assignedKey = some out ∧ Clean (encode assignedKey.toList) out := by
  rintro ⟨out, hout, hclean⟩
  have hsame : sanitizeSensitive assignedKey = some (encode assignedKey.toList) := by
    decide +kernel
  obtain rfl := Option.some.inj (hout.symm.trans hsame)
  refine hclean.token ((encode assignedKey.toList).drop 4) 4 ⟨?_, ?_, ?_, ?_⟩
    (List.drop_suffix _ _).isInfix
  · exact ⟨((encode assignedKey.toList).drop 4).take 43, 1, by decide +kernel, by decide +kernel,
      by decide +kernel, by decide +kernel⟩
  · exact List.prefix_refl _
  · intro b _ hb
    have hequals : (encode assignedKey.toList)[3]? = some '='.toUInt8 := by decide +kernel
    rw [hequals] at hb
    cases hb
    decide
  · rintro ⟨b, hb, -⟩
    have hnone : (encode assignedKey.toList)[4 + 44]? = none := by decide +kernel
    rw [hnone] at hb
    cases hb

end LabProbe.Relay
