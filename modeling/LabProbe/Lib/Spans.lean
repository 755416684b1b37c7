import LabProbe.Lib.Utf8
import Mathlib.Order.MinMax

/-!
# Spans of a text

A span is the offset it begins at and the one behind it. Sorted spans that
touch are merged, and a text is spliced with a mark for each that is left.
What comes out is the text with one mark for every stretch of covered
positions, and a word without the ends of the mark is in it just where it
stands uncovered in the text.
-/

namespace Spans

variable {α : Type} {spans rest : List (Nat × Nat)} {s last : Nat × Nat} {i j p : Nat}

def Covers (spans : List (Nat × Nat)) (i : Nat) : Prop := ∃ s ∈ spans, s.1 ≤ i ∧ i < s.2

instance : Decidable (Covers spans i) := inferInstanceAs (Decidable (∃ s ∈ spans, _))

@[simp]
theorem covers_nil : ¬ Covers [] i := nofun

@[simp]
theorem covers_cons : Covers (s :: rest) i ↔ (s.1 ≤ i ∧ i < s.2) ∨ Covers rest i := by
  simp [Covers]

@[simp]
theorem covers_append {later : List (Nat × Nat)} :
    Covers (spans ++ later) i ↔ Covers spans i ∨ Covers later i := by
  simp [Covers, or_and_right, exists_or]

theorem covers_perm {later : List (Nat × Nat)} (h : spans.Perm later) :
    Covers spans i ↔ Covers later i := by
  simp only [Covers, h.mem_iff]

-- ---------------------------------------------------------------------------
-- Merging
-- ---------------------------------------------------------------------------

/-- The spans behind the last one, joined to it as long as they touch it. -/
def mergeFrom (last : Nat × Nat) : List (Nat × Nat) → List (Nat × Nat)
  | [] => [last]
  | s :: rest =>
    if s.1 ≤ last.2 then mergeFrom (last.1, max last.2 s.2) rest else last :: mergeFrom s rest

def merge : List (Nat × Nat) → List (Nat × Nat)
  | [] => []
  | s :: rest => mergeFrom s rest

def Sorted (spans : List (Nat × Nat)) : Prop := spans.Pairwise fun s t => s.1 ≤ t.1

/-- Each span has something in it, and something is left before the next. -/
def Separated : Nat → List (Nat × Nat) → Prop
  | _, [] => True
  | cursor, s :: rest => cursor ≤ s.1 ∧ s.1 < s.2 ∧ Separated (s.2 + 1) rest

theorem covers_mergeFrom (hsorted : Sorted (last :: rest)) :
    Covers (mergeFrom last rest) i ↔ Covers (last :: rest) i := by
  induction rest generalizing last with
  | nil => rfl
  | cons s rest ih =>
    obtain ⟨hlast, hrest⟩ := List.pairwise_cons.mp hsorted
    have hs := hlast s List.mem_cons_self
    unfold mergeFrom
    split
    · rename_i htouch
      have hsorted' : Sorted ((last.1, max last.2 s.2) :: rest) :=
        List.pairwise_cons.mpr
          ⟨fun t ht => hlast t (List.mem_cons_of_mem _ ht), (List.pairwise_cons.mp hrest).2⟩
      rw [ih hsorted', covers_cons, covers_cons, covers_cons, ← or_assoc]
      refine or_congr_left ?_
      simp only [lt_max_iff]
      omega
    · rw [covers_cons, ih hrest, covers_cons (s := last)]

theorem covers_merge (hsorted : Sorted spans) : Covers (merge spans) i ↔ Covers spans i := by
  cases spans with
  | nil => rfl
  | cons s rest => exact covers_mergeFrom hsorted

theorem separated_mergeFrom (hi : i ≤ last.1) (hlast : last.1 < last.2)
    (hproper : ∀ s ∈ rest, s.1 < s.2) : Separated i (mergeFrom last rest) := by
  induction rest generalizing i last with
  | nil => exact ⟨hi, hlast, trivial⟩
  | cons s rest ih =>
    have hs := hproper s List.mem_cons_self
    have hrest := fun t ht => hproper t (List.mem_cons_of_mem _ ht)
    unfold mergeFrom
    split
    · exact ih hi (lt_max_of_lt_left hlast) hrest
    · rename_i hapart
      exact ⟨hi, hlast, ih (Nat.lt_of_not_le hapart) hs hrest⟩

theorem separated_merge (hproper : ∀ s ∈ spans, s.1 < s.2) : Separated 0 (merge spans) := by
  cases spans with
  | nil => trivial
  | cons s rest =>
    exact separated_mergeFrom (Nat.zero_le _) (hproper s List.mem_cons_self)
      fun t ht => hproper t (List.mem_cons_of_mem _ ht)

theorem ends_mergeFrom {P : Nat → Prop} (h : ∀ s ∈ last :: rest, P s.1 ∧ P s.2) :
    ∀ s ∈ mergeFrom last rest, P s.1 ∧ P s.2 := by
  induction rest generalizing last with
  | nil => exact h
  | cons s rest ih =>
    have hlast := h last List.mem_cons_self
    have hs := h s (by simp)
    have hrest : ∀ t ∈ rest, P t.1 ∧ P t.2 := fun t ht => h t (by simp [ht])
    unfold mergeFrom
    split
    · refine ih fun t ht => ?_
      rcases List.mem_cons.mp ht with rfl | ht
      · refine ⟨hlast.1, ?_⟩
        rcases max_choice last.2 s.2 with hmax | hmax
        · rw [hmax]
          exact hlast.2
        · rw [hmax]
          exact hs.2
      · exact hrest t ht
    · intro t ht
      rcases List.mem_cons.mp ht with rfl | ht
      · exact hlast
      · exact ih (fun u hu => h u (List.mem_cons_of_mem _ hu)) t ht

theorem ends_merge {P : Nat → Prop} (h : ∀ s ∈ spans, P s.1 ∧ P s.2) :
    ∀ s ∈ merge spans, P s.1 ∧ P s.2 := by
  cases spans with
  | nil => nofun
  | cons s rest => exact ends_mergeFrom h

theorem Separated.not_covers (h : Separated j spans) (hi : i < j) : ¬ Covers spans i := by
  induction spans generalizing j with
  | nil => exact covers_nil
  | cons s rest ih =>
    obtain ⟨hj, hs, hrest⟩ := h
    rw [covers_cons, not_or]
    exact ⟨by omega, ih hrest (by omega)⟩

-- ---------------------------------------------------------------------------
-- Blanking
-- ---------------------------------------------------------------------------

/-- The text from an offset on, with the mark for each stretch of covered
positions; it has been given already where the offset is inside a stretch. -/
def blankFrom (mark : List α) (covered : Nat → Bool) : Nat → Bool → List α → List α
  | _, _, [] => []
  | i, inside, a :: l =>
    if covered i then (if inside then [] else mark) ++ blankFrom mark covered (i + 1) true l
    else a :: blankFrom mark covered (i + 1) false l

def blank (mark : List α) (covered : Nat → Bool) (l : List α) : List α :=
  blankFrom mark covered 0 false l

variable {mark k l w inner : List α} {covered : Nat → Bool} {inside : Bool} {opening closing : α}

theorem blankFrom_kept (h : ∀ j < k.length, covered (i + j) = false) :
    blankFrom mark covered i inside (k ++ l) =
      k ++ blankFrom mark covered (i + k.length) (inside && k.isEmpty) l := by
  induction k generalizing i inside with
  | nil => simp
  | cons a k ih =>
    have hhead : covered i = false := h 0 (Nat.succ_pos _)
    have htail : ∀ j < k.length, covered (i + 1 + j) = false := fun j hj => by
      rw [Nat.add_assoc, Nat.add_comm 1]
      exact h (j + 1) (Nat.succ_lt_succ hj)
    simp [blankFrom, hhead, ih htail, Nat.add_assoc, Nat.add_comm 1]

theorem blankFrom_inside (h : ∀ j < k.length, covered (i + j) = true) :
    blankFrom mark covered i true (k ++ l) = blankFrom mark covered (i + k.length) true l := by
  induction k generalizing i with
  | nil => simp
  | cons a k ih =>
    have hhead : covered i = true := h 0 (Nat.succ_pos _)
    have htail : ∀ j < k.length, covered (i + 1 + j) = true := fun j hj => by
      rw [Nat.add_assoc, Nat.add_comm 1]
      exact h (j + 1) (Nat.succ_lt_succ hj)
    simp [blankFrom, hhead, ih htail, Nat.add_assoc, Nat.add_comm 1]

theorem blankFrom_covered (hk : k ≠ []) (h : ∀ j < k.length, covered (i + j) = true) :
    blankFrom mark covered i false (k ++ l) =
      mark ++ blankFrom mark covered (i + k.length) true l := by
  cases k with
  | nil => exact absurd rfl hk
  | cons a k =>
    have hhead : covered i = true := h 0 (Nat.succ_pos _)
    rw [← blankFrom_inside h]
    simp [blankFrom, hhead]

theorem blank_of_not_covered (h : ∀ i < l.length, covered i = false) : blank mark covered l = l := by
  have hkept : blankFrom mark covered 0 false (l ++ []) = _ := blankFrom_kept (by simpa using h)
  simpa [blank, blankFrom] using hkept

theorem map_blankFrom {β : Type} (f : α → β) : (blankFrom mark covered i inside l).map f =
    blankFrom (mark.map f) covered i inside (l.map f) := by
  induction l generalizing i inside with
  | nil => rfl
  | cons a l ih =>
    simp only [blankFrom, List.map_cons]
    split
    · rw [List.map_append, ih]
      split <;> rfl
    · rw [List.map_cons, ih]

theorem map_blank {β : Type} (f : α → β) :
    (blank mark covered l).map f = blank (mark.map f) covered (l.map f) :=
  map_blankFrom f

-- ---------------------------------------------------------------------------
-- Splicing
-- ---------------------------------------------------------------------------

def splice (mark text : List UInt8) : Nat → List (Nat × Nat) → Option (List UInt8)
  | cursor, [] => Utf8.slice text cursor text.length
  | cursor, s :: rest => do
    let kept ← Utf8.slice text cursor s.1
    let later ← splice mark text s.2 rest
    return kept ++ mark ++ later

theorem splice_eq {mark text before after : List UInt8} (htext : text = before ++ after)
    (hstart : Utf8.isBoundary text before.length)
    (hends : ∀ s ∈ spans, Utf8.isBoundary text s.1 ∧ Utf8.isBoundary text s.2 ∧ s.2 ≤ text.length)
    (hseparated : Separated (if inside then before.length + 1 else before.length) spans)
    (hcovered : ∀ i, before.length ≤ i → covered i = decide (Covers spans i)) :
    splice mark text before.length spans =
      some (blankFrom mark covered before.length inside after) := by
  induction spans generalizing before after inside with
  | nil =>
    have hkept : blankFrom mark covered before.length inside (after ++ []) = _ :=
      blankFrom_kept fun j _ => hcovered _ (Nat.le_add_right _ _)
    rw [List.append_nil] at hkept
    have hlen : text.length = before.length + after.length := by rw [htext, List.length_append]
    have hall : text = before ++ (after ++ []) := by rw [List.append_nil, htext]
    rw [splice, hkept, hlen, Utf8.slice_middle hall hstart (hlen ▸ Utf8.isBoundary_length)]
    simp [blankFrom]
  | cons s rest ih =>
    obtain ⟨hbegin, hproper, hrest⟩ := hseparated
    obtain ⟨hb1, hb2, hend⟩ := hends s List.mem_cons_self
    have hle : before.length ≤ s.1 := by
      revert hbegin
      split <;> omega
    -- the text up to the span, the span, and what is behind it
    obtain ⟨kept, tail, htail, hkept⟩ : ∃ kept tail, after = kept ++ tail ∧
        before.length + kept.length = s.1 := by
      refine ⟨after.take (s.1 - before.length), _, (List.take_append_drop _ _).symm, ?_⟩
      simp [htext] at hend ⊢
      omega
    obtain ⟨span, later, hlater, hspan⟩ : ∃ span later, tail = span ++ later ∧
        s.1 + span.length = s.2 := by
      refine ⟨tail.take (s.2 - s.1), _, (List.take_append_drop _ _).symm, ?_⟩
      simp [htext, htail] at hend ⊢
      omega
    have hstate : (inside && kept.isEmpty) = false := by
      cases inside with
      | false => rfl
      | true =>
        simp only [if_true] at hbegin
        cases kept with
        | nil => simp at hkept; omega
        | cons => rfl
    have hmiddle : Utf8.slice text before.length s.1 = some kept := by
      rw [← hkept]
      exact Utf8.slice_middle (htail ▸ htext) hstart (hkept ▸ hb1)
    have hlen : (before ++ kept ++ span).length = s.2 := by simp; omega
    have hcovered' : ∀ i, s.2 ≤ i → covered i = decide (Covers rest i) := fun i hi => by
      rw [hcovered i (by omega), decide_eq_decide, covers_cons, or_iff_right (by omega)]
    have hnext : splice mark text s.2 rest = some (blankFrom mark covered s.2 true later) := by
      rw [← hlen]
      exact ih (by simp [htext, htail, hlater]) (hlen ▸ hb2)
        (fun t ht => hends t (List.mem_cons_of_mem _ ht)) (by rw [if_pos rfl, hlen]; exact hrest)
        (hlen ▸ hcovered')
    have hout : blankFrom mark covered before.length inside after =
        kept ++ mark ++ blankFrom mark covered s.2 true later := by
      rw [htail, blankFrom_kept, hstate, hlater, blankFrom_covered, hkept, hspan,
        List.append_assoc]
      · rintro rfl
        simp at hspan
        omega
      · intro j hj
        rw [hkept, hcovered _ (by omega), decide_eq_true_iff, covers_cons]
        exact .inl (by omega)
      · intro j hj
        rw [hcovered _ (Nat.le_add_right _ _), decide_eq_false_iff_not, covers_cons, not_or]
        exact ⟨by omega, hrest.not_covers (by omega)⟩
    rw [splice, hmiddle, hnext, hout]
    rfl

def Proper (text : List UInt8) (s : Nat × Nat) : Prop :=
  s.1 < s.2 ∧ s.2 ≤ text.length ∧ Utf8.isBoundary text s.1 = true ∧ Utf8.isBoundary text s.2 = true

theorem splice_merge {mark text : List UInt8} (hsorted : Sorted spans)
    (hproper : ∀ s ∈ spans, Proper text s) :
    splice mark text 0 (merge spans) = some (blank mark (fun i => decide (Covers spans i)) text) := by
  have hends : ∀ s ∈ merge spans, (Utf8.isBoundary text s.1 = true ∧ s.1 ≤ text.length) ∧
      Utf8.isBoundary text s.2 = true ∧ s.2 ≤ text.length :=
    ends_merge (P := fun i => Utf8.isBoundary text i = true ∧ i ≤ text.length) fun s hs => by
      obtain ⟨hlt, hle, h1, h2⟩ := hproper s hs
      exact ⟨⟨h1, by omega⟩, h2, hle⟩
  have hall : text = [] ++ text := rfl
  exact splice_eq hall Utf8.isBoundary_zero (fun s hs => ⟨(hends s hs).1.1, (hends s hs).2⟩)
    (by simpa using separated_merge fun s hs => (hproper s hs).1)
    fun i _ => decide_eq_decide.mpr (covers_merge hsorted).symm

-- ---------------------------------------------------------------------------
-- Words
-- ---------------------------------------------------------------------------

def Uncovered (covered : Nat → Bool) (w l : List α) (p : Nat) : Prop :=
  w <+: l.drop p ∧ ∀ j < w.length, covered (p + j) = false

theorem prefix_of_not_mem {a : α} (ha : a ∉ w) (h : w <+: k ++ a :: l) : w <+: k := by
  rcases List.prefix_or_prefix_of_prefix h (List.prefix_append k (a :: l)) with hw | ⟨t, rfl⟩
  · exact hw
  · cases t with
    | nil => simp
    | cons b t =>
      obtain ⟨rfl, -⟩ := List.cons_prefix_cons.mp ((List.prefix_append_right_inj k).mp h)
      simp at ha

theorem infix_of_not_mem {a : α} (ha : a ∉ w) (h : w <:+: k ++ a :: l) : w <:+: k ∨ w <:+: l := by
  induction k with
  | nil =>
    rcases List.infix_cons_iff.mp h with hw | hw
    · exact .inl (prefix_of_not_mem (k := []) ha hw).isInfix
    · exact .inr hw
  | cons b k ih =>
    rcases List.infix_cons_iff.mp h with hw | hw
    · exact .inl (prefix_of_not_mem (k := b :: k) ha hw).isInfix
    · exact (ih hw).imp_left fun hw => List.infix_cons hw

theorem prefix_blankFrom (ha : opening ∉ w)
    (h : w <+: blankFrom (opening :: inner) covered i false l) :
    w <+: l ∧ ∀ j < w.length, covered (i + j) = false := by
  induction l generalizing i w with
  | nil =>
    obtain rfl := List.prefix_nil.mp h
    simp
  | cons a l ih =>
    cases w with
    | nil => simp
    | cons b w =>
      unfold blankFrom at h
      split at h
      · obtain ⟨rfl, -⟩ := List.cons_prefix_cons.mp h
        simp at ha
      · rename_i hi
        obtain ⟨rfl, hw⟩ := List.cons_prefix_cons.mp h
        obtain ⟨hl, hj⟩ := ih (fun hmem => ha (List.mem_cons_of_mem _ hmem)) hw
        refine ⟨List.cons_prefix_cons.mpr ⟨rfl, hl⟩, fun j hlt => ?_⟩
        cases j with
        | zero => exact Bool.not_eq_true _ ▸ hi
        | succ j =>
          rw [← Nat.add_assoc, Nat.add_right_comm]
          exact hj j (Nat.lt_of_succ_lt_succ hlt)

theorem infix_blankFrom (ho : opening ∉ w) (hc : closing ∉ w)
    (h : w <:+: blankFrom (opening :: inner ++ [closing]) covered i inside l) :
    w <:+: inner ∨ ∃ p, w <+: l.drop p ∧ ∀ j < w.length, covered (i + p + j) = false := by
  induction l generalizing i inside with
  | nil =>
    obtain rfl := List.infix_nil.mp h
    exact .inl (List.nil_infix)
  | cons a l ih =>
    have hnext : (∃ p, w <+: l.drop p ∧ ∀ j < w.length, covered (i + 1 + p + j) = false) →
        ∃ p, w <+: (a :: l).drop p ∧ ∀ j < w.length, covered (i + p + j) = false := by
      rintro ⟨p, hp, hj⟩
      refine ⟨p + 1, hp, fun j hlt => ?_⟩
      rw [← Nat.add_assoc, Nat.add_right_comm i p]
      exact hj j hlt
    have hhead : w <+: blankFrom (opening :: (inner ++ [closing])) covered i false (a :: l) → _ :=
      prefix_blankFrom ho
    unfold blankFrom at h hhead
    split at h
    · cases inside with
      | true => exact (ih h).imp_right hnext
      | false =>
        simp only [Bool.false_eq_true, if_false, List.cons_append, List.append_assoc,
          List.nil_append] at h
        rcases infix_of_not_mem (k := []) ho h with hw | hw
        · obtain rfl := List.infix_nil.mp hw
          exact .inl List.nil_infix
        · rcases infix_of_not_mem hc hw with hw | hw
          · exact .inl hw
          · exact (ih hw).imp_right hnext
    · rename_i hi
      rw [if_neg hi] at hhead
      rcases List.infix_cons_iff.mp h with hw | hw
      · exact .inr ⟨0, by simpa using hhead hw⟩
      · exact (ih hw).imp_right hnext

theorem infix_blank (ho : opening ∉ w) (hc : closing ∉ w)
    (h : w <:+: blank (opening :: inner ++ [closing]) covered l) :
    w <:+: inner ∨ ∃ p, Uncovered covered w l p := by
  have hcase := infix_blankFrom ho hc h
  simp only [Nat.zero_add] at hcase
  exact hcase

theorem exists_blankFrom_append (mark : List α) (covered : Nat → Bool) (i : Nat) (inside : Bool)
    (k l : List α) : ∃ before inside',
    blankFrom mark covered i inside (k ++ l) =
      before ++ blankFrom mark covered (i + k.length) inside' l := by
  induction k generalizing i inside with
  | nil => exact ⟨[], inside, rfl⟩
  | cons a k ih =>
    rw [List.cons_append, blankFrom, List.length_cons, Nat.add_comm k.length, ← Nat.add_assoc]
    split
    · obtain ⟨before, inside', hk⟩ := ih (i + 1) true
      exact ⟨(if inside then [] else mark) ++ before, inside', by rw [hk, List.append_assoc]⟩
    · obtain ⟨before, inside', hk⟩ := ih (i + 1) false
      exact ⟨a :: before, inside', by rw [hk, List.cons_append]⟩

theorem Uncovered.infix (h : Uncovered covered w l p) : w <:+: blank mark covered l := by
  obtain ⟨⟨later, hlater⟩, hw⟩ := h
  by_cases hp : p ≤ l.length
  · obtain ⟨before, inside, hl⟩ := exists_blankFrom_append mark covered 0 false (l.take p)
      (w ++ later)
    rw [List.length_take, Nat.min_eq_left hp, Nat.zero_add, blankFrom_kept hw] at hl
    rw [blank, ← List.take_append_drop p l, ← hlater, hl]
    exact ⟨before, _, List.append_assoc _ _ _⟩
  · rw [List.drop_of_length_le (by omega), List.append_eq_nil_iff] at hlater
    rw [hlater.1]
    exact List.nil_infix

end Spans
