import Mathlib.Algebra.Order.Field.Rat
import Mathlib.Data.List.DropRight
import Mathlib.Data.List.Nodup

/-!
# Tables of rows that are rewritten in place

Operations of a table kept as a list: rewriting the first or the last row
that matches, and marking and sending the first rows that are due, up to a
limit. Whatever a row keeps through its rewriting or marking, the table
keeps.
-/

namespace Rows

variable {α β : Type} {p due : α → Bool} {f mark : α → α} {l l' sent : List α}

theorem open_of_due {own pending delivered retry fewer : Bool}
    (h : (own && (pending || delivered && retry && fewer)) = true) :
    (pending || delivered) = true := by
  simp only [Bool.and_eq_true, Bool.or_eq_true] at h ⊢
  rcases h with ⟨-, h | ⟨⟨h, -⟩, -⟩⟩
  · exact .inl h
  · exact .inr h

-- ---------------------------------------------------------------------------
-- Rewriting the last match
-- ---------------------------------------------------------------------------

def updateLast (p : α → Bool) (f : α → α) : List α → Option (α × List α)
  | [] => none
  | a :: l =>
    match updateLast p f l with
    | some (b, l') => some (b, a :: l')
    | none => if p a then some (f a, f a :: l) else none

attribute [local grind =] updateLast

theorem updateLast_none : updateLast p f l = none ↔ ∀ a ∈ l, p a = false := by
  induction l with
  | nil => simp [updateLast]
  | cons a l ih =>
    simp only [updateLast, List.forall_mem_cons]
    cases h : updateLast p f l with
    | some r =>
      have hl : ¬ ∀ b ∈ l, p b = false := fun hall => by simp [ih.mpr hall] at h
      simp [hl]
    | none =>
      have hl := ih.mp h
      cases hp : p a with
      | true => simp
      | false => simpa using hl

theorem updateLast_some {b : α} (h : updateLast p f l = some (b, l')) :
    ∃ pre a post, l = pre ++ a :: post ∧ p a = true ∧ (∀ c ∈ post, p c = false) ∧ b = f a ∧
      l' = pre ++ f a :: post := by
  induction l generalizing l' with
  | nil => simp [updateLast] at h
  | cons a l ih =>
    simp only [updateLast] at h
    cases hl : updateLast p f l with
    | some r =>
      obtain ⟨b', m⟩ := r
      rw [hl] at h
      cases h
      obtain ⟨pre, a', post, rfl, hp, hpost, hb, rfl⟩ := ih hl
      exact ⟨a :: pre, a', post, rfl, hp, hpost, hb, rfl⟩
    | none =>
      rw [hl] at h
      dsimp only at h
      split at h
      · rename_i hp
        cases h
        exact ⟨[], a, l, rfl, hp, updateLast_none.mp hl, rfl, rfl⟩
      · simp at h

theorem filter_getLast? {pre post : List α} {a : α} (hp : p a = true)
    (hpost : ∀ c ∈ post, p c = false) : ((pre ++ a :: post).filter p).getLast? = some a := by
  have hnone : post.filter p = [] := by simpa [List.filter_eq_nil_iff] using hpost
  simp [List.filter_append, hp, hnone]

-- ---------------------------------------------------------------------------
-- Rewriting the first match
-- ---------------------------------------------------------------------------

def updateFirst (p : α → Bool) (f : α → α) : List α → List α
  | [] => []
  | a :: l => if p a then f a :: l else a :: updateFirst p f l

attribute [local grind =] updateFirst

theorem mem_updateFirst {b : α} (h : b ∈ updateFirst p f l) :
    b ∈ l ∨ ∃ a, l.find? p = some a ∧ b = f a := by
  induction l with
  | nil => exact .inl h
  | cons a l ih =>
    unfold updateFirst at h
    by_cases hp : p a = true
    · rw [if_pos hp] at h
      rcases List.mem_cons.mp h with rfl | h
      · exact .inr ⟨a, List.find?_cons_of_pos hp, rfl⟩
      · exact .inl (List.mem_cons_of_mem _ h)
    · rw [if_neg hp] at h
      rcases List.mem_cons.mp h with rfl | h
      · exact .inl List.mem_cons_self
      · rcases ih h with h | ⟨a', ha', rfl⟩
        · exact .inl (List.mem_cons_of_mem _ h)
        · exact .inr ⟨a', by rwa [List.find?_cons_of_neg hp], rfl⟩

theorem set_same {a : α} {i : Nat} (h : l[i]? = some a) : l.set i a = l := by
  obtain ⟨hi, rfl⟩ := List.getElem?_eq_some_iff.mp h
  exact List.set_getElem_self hi

theorem updateFirst_eq_set {a : α} (h : l.find? p = some a) :
    ∃ i, l[i]? = some a ∧ (∀ j < i, ∀ b, l[j]? = some b → p b = false) ∧
      updateFirst p f l = l.set i (f a) := by
  induction l with
  | nil => simp at h
  | cons b l ih =>
    by_cases hp : p b = true
    · obtain rfl : b = a := by simpa [hp] using h
      exact ⟨0, by simp, by simp, by simp [updateFirst, hp]⟩
    · obtain ⟨i, hi, hfirst, hset⟩ := ih (by simpa [hp] using h)
      refine ⟨i + 1, by simpa using hi, ?_, by simp [updateFirst, hp, hset]⟩
      rintro (_ | j) hj c hc
      · obtain rfl : b = c := by simpa using hc
        simpa using hp
      · exact hfirst j (by omega) c (by simpa using hc)

@[simp]
theorem updateFirst_id (l : List α) : updateFirst p id l = l := by
  induction l with
  | nil => rfl
  | cons b l ih => simp [updateFirst, ih]

theorem map_updateFirst {g : α → β} (hg : ∀ a, p a = true → g (f a) = g a) (l : List α) :
    (updateFirst p f l).map g = l.map g := by
  induction l with
  | nil => rfl
  | cons a l ih =>
    unfold updateFirst
    split
    · rename_i hp
      rw [List.map_cons, List.map_cons, hg a hp]
    · rw [List.map_cons, List.map_cons, ih]

theorem getElem?_updateFirst {a : α} {i : Nat} (ha : l[i]? = some a) (hp : p a = false) :
    (updateFirst p f l)[i]? = some a := by
  induction l generalizing i with
  | nil => simp at ha
  | cons b l ih =>
    unfold updateFirst
    cases i with
    | zero =>
      obtain rfl : b = a := by simpa using ha
      rw [if_neg (by simp [hp])]
      rfl
    | succ i =>
      split
      · exact ha
      · exact ih ha

theorem updateFirst_map {g : α → β} {q : β → Bool} {h : β → β} (hq : ∀ a, q (g a) = p a)
    (hh : ∀ a ∈ l, g (f a) = h (g a)) : (updateFirst p f l).map g = updateFirst q h (l.map g) := by
  induction l with
  | nil => rfl
  | cons a l ih =>
    obtain ⟨ha, hl⟩ := List.forall_mem_cons.mp hh
    rw [List.map_cons, updateFirst, updateFirst, hq]
    split
    · rw [List.map_cons, ha]
    · rw [List.map_cons, ih hl]

theorem find?_updateFirst (hf : ∀ a, p a = true → p (f a) = true) (l : List α) :
    (updateFirst p f l).find? p = (l.find? p).map f := by
  induction l with
  | nil => rfl
  | cons a l ih =>
    unfold updateFirst
    split
    · rename_i hp
      rw [List.find?_cons_of_pos (hf a hp), List.find?_cons_of_pos hp, Option.map_some]
    · rename_i hp
      rw [List.find?_cons_of_neg hp, List.find?_cons_of_neg hp, ih]

theorem find?_updateFirst_other {q : α → Bool}
    (hq : ∀ a, p a = true → q a = false ∧ q (f a) = false) (l : List α) :
    (updateFirst p f l).find? q = l.find? q := by
  induction l with
  | nil => rfl
  | cons a l ih =>
    unfold updateFirst
    split
    · rename_i hp
      obtain ⟨hold, hnew⟩ := hq a hp
      simp only [List.find?_cons, hold, hnew]
    · rw [List.find?_cons, List.find?_cons, ih]

theorem updateFirst_eq_map [DecidableEq β] {key : α → β} {k : β} (hl : (l.map key).Nodup) :
    updateFirst (fun a => key a == k) f l = l.map fun a => if key a = k then f a else a := by
  induction l with
  | nil => rfl
  | cons a l ih =>
    obtain ⟨ha, hl⟩ := List.nodup_cons.mp hl
    rw [updateFirst, List.map_cons]
    by_cases hk : key a = k
    · have hrest : ∀ b ∈ l, key b ≠ k := fun b hb hbk =>
        ha (hk.trans hbk.symm ▸ List.mem_map_of_mem hb)
      simp only [hk, beq_self_eq_true, if_true]
      rw [List.map_congr_left fun b hb => if_neg (hrest b hb), List.map_id'']
      exact fun _ => rfl
    · simp only [beq_iff_eq, hk, if_false]
      rw [ih hl]

-- ---------------------------------------------------------------------------
-- Sending what is due
-- ---------------------------------------------------------------------------

/-- Mark the first `n` rows that are due, in order; what was sent, and the
table after it. -/
def send (due : α → Bool) (mark : α → α) : Nat → List α → List α × List α
  | 0, l => ([], l)
  | _ + 1, [] => ([], [])
  | n + 1, a :: l =>
    if due a then (mark a :: (send due mark n l).1, mark a :: (send due mark n l).2)
    else ((send due mark (n + 1) l).1, a :: (send due mark (n + 1) l).2)

attribute [local grind =] send

theorem send_sublist (n : Nat) (l : List α) :
    (send due mark n l).1.Sublist (send due mark n l).2 := by
  induction l generalizing n with
  | nil => cases n <;> exact List.Sublist.slnil
  | cons a l ih =>
    cases n with
    | zero => exact List.nil_sublist _
    | succ n =>
      simp only [send]
      split
      · exact (ih n).cons_cons _
      · exact (ih (n + 1)).cons _

theorem sent_eq (n : Nat) (l : List α) :
    (send due mark n l).1 = ((l.filter due).take n).map mark := by
  induction l generalizing n with
  | nil => cases n <;> rfl
  | cons a l ih =>
    cases n with
    | zero => rfl
    | succ n =>
      unfold send
      by_cases h : due a = true <;> simp [h, ih]

theorem send_append {pre post : List α}
    (hpre : ∀ a ∈ pre, due a = false) (hpost : ∀ a ∈ post, due a = true) (n : Nat) :
    send due mark n (pre ++ post) =
      ((post.take n).map mark, pre ++ ((post.take n).map mark ++ post.drop n)) := by
  induction pre with
  | nil =>
    induction post generalizing n with
    | nil => cases n <;> rfl
    | cons a post ih =>
      obtain ⟨ha, hpost⟩ := List.forall_mem_cons.mp hpost
      cases n with
      | zero => rfl
      | succ n =>
        have hrest := ih hpost n
        rw [List.nil_append] at hrest
        simp [send, ha, hrest]
  | cons a pre ih =>
    obtain ⟨ha, hpre⟩ := List.forall_mem_cons.mp hpre
    cases n with
    | zero => rfl
    | succ n => simp [send, ha, ih hpre]

theorem mem_sent {n : Nat} {b : α} (h : b ∈ (send due mark n l).1) :
    ∃ a ∈ l, due a = true ∧ b = mark a := by
  induction l generalizing n with
  | nil => cases n <;> simp [send] at h
  | cons a l ih =>
    cases n with
    | zero => simp [send] at h
    | succ n =>
      simp only [send] at h
      split at h
      · rename_i hd
        rcases List.mem_cons.mp h with rfl | h
        · exact ⟨a, List.mem_cons_self, hd, rfl⟩
        · obtain ⟨a', ha', hdue⟩ := ih h
          exact ⟨a', List.mem_cons_of_mem _ ha', hdue⟩
      · obtain ⟨a', ha', hdue⟩ := ih h
        exact ⟨a', List.mem_cons_of_mem _ ha', hdue⟩

theorem map_send {g : α → β} (hg : ∀ a, due a = true → g (mark a) = g a) (n : Nat) (l : List α) :
    (send due mark n l).2.map g = l.map g := by
  induction l generalizing n with
  | nil => cases n <;> rfl
  | cons a l ih =>
    cases n with
    | zero => rfl
    | succ n =>
      simp only [send]
      split
      · rename_i hd
        simp [hg a hd, ih]
      · simp [ih]

theorem mem_send {n : Nat} {b : α} (h : b ∈ (send due mark n l).2) :
    b ∈ l ∨ ∃ a ∈ l, due a = true ∧ b = mark a := by
  induction l generalizing n with
  | nil => cases n <;> simp [send] at h
  | cons a l ih =>
    have hrest : ∀ {m}, b ∈ (send due mark m l).2 →
        b ∈ a :: l ∨ ∃ c ∈ a :: l, due c = true ∧ b = mark c := fun h =>
      (ih h).imp (List.mem_cons_of_mem a) fun ⟨c, hc, hdue⟩ => ⟨c, List.mem_cons_of_mem a hc, hdue⟩
    cases n with
    | zero => exact .inl h
    | succ n =>
      simp only [send] at h
      split at h
      · rename_i hd
        rcases List.mem_cons.mp h with rfl | h
        · exact .inr ⟨a, List.mem_cons_self, hd, rfl⟩
        · exact hrest h
      · rcases List.mem_cons.mp h with rfl | h
        · exact .inl List.mem_cons_self
        · exact hrest h

/-- A relation between rows and those behind them is kept where a marked row
has it to every row, and a row that is not due to the marked ones. -/
theorem send_pairwise {R : α → α → Prop} (hl : l.Pairwise R)
    (hmark : ∀ a b, due a = true → R (mark a) b)
    (hother : ∀ a b, due a = false → due b = true → R a b → R a (mark b)) (n : Nat) :
    (send due mark n l).2.Pairwise R := by
  induction l generalizing n with
  | nil => cases n <;> exact List.Pairwise.nil
  | cons a l ih =>
    obtain ⟨ha, hl'⟩ := List.pairwise_cons.mp hl
    cases n with
    | zero => exact hl
    | succ n =>
      simp only [send]
      split
      · rename_i hd
        exact List.pairwise_cons.mpr ⟨fun b _ => hmark a b hd, ih hl' n⟩
      · rename_i hd
        refine List.pairwise_cons.mpr ⟨fun b hb => ?_, ih hl' (n + 1)⟩
        rcases mem_send hb with hb | ⟨c, hc, hdue, rfl⟩
        · exact ha b hb
        · exact hother a c (by simpa using hd) hdue (ha c hc)

-- ---------------------------------------------------------------------------
-- Lists
-- ---------------------------------------------------------------------------

theorem getLast?_of_sublist {a : α} (hs : l'.Sublist l) (hl : l.Nodup) (ha : l.getLast? = some a)
    (hm : a ∈ l') : l'.getLast? = some a := by
  induction hs with
  | slnil => simp at hm
  | @cons l' l b hs ih =>
    obtain ⟨hb, hl⟩ := List.nodup_cons.mp hl
    cases l with
    | nil => simp [List.sublist_nil.mp hs] at hm
    | cons c l => exact ih hl (by simpa using ha) hm
  | @cons_cons l' l b hs ih =>
    obtain ⟨hb, hl⟩ := List.nodup_cons.mp hl
    cases l with
    | nil =>
      rw [List.sublist_nil.mp hs]
      simpa using ha
    | cons c l =>
      have hlast : (c :: l).getLast? = some a := by simpa using ha
      have hmem : a ∈ l' := by
        rcases List.mem_cons.mp hm with rfl | hm
        · exact absurd (List.mem_of_getLast? hlast) hb
        · exact hm
      cases l' with
      | nil => simp at hmem
      | cons d l' => simpa using ih hl hlast hmem

theorem eq_nil_of_getLast? {pre post : List α} {a : α} (hl : (pre ++ a :: post).Nodup)
    (h : (pre ++ a :: post).getLast? = some a) : post = [] := by
  rcases List.eq_nil_or_concat' post with rfl | ⟨post, b, rfl⟩
  · rfl
  · obtain rfl : b = a := by simpa [List.getLast?_cons] using h
    simp [List.nodup_append] at hl

theorem rtake_map (g : α → β) (n : Nat) (l : List α) : (l.map g).rtake n = (l.rtake n).map g := by
  simp [List.rtake, List.map_drop]

theorem rtake_rtake {n m : Nat} (h : n ≤ m) (l : List α) : (l.rtake m).rtake n = l.rtake n := by
  simp [List.rtake_eq_reverse_take_reverse, List.take_take, h]

/-- A table cut to its last rows before a new row is, cut again, the table with it cut once. -/
theorem rtake_rtake_concat (n : Nat) (l : List α) (a : α) :
    (l.rtake n ++ [a]).rtake n = (l ++ [a]).rtake n := by
  cases n with
  | zero => simp
  | succ n => rw [List.rtake_concat_succ, List.rtake_concat_succ, rtake_rtake n.le_succ]

theorem rtake_suffix (n : Nat) (l : List α) : l.rtake n <:+ l := List.drop_suffix _ _

theorem mem_eraseIdx_or {a b : α} {i : Nat} (ha : l[i]? = some a) (hb : b ∈ l) :
    b = a ∨ b ∈ l.eraseIdx i := by
  obtain ⟨j, hj⟩ := List.mem_iff_getElem?.mp hb
  by_cases hij : j = i
  · subst hij
    exact .inl (Option.some.inj (hj.symm.trans ha))
  · exact .inr (List.mem_eraseIdx_iff_getElem?.mpr ⟨j, hij, hj⟩)

theorem mem_set_or {a b : α} (c : α) {i : Nat} (ha : l[i]? = some a) (hb : b ∈ l) :
    b = a ∨ b ∈ l.set i c := by
  obtain ⟨j, hj⟩ := List.mem_iff_getElem?.mp hb
  by_cases hij : i = j
  · subst hij
    exact .inl (Option.some.inj (hj.symm.trans ha))
  · exact .inr (List.mem_iff_getElem?.mpr ⟨j, by rw [List.getElem?_set_ne hij, hj]⟩)

theorem mem_set_self {a : α} (c : α) {i : Nat} (ha : l[i]? = some a) : c ∈ l.set i c := by
  obtain ⟨hi, -⟩ := List.getElem?_eq_some_iff.mp ha
  exact List.mem_iff_getElem?.mpr ⟨i, by rw [List.getElem?_set_self hi]⟩

/-- Rewriting a row changes how many match by that row alone. -/
theorem countP_modify {a : α} {i : Nat} (ha : l[i]? = some a) :
    (l.modify i f).countP p + (if p a then 1 else 0) = l.countP p + if p (f a) then 1 else 0 := by
  induction l generalizing i with
  | nil => simp at ha
  | cons b l ih =>
    cases i with
    | zero =>
      obtain rfl : b = a := by simpa using ha
      simp only [List.modify_zero_cons, List.countP_cons]
      omega
    | succ i =>
      have hl := ih (i := i) (by simpa using ha)
      simp only [List.modify_succ_cons, List.countP_cons]
      omega

theorem forall_modify {P : α → Prop} {i : Nat} (hl : ∀ a ∈ l, P a)
    (hf : ∀ a, l[i]? = some a → P (f a)) : ∀ a ∈ l.modify i f, P a := by
  intro a ha
  obtain ⟨j, hj⟩ := List.mem_iff_getElem?.mp ha
  rw [List.getElem?_modify] at hj
  cases hb : l[j]? with
  | none => simp [hb] at hj
  | some b =>
    rw [hb] at hj
    by_cases hij : i = j
    · subst hij
      simp only [if_pos] at hj
      cases hj
      exact hf b hb
    · simp only [if_neg hij] at hj
      cases hj
      exact hl b (List.mem_of_getElem? hb)

theorem nodup_map_concat {key : α → β} {a : α} (hl : (l.map key).Nodup) (ha : key a ∉ l.map key) :
    ((l ++ [a]).map key).Nodup := by
  rw [List.map_append, List.map_singleton, ← List.concat_eq_append, List.nodup_concat]
  exact ⟨ha, hl⟩

end Rows
