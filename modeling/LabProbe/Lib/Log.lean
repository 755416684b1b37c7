import Mathlib.Algebra.Order.Field.Rat
import Mathlib.Data.List.Basic

/-!
# Numbered logs

A log is a list whose entries carry strictly increasing numbers. A table
that only keeps the end of its log answers every question about the entries
after a number exactly as the log would, from the oldest number it keeps on.
Whether a filter and a cap leave the end of a list is decided by the entries
alone, and pages read one after the other join without gaps or repeats.
-/

namespace Logs

variable {α ι : Type}

-- ---------------------------------------------------------------------------
-- Filters that leave an end
-- ---------------------------------------------------------------------------

section
variable {r : α → α → Prop} {p : α → Bool} {l l' : List α}

/-- A property that passes on to later entries selects an end of the list. -/
theorem filter_suffix (hl : l.Pairwise r) (hp : ∀ a b, r a b → p a → p b) : l.filter p <:+ l := by
  induction l with
  | nil => exact List.nil_suffix
  | cons a l ih =>
    obtain ⟨ha, hl⟩ := List.pairwise_cons.mp hl
    by_cases h : p a
    · have hall : ∀ b ∈ l, p b := fun b hb => hp a b (ha b hb) h
      have hself : (a :: l).filter p = a :: l := by
        rw [List.filter_cons_of_pos h, List.filter_eq_self.mpr hall]
      exact ⟨[], hself⟩
    · rw [List.filter_cons_of_neg h]
      exact (ih hl).trans (List.suffix_cons a l)

theorem filter_eq_of_sublist (hs : l'.Sublist l) (hl : l.Nodup)
    (h : ∀ a ∈ l, p a → a ∈ l') : l'.filter p = l.filter p := by
  induction hs with
  | slnil => rfl
  | @cons l' l a hs ih =>
    obtain ⟨ha, hl⟩ := List.nodup_cons.mp hl
    have hpa : ¬ p a := fun hp => ha (hs.subset (h a List.mem_cons_self hp))
    rw [List.filter_cons_of_neg hpa]
    exact ih hl fun b hb => h b (List.mem_cons_of_mem _ hb)
  | @cons_cons l' l a hs ih =>
    obtain ⟨ha, hl⟩ := List.nodup_cons.mp hl
    have hrest : l'.filter p = l.filter p := by
      refine ih hl fun b hb hp => ?_
      rcases List.mem_cons.mp (h b (List.mem_cons_of_mem _ hb) hp) with rfl | hb'
      · exact absurd hb ha
      · exact hb'
    simp only [List.filter_cons, hrest]

def cap (n : Nat) (l : List α) : List α := l.drop (l.length - n)

theorem cap_suffix (n : Nat) (l : List α) : cap n l <:+ l := List.drop_suffix _ _

theorem length_cap (n : Nat) (l : List α) : (cap n l).length = min n l.length := by
  simp only [cap, List.length_drop]
  omega

theorem suffix_cap {n : Nat} (hs : l' <:+ l) (hn : l'.length ≤ n) : l' <:+ cap n l := by
  refine List.suffix_of_suffix_length_le hs (cap_suffix n l) ?_
  have := hs.length_le
  rw [length_cap]
  omega

theorem cap_cap_append (n : Nat) (l l' : List α) : cap n (cap n l ++ l') = cap n (l ++ l') := by
  obtain ⟨dropped, hsplit⟩ := cap_suffix n l
  have hinner : cap n l ++ l' <:+ l ++ l' := ⟨dropped, by rw [← List.append_assoc, hsplit]⟩
  have hlength : (cap n (cap n l ++ l')).length = (cap n (l ++ l')).length := by
    simp only [length_cap, List.length_append]
    omega
  exact (List.suffix_of_suffix_length_le ((cap_suffix _ _).trans hinner) (cap_suffix _ _)
    (Nat.le_of_eq hlength)).eq_of_length hlength

theorem map_cap {β : Type} (n : Nat) (f : α → β) (l : List α) : (cap n l).map f = cap n (l.map f) := by
  simp [cap, List.map_drop]

theorem mem_cap_of_mem {n : Nat} {a : α} (ha : a ∈ l) (hout : a ∉ l.take (l.length - n)) :
    a ∈ cap n l := by
  rw [← List.take_append_drop (l.length - n) l, List.mem_append] at ha
  exact ha.resolve_left hout

/-- From an entry the cap leaves on, every later one passes the filter. -/
def KeepsEnd (p : α → Bool) (n : Nat) (l : List α) : Prop :=
  ∀ pre a post, l = pre ++ a :: post → p a → (post.filter p).length < n → ∀ b ∈ post, p b

/-- A filter followed by a cap leaves a nonempty end of the list exactly
when something passes and no entry after one the cap leaves is dropped. -/
theorem cap_filter_suffix_iff {n : Nat} (hl : l.Nodup) (hn : 0 < n) :
    (cap n (l.filter p) <:+ l ∧ cap n (l.filter p) ≠ []) ↔
      KeepsEnd p n l ∧ ∃ a ∈ l, p a := by
  constructor
  · rintro ⟨hs, hne⟩
    constructor
    · rintro pre a post rfl ha hlt
      have hend : a :: post.filter p <:+ cap n ((pre ++ a :: post).filter p) := by
        refine suffix_cap ?_ hlt
        simp [List.filter_append, List.filter_cons_of_pos ha]
      -- both are ends of the list, and `a` occurs once
      have hpost : a :: post <:+ cap n ((pre ++ a :: post).filter p) := by
        rcases List.suffix_or_suffix_of_suffix (List.suffix_append pre (a :: post)) hs with h | h
        · exact h
        · rcases List.suffix_cons_iff.mp h with h | h
          · exact List.suffix_of_suffix_length_le (List.suffix_append _ _) hs (Nat.le_of_eq (congrArg List.length h.symm))
          · have hmem : a ∈ post := h.subset (hend.subset List.mem_cons_self)
            simp [List.nodup_append, hmem] at hl
      intro b hb
      have := (cap_suffix _ _).subset (hpost.subset (List.mem_cons_of_mem a hb))
      exact (List.mem_filter.mp this).2
    · obtain ⟨a, ha⟩ := List.exists_mem_of_ne_nil _ hne
      obtain ⟨hm, hp⟩ := List.mem_filter.mp ((cap_suffix _ _).subset ha)
      exact ⟨a, hm, hp⟩
  · rintro ⟨hkeep, a, ha, hp⟩
    have hne : cap n (l.filter p) ≠ [] := by
      have hpos := List.length_pos_of_mem (List.mem_filter.mpr ⟨ha, hp⟩)
      intro h
      have := length_cap n (l.filter p)
      rw [h, List.length_nil] at this
      omega
    refine ⟨?_, hne⟩
    obtain ⟨d, rest, hcap⟩ := List.exists_cons_of_ne_nil hne
    obtain ⟨dropped, hsplit⟩ := cap_suffix n (l.filter p)
    rw [hcap] at hsplit ⊢
    obtain ⟨l₁, l₂, rfl, -, hl₂⟩ := List.filter_eq_append_iff.mp hsplit.symm
    obtain ⟨before, post, rfl, -, hd, hpost⟩ := List.filter_eq_cons_iff.mp hl₂
    have hlen : (post.filter p).length < n := by
      have := length_cap n ((l₁ ++ (before ++ d :: post)).filter p)
      rw [hcap, List.length_cons] at this
      rw [hpost]
      omega
    have hall := hkeep (l₁ ++ before) d post (by simp) hd hlen
    rw [← hpost, List.filter_eq_self.mpr hall]
    exact ⟨l₁ ++ before, by simp⟩

end

-- ---------------------------------------------------------------------------
-- Numbers
-- ---------------------------------------------------------------------------

section
variable [LinearOrder ι] {number : α → ι} {log table : List α}

def Ordered (number : α → ι) (log : List α) : Prop := log.Pairwise fun a b => number a < number b

/-- The entries above a number. -/
def after (number : α → ι) (since : ι) (log : List α) : List α :=
  log.filter fun a => since < number a

def upTo (number : α → ι) (last : ι) (log : List α) : List α :=
  log.filter fun a => number a ≤ last

theorem upTo_append (last : ι) (l l' : List α) :
    upTo number last (l ++ l') = upTo number last l ++ upTo number last l' := List.filter_append ..

theorem after_append (since : ι) (l l' : List α) :
    after number since (l ++ l') = after number since l ++ after number since l' :=
  List.filter_append ..

theorem Ordered.nodup (h : Ordered number log) : log.Nodup :=
  List.Pairwise.imp (fun hlt heq => by subst heq; exact lt_irrefl _ hlt) h

theorem Ordered.sublist (h : Ordered number log) (hs : table.Sublist log) : Ordered number table :=
  List.Pairwise.sublist hs h

theorem Ordered.head_le (h : Ordered number (a :: log)) (hb : b ∈ a :: log) :
    number a ≤ number b := by
  rcases List.mem_cons.mp hb with rfl | hb
  · exact le_refl _
  · exact le_of_lt ((List.pairwise_cons.mp h).1 b hb)

theorem Ordered.inj (h : Ordered number log) (ha : a ∈ log) (hb : b ∈ log)
    (heq : number a = number b) : a = b := by
  induction log with
  | nil => simp at ha
  | cons c log ih =>
    obtain ⟨hc, hlog⟩ := List.pairwise_cons.mp h
    rcases List.mem_cons.mp ha with hac | hal <;> rcases List.mem_cons.mp hb with hbc | hbl
    · rw [hac, hbc]
    · exact absurd heq (ne_of_lt (hac ▸ hc b hbl))
    · exact absurd heq (ne_of_gt (hbc ▸ hc a hal))
    · exact ih hlog hal hbl

theorem after_suffix (h : Ordered number log) (hs : a :: table <:+ log) {since : ι}
    (hsince : ∀ b, number b < number a → number b ≤ since) :
    after number since (a :: table) = after number since log := by
  obtain ⟨dropped, rfl⟩ := hs
  have hold : after number since dropped = [] := by
    rw [after, List.filter_eq_nil_iff]
    intro b hb
    have hlt : number b < number a := (List.pairwise_append.mp h).2.2 b hb a List.mem_cons_self
    simpa using hsince b hlt
  rw [after_append, hold, List.nil_append]

/-- A sublist of the log is its end when it misses nothing from its first number on. -/
theorem suffix_of_complete (h : Ordered number log) (hs : (a :: table).Sublist log)
    (hall : ∀ b ∈ log, number a ≤ number b → b ∈ a :: table) : a :: table <:+ log := by
  have htable : (a :: table).filter (fun b => number a ≤ number b) = a :: table := by
    rw [List.filter_eq_self]
    intro b hb
    simpa using (h.sublist hs).head_le hb
  rw [← htable, filter_eq_of_sublist hs h.nodup (by simpa using hall)]
  refine filter_suffix h fun b c hbc hb => ?_
  simp only [decide_eq_true_eq] at hb ⊢
  exact le_of_lt (lt_of_le_of_lt hb hbc)

/-- The cap of a log is cut at the number of its `n`th entry from the end. -/
theorem filter_cutoff (h : Ordered number log) {n : Nat} (hn : 0 < n) {cutoff : α}
    (hc : log.reverse[n - 1]? = some cutoff) :
    (log.filter fun a => number cutoff ≤ number a) = cap n log := by
  obtain ⟨hlt, hget⟩ := List.getElem?_eq_some_iff.mp hc
  rw [List.length_reverse] at hlt
  have hdrop : log.drop (log.length - n) = cutoff :: log.drop (log.length - n + 1) := by
    rw [List.drop_eq_getElem_cons (by omega), ← hget, List.getElem_reverse]
    congr 2
    omega
  have hsplit := List.take_append_drop (log.length - n) log
  rw [hdrop] at hsplit
  rw [← hsplit] at h
  obtain ⟨-, hend, hcross⟩ := List.pairwise_append.mp h
  have hout : (log.take (log.length - n)).filter (fun a => number cutoff ≤ number a) = [] := by
    rw [List.filter_eq_nil_iff]
    intro a ha
    simpa using hcross a ha cutoff List.mem_cons_self
  have hin : (cutoff :: log.drop (log.length - n + 1)).filter
      (fun a => number cutoff ≤ number a) = cutoff :: log.drop (log.length - n + 1) := by
    rw [List.filter_eq_self]
    intro a ha
    simpa using Ordered.head_le hend ha
  conv => lhs; rw [← hsplit]
  rw [List.filter_append, hout, hin, List.nil_append, cap, hdrop]

/-- The number to go on from after a page of the entries above `since`. -/
def nextNumber (number : α → ι) (since : ι) (page : List α) : ι :=
  (page.getLast?.map number).getD since

omit [LinearOrder ι] in
theorem nextNumber_cases (since : ι) (page : List α) :
    nextNumber number since page = since ∨ ∃ a ∈ page, nextNumber number since page = number a := by
  rcases List.eq_nil_or_concat' page with rfl | ⟨page, last, rfl⟩
  · exact .inl rfl
  · exact .inr ⟨last, by simp, by simp [nextNumber]⟩

theorem upTo_append_after (h : Ordered number log) (since : ι) :
    upTo number since log ++ after number since log = log := by
  induction log with
  | nil => rfl
  | cons a log ih =>
    obtain ⟨ha, hlog⟩ := List.pairwise_cons.mp h
    by_cases hle : number a ≤ since
    · simpa [upTo, after, hle, not_lt.mpr hle] using ih hlog
    · have hlt : since < number a := lt_of_not_ge hle
      have habove : ∀ b ∈ log, since < number b := fun b hb => lt_trans hlt (ha b hb)
      have hnone : upTo number since log = [] := by
        simpa [upTo, List.filter_eq_nil_iff] using habove
      have hall : after number since log = log := by
        simpa [after, List.filter_eq_self] using habove
      simp only [upTo, after] at hnone hall
      simp [upTo, after, hle, hlt, hnone, hall]

theorem after_after {start since : ι} (hle : start ≤ since) :
    after number since (after number start log) = after number since log := by
  simp only [after, List.filter_filter]
  refine List.filter_congr fun a _ => ?_
  simpa using fun h => lt_of_le_of_lt hle h

/-- The first entries of a log above `since` are the ones up to the last of them. -/
theorem take_eq_upTo (h : Ordered number log) {since : ι} (habove : ∀ a ∈ log, since < number a)
    (n : Nat) : log.take n = upTo number (nextNumber number since (log.take n)) log := by
  rcases List.eq_nil_or_concat' (log.take n) with ht | ⟨page, last, ht⟩
  · have hnone : upTo number since log = [] := by
      simpa [upTo, List.filter_eq_nil_iff] using habove
    simp [ht, nextNumber, hnone]
  · have hsplit : page ++ [last] ++ log.drop n = log := by rw [← ht, List.take_append_drop]
    rw [← hsplit] at h
    obtain ⟨hpage, -, hcross⟩ := List.pairwise_append.mp h
    have hin : upTo number (number last) (page ++ [last]) = page ++ [last] := by
      rw [upTo, List.filter_eq_self]
      intro a ha
      rcases List.mem_append.mp ha with ha | ha
      · simpa using le_of_lt ((List.pairwise_append.mp hpage).2.2 a ha last (by simp))
      · simp [List.mem_singleton.mp ha]
    have hout : upTo number (number last) (log.drop n) = [] := by
      rw [upTo, List.filter_eq_nil_iff]
      intro a ha
      simpa using hcross last (by simp) a ha
    have hnext : nextNumber number since (page ++ [last]) = number last := by simp [nextNumber]
    rw [ht, hnext]
    conv => rhs; rw [← hsplit]
    rw [upTo_append, hin, hout, List.append_nil]

theorem le_nextNumber {since : ι} {page : List α} (habove : ∀ a ∈ page, since < number a) :
    since ≤ nextNumber number since page := by
  rcases List.eq_nil_or_concat' page with rfl | ⟨page, last, rfl⟩
  · exact le_refl _
  · simpa [nextNumber] using le_of_lt (habove last (by simp))

theorem upTo_append_page (h : Ordered number log) {start since : ι} (hle : start ≤ since)
    (n : Nat) :
    upTo number since (after number start log) ++ (after number since log).take n =
      upTo number (nextNumber number since ((after number since log).take n))
        (after number start log) := by
  have hstart : Ordered number (after number start log) := h.sublist List.filter_sublist
  have habove : ∀ a ∈ after number since log, since < number a := fun a ha => by
    simpa using (List.mem_filter.mp ha).2
  have hnext := le_nextNumber fun a ha => habove a (List.mem_of_mem_take (i := n) ha)
  have hread : upTo number (nextNumber number since ((after number since log).take n))
      (upTo number since (after number start log)) = upTo number since (after number start log) := by
    refine List.filter_eq_self.mpr fun a ha => ?_
    have hold : number a ≤ since := by simpa using (List.mem_filter.mp ha).2
    simpa using le_trans hold hnext
  have hsplit := upTo_append_after hstart since
  rw [after_after hle] at hsplit
  have hpage : (after number since log).take n =
      upTo number (nextNumber number since ((after number since log).take n))
        (after number since log) := take_eq_upTo (h.sublist List.filter_sublist) habove n
  conv => rhs; rw [← hsplit]
  rw [upTo_append, hread, ← hpage]

end

end Logs
