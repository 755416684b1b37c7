import Mathlib.Algebra.Order.Field.Rat
import Mathlib.Data.List.Basic

/-!
# An outbox with repeated deliveries

Entries are put at the end of a queue and posted in passes. A post reaches the
other side any number of times and is confirmed or not; what is not confirmed
stays in the queue. Entries of one key are received in their order as long as
nothing of a key is received in a pass behind an entry of that key that failed.
-/

namespace Outbox

structure Entry (α : Type) where
  number : Nat
  body : α
  deriving DecidableEq

structure Post where
  received : Nat
  confirmed : Bool
  deriving DecidableEq

/-- The queue, with the entries that were ever put into it and what has been
received, in order. -/
structure Box (α : Type) where
  history : List (Entry α) := []
  pending : List (Entry α) := []
  received : List (Entry α) := []
  deriving DecidableEq

variable {α κ : Type}

def numbered (n : Nat) : List α → List (Entry α)
  | [] => []
  | body :: bodies => ⟨n, body⟩ :: numbered (n + 1) bodies

def Box.put (bodies : List α) (b : Box α) : Box α :=
  { b with
    history := b.history ++ numbered b.history.length bodies
    pending := b.pending ++ numbered b.history.length bodies }

/-- One pass over the queue, with what becomes of the post of each entry. -/
def Box.flush (post : Nat → Post) (b : Box α) : Box α :=
  { b with
    received := b.received ++ b.pending.flatMap fun e => List.replicate (post e.number).received e
    pending := b.pending.filter fun e => !(post e.number).confirmed }

/-- Nothing is received behind an entry of its key that failed. -/
def Held (key : α → κ) (post : Nat → Post) (pending : List (Entry α)) : Prop :=
  pending.Pairwise fun a b => key a.body = key b.body → (post a.number).confirmed = false →
    (post b.number).received = 0

instance [DecidableEq κ] (key : α → κ) (post : Nat → Post) (pending : List (Entry α)) :
    Decidable (Held key post pending) :=
  inferInstanceAs (Decidable (pending.Pairwise _))

/-- The entries of a key are received in their order, each of them before any
later one. -/
structure Box.InOrder (key : α → κ) (b : Box α) : Prop where
  ordered : b.received.Pairwise fun a c => key a.body = key c.body → a.number ≤ c.number
  gapless : ∀ r ∈ b.received, ∀ e ∈ b.history, key e.body = key r.body → e.number < r.number →
    e ∈ b.received

structure Box.Invariant (key : α → κ) (b : Box α) : Prop where
  sorted : b.pending.Pairwise fun a c => a.number < c.number
  numbers : ∀ e ∈ b.history, e.number < b.history.length
  known : ∀ e ∈ b.pending ++ b.received, e ∈ b.history
  kept : ∀ e ∈ b.history, e ∈ b.pending ∨ e ∈ b.received
  ordered : b.received.Pairwise fun a c => key a.body = key c.body → a.number ≤ c.number
  behind : ∀ r ∈ b.received, ∀ e ∈ b.pending, key r.body = key e.body → r.number ≤ e.number

theorem Box.Invariant.inOrder {key : α → κ} {b : Box α} (h : b.Invariant key) : b.InOrder key := by
  refine ⟨h.ordered, fun r hr e he hkey hlt => ?_⟩
  rcases h.kept e he with hpending | hreceived
  · have hle := h.behind r hr e hpending hkey.symm
    omega
  · exact hreceived

-- ---------------------------------------------------------------------------
-- Putting
-- ---------------------------------------------------------------------------

theorem bodies_numbered (n : Nat) (bodies : List α) : (numbered n bodies).map Entry.body = bodies := by
  induction bodies generalizing n with
  | nil => rfl
  | cons body bodies ih => simp [numbered, ih]

theorem length_numbered (n : Nat) (bodies : List α) : (numbered n bodies).length = bodies.length := by
  rw [← List.length_map, bodies_numbered]

theorem number_range {n : Nat} {bodies : List α} {e : Entry α} (h : e ∈ numbered n bodies) :
    n ≤ e.number ∧ e.number < n + bodies.length := by
  induction bodies generalizing n with
  | nil => simp [numbered] at h
  | cons body bodies ih =>
    rcases List.mem_cons.mp h with rfl | h
    · simp
    · have hrange := ih h
      simp only [List.length_cons]
      omega

theorem sorted_numbered (n : Nat) (bodies : List α) :
    (numbered n bodies).Pairwise fun a c => a.number < c.number := by
  induction bodies generalizing n with
  | nil => exact List.Pairwise.nil
  | cons body bodies ih =>
    refine List.pairwise_cons.mpr ⟨fun e he => ?_, ih (n + 1)⟩
    exact (number_range he).1

theorem Box.Invariant.put {key : α → κ} {b : Box α} (h : b.Invariant key) (bodies : List α) :
    (b.put bodies).Invariant key where
  sorted := by
    refine List.pairwise_append.mpr ⟨h.sorted, sorted_numbered _ _, fun a ha c hc => ?_⟩
    exact (h.numbers a (h.known a (by simp [ha]))).trans_le (number_range hc).1
  numbers := by
    intro e he
    rw [Box.put, List.length_append, length_numbered]
    rcases List.mem_append.mp he with he | he
    · exact (h.numbers e he).trans_le (Nat.le_add_right _ _)
    · exact (number_range he).2
  known := by
    intro e he
    simp only [Box.put, List.mem_append] at he ⊢
    rcases he with (he | he) | he
    · exact .inl (h.known e (by simp [he]))
    · exact .inr he
    · exact .inl (h.known e (by simp [he]))
  kept := by
    intro e he
    simp only [Box.put, List.mem_append] at he ⊢
    rcases he with he | he
    · exact (h.kept e he).imp .inl id
    · exact .inl (.inr he)
  ordered := h.ordered
  behind := by
    intro r hr e he hkey
    rcases List.mem_append.mp he with he | he
    · exact h.behind r hr e he hkey
    · exact ((h.numbers r (h.known r (List.mem_append_right _ hr))).trans_le (number_range he).1).le

-- ---------------------------------------------------------------------------
-- Posting
-- ---------------------------------------------------------------------------

theorem mem_posted {post : Nat → Post} {pending : List (Entry α)} {e : Entry α} :
    e ∈ pending.flatMap (fun e => List.replicate (post e.number).received e) ↔
      e ∈ pending ∧ (post e.number).received ≠ 0 := by
  simp only [List.mem_flatMap, List.mem_replicate]
  constructor
  · rintro ⟨a, ha, hne, rfl⟩
    exact ⟨ha, hne⟩
  · rintro ⟨he, hne⟩
    exact ⟨e, he, hne, rfl⟩

theorem sorted_posted {post : Nat → Post} {pending : List (Entry α)}
    (h : pending.Pairwise fun a c => a.number < c.number) :
    (pending.flatMap fun e => List.replicate (post e.number).received e).Pairwise
      fun a c => a.number ≤ c.number := by
  rw [List.pairwise_flatMap]
  refine ⟨fun e _ => List.pairwise_replicate.mpr (.inr le_rfl), h.imp fun hlt a ha c hc => ?_⟩
  rw [List.eq_of_mem_replicate ha, List.eq_of_mem_replicate hc]
  exact hlt.le

theorem Box.Invariant.flush {key : α → κ} {b : Box α} (h : b.Invariant key) {post : Nat → Post}
    (hpost : ∀ n, (post n).confirmed = true → (post n).received ≠ 0)
    (hheld : Held key post b.pending) : (b.flush post).Invariant key where
  sorted := h.sorted.sublist List.filter_sublist
  numbers := h.numbers
  known := by
    intro e he
    simp only [Box.flush, List.mem_append, mem_posted, List.mem_filter] at he
    rcases he with ⟨he, -⟩ | he | ⟨he, -⟩
    · exact h.known e (by simp [he])
    · exact h.known e (by simp [he])
    · exact h.known e (by simp [he])
  kept := by
    intro e he
    simp only [Box.flush, List.mem_append, mem_posted, List.mem_filter]
    rcases h.kept e he with he | he
    · cases hc : (post e.number).confirmed with
      | true => exact .inr (.inr ⟨he, hpost _ hc⟩)
      | false => exact .inl ⟨he, rfl⟩
    · exact .inr (.inl he)
  ordered := by
    refine List.pairwise_append.mpr ⟨h.ordered, ?_, ?_⟩
    · refine List.Pairwise.imp ?_ (sorted_posted h.sorted)
      exact fun hle _ => hle
    · rintro a ha c hc hkey
      exact h.behind a ha c (mem_posted.mp hc).1 hkey
  behind := by
    intro r hr e he hkey
    simp only [Box.flush, List.mem_append, mem_posted, List.mem_filter, Bool.not_eq_true'] at hr he
    obtain ⟨he, hfailed⟩ := he
    rcases hr with hr | ⟨hr, hreceived⟩
    · exact h.behind r hr e he hkey
    · -- an entry behind the one that failed would not have been received
      by_contra hlt
      have hpair := List.pairwise_iff_getElem.mp (h.sorted.and hheld)
      obtain ⟨i, hi, rfl⟩ := List.mem_iff_getElem.mp he
      obtain ⟨j, hj, rfl⟩ := List.mem_iff_getElem.mp hr
      rcases Nat.lt_trichotomy i j with hij | rfl | hij
      · exact hreceived ((hpair i j hi hj hij).2 hkey.symm hfailed)
      · exact hlt le_rfl
      · exact hlt (hpair j i hj hi hij).1.le

end Outbox
