import LabProbe.Hub.Values

/-!
# The addresses of devices as texts

Devices are told apart by a text without dots and dashes in lower case, twelve
characters of it in pairs.
-/

namespace LabProbe.Hub

open Py Py.Json

variable [Unicode]

def Lowered (c : Char) : Prop := ∃ s, c ∈ (Unicode.lower s).toList

theorem lowered_colon : Lowered ':' := by
  refine ⟨":", ?_⟩
  rw [Unicode.lower_ascii _ (by decide)]
  decide

structure NormalMac (m : String) : Prop where
  lowered : ∀ c ∈ m.toList, Lowered c
  dash : '-' ∉ m.toList
  dot : '.' ∉ m.toList
  stripped : strip m = m
  grouped : ':' ∈ m.toList ∨ m.length ≠ 12

omit [Unicode] in
theorem joinWith_pairs {cs : List Char} (h : cs.length = 12) :
    ∃ c d mid, cs.head? = some c ∧ cs.getLast? = some d ∧
      (joinWith ':' ((List.range 6).map fun i => (cs.drop (2 * i)).take 2)) = c :: (mid ++ [d]) ∧
      ':' ∈ mid ∧ ∀ e ∈ mid, e ∈ cs ∨ e = ':' := by
  rcases cs with _ | ⟨c0, _ | ⟨c1, _ | ⟨c2, _ | ⟨c3, _ | ⟨c4, _ | ⟨c5, _ | ⟨c6, _ | ⟨c7,
    _ | ⟨c8, _ | ⟨c9, _ | ⟨c10, _ | ⟨c11, cs⟩⟩⟩⟩⟩⟩⟩⟩⟩⟩⟩⟩
  all_goals simp only [List.length_nil, List.length_cons] at h
  all_goals try omega
  obtain rfl : cs = [] := List.length_eq_zero_iff.mp (by omega)
  refine ⟨c0, c11, [c1, ':', c2, c3, ':', c4, c5, ':', c6, c7, ':', c8, c9, ':', c10], rfl, rfl,
    rfl, by simp, ?_⟩
  intro e he
  simp only [List.mem_cons, List.not_mem_nil, or_false] at he ⊢
  tauto

theorem normalMac_normMac (v : Json) : NormalMac (normMac v) := by
  have hempty : NormalMac "" := ⟨by simp, by simp, by simp, strip_empty, .inr (by decide)⟩
  unfold normMac
  split
  · exact hempty
  · dsimp only
    generalize hm : strip _ = m
    have hstripped : strip m = m := by rw [← hm, strip_strip]
    have hchars : ∀ c ∈ m.toList, Lowered c ∧ c ≠ '-' ∧ c ≠ '.' := by
      intro c hc
      rw [← hm] at hc
      have hfrom := mem_strip hc
      rw [String.toList_ofList] at hfrom
      obtain ⟨hdashed, hdot⟩ := (mem_replaceAll hfrom).resolve_left (by simp)
      rcases mem_replaceAll hdashed with hcolon | ⟨hlower, hdash⟩
      · obtain rfl := List.mem_singleton.mp hcolon
        exact ⟨lowered_colon, by decide, hdot⟩
      · exact ⟨⟨_, hlower⟩, hdash, hdot⟩
    split
    · rename_i hpairs
      rw [Bool.and_eq_true, beq_iff_eq, ← String.length_toList] at hpairs
      obtain ⟨c, d, mid, hhead, hlast, hjoin, hcolon, hmid⟩ := joinWith_pairs hpairs.2
      obtain ⟨hfirst, hend⟩ := strip_eq_self_iff.mp hstripped
      have hall : ∀ e ∈ c :: (mid ++ [d]), Lowered e ∧ e ≠ '-' ∧ e ≠ '.' := by
        intro e he
        have hc := hchars c (List.mem_of_mem_head? hhead)
        have hd := hchars d (List.mem_of_getLast? hlast)
        rcases List.mem_cons.mp he with rfl | he
        · exact hc
        · rcases List.mem_append.mp he with he | he
          · rcases hmid e he with he | rfl
            · exact hchars e he
            · exact ⟨lowered_colon, by decide, by decide⟩
          · obtain rfl := List.mem_singleton.mp he
            exact hd
      rw [hjoin]
      refine ⟨?_, ?_, ?_, strip_eq_self_iff.mpr ?_, .inl ?_⟩
      all_goals rw [String.toList_ofList]
      · exact fun e he => (hall e he).1
      · exact fun he => (hall _ he).2.1 rfl
      · exact fun he => (hall _ he).2.2 rfl
      · constructor
        · intro e he
          obtain rfl : c = e := by simpa using he
          exact hfirst c hhead
        · intro e he
          rw [← List.cons_append, List.getLast?_concat] at he
          cases he
          exact hend d hlast
      · exact List.mem_cons_of_mem _ (List.mem_append_left _ hcolon)
    · rename_i hpairs
      refine ⟨fun c hc => (hchars c hc).1, fun h => (hchars _ h).2.1 rfl,
        fun h => (hchars _ h).2.2 rfl, hstripped, ?_⟩
      by_cases hcolon : ':' ∈ m.toList
      · exact .inl hcolon
      · refine .inr fun hlength => hpairs ?_
        rw [Bool.and_eq_true, Bool.not_eq_true', beq_iff_eq]
        exact ⟨by simpa using hcolon, hlength⟩

end LabProbe.Hub
