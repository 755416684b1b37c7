import LabProbe.Router.Dashboard

/-!
# The merge of two dashboards in memory

`merge` assigns to the keys of dictionaries that others may hold. Here every
dictionary has an identity, a copy has new ones, and an assignment is seen by
every object that holds the dictionary.
-/

namespace LabProbe.Router.Dashboard

open Py Json

/-- A value in memory, where a dictionary that can be assigned to has an identity. -/
inductive Obj
  | plain (value : Json)
  | dict (id : Nat) (entries : List (String × Obj))

structure Write where
  id : Nat
  key : String
  value : Obj

/-- The identities from `next` on are free; `writes` are the assignments so far. -/
structure Memory where
  next : Nat
  writes : List Write

abbrev Obj.Entries := List (String × Obj)

mutual
def Obj.value : Obj → Json
  | .plain value => value
  | .dict _ entries => .dict (valueEntries entries)
def valueEntries : List (String × Obj) → Entries
  | [] => []
  | (key, obj) :: entries => (key, obj.value) :: valueEntries entries
end

mutual
def Obj.ids : Obj → List Nat
  | .plain _ => []
  | .dict id entries => id :: idsEntries entries
def idsEntries : List (String × Obj) → List Nat
  | [] => []
  | (_, obj) :: entries => obj.ids ++ idsEntries entries
end

mutual
/-- `target[key] = value`, as the object sees it that may hold the target. -/
def Obj.assign (w : Write) : Obj → Obj
  | .plain value => .plain value
  | .dict id entries =>
    let entries := assignEntries w entries
    .dict id (if id = w.id then Dict.set entries w.key w.value else entries)
def assignEntries (w : Write) : List (String × Obj) → Obj.Entries
  | [] => []
  | (key, obj) :: entries => (key, obj.assign w) :: assignEntries w entries
end

mutual
/-- `json.loads`, with new identities. -/
def load : Json → Nat → Obj × Nat
  | .dict d, next =>
    let loaded := loadEntries d (next + 1)
    (.dict next loaded.1, loaded.2)
  | value, next => (.plain value, next)
def loadEntries : List (String × Json) → Nat → Obj.Entries × Nat
  | [], next => ([], next)
  | (key, value) :: d, next =>
    let first := load value next
    let others := loadEntries d first.2
    ((key, first.1) :: others.1, others.2)
end

def Memory.assign (m : Memory) (id : Nat) (entries : Obj.Entries) (key : String) (value : Obj) :
    Obj.Entries × Memory :=
  (Dict.set entries key value, { m with writes := m.writes ++ [⟨id, key, value⟩] })

-- ---------------------------------------------------------------------------
-- Copies and assignments
-- ---------------------------------------------------------------------------

theorem valueEntries_set (entries : Obj.Entries) (key : String) (obj : Obj) :
    valueEntries (Dict.set entries key obj) = Dict.set (valueEntries entries) key obj.value := by
  induction entries with
  | nil => rfl
  | cons e entries ih =>
    simp only [Dict.set, valueEntries]
    split <;> simp [valueEntries, ih]

theorem loadEntries_of_load {d : Entries}
    (h : ∀ key value, (key, value) ∈ d → ∀ next,
      (load value next).1.value = value ∧ next ≤ (load value next).2) (next : Nat) :
    valueEntries (loadEntries d next).1 = d ∧ next ≤ (loadEntries d next).2 := by
  induction d generalizing next with
  | nil => exact ⟨rfl, le_rfl⟩
  | cons e d ih =>
    obtain ⟨key, value⟩ := e
    obtain ⟨hvalue, hnext⟩ := h key value List.mem_cons_self next
    obtain ⟨hvalues, hlast⟩ := ih (fun k v hmem => h k v (List.mem_cons_of_mem _ hmem))
      (load value next).2
    exact ⟨by simp only [loadEntries, valueEntries, hvalue, hvalues], hnext.trans hlast⟩

theorem load_value (value : Json) (next : Nat) :
    (load value next).1.value = value ∧ next ≤ (load value next).2 := by
  induction value using Json.induct generalizing next with
  | dict d ih =>
    obtain ⟨hvalue, hnext⟩ := loadEntries_of_load ih (next + 1)
    exact ⟨by simp only [load, Obj.value, hvalue], (Nat.le_succ next).trans hnext⟩
  | _ => exact ⟨rfl, le_rfl⟩

theorem loadEntries_value (d : Entries) (next : Nat) :
    valueEntries (loadEntries d next).1 = d ∧ next ≤ (loadEntries d next).2 :=
  loadEntries_of_load (fun _ value _ => load_value value) next

/-- The assignments of a run are to the dictionary `id` or to new ones. -/
structure Owned (id : Nat) (m m' : Memory) : Prop where
  next : m.next ≤ m'.next
  writes : ∃ writes, m'.writes = m.writes ++ writes ∧
    ∀ w ∈ writes, w.id = id ∨ m.next ≤ w.id

theorem Owned.refl (id : Nat) (m : Memory) : Owned id m m where
  next := le_rfl
  writes := ⟨[], by simp, by simp⟩

theorem Owned.trans {id : Nat} {m m' m'' : Memory} (h : Owned id m m') (h' : Owned id m' m'') :
    Owned id m m'' := by
  obtain ⟨hnext, writes, hwrites, hids⟩ := h
  obtain ⟨hnext', writes', hwrites', hids'⟩ := h'
  refine ⟨hnext.trans hnext', writes ++ writes', by rw [hwrites', hwrites, List.append_assoc], ?_⟩
  rw [List.forall_mem_append]
  exact ⟨hids, fun w hw => (hids' w hw).imp_right hnext.trans⟩

theorem Owned.assign (id : Nat) (target : Obj.Entries) (key : String) (obj : Obj) (m : Memory) :
    Owned id m (m.assign id target key obj).2 where
  next := le_rfl
  writes := ⟨[⟨id, key, obj⟩], rfl, by simp⟩

theorem Owned.of_new {m m' : Memory} {next : Nat} (h : Owned m.next { m with next } m') (id : Nat)
    (hnext : m.next ≤ next) : Owned id m m' := by
  obtain ⟨hlast, writes, hwrites, hids⟩ := h
  refine ⟨hnext.trans hlast, writes, hwrites, fun w hw => .inr ?_⟩
  exact (hids w hw).elim ge_of_eq hnext.trans

mutual
theorem Obj.assign_of_notMem (w : Write) : ∀ obj : Obj, w.id ∉ obj.ids → obj.assign w = obj
  | .plain _, _ => rfl
  | .dict id entries, h => by
    simp only [Obj.ids, List.mem_cons, not_or] at h
    rw [Obj.assign, assignEntries_of_notMem w entries h.2, if_neg (Ne.symm h.1)]
theorem assignEntries_of_notMem (w : Write) :
    ∀ entries : Obj.Entries, w.id ∉ idsEntries entries → assignEntries w entries = entries
  | [], _ => rfl
  | (key, obj) :: entries, h => by
    simp only [idsEntries, List.mem_append, not_or] at h
    rw [assignEntries, obj.assign_of_notMem w h.1, assignEntries_of_notMem w entries h.2]
end

theorem Obj.foldl_assign {obj : Obj} {writes : List Write} (h : ∀ w ∈ writes, w.id ∉ obj.ids) :
    writes.foldl (fun obj w => obj.assign w) obj = obj := by
  induction writes with
  | nil => rfl
  | cons w writes ih =>
    obtain ⟨hw, hrest⟩ := List.forall_mem_cons.mp h
    rw [List.foldl_cons, obj.assign_of_notMem w hw, ih hrest]

-- ---------------------------------------------------------------------------
-- The merge
-- ---------------------------------------------------------------------------

section
variable [Unicode]

mutual
/-- The body of the loop of `merge`, on the dictionary `id` with its entries. -/
def assignKey (id : Nat) (target : Obj.Entries) (key : String) :
    Json → Memory → Obj.Entries × Memory
  | .dict source, m =>
    let held := get (valueEntries target) key
    if source.isEmpty && isFilledDict held then (target, m)
    else
      let child := loadEntries held.asDict (m.next + 1)
      let merged := assignKeys m.next child.1 source { m with next := child.2 }
      merged.2.assign id target key (.dict m.next merged.1)
  | .null, m =>
    if (Dict.get? (valueEntries target) key).isSome then (target, m)
    else m.assign id target key (.plain .null)
  | .str s, m =>
    if strip s = "" ∧ text (get (valueEntries target) key) ≠ "" then (target, m)
    else m.assign id target key (.plain (.str s))
  | .list xs, m =>
    if xs.isEmpty && isFilledList (get (valueEntries target) key) then (target, m)
    else m.assign id target key (.plain (.list xs))
  | value, m => m.assign id target key (.plain value)

def assignKeys (id : Nat) (target : Obj.Entries) :
    List (String × Json) → Memory → Obj.Entries × Memory
  | [], m => (target, m)
  | (key, value) :: source, m =>
    let assigned := assignKey id target key value m
    assignKeys id assigned.1 source assigned.2
end

/-- `merge_dashboard` in memory; `base` is a copy. -/
def mergeInMemory (previous latest : Obj) (m : Memory) : Obj × Memory :=
  let base := loadEntries previous.value.asDict (m.next + 1)
  let merged := assignKeys m.next base.1 latest.value.asDict { m with next := base.2 }
  (.dict m.next merged.1, merged.2)

theorem assignKeys_spec {source : Entries}
    (h : ∀ key value, (key, value) ∈ source → ∀ id target m,
      valueEntries (assignKey id target key value m).1 = mergeKey (valueEntries target) key value ∧
        Owned id m (assignKey id target key value m).2) (id : Nat) (target : Obj.Entries)
    (m : Memory) :
    valueEntries (assignKeys id target source m).1 = mergeEntries (valueEntries target) source ∧
      Owned id m (assignKeys id target source m).2 := by
  induction source generalizing target m with
  | nil => exact ⟨rfl, .refl id m⟩
  | cons e source ih =>
    obtain ⟨key, value⟩ := e
    obtain ⟨hvalue, howned⟩ := h key value List.mem_cons_self id target m
    obtain ⟨hvalues, howned'⟩ := ih (fun k v hmem => h k v (List.mem_cons_of_mem _ hmem))
      (assignKey id target key value m).1 (assignKey id target key value m).2
    exact ⟨by rw [assignKeys, hvalues, hvalue, mergeEntries], howned.trans howned'⟩

theorem assignKey_spec (value : Json) (key : String) (id : Nat) (target : Obj.Entries)
    (m : Memory) :
    valueEntries (assignKey id target key value m).1 = mergeKey (valueEntries target) key value ∧
      Owned id m (assignKey id target key value m).2 := by
  induction value using Json.induct generalizing key id target m with
  | dict source ih =>
    unfold assignKey mergeKey
    by_cases hskip : (source.isEmpty && isFilledDict (Json.get (valueEntries target) key)) = true
    · simp only [if_pos hskip, true_and]
      exact .refl id m
    · simp only [if_neg hskip]
      obtain ⟨hchild, hnext⟩ :=
        loadEntries_value (Json.get (valueEntries target) key).asDict (m.next + 1)
      generalize loadEntries (Json.get (valueEntries target) key).asDict (m.next + 1) = child
        at hchild hnext
      obtain ⟨hmerged, howned⟩ := assignKeys_spec (fun k v hmem => ih k v hmem k) m.next child.1
        { m with next := child.2 }
      exact ⟨by rw [Memory.assign, valueEntries_set, Obj.value, hmerged, hchild],
        (howned.of_new id ((Nat.le_succ _).trans hnext)).trans (.assign _ _ _ _ _)⟩
  | null =>
    unfold assignKey mergeKey
    split
    · exact ⟨rfl, .refl id m⟩
    · exact ⟨valueEntries_set _ _ _, .assign _ _ _ _ _⟩
  | str s =>
    unfold assignKey mergeKey
    split
    · exact ⟨rfl, .refl id m⟩
    · exact ⟨valueEntries_set _ _ _, .assign _ _ _ _ _⟩
  | list xs =>
    unfold assignKey mergeKey
    split
    · exact ⟨rfl, .refl id m⟩
    · exact ⟨valueEntries_set _ _ _, .assign _ _ _ _ _⟩
  | _ => exact ⟨valueEntries_set _ _ _, .assign _ _ _ _ _⟩

theorem mergeInMemory_spec (previous latest : Obj) (next : Nat) :
    let merged := mergeInMemory previous latest ⟨next, []⟩
    merged.1.value = .dict (mergeDashboard previous.value latest.value) ∧
      ∀ obj : Obj, (∀ id ∈ obj.ids, id < next) →
        merged.2.writes.foldl (fun obj w => obj.assign w) obj = obj := by
  obtain ⟨hbase, hnext⟩ := loadEntries_value previous.value.asDict (next + 1)
  obtain ⟨hvalue, howned⟩ := assignKeys_spec
    (fun key value _ id target m => assignKey_spec value key id target m) next
    (loadEntries previous.value.asDict (next + 1)).1
    { next := (loadEntries previous.value.asDict (next + 1)).2, writes := [] }
  refine ⟨by rw [mergeInMemory, Obj.value, hvalue, hbase, mergeDashboard], fun obj hobj => ?_⟩
  obtain ⟨-, writes, hwrites, hids⟩ := howned.of_new (m := ⟨next, []⟩) next ((Nat.le_succ _).trans hnext)
  rw [mergeInMemory, hwrites]
  refine Obj.foldl_assign fun w hw hmem => ?_
  have hold := hobj _ hmem
  rcases hids w hw with hid | hid
  · omega
  · exact absurd hid (Nat.not_le_of_lt hold)

abbrev Object := { d : Entries // (Json.dict d).wf = true }

/-- What an empty value of the later dashboard replaces and what it leaves, at
any depth; its other values are taken, a second merge changes nothing, and the
earlier dashboard stays as it is. -/
theorem mergeDashboard_laws (a b : Object) :
    (∀ path rest held x v, lookup (.dict a) path = some held → lookup held rest = some x →
      isFilled x = true → reached (.dict b) (path ++ rest) = (v, rest) → isEmpty v = true →
      (lookup (.dict (mergeDashboard (.dict a) (.dict b))) (path ++ rest) = some x ↔
        outlasts held v = true)) ∧
    (∀ path v, lookup (.dict b) path = some v → isFirm v = true →
      lookup (.dict (mergeDashboard (.dict a) (.dict b))) path = some v) ∧
    mergeDashboard (.dict (mergeDashboard (.dict a) (.dict b))) (.dict b) =
      mergeDashboard (.dict a) (.dict b) ∧
    ∀ (previous latest : Obj) (next : Nat), previous.value = .dict a → latest.value = .dict b →
      (∀ id ∈ previous.ids, id < next) →
      (mergeInMemory previous latest ⟨next, []⟩).1.value =
          .dict (mergeDashboard (.dict a) (.dict b)) ∧
        (mergeInMemory previous latest ⟨next, []⟩).2.writes.foldl (fun obj w => obj.assign w)
          previous = previous := by
  obtain ⟨a, -⟩ := a
  obtain ⟨b, hb⟩ := b
  have hmerge : Json.dict (mergeDashboard (.dict a) (.dict b)) =
      mergeValue (some (.dict a)) (.dict b) := (mergeValue_dict a b).symm
  refine ⟨?_, ?_, ?_, ?_⟩
  · intro path rest held x v hheld hx hfilled hreached hempty
    rw [hmerge]
    exact lookup_mergeValue_empty hb hheld hx hfilled hreached hempty
  · intro path v hv hfirm
    rw [hmerge]
    exact lookup_mergeValue_firm hb hv hfirm _
  · have htwice := mergeValue_twice (.dict b) hb (some (.dict a))
    rw [← hmerge, mergeValue_dict] at htwice
    exact Json.dict.inj htwice
  · intro previous latest next hprevious hlatest hids
    obtain ⟨hvalue, hwrites⟩ := mergeInMemory_spec previous latest next
    rw [hprevious, hlatest] at hvalue
    exact ⟨hvalue, hwrites previous hids⟩

end

section
local instance : Unicode := .ascii

/-- An empty object takes the place of a list. -/
theorem mergeDashboard_other_kind :
    mergeDashboard (.dict [("ports", .list [.str "eth0"])]) (.dict [("ports", .dict [])]) =
        [("ports", .dict [])] ∧
      mergeDashboard (.dict [("ports", .dict [("eth0", .bool true)])])
        (.dict [("ports", .list [])]) = [("ports", .list [])] := by
  decide +kernel

end

end LabProbe.Router.Dashboard
