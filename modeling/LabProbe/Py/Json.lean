import LabProbe.Lib.Dict
import LabProbe.Py.Text
import Mathlib.Data.List.Sort

/-!
# JSON values as Python holds them

The values `json.loads` builds: objects are dictionaries in insertion order,
integers and booleans compare with floats by value, and equality ignores the
order of keys. A float carries its exact value with the text `repr` gives it;
the infinities and NaN, which are not JSON, are left out.

`json.dumps(…, sort_keys=True)` is modelled by `sort`, the value with the keys
of every object in order: the text it writes determines that value and is
determined by it.
-/

namespace Py

inductive Json where
  | null
  | bool (b : Bool)
  | int (n : Int)
  | float (value : Rat) (repr : String)
  | str (s : String)
  | list (xs : List Json)
  | dict (entries : List (String × Json))
  deriving Inhabited

namespace Json

abbrev Entries := List (String × Json)

mutual
private theorem induct_aux {P : Json → Prop} (null : P .null) (bool : ∀ b, P (.bool b))
    (int : ∀ n, P (.int n)) (float : ∀ v t, P (.float v t)) (str : ∀ s, P (.str s))
    (list : ∀ xs, (∀ x ∈ xs, P x) → P (.list xs))
    (dict : ∀ d : Entries, (∀ k v, (k, v) ∈ d → P v) → P (.dict d)) : (j : Json) → P j
  | .null => null
  | .bool b => bool b
  | .int n => int n
  | .float v t => float v t
  | .str s => str s
  | .list xs => list xs (induct_list null bool int float str list dict xs)
  | .dict d => dict d (induct_entries null bool int float str list dict d)
private theorem induct_list {P : Json → Prop} (null : P .null) (bool : ∀ b, P (.bool b))
    (int : ∀ n, P (.int n)) (float : ∀ v t, P (.float v t)) (str : ∀ s, P (.str s))
    (list : ∀ xs, (∀ x ∈ xs, P x) → P (.list xs))
    (dict : ∀ d : Entries, (∀ k v, (k, v) ∈ d → P v) → P (.dict d)) :
    (xs : List Json) → ∀ x ∈ xs, P x
  | [] => by simp
  | y :: ys => List.forall_mem_cons.mpr
      ⟨induct_aux null bool int float str list dict y,
        induct_list null bool int float str list dict ys⟩
private theorem induct_entries {P : Json → Prop} (null : P .null) (bool : ∀ b, P (.bool b))
    (int : ∀ n, P (.int n)) (float : ∀ v t, P (.float v t)) (str : ∀ s, P (.str s))
    (list : ∀ xs, (∀ x ∈ xs, P x) → P (.list xs))
    (dict : ∀ d : Entries, (∀ k v, (k, v) ∈ d → P v) → P (.dict d)) :
    (d : List (String × Json)) → ∀ k v, (k, v) ∈ d → P v
  | [] => by simp
  | (key, value) :: d => by
    intro k v h
    rcases List.mem_cons.mp h with h | h
    · cases h
      exact induct_aux null bool int float str list dict value
    · exact induct_entries null bool int float str list dict d k v h
end

@[elab_as_elim]
theorem induct {P : Json → Prop} (j : Json) (null : P .null) (bool : ∀ b, P (.bool b))
    (int : ∀ n, P (.int n)) (float : ∀ v t, P (.float v t)) (str : ∀ s, P (.str s))
    (list : ∀ xs, (∀ x ∈ xs, P x) → P (.list xs))
    (dict : ∀ d : Entries, (∀ k v, (k, v) ∈ d → P v) → P (.dict d)) : P j :=
  induct_aux null bool int float str list dict j

-- ---------------------------------------------------------------------------
-- Truth and access
-- ---------------------------------------------------------------------------

/-- `bool(value)`. -/
def truthy : Json → Bool
  | .null => false
  | .bool b => b
  | .int n => n != 0
  | .float v _ => v != 0
  | .str s => s != ""
  | .list xs => !xs.isEmpty
  | .dict d => !d.isEmpty

/-- `a or b`. -/
def or (a b : Json) : Json := if a.truthy then a else b

theorem or_of_truthy {a : Json} (h : a.truthy = true) (b : Json) : a.or b = a := if_pos h

theorem or_of_falsy {a : Json} (h : a.truthy = false) (b : Json) : a.or b = b := by
  simp [Json.or, h]

theorem or_null_or (a b : Json) : (a.or .null).or b = a.or b := by
  cases h : a.truthy
  · rw [or_of_falsy h, or_of_falsy h, or_of_falsy rfl]
  · rw [or_of_truthy h, or_of_truthy h]

def get (d : Entries) (key : String) : Json := (Dict.get? d key).getD .null

/-- `d.get(key, default)`. -/
def getD (d : Entries) (key : String) (default : Json) : Json := (Dict.get? d key).getD default

def dict? : Json → Option Entries
  | .dict d => some d
  | _ => none

/-- `value if isinstance(value, dict) else {}`. -/
def asDict (value : Json) : Entries := value.dict?.getD []

@[simp] theorem asDict_dict (d : Entries) : asDict (.dict d) = d := rfl

def list? : Json → Option (List Json)
  | .list xs => some xs
  | _ => none

theorem get_set (d : Entries) (key key' : String) (v : Json) :
    get (Dict.set d key v) key' = if key = key' then v else get d key' := by
  simp only [get, Dict.get?_set]
  split <;> rfl

theorem get_update_of_notMem (d : Entries) {l : Entries} {key : String} (h : key ∉ Dict.keys l) :
    get (Dict.update d l) key = get d key := by
  rw [get, get, Dict.get?_update_of_notMem d h]

theorem get_update_of_mem (d : Entries) {l : Entries} {key : String} {value : Json}
    (hl : (Dict.keys l).Nodup) (h : (key, value) ∈ l) : get (Dict.update d l) key = value := by
  rw [get, Dict.get?_update_of_mem d hl h, Option.getD_some]

def num? : Json → Option Rat
  | .bool b => some (if b then 1 else 0)
  | .int n => some n
  | .float v _ => some v
  | _ => none

attribute [local grind =] num? truthy

-- ---------------------------------------------------------------------------
-- Objects without a repeated key
-- ---------------------------------------------------------------------------

mutual
/-- No object of the value repeats a key, as no Python dictionary can. -/
def wf : Json → Bool
  | .list xs => wfList xs
  | .dict d => decide (Dict.keys d).Nodup && wfEntries d
  | _ => true
def wfList : List Json → Bool
  | [] => true
  | x :: xs => x.wf && wfList xs
def wfEntries : List (String × Json) → Bool
  | [] => true
  | (_, v) :: d => v.wf && wfEntries d
end

attribute [local grind =] wf wfList wfEntries

theorem wfList_iff {xs : List Json} : wfList xs ↔ ∀ x ∈ xs, x.wf := by
  induction xs with
  | nil => simp [wfList]
  | cons x xs ih => simp [wfList, ih]

theorem wfEntries_iff {d : Entries} : wfEntries d ↔ ∀ k v, (k, v) ∈ d → v.wf := by
  induction d with
  | nil => simp [wfEntries]
  | cons e d ih =>
    obtain ⟨key, value⟩ := e
    simp only [wfEntries, Bool.and_eq_true, ih, List.mem_cons, Prod.mk.injEq]
    constructor
    · rintro ⟨hv, hd⟩ k v (⟨-, rfl⟩ | h)
      · exact hv
      · exact hd k v h
    · exact fun h => ⟨h key value (.inl ⟨rfl, rfl⟩), fun k v hm => h k v (.inr hm)⟩

@[simp] theorem wf_list {xs : List Json} : (list xs).wf ↔ ∀ x ∈ xs, x.wf := by
  rw [wf, wfList_iff]

@[simp] theorem wf_dict {d : Entries} :
    (dict d).wf ↔ (Dict.keys d).Nodup ∧ ∀ k v, (k, v) ∈ d → v.wf := by
  rw [wf, Bool.and_eq_true, decide_eq_true_eq, wfEntries_iff]

/-- A value as the interpreter can hold it. -/
abbrev Value := { value : Json // value.wf = true }

-- ---------------------------------------------------------------------------
-- Equality
-- ---------------------------------------------------------------------------

mutual
def eq : Json → Json → Bool
  | .null, .null => true
  | .str s, .str t => s == t
  | .list xs, .list ys => eqList xs ys
  | .dict d, .dict d' => eqEntries d d' && (Dict.keys d').all fun k => (Dict.get? d k).isSome
  | a, b => match a.num?, b.num? with
    | some x, some y => x == y
    | _, _ => false
def eqList : List Json → List Json → Bool
  | [], [] => true
  | x :: xs, y :: ys => x.eq y && eqList xs ys
  | _, _ => false
def eqEntries : List (String × Json) → Entries → Bool
  | [], _ => true
  | (k, v) :: d, d' =>
    (match Dict.get? d' k with
      | some w => v.eq w
      | none => false) && eqEntries d d'
end

attribute [local grind =] eq eqList eqEntries

theorem eq_apply (a b : Json) : a.eq b = match a, b with
    | .null, .null => true
    | .str s, .str t => s == t
    | .list xs, .list ys => eqList xs ys
    | .dict d, .dict d' => eqEntries d d' && (Dict.keys d').all fun k => (Dict.get? d k).isSome
    | a, b => match a.num?, b.num? with
      | some x, some y => x == y
      | _, _ => false := by
  cases a <;> cases b <;> rfl

theorem eqEntries_iff {d d' : Entries} :
    eqEntries d d' ↔ ∀ k v, (k, v) ∈ d → ∃ w, Dict.get? d' k = some w ∧ v.eq w := by
  induction d with
  | nil => simp [eqEntries]
  | cons e d ih =>
    obtain ⟨key, value⟩ := e
    simp only [eqEntries, Bool.and_eq_true, ih, List.mem_cons, Prod.mk.injEq]
    constructor
    · rintro ⟨hv, hd⟩ k v (⟨rfl, rfl⟩ | h)
      · cases hw : Dict.get? d' k with
        | none => simp [hw] at hv
        | some w => exact ⟨w, rfl, by simpa [hw] using hv⟩
      · exact hd k v h
    · intro h
      refine ⟨?_, fun k v hm => h k v (.inr hm)⟩
      obtain ⟨w, hw, hv⟩ := h key value (.inl ⟨rfl, rfl⟩)
      simpa [hw] using hv

theorem eq_dict_iff {d d' : Entries} : (dict d).eq (dict d') ↔
    (∀ k v, (k, v) ∈ d → ∃ w, Dict.get? d' k = some w ∧ v.eq w) ∧
      ∀ k ∈ Dict.keys d', k ∈ Dict.keys d := by
  simp only [eq_apply, Bool.and_eq_true, eqEntries_iff, List.all_eq_true, Dict.get?_isSome]

theorem eq_dict_rel {d d' : Entries} (hd : (Dict.keys d).Nodup) : (dict d).eq (dict d') ↔
    ∀ k, Option.Rel (fun v w => v.eq w = true) (Dict.get? d k) (Dict.get? d' k) := by
  rw [eq_dict_iff]
  constructor
  · rintro ⟨hv, hk⟩ k
    cases h : Dict.get? d k with
    | some v =>
      obtain ⟨w, hw, hvw⟩ := hv k v (Dict.mem_of_get? h)
      rw [hw]
      exact .some hvw
    | none =>
      have hn : k ∉ Dict.keys d' := fun hm => Dict.get?_eq_none.mp h (hk k hm)
      rw [Dict.get?_eq_none.mpr hn]
      exact .none
  · intro h
    refine ⟨fun k v hm => ?_, fun k hm => ?_⟩
    · have hr := h k
      rw [Dict.get?_of_mem hd hm] at hr
      generalize hw : Dict.get? d' k = o at hr
      cases hr with | some hvw => exact ⟨_, rfl, hvw⟩
    · have hr := h k
      obtain ⟨w, hw⟩ := Option.isSome_iff_exists.mp (Dict.get?_isSome.mpr hm)
      rw [hw] at hr
      generalize hv : Dict.get? d k = o at hr
      cases hr with | some => exact Dict.get?_isSome.mp (by rw [hv]; rfl)

theorem eqList_iff {xs ys : List Json} :
    eqList xs ys ↔ List.Forall₂ (fun x y => x.eq y = true) xs ys := by
  induction xs generalizing ys with
  | nil => cases ys <;> simp [eqList]
  | cons x xs ih => cases ys <;> simp [eqList, ih]

theorem eq_list_iff {xs ys : List Json} :
    (list xs).eq (list ys) ↔ List.Forall₂ (fun x y => x.eq y = true) xs ys := by
  rw [eq_apply, eqList_iff]

theorem eq_null {b : Json} : null.eq b ↔ b = null := by
  cases b <;> simp [eq_apply, num?]

theorem eq_str {b : Json} : (str s).eq b ↔ b = str s := by
  cases b <;> simp [eq_apply, num?, eq_comm (a := s)]

theorem eq_list {b : Json} (h : (list xs).eq b) : ∃ ys, b = list ys := by
  cases b <;> simp_all [eq_apply, num?]

theorem eq_dict {d : Entries} {b : Json} (h : (dict d).eq b) : ∃ d', b = dict d' := by
  cases b <;> simp_all [eq_apply, num?]

theorem eq_num {a b : Json} (ha : a.num? = some x) : a.eq b ↔ b.num? = some x := by
  cases a <;> simp only [num?, reduceCtorEq, Option.some.injEq] at ha <;> subst ha <;>
    cases b <;> simp only [eq_apply, num?, beq_iff_eq, Option.some.injEq, reduceCtorEq,
      Bool.false_eq_true] <;> exact comm

@[simp] theorem str_eq_str {s t : String} : (str s).eq (str t) = true ↔ s = t := by
  rw [eq_str, str.injEq, eq_comm]

@[simp] theorem int_eq_int {m n : Int} : (int m).eq (int n) = true ↔ m = n := by
  rw [eq_num rfl]
  simp [num?, eq_comm]

@[simp] theorem bool_eq_bool {a b : Bool} : (Json.bool a).eq (.bool b) = true ↔ a = b := by
  rw [eq_num rfl]
  cases a <;> cases b <;> simp [num?]

theorem eq_refl {a : Json} (ha : a.wf) : a.eq a := by
  induction a using induct with
  | null => rfl
  | bool b => exact (eq_num rfl).mpr rfl
  | int n => exact (eq_num rfl).mpr rfl
  | float v t => exact (eq_num rfl).mpr rfl
  | str s => exact eq_str.mpr rfl
  | list xs ih =>
    rw [wf_list] at ha
    rw [eq_list_iff, List.forall₂_same]
    exact fun x hx => ih x hx (ha x hx)
  | dict d ih =>
    obtain ⟨hn, hv⟩ := wf_dict.mp ha
    exact eq_dict_iff.mpr
      ⟨fun k v h => ⟨v, Dict.get?_of_mem hn h, ih k v h (hv k v h)⟩, fun _ h => h⟩

theorem eq_trans {a b c : Json} (hab : a.eq b) (hbc : b.eq c) : a.eq c := by
  induction a using induct generalizing b c with
  | null => rwa [← eq_null.mp hab]
  | bool _ | int _ | float _ _ => exact (eq_num rfl).mpr ((eq_num ((eq_num rfl).mp hab)).mp hbc)
  | str s => rwa [← eq_str.mp hab]
  | list xs ih =>
    obtain ⟨ys, rfl⟩ := eq_list hab
    obtain ⟨zs, rfl⟩ := eq_list hbc
    rw [eq_list_iff] at *
    induction xs generalizing ys zs with
    | nil => cases hab; exact hbc
    | cons x xs ihl =>
      cases hab with
      | cons hx hxs =>
        cases hbc with
        | cons hy hys =>
          exact .cons (ih x (by simp) hx hy)
            (ihl (fun z hz => ih z (List.mem_cons_of_mem _ hz)) _ hxs _ hys)
  | dict d ih =>
    obtain ⟨d', rfl⟩ := eq_dict hab
    obtain ⟨d'', rfl⟩ := eq_dict hbc
    rw [eq_dict_iff] at *
    refine ⟨fun k v hm => ?_, fun k hk => hab.2 k (hbc.2 k hk)⟩
    obtain ⟨w, hw, hvw⟩ := hab.1 k v hm
    obtain ⟨u, hu, hwu⟩ := hbc.1 k w (Dict.mem_of_get? hw)
    exact ⟨u, hu, ih k v hm hvw hwu⟩

theorem eq_symm {a b : Json} (ha : a.wf) (hb : b.wf) (h : a.eq b) : b.eq a := by
  induction a using induct generalizing b with
  | null => rw [eq_null.mp h]; rfl
  | bool _ | int _ | float _ _ => exact (eq_num ((eq_num rfl).mp h)).mpr rfl
  | str s => rw [eq_str.mp h, eq_str]
  | list xs ih =>
    obtain ⟨ys, rfl⟩ := eq_list h
    rw [wf_list] at ha hb
    rw [eq_list_iff] at *
    induction h with
    | nil => exact .nil
    | cons hx _ ihl =>
      exact .cons (ih _ (by simp) (ha _ (by simp)) (hb _ (by simp)) hx)
        (ihl (fun z hz => ih z (List.mem_cons_of_mem _ hz))
          (fun z hz => ha z (List.mem_cons_of_mem _ hz))
          (fun z hz => hb z (List.mem_cons_of_mem _ hz)))
  | dict d ih =>
    obtain ⟨d', rfl⟩ := eq_dict h
    obtain ⟨hn, hv⟩ := wf_dict.mp ha
    obtain ⟨hn', hv'⟩ := wf_dict.mp hb
    rw [eq_dict_rel hn] at h
    rw [eq_dict_rel hn']
    intro k
    have hr := h k
    generalize hx : Dict.get? d k = o, hy : Dict.get? d' k = o' at hr ⊢
    cases hr with
    | none => exact .none
    | some hxy =>
      have hmx := Dict.mem_of_get? hx
      have hmy := Dict.mem_of_get? hy
      exact .some (ih k _ hmx (hv k _ hmx) (hv' k _ hmy) hxy)

theorem truthy_num {a : Json} (ha : a.num? = some x) : a.truthy = (x != 0) := by
  cases a <;> simp only [num?, reduceCtorEq, Option.some.injEq] at ha <;> subst ha
  · rename_i b
    cases b <;> rfl
  · rw [Bool.eq_iff_iff]
    simp [truthy]
  · rfl

theorem truthy_eq {a b : Json} (h : a.eq b) : a.truthy = b.truthy := by
  cases a with
  | null => rw [eq_null.mp h]
  | bool _ | int _ | float _ _ => rw [truthy_num rfl, truthy_num ((eq_num rfl).mp h)]
  | str s => rw [eq_str.mp h]
  | list xs =>
    obtain ⟨ys, rfl⟩ := eq_list h
    rw [eq_list_iff] at h
    cases h <;> rfl
  | dict d =>
    obtain ⟨d', rfl⟩ := eq_dict h
    rw [eq_dict_iff] at h
    cases d with
    | nil => cases d' with
      | nil => rfl
      | cons e d' => exact absurd (h.2 e.1 (by simp [Dict.keys])) (by simp [Dict.keys])
    | cons e d =>
      obtain ⟨w, hw, -⟩ := h.1 e.1 e.2 (by simp)
      cases d' with
      | nil => simp at hw
      | cons => rfl

-- ---------------------------------------------------------------------------
-- The canonical form of a value
-- ---------------------------------------------------------------------------

mutual
/-- The value `json.loads` gives back for the text written with sorted keys. -/
def sort : Json → Json
  | .list xs => .list (sortList xs)
  | .dict d => .dict (List.insertionSort (fun a b => a.1 ≤ b.1) (sortEntries d))
  | v => v
def sortList : List Json → List Json
  | [] => []
  | x :: xs => x.sort :: sortList xs
def sortEntries : List (String × Json) → List (String × Json)
  | [] => []
  | (k, v) :: d => (k, v.sort) :: sortEntries d
end

attribute [local grind =] sort sortList sortEntries

theorem sortList_eq (xs : List Json) : sortList xs = xs.map sort := by
  induction xs with
  | nil => rfl
  | cons x xs ih => exact congrArg (x.sort :: ·) ih

theorem sortEntries_eq (d : Entries) : sortEntries d = d.map fun e => (e.1, e.2.sort) := by
  induction d with
  | nil => rfl
  | cons e d ih => exact congrArg ((e.1, e.2.sort) :: ·) ih

theorem sort_list (xs : List Json) : (list xs).sort = .list (xs.map sort) :=
  congrArg list (sortList_eq xs)

def sorted (d : Entries) : Entries :=
  List.insertionSort (fun a b => a.1 ≤ b.1) (d.map fun e => (e.1, e.2.sort))

theorem sort_dict (d : Entries) : (dict d).sort = .dict (sorted d) :=
  congrArg (fun d => dict (List.insertionSort (fun a b => a.1 ≤ b.1) d)) (sortEntries_eq d)

theorem sorted_perm (d : Entries) : (sorted d).Perm (d.map fun e => (e.1, e.2.sort)) :=
  List.perm_insertionSort _ _

theorem mem_sorted {d : Entries} : (k, w) ∈ sorted d ↔ ∃ v, (k, v) ∈ d ∧ v.sort = w := by
  rw [(sorted_perm d).mem_iff]
  simp only [List.mem_map, Prod.mk.injEq, Prod.exists]
  constructor
  · rintro ⟨_, v, hm, rfl, rfl⟩; exact ⟨v, hm, rfl⟩
  · rintro ⟨v, hm, rfl⟩; exact ⟨k, v, hm, rfl, rfl⟩

theorem nodup_keys_sorted {d : Entries} (hd : (Dict.keys d).Nodup) :
    (Dict.keys (sorted d)).Nodup := by
  have h := ((sorted_perm d).map Prod.fst).nodup_iff
  rw [← Dict.keys, ← Dict.keys, Dict.keys_map] at h
  exact h.mpr hd

theorem get?_sorted {d : Entries} (hd : (Dict.keys d).Nodup) (k : String) :
    Dict.get? (sorted d) k = (Dict.get? d k).map sort := by
  rw [Dict.get?_perm (nodup_keys_sorted hd) (sorted_perm d), Dict.get?_map]

theorem wf_sort {a : Json} (ha : a.wf) : a.sort.wf := by
  induction a using induct with
  | list xs ih =>
    rw [wf_list] at ha
    rw [sort_list, wf_list]
    simpa using fun x hx => ih x hx (ha x hx)
  | dict d ih =>
    obtain ⟨hn, hv⟩ := wf_dict.mp ha
    rw [sort_dict, wf_dict]
    refine ⟨nodup_keys_sorted hn, fun k w hm => ?_⟩
    obtain ⟨v, hv', rfl⟩ := mem_sorted.mp hm
    exact ih k v hv' (hv k v hv')
  | _ => exact ha

/-- Writing a value out and reading it back gives an equal value. -/
theorem sort_eq {a : Json} (ha : a.wf) : a.sort.eq a := by
  induction a using induct with
  | list xs ih =>
    rw [wf_list] at ha
    rw [sort_list, eq_list_iff, List.forall₂_map_left_iff, List.forall₂_same]
    exact fun x hx => ih x hx (ha x hx)
  | dict d ih =>
    obtain ⟨hn, hv⟩ := wf_dict.mp ha
    rw [sort_dict, eq_dict_rel (nodup_keys_sorted hn)]
    intro k
    rw [get?_sorted hn]
    cases h : Dict.get? d k with
    | none => exact .none
    | some v =>
      have hm := Dict.mem_of_get? h
      exact .some (ih k v hm (hv k v hm))
  | _ => exact eq_refl ha

-- ---------------------------------------------------------------------------
-- Identical texts
-- ---------------------------------------------------------------------------

mutual
/-- Identity of the values, key order and the text of floats included. -/
def same : Json → Json → Bool
  | .null, .null => true
  | .bool a, .bool b => a == b
  | .int a, .int b => a == b
  | .float v t, .float w u => v == w && t == u
  | .str s, .str t => s == t
  | .list xs, .list ys => sameList xs ys
  | .dict d, .dict d' => sameEntries d d'
  | _, _ => false
def sameList : List Json → List Json → Bool
  | [], [] => true
  | x :: xs, y :: ys => x.same y && sameList xs ys
  | _, _ => false
def sameEntries : List (String × Json) → Entries → Bool
  | [], [] => true
  | (k, v) :: d, (k', w) :: d' => k == k' && v.same w && sameEntries d d'
  | _, _ => false
end

attribute [local grind =] same sameList sameEntries

theorem sameList_iff {xs ys : List Json} (ih : ∀ x ∈ xs, ∀ y, x.same y ↔ x = y) :
    sameList xs ys ↔ xs = ys := by
  induction xs generalizing ys with
  | nil => cases ys <;> simp [sameList]
  | cons x xs ihl =>
    cases ys with
    | nil => simp [sameList]
    | cons y ys =>
      simp [sameList, ih x (by simp), ihl fun z hz => ih z (List.mem_cons_of_mem _ hz)]

theorem sameEntries_iff {d d' : Entries} (ih : ∀ k v, (k, v) ∈ d → ∀ w, v.same w ↔ v = w) :
    sameEntries d d' ↔ d = d' := by
  induction d generalizing d' with
  | nil => cases d' <;> simp [sameEntries]
  | cons e d ihl =>
    obtain ⟨k, v⟩ := e
    cases d' with
    | nil => simp [sameEntries]
    | cons e' d' =>
      simp [sameEntries, ih k v (by simp), ihl fun k v h => ih k v (List.mem_cons_of_mem _ h),
        Prod.ext_iff]

theorem same_iff {a b : Json} : a.same b ↔ a = b := by
  induction a using induct generalizing b with
  | list xs ih => cases b <;> simp [same, sameList_iff ih]
  | dict d ih => cases b <;> simp [same, sameEntries_iff ih]
  | _ => cases b <;> simp [same]

instance : DecidableEq Json := fun a b => decidable_of_iff (a.same b) same_iff

-- ---------------------------------------------------------------------------
-- `str`
-- ---------------------------------------------------------------------------

def hexDigits (width n : Nat) : String :=
  let digits := Nat.toDigits 16 n
  String.ofList (List.replicate (width - digits.length) '0' ++ digits)

variable [Unicode]

def escapeChar (quote c : Char) : String :=
  if c = quote || c = '\\' then String.ofList ['\\', c]
  else if c = '\n' then "\\n"
  else if c = '\r' then "\\r"
  else if c = '\t' then "\\t"
  else if c.toNat < 32 || c.toNat = 127 then "\\x" ++ hexDigits 2 c.toNat
  else if c.toNat < 127 || Unicode.isPrintable c then String.ofList [c]
  else if c.toNat < 256 then "\\x" ++ hexDigits 2 c.toNat
  else if c.toNat < 65536 then "\\u" ++ hexDigits 4 c.toNat
  else "\\U" ++ hexDigits 8 c.toNat

/-- `repr(s)`: single quotes, unless only double quotes avoid an escape. -/
def reprStr (s : String) : String :=
  let quote := if s.toList.contains '\'' && !s.toList.contains '"' then '"' else '\''
  let q := String.ofList [quote]
  q ++ String.join (s.toList.map (escapeChar quote)) ++ q

mutual
def repr : Json → String
  | .null => "None"
  | .bool b => if b then "True" else "False"
  | .int n => toString n
  | .float _ text => text
  | .str s => reprStr s
  | .list xs => "[" ++ reprList xs ++ "]"
  | .dict d => "\x7b" ++ reprEntries d ++ "\x7d"
def reprList : List Json → String
  | [] => ""
  | [x] => x.repr
  | x :: xs => x.repr ++ ", " ++ reprList xs
def reprEntries : List (String × Json) → String
  | [] => ""
  | [(k, v)] => reprStr k ++ ": " ++ v.repr
  | (k, v) :: d => reprStr k ++ ": " ++ v.repr ++ ", " ++ reprEntries d
end

/-- `str(value)`. -/
def toStr : Json → String
  | .str s => s
  | v => v.repr

end Json

section
local instance : Unicode := .ascii

example : Json.toStr (.dict [("b", .int (-1)), ("a", .list [.str "x'y", .null, .bool true])]) =
    "\x7b'b': -1, 'a': [\"x'y\", None, True]\x7d" := by decide
end

end Py
