import Mathlib.Algebra.BigOperators.Group.List.Basic
import Mathlib.Algebra.GroupWithZero.Nat
import Mathlib.Data.List.AList
import Mathlib.Data.List.Sort

/-!
# Finite maps and sets in the shape of `std::collections`

`HashMap κ ν` is Mathlib's association list with distinct keys; the list order
stands for the map's iteration order. `get`, `insert` and `remove` are Mathlib's
`lookup`, `insert` and `erase` under the standard library's names. Added here:
`retain`, a value update (`values_mut`), `len`, and an insertion that keeps the
entries sorted, which makes the same type serve as a `BTreeMap`. A `HashSet` is
a map to `Unit`, as in the standard library.
-/
namespace RenetCross

variable {κ ν μ : Type}

/-- The order of the list is the order of iteration. -/
abbrev HashMap (κ ν : Type) := AList (fun _ : κ => ν)
abbrev HashSet (κ : Type) := HashMap κ Unit

namespace HashMap

def len (m : HashMap κ ν) : Nat := m.entries.length

/-- The entries in iteration order. -/
def iter (m : HashMap κ ν) : List (κ × ν) := m.entries.map fun e => (e.1, e.2)

/-- `retain`: keep the entries that satisfy `p`. -/
def retain (m : HashMap κ ν) (p : κ → ν → Bool) : HashMap κ ν :=
  ⟨m.entries.filter fun e => p e.1 e.2, m.nodupKeys.sublist List.filter_sublist⟩

/-- Update every value in place (`values_mut`). -/
def mapVal (m : HashMap κ ν) (f : κ → ν → μ) : HashMap κ μ :=
  ⟨m.entries.map fun e => ⟨e.1, f e.1 e.2⟩, m.nodupKeys.map₂ (fun k => f k)⟩

theorem mem_iter {m : HashMap κ ν} {k : κ} {v : ν} :
    (k, v) ∈ m.iter ↔ (⟨k, v⟩ : Sigma fun _ : κ => ν) ∈ m.entries := by
  simp only [iter, List.mem_map]
  constructor
  · rintro ⟨⟨k', v'⟩, hm, he⟩; cases he; exact hm
  · intro hm; exact ⟨_, hm, rfl⟩

/-- No key comes twice. -/
theorem iter_pairwise (m : HashMap κ ν) : m.iter.Pairwise fun x y => x.1 ≠ y.1 := by
  have hkeys := m.keys_nodup
  rw [AList.keys, List.keys, List.Nodup, List.pairwise_map] at hkeys
  exact List.pairwise_map.2 hkeys

theorem keys_mapVal (m : HashMap κ ν) (f : κ → ν → μ) : (m.mapVal f).keys = m.keys := by
  simp [mapVal, AList.keys, List.keys, Function.comp_def]

theorem len_eq (m : HashMap κ ν) : m.len = m.keys.length := by
  simp [len, AList.keys, List.keys]

@[simp] theorem len_mapVal (m : HashMap κ ν) (f : κ → ν → μ) : (m.mapVal f).len = m.len := by
  simp [len, mapVal]

/-- `retain` does not grow a map. -/
theorem len_retain_le (m : HashMap κ ν) (p : κ → ν → Bool) : (m.retain p).len ≤ m.len :=
  List.length_filter_le _ _

@[simp] theorem mem_mapVal {m : HashMap κ ν} {f : κ → ν → μ} {k : κ} :
    k ∈ m.mapVal f ↔ k ∈ m := by
  rw [AList.mem_keys, AList.mem_keys, keys_mapVal]

variable [DecidableEq κ]

def get (m : HashMap κ ν) (k : κ) : Option ν := AList.lookup k m
def insert (m : HashMap κ ν) (k : κ) (v : ν) : HashMap κ ν := AList.insert k v m
def remove (m : HashMap κ ν) (k : κ) : HashMap κ ν := AList.erase k m

@[simp] theorem get_empty (k : κ) : (∅ : HashMap κ ν).get k = none := rfl

theorem get_insert (m : HashMap κ ν) (k k' : κ) (v : ν) :
    (m.insert k v).get k' = if k' = k then some v else m.get k' := by
  split
  · rename_i h; subst h; exact AList.lookup_insert m
  · rename_i h; exact AList.lookup_insert_ne h

@[simp] theorem get_insert_self (m : HashMap κ ν) (k : κ) (v : ν) : (m.insert k v).get k = some v :=
  AList.lookup_insert m

theorem get_remove (m : HashMap κ ν) (k k' : κ) :
    (m.remove k).get k' = if k' = k then none else m.get k' := by
  split
  · rename_i h; subst h; exact AList.lookup_erase _ m
  · rename_i h; exact AList.lookup_erase_ne h

@[simp] theorem get_remove_self (m : HashMap κ ν) (k : κ) : (m.remove k).get k = none :=
  AList.lookup_erase k m

/-- A look-up finds what the iteration comes across. -/
theorem get_eq_some {m : HashMap κ ν} {k : κ} {v : ν} : m.get k = some v ↔ (k, v) ∈ m.iter :=
  AList.mem_lookup_iff.trans mem_iter.symm

/-- The entries under one key. -/
theorem filter_iter (m : HashMap κ ν) (k : κ) :
    m.iter.filter (fun x => x.1 = k) = (m.get k).toList.map fun v => (k, v) := by
  have hone : ∀ l : List (κ × ν), l.Pairwise (fun x y => x.1 ≠ y.1) → ∀ v, (k, v) ∈ l →
      l.filter (fun x => x.1 = k) = [(k, v)] := by
    intro l
    induction l with
    | nil => intro _ v hv; exact absurd hv List.not_mem_nil
    | cons x l ih =>
      intro hl v hv
      obtain ⟨hx, hl⟩ := List.pairwise_cons.1 hl
      rcases List.mem_cons.1 hv with rfl | hv
      · rw [List.filter_cons_of_pos (by simp), List.filter_eq_nil_iff.2]
        intro y hy
        simpa using fun h => hx y hy h.symm
      · have hne : ¬ x.1 = k := hx (k, v) hv
        rw [List.filter_cons_of_neg (by simpa using hne), ih hl v hv]
  cases hget : m.get k with
  | some v => exact hone m.iter m.iter_pairwise v (get_eq_some.1 hget)
  | none =>
    refine List.filter_eq_nil_iff.2 fun x hx => ?_
    intro hk
    have hk' : x.1 = k := by simpa using hk
    have hmem := get_eq_some.2 (show (k, x.2) ∈ m.iter by rw [← hk']; exact hx)
    rw [hget] at hmem
    cases hmem

/-- An entry is kept or dropped as it is. -/
theorem get_retain (m : HashMap κ ν) (p : κ → ν → Bool) (k : κ) :
    (m.retain p).get k = (m.get k).filter (p k) := by
  ext v
  simp only [Option.filter_eq_some_iff, get_eq_some, mem_iter, retain, List.mem_filter]

theorem mem_iff_get {m : HashMap κ ν} {k : κ} : k ∈ m ↔ ∃ v, m.get k = some v := by
  rw [get, ← AList.lookup_isSome, Option.isSome_iff_exists]

theorem mem_retain {m : HashMap κ ν} {p : κ → ν → Bool} {k : κ} :
    k ∈ m.retain p ↔ ∃ v, m.get k = some v ∧ p k v = true := by
  rw [mem_iff_get, get_retain]
  simp only [Option.filter_eq_some_iff]

omit [DecidableEq κ] in
theorem retain_retain (m : HashMap κ ν) (p q : κ → ν → Bool) :
    (m.retain p).retain q = m.retain fun k v => p k v && q k v := by
  apply AList.ext
  simp only [retain, List.filter_filter, Bool.and_comm]

/-- Only the entries that are there are asked about. -/
theorem retain_congr {m : HashMap κ ν} {p q : κ → ν → Bool}
    (h : ∀ k v, m.get k = some v → p k v = q k v) : m.retain p = m.retain q := by
  apply AList.ext
  refine List.filter_congr fun e he => h e.1 e.2 ?_
  rw [get_eq_some, mem_iter]
  exact he

theorem get_mapVal (m : HashMap κ ν) (f : κ → ν → μ) (k : κ) :
    (m.mapVal f).get k = (m.get k).map (f k) := by
  ext w
  simp only [Option.map_eq_some_iff, get_eq_some, mem_iter, mapVal, List.mem_map]
  constructor
  · rintro ⟨⟨k', v⟩, hm, he⟩
    cases he
    exact ⟨v, hm, rfl⟩
  · rintro ⟨v, hm, rfl⟩
    exact ⟨⟨k, v⟩, hm, rfl⟩

theorem not_mem_iff_get {m : HashMap κ ν} {k : κ} : k ∉ m ↔ m.get k = none :=
  AList.lookup_eq_none.symm

/-- `contains_key`. -/
def has (m : HashMap κ ν) (k : κ) : Bool := (m.get k).isSome

@[simp] theorem has_iff {m : HashMap κ ν} {k : κ} : m.has k = true ↔ k ∈ m := AList.lookup_isSome

theorem mem_insert {m : HashMap κ ν} {k k' : κ} {v : ν} : k' ∈ m.insert k v ↔ k' = k ∨ k' ∈ m :=
  AList.mem_insert m

theorem mem_remove {m : HashMap κ ν} {k k' : κ} : k' ∈ m.remove k ↔ k' ≠ k ∧ k' ∈ m :=
  AList.mem_erase

/-- An insertion adds an entry only under a new key. -/
theorem len_insert (m : HashMap κ ν) (k : κ) (v : ν) :
    (m.insert k v).len = if k ∈ m then m.len else m.len + 1 := by
  rw [len_eq, insert, AList.keys_insert, List.length_cons, len_eq]
  split
  · rename_i h
    have hpos := List.length_pos_of_mem (AList.mem_keys.1 h)
    rw [List.length_erase_of_mem (AList.mem_keys.1 h)]; omega
  · rename_i h
    rw [List.erase_of_not_mem (fun hk => h (AList.mem_keys.2 hk))]

/-- An insertion that was checked against a limit keeps it. -/
theorem len_insert_le {m : HashMap κ ν} {limit : Nat} (k : κ) (v : ν) (h : m.len < limit) :
    (m.insert k v).len ≤ limit := by
  rw [len_insert]
  split <;> omega

theorem len_remove_le (m : HashMap κ ν) (k : κ) : (m.remove k).len ≤ m.len := by
  rw [len_eq, len_eq, remove, AList.keys_erase]
  exact List.length_erase_le

theorem len_remove {m : HashMap κ ν} {k : κ} (h : k ∈ m) : (m.remove k).len + 1 = m.len := by
  have hpos := List.length_pos_of_mem (AList.mem_keys.1 h)
  rw [len_eq, len_eq, remove, AList.keys_erase, List.length_erase_of_mem (AList.mem_keys.1 h)]
  omega

theorem keys_remove_sublist (m : HashMap κ ν) (k : κ) : (m.remove k).keys.Sublist m.keys := by
  rw [remove, AList.keys_erase]
  exact List.erase_sublist

omit [DecidableEq κ] in
/-- A map whose keys are all among `ks` has no more entries than `ks`. -/
theorem len_le_of_mem {m : HashMap κ ν} (ks : List κ) (h : ∀ k ∈ m, k ∈ ks) :
    m.len ≤ ks.length := by
  rw [len_eq]
  exact (List.subperm_of_subset m.keys_nodup fun k hk => h k (AList.mem_keys.2 hk)).length_le

/-- Insertion that keeps the entries sorted by `r` on the keys: a `BTreeMap`. -/
def sortedInsert (r : κ → κ → Prop) [DecidableRel r] (m : HashMap κ ν) (k : κ) (v : ν) :
    HashMap κ ν :=
  ⟨(m.remove k).entries.orderedInsert (fun a b => r a.1 b.1) ⟨k, v⟩,
    (List.perm_nodupKeys (List.perm_orderedInsert _ _ _)).2 (m.insert k v).nodupKeys⟩

/-- The sorted insertion differs in the order of the entries only. -/
theorem sortedInsert_perm (r : κ → κ → Prop) [DecidableRel r] (m : HashMap κ ν) (k : κ) (v : ν) :
    (m.sortedInsert r k v).entries.Perm (m.insert k v).entries :=
  List.perm_orderedInsert _ _ _

theorem get_sortedInsert (r : κ → κ → Prop) [DecidableRel r] (m : HashMap κ ν) (k k' : κ) (v : ν) :
    (m.sortedInsert r k v).get k' = if k' = k then some v else m.get k' := by
  rw [← get_insert]
  exact AList.perm_lookup (sortedInsert_perm r m k v)

/-- A `BTreeMap` stays sorted. -/
theorem keys_sortedInsert {r : κ → κ → Prop} [DecidableRel r] [Std.Total r] [IsTrans κ r]
    {m : HashMap κ ν} (h : m.keys.Pairwise r) (k : κ) (v : ν) :
    (m.sortedInsert r k v).keys.Pairwise r := by
  have hrest : (m.remove k).entries.Pairwise fun a b => r a.1 b.1 :=
    List.pairwise_map.1 (h.sublist (keys_remove_sublist m k))
  have htotal : Std.Total fun a b : Sigma fun _ : κ => ν => r a.1 b.1 :=
    ⟨fun a b => Std.Total.total a.1 b.1⟩
  have htrans : IsTrans (Sigma fun _ : κ => ν) fun a b => r a.1 b.1 :=
    ⟨fun a b c hab hbc => IsTrans.trans a.1 b.1 c.1 hab hbc⟩
  have hsorted : (m.sortedInsert r k v).entries.Pairwise fun a b => r a.1 b.1 :=
    hrest.orderedInsert (⟨k, v⟩ : Sigma fun _ : κ => ν) _
  exact List.pairwise_map.2 hsorted

theorem len_sortedInsert (r : κ → κ → Prop) [DecidableRel r] (m : HashMap κ ν) (k : κ) (v : ν) :
    (m.sortedInsert r k v).len = (m.insert k v).len := (sortedInsert_perm r m k v).length_eq

/-! ## A value update and the other operations -/

omit [DecidableEq κ] in
theorem iter_mapVal (m : HashMap κ ν) (f : κ → ν → μ) :
    (m.mapVal f).iter = m.iter.map fun x => (x.1, f x.1 x.2) := by
  simp [iter, mapVal, Function.comp_def]

omit [DecidableEq κ] in
theorem mapVal_mapVal {ξ : Type} (m : HashMap κ ν) (f : κ → ν → μ) (g : κ → μ → ξ) :
    (m.mapVal f).mapVal g = m.mapVal fun k v => g k (f k v) := by
  apply AList.ext
  simp [mapVal, Function.comp_def]

theorem mapVal_congr {m : HashMap κ ν} {f g : κ → ν → μ}
    (h : ∀ k v, m.get k = some v → f k v = g k v) : m.mapVal f = m.mapVal g := by
  apply AList.ext
  refine List.map_congr_left fun e he => ?_
  rw [h e.1 e.2 (get_eq_some.2 (mem_iter.2 he))]

theorem remove_mapVal (m : HashMap κ ν) (f : κ → ν → μ) (k : κ) :
    (m.mapVal f).remove k = (m.remove k).mapVal f := by
  apply AList.ext
  exact List.eraseP_map

theorem sortedInsert_mapVal (r : κ → κ → Prop) [DecidableRel r] (m : HashMap κ ν)
    (f : κ → ν → μ) (k : κ) (v : ν) :
    (m.mapVal f).sortedInsert r k (f k v) = (m.sortedInsert r k v).mapVal f := by
  apply AList.ext
  have hrem : ((m.mapVal f).remove k).entries =
      (m.remove k).entries.map fun e => ⟨e.1, f e.1 e.2⟩ := by rw [remove_mapVal]; rfl
  simp only [sortedInsert, hrem]
  exact (List.map_orderedInsert (fun a b => r a.1 b.1) (fun a b => r a.1 b.1)
    (fun e : Sigma fun _ : κ => ν => (⟨e.1, f e.1 e.2⟩ : Sigma fun _ : κ => μ))
    (m.remove k).entries ⟨k, v⟩ (fun _ _ => Iff.rfl) (fun _ _ => Iff.rfl)).symm

/-! ## Sums over the entries -/

/-- The sum of `f` over the entries. -/
def sumBy (m : HashMap κ ν) (f : κ → ν → Nat) : Nat := (m.iter.map fun x => f x.1 x.2).sum

/-- A sum does not depend on the iteration order. -/
theorem sumBy_eq_of_get {m m' : HashMap κ ν} (h : ∀ k, m.get k = m'.get k) (f : κ → ν → Nat) :
    m.sumBy f = m'.sumBy f := by
  have hp : m.entries.Perm m'.entries := by
    refine List.lookup_ext m.nodupKeys m'.nodupKeys fun k v => ?_
    have hk : List.dlookup k m.entries = List.dlookup k m'.entries := h k
    rw [hk]
  exact List.Perm.sum_eq ((hp.map _).map _)

theorem sumBy_insert (m : HashMap κ ν) (k : κ) (v : ν) (f : κ → ν → Nat) :
    (m.insert k v).sumBy f = f k v + (m.remove k).sumBy f := rfl

/-- Taking an entry out takes its share out of the sum. -/
theorem sumBy_remove {m : HashMap κ ν} {k : κ} {v : ν} (h : m.get k = some v) (f : κ → ν → Nat) :
    m.sumBy f = f k v + (m.remove k).sumBy f := by
  rw [← sumBy_insert]
  refine sumBy_eq_of_get (fun k' => ?_) f
  rw [get_insert]
  split
  · rename_i hk; rw [hk, h]
  · rfl

theorem sumBy_sortedInsert (r : κ → κ → Prop) [DecidableRel r] (m : HashMap κ ν) (k : κ) (v : ν)
    (f : κ → ν → Nat) : (m.sortedInsert r k v).sumBy f = f k v + (m.remove k).sumBy f := by
  rw [← sumBy_insert]
  refine sumBy_eq_of_get (fun k' => ?_) f
  rw [get_sortedInsert, get_insert]

/-- Removing a key that is not there takes nothing away. -/
theorem sumBy_remove_of_none {m : HashMap κ ν} {k : κ} (h : m.get k = none) (f : κ → ν → Nat) :
    (m.remove k).sumBy f = m.sumBy f := by
  refine sumBy_eq_of_get (fun k' => ?_) f
  rw [get_remove]
  split
  · rename_i hk; rw [hk, h]
  · rfl

omit [DecidableEq κ] in
theorem sumBy_mapVal (m : HashMap κ ν) (g : κ → ν → μ) (f : κ → μ → Nat) :
    (m.mapVal g).sumBy f = m.sumBy fun k v => f k (g k v) := by
  simp [sumBy, iter, mapVal, Function.comp_def]

theorem sumBy_congr {m : HashMap κ ν} {f g : κ → ν → Nat}
    (h : ∀ k v, m.get k = some v → f k v = g k v) : m.sumBy f = m.sumBy g := by
  unfold sumBy
  congr 1
  exact List.map_congr_left fun x hx => h x.1 x.2 (get_eq_some.2 hx)

omit [DecidableEq κ] in
theorem sumBy_add (m : HashMap κ ν) (f g : κ → ν → Nat) :
    (m.sumBy fun k v => f k v + g k v) = m.sumBy f + m.sumBy g := by
  unfold sumBy
  induction m.iter with
  | nil => rfl
  | cons x rest ih => simp only [List.map_cons, List.sum_cons, ih]; omega

end HashMap
end RenetCross
