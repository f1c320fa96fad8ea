import Mathlib.Algebra.Ring.Nat
import Mathlib.Data.List.Basic

/-!
# Lib — association maps

A finite map as an association list whose keys are pairwise different
under the key type's own `==`. The key relation is only asked to be an
equivalence (`EquivBEq`), not equality: a hash map whose keys compare
case-insensitively is an instance. The list order carries no meaning; a
client that iterates sees SOME order, and picks by position to say so.
-/

namespace Lib

/-- A finite map from `κ` to `ν`. `distinct` is the hash map's own
guarantee that no two stored keys are equal. -/
structure AssocMap (κ ν : Type*) [BEq κ] where
  entries : List (κ × ν)
  distinct : entries.Pairwise fun a b => (a.1 == b.1) = false

namespace AssocMap

variable {κ ν : Type*} [BEq κ]

/-- No entries. -/
def empty : AssocMap κ ν := ⟨[], .nil⟩

/-- The value under a key. -/
def get? (m : AssocMap κ ν) (k : κ) : Option ν :=
  (m.entries.find? fun e => e.1 == k).map Prod.snd

/-- The number of entries. -/
def size (m : AssocMap κ ν) : Nat := m.entries.length

/-- The keys, in the order of the entries. -/
def keys (m : AssocMap κ ν) : List κ := m.entries.map Prod.fst

/-- The map without a key. -/
def erase (m : AssocMap κ ν) (k : κ) : AssocMap κ ν :=
  ⟨m.entries.filter fun e => !(e.1 == k), m.distinct.filter _⟩

variable [EquivBEq κ]

/-- Create or replace. -/
def insert (m : AssocMap κ ν) (k : κ) (v : ν) : AssocMap κ ν :=
  ⟨(k, v) :: (m.erase k).entries, by
    refine List.pairwise_cons.mpr ⟨fun e he => ?_, (m.erase k).distinct⟩
    have := (List.mem_filter.mp he).2
    simp only [Bool.not_eq_eq_eq_not, Bool.not_true] at this
    rwa [BEq.comm]⟩

/-- Equal keys find the same value. -/
theorem get?_congr (m : AssocMap κ ν) {k k' : κ} (h : k == k') :
    m.get? k = m.get? k' := by
  have : (fun e : κ × ν => e.1 == k) = fun e => e.1 == k' := by
    funext e
    exact BEq.congr_right h
  rw [get?, this, get?]

theorem get?_erase (m : AssocMap κ ν) (k k' : κ) :
    (m.erase k).get? k' = if k == k' then none else m.get? k' := by
  by_cases h : k == k'
  · rw [if_pos h, get?, Option.map_eq_none_iff, List.find?_eq_none]
    intro e he
    have he' := (List.mem_filter.mp he).2
    rw [BEq.congr_right h] at he'
    simpa using he'
  · rw [if_neg h, get?, get?, erase, List.find?_filter]
    congr 2
    funext e
    by_cases hk' : e.1 == k'
    · have hk : (e.1 == k) = false := by
        rw [Bool.eq_false_iff]
        exact fun hk => h (BEq.trans (BEq.symm hk) hk')
      simp [hk, hk']
    · simp [hk']

theorem get?_insert (m : AssocMap κ ν) (k k' : κ) (v : ν) :
    (m.insert k v).get? k' = if k == k' then some v else m.get? k' := by
  by_cases h : k == k'
  · simp [get?, insert, h]
  · have herase := get?_erase m k k'
    rw [if_neg h] at herase ⊢
    rw [← herase]
    simp [get?, insert, h]

/-- A stored pair is found under its own key. -/
theorem get?_of_mem {m : AssocMap κ ν} {e : κ × ν} (he : e ∈ m.entries) :
    m.get? e.1 = some e.2 := by
  obtain ⟨es, hd⟩ := m
  simp only [get?]
  induction es with
  | nil => simp at he
  | cons a rest ih =>
      rw [List.pairwise_cons] at hd
      rcases List.mem_cons.mp he with rfl | he
      · simp
      · rw [List.find?_cons_of_neg (by simpa using hd.1 e he)]
        exact ih hd.2 he

omit [EquivBEq κ] in
theorem exists_mem_of_get? {m : AssocMap κ ν} {k : κ} {v : ν}
    (h : m.get? k = some v) : ∃ k', (k', v) ∈ m.entries ∧ k' == k := by
  simp only [get?, Option.map_eq_some_iff] at h
  obtain ⟨⟨k', v'⟩, hf, rfl⟩ := h
  exact ⟨k', List.mem_of_find?_eq_some hf, by simpa using List.find?_some hf⟩

theorem get?_isSome_of_mem_keys {m : AssocMap κ ν} {k : κ} (h : k ∈ m.keys) :
    (m.get? k).isSome := by
  obtain ⟨e, he, rfl⟩ := List.mem_map.mp h
  simp [get?_of_mem he]

omit [EquivBEq κ] in
theorem erase_of_get?_none {m : AssocMap κ ν} {k : κ} (h : m.get? k = none) :
    m.erase k = m := by
  simp only [get?, Option.map_eq_none_iff, List.find?_eq_none] at h
  obtain ⟨es, hd⟩ := m
  simp only [erase, mk.injEq]
  exact List.filter_eq_self.mpr fun e he => by simpa using h e he

/-- An erased key takes its one pair out and leaves the others. -/
theorem perm_erase {m : AssocMap κ ν} {k : κ} {v : ν} (h : m.get? k = some v) :
    ∃ k', List.Perm m.entries ((k', v) :: (m.erase k).entries) := by
  obtain ⟨k', hmem, hk⟩ := exists_mem_of_get? h
  refine ⟨k', ?_⟩
  obtain ⟨es, hd⟩ := m
  simp only [erase] at hmem ⊢
  clear h
  induction es with
  | nil => cases hmem
  | cons a rest ih =>
      rw [List.pairwise_cons] at hd
      rcases List.mem_cons.mp hmem with rfl | hmem
      · -- the head is the pair removed; every other key differs from it
        have hrest : rest.filter (fun e => !(e.1 == k)) = rest := by
          refine List.filter_eq_self.mpr fun e he => ?_
          have hne := hd.1 e he
          simp only [Bool.not_eq_eq_eq_not, Bool.not_true]
          rw [Bool.eq_false_iff]
          intro hek
          have : (k' == e.1) = true := BEq.trans hk (BEq.symm hek)
          simp [this] at hne
        simp [hk, hrest]
      · have hak : (a.1 == k) = false := by
          rw [Bool.eq_false_iff]
          intro hak
          have := hd.1 _ hmem
          simp [BEq.trans hak (BEq.symm hk)] at this
        simp only [List.filter_cons, hak, Bool.not_false, if_true]
        exact ((ih hd.2 hmem).cons a).trans (List.Perm.swap _ _ _)

theorem size_erase {m : AssocMap κ ν} {k : κ} (h : (m.get? k).isSome) :
    (m.erase k).size + 1 = m.size := by
  obtain ⟨v, hv⟩ := Option.isSome_iff_exists.mp h
  obtain ⟨k', hperm⟩ := perm_erase hv
  exact hperm.length_eq.symm

theorem size_insert (m : AssocMap κ ν) (k : κ) (v : ν) :
    (m.insert k v).size = (m.erase k).size + 1 := rfl

theorem size_insert_of_some {m : AssocMap κ ν} {k : κ} (h : (m.get? k).isSome) (v : ν) :
    (m.insert k v).size = m.size := by
  rw [size_insert, size_erase h]

theorem size_insert_of_none {m : AssocMap κ ν} {k : κ} (h : m.get? k = none) (v : ν) :
    (m.insert k v).size = m.size + 1 := by
  rw [size_insert, erase_of_get?_none h]

theorem size_pos_of_isSome {m : AssocMap κ ν} {k : κ} (h : (m.get? k).isSome) : 0 < m.size := by
  have := size_erase h
  omega

/-- A key is stored at most once. -/
theorem countP_keys_le_one (m : AssocMap κ ν) (k : κ) : m.keys.countP (· == k) ≤ 1 := by
  have hsplit := List.length_eq_countP_add_countP (fun e : κ × ν => e.1 == k) (l := m.entries)
  have hrest : m.entries.countP (fun e => !(e.1 == k)) = (m.erase k).size :=
    List.countP_eq_length_filter
  have hcount : m.keys.countP (· == k) = m.entries.countP fun e => e.1 == k := List.countP_map
  have hsize : m.size = m.entries.length := rfl
  simp only [Bool.not_eq_true, Bool.decide_eq_false] at hsplit
  cases h : m.get? k with
  | none =>
      rw [erase_of_get?_none h] at hrest
      omega
  | some v =>
      have herase := size_erase (m := m) (k := k) (by rw [h]; rfl)
      omega

/-! ## Sums over the values -/

/-- A quantity of the values, over the whole map. -/
def sumBy (f : ν → Nat) (m : AssocMap κ ν) : Nat := (m.entries.map fun e => f e.2).sum

theorem sumBy_erase {m : AssocMap κ ν} {k : κ} {v : ν} (h : m.get? k = some v) (f : ν → Nat) :
    m.sumBy f = f v + (m.erase k).sumBy f := by
  obtain ⟨k', hperm⟩ := perm_erase h
  exact (hperm.map fun e => f e.2).sum_nat

theorem le_sumBy {m : AssocMap κ ν} {k : κ} {v : ν} (h : m.get? k = some v) (f : ν → Nat) :
    f v ≤ m.sumBy f := by
  rw [sumBy_erase h]
  exact Nat.le_add_right _ _

theorem sumBy_insert (m : AssocMap κ ν) (k : κ) (v : ν) (f : ν → Nat) :
    (m.insert k v).sumBy f = f v + (m.erase k).sumBy f := rfl

theorem sumBy_insert_of_some {m : AssocMap κ ν} {k : κ} {old : ν} (h : m.get? k = some old)
    (v : ν) (f : ν → Nat) : (m.insert k v).sumBy f + f old = m.sumBy f + f v := by
  rw [sumBy_insert, sumBy_erase h]
  omega

theorem sumBy_insert_of_none {m : AssocMap κ ν} {k : κ} (h : m.get? k = none) (v : ν)
    (f : ν → Nat) : (m.insert k v).sumBy f = m.sumBy f + f v := by
  rw [sumBy_insert, erase_of_get?_none h, Nat.add_comm]

/-! An absent key counts as one that is present with a value that adds
nothing. -/

section
variable {m : AssocMap κ ν} {k : κ} {d : ν} {f : ν → Nat}

theorem getD_le_sumBy (hd : f d = 0) : f ((m.get? k).getD d) ≤ m.sumBy f := by
  cases h : m.get? k with
  | some v => exact le_sumBy h f
  | none =>
      rw [Option.getD_none, hd]
      exact Nat.zero_le _

theorem sumBy_insert_getD (hd : f d = 0) (v : ν) :
    (m.insert k v).sumBy f + f ((m.get? k).getD d) = m.sumBy f + f v := by
  cases h : m.get? k with
  | some old => exact sumBy_insert_of_some h v f
  | none =>
      rw [Option.getD_none, hd]
      exact sumBy_insert_of_none h v f

end

end AssocMap

end Lib
