import Dotdns.Cache.TimedMap
import Dotdns.Validate

/-!
# Cache — capacity and eviction

`insert` makes room before it looks at the key: at capacity it drops some
entry, whether or not the new one takes a place of its own. So the number
of entries stays within the capacity as long as there is something to
drop, and storing an answer again costs another entry its place.
-/

namespace Dotdns

open Lib

namespace Cache

variable {α : Type*} {c : Cache α}

/-! ## One insert -/

/-- An insert that stores: the query has a question and the response a
record. -/
def stores (query response : Message) : Bool :=
  (CacheKey.fromMessage query).isSome && !response.records.isEmpty

theorem exists_key_of_stores {query response : Message} (h : stores query response = true) :
    ∃ key, CacheKey.fromMessage query = some key := by
  rw [stores, Bool.and_eq_true] at h
  exact Option.isSome_iff_exists.mp h.1

theorem exists_ttl_of_stores {query response : Message} (h : stores query response = true)
    (cfg : CacheConfig) : ∃ ttl, entryTtl cfg response = some ttl := by
  rw [stores, Bool.and_eq_true] at h
  rw [← Option.ne_none_iff_exists', Ne, entryTtl_eq_none_iff]
  simpa using h.2

theorem insert_of_not_stores {query response : Message} (h : stores query response = false)
    (m : Metrics) (now pick : Nat) (o : α) : c.insert m now pick query response o = (c, m) := by
  cases hk : CacheKey.fromMessage query with
  | none => exact insert_of_no_key hk response m now pick o
  | some key =>
      have hnil : response.records = [] := by simpa [stores, hk] using h
      exact insert_of_no_records (entryTtl_eq_none_iff.mpr hnil) query m now pick o

/-- There is a victim exactly at capacity, unless the cache is empty. -/
theorem victim_isSome_iff (pick : Nat) :
    (c.victim pick).isSome = true ↔ c.config.capacity ≤ c.entries.size ∧ 0 < c.entries.size := by
  unfold victim
  by_cases hfull : c.entries.size ≥ c.config.capacity
  · have hlen : c.entries.keys.length = c.entries.size := List.length_map _
    rw [if_pos hfull, isSome_getElem?, hlen]
    constructor
    · intro h
      exact ⟨hfull, by omega⟩
    · intro h
      exact Nat.mod_lt _ h.2
  · rw [if_neg hfull]
    simp
    omega

/-- A victim other than a key that is present: two entries at least. -/
theorem two_le_size_of_victim {pick : Nat} {v key : CacheKey} (hv : c.victim pick = some v)
    (hpresent : (c.entries.get? key).isSome = true) (hvk : ¬ (v == key) = true) :
    2 ≤ c.entries.size := by
  have herase := AssocMap.size_erase (victim_mem hv)
  have hkey : ((c.entries.erase v).get? key).isSome = true := by
    rw [AssocMap.get?_erase, if_neg hvk]
    exact hpresent
  have hpos := AssocMap.size_pos_of_isSome hkey
  omega

/-- The entries left once room has been made. -/
def kept (c : Cache α) (pick : Nat) : AssocMap CacheKey (CacheEntry α) :=
  (c.victim pick).elim c.entries c.entries.erase

theorem insert_eq_kept {query response : Message} {key : CacheKey}
    (hk : CacheKey.fromMessage query = some key) (hst : stores query response = true)
    (m : Metrics) (now pick : Nat) (o : α) :
    ∃ e, (c.insert m now pick query response o).1.entries = (c.kept pick).insert key e := by
  obtain ⟨ttl, ht⟩ := exists_ttl_of_stores hst c.config
  refine ⟨⟨response, now, ttl, o⟩, ?_⟩
  simp only [insert, hk, ht, makeRoom, kept]
  cases c.victim pick <;> rfl

theorem kept_of_no_victim {pick : Nat} (hv : c.victim pick = none) :
    c.kept pick = c.entries := by
  rw [kept, hv]
  rfl

theorem size_kept {pick : Nat} {v : CacheKey} (hv : c.victim pick = some v) :
    (c.kept pick).size + 1 = c.entries.size := by
  rw [kept, hv]
  exact AssocMap.size_erase (victim_mem hv)

theorem get?_kept {pick : Nat} (k : CacheKey) :
    (c.kept pick).get? k = if (c.victim pick).any (· == k) then none else c.entries.get? k := by
  rw [kept]
  cases c.victim pick with
  | none => simp
  | some v => simp [AssocMap.get?_erase]

end Cache

namespace CacheState

/-- Everything the cache may hold: its capacity, or the one entry that is
stored when there is nothing to drop. -/
def Bounded (s : CacheState) : Prop :=
  s.cache.entries.size ≤ max s.cache.config.capacity 1

section
variable {s : CacheState} {query response : Message} {key : CacheKey}

/-- What a storing insert does to the number of entries. -/
theorem size_step_insert (hk : CacheKey.fromMessage query = some key)
    (hst : Cache.stores query response = true) (now pick : Nat) :
    (s.step ⟨now, .insert query response pick⟩).cache.entries.size =
      (s.cache.kept pick).size +
        if ((s.cache.kept pick).get? key).isSome then 0 else 1 := by
  obtain ⟨e, he⟩ := Cache.insert_eq_kept (c := s.cache) hk hst s.metrics now pick ()
  show (s.cache.insert s.metrics now pick query response ()).1.entries.size = _
  rw [he]
  cases hg : (s.cache.kept pick).get? key with
  | none => exact AssocMap.size_insert_of_none hg e
  | some e' => exact AssocMap.size_insert_of_some (by rw [hg]; rfl) e

@[simp] theorem step_config (s : CacheState) (call : CacheCall) :
    (s.step call).cache.config = s.cache.config := by
  obtain ⟨now, op⟩ := call
  cases op with
  | insert query response pick => exact Cache.insert_config _ _ _ _ _ _ _
  | get query => exact Cache.get_config _ _ _ _
  | flush => rfl

theorem step_of_not_stores (h : Cache.stores query response = false) (now pick : Nat) :
    s.step ⟨now, .insert query response pick⟩ = s := by
  simp only [step, Cache.insert_of_not_stores h]

theorem size_step_insert_pos (hst : Cache.stores query response = true) (now pick : Nat) :
    0 < (s.step ⟨now, .insert query response pick⟩).cache.entries.size := by
  obtain ⟨key, hk⟩ := Cache.exists_key_of_stores hst
  rw [size_step_insert hk hst]
  split
  · rename_i hsome
    exact AssocMap.size_pos_of_isSome hsome
  · omega

theorem size_step_get_le (s : CacheState) (now : Nat) (query : Message) :
    (s.step ⟨now, .get query⟩).cache.entries.size ≤ s.cache.entries.size := by
  simp only [step]
  rcases Cache.lookup_cases s.cache query now with hl | ⟨key, e, hk, he, hexp⟩ | ⟨e, hl, hlive⟩
  · rw [Cache.get_of_lookup_none hl]
  · rw [Cache.get_of_expired hk he hexp]
    exact List.length_filter_le _ _
  · rw [Cache.get_of_live hl hlive]

theorem bounded_step (h : s.Bounded) (call : CacheCall) : (s.step call).Bounded := by
  unfold Bounded at h ⊢
  rw [step_config]
  obtain ⟨now, op⟩ := call
  cases op with
  | insert query response pick =>
      cases hst : Cache.stores query response with
      | false => rwa [step_of_not_stores hst]
      | true =>
          obtain ⟨key, hk⟩ := Cache.exists_key_of_stores hst
          have hsize := size_step_insert (s := s) hk hst now pick
          have hle : (s.step ⟨now, .insert query response pick⟩).cache.entries.size ≤
              (s.cache.kept pick).size + 1 := by
            rw [hsize]
            split <;> omega
          cases hv : s.cache.victim pick with
          | none =>
              -- no victim: below capacity, or nothing to drop
              have hroom := Cache.victim_isSome_iff (c := s.cache) pick
              rw [hv] at hroom
              rw [Cache.kept_of_no_victim hv] at hle
              simp only [Option.isSome_none, Bool.false_eq_true, false_iff, not_and] at hroom
              omega
          | some v =>
              have hkept := Cache.size_kept hv
              omega
  | get query => exact (size_step_get_le s now query).trans h
  | flush => exact Nat.zero_le _

end

theorem exec_config (cfg : CacheConfig) (m : Metrics) (calls : List CacheCall) :
    ((new cfg m).exec calls).1.cache.config = cfg := (refines_exec cfg m calls).config

theorem bounded_exec (cfg : CacheConfig) (m : Metrics) (calls : List CacheCall) :
    ((new cfg m).exec calls).1.Bounded := by
  induction calls using List.reverseRecOn with
  | nil => exact Nat.zero_le _
  | append_singleton calls call ih =>
      rw [exec_concat]
      exact bounded_step ih call

end CacheState

/-- The call stores an entry. -/
def CacheCall.stores (call : CacheCall) : Bool :=
  match call.op with
  | .insert query response _ => Cache.stores query response
  | _ => false

/-- Without an insert that stores the cache stays empty. -/
theorem CacheState.size_exec_of_not_stores (cfg : CacheConfig) (m : Metrics)
    {calls : List CacheCall} (h : ∀ call ∈ calls, call.stores = false) :
    ((CacheState.new cfg m).exec calls).1.cache.entries.size = 0 := by
  induction calls using List.reverseRecOn with
  | nil => rfl
  | append_singleton calls call ih =>
      have hih := ih fun c hc => h c (List.mem_append_left _ hc)
      have hcall := h call (by simp)
      rw [exec_concat]
      obtain ⟨now, op⟩ := call
      cases op with
      | insert query response pick =>
          rw [step_of_not_stores hcall]
          exact hih
      | get query =>
          have hle := size_step_get_le ((CacheState.new cfg m).exec calls).1 now query
          exact Nat.le_zero.mp (hle.trans_eq hih)
      | flush => rfl

/-- **The capacity.** For every configuration and sequence of calls, with
any eviction victims: the number of entries stays within the capacity at
every moment exactly when the capacity is not zero, or nothing is ever
stored. -/
theorem cache_size_iff (cfg : CacheConfig) (m : Metrics) (calls : List CacheCall) :
    (∀ pre, pre <+: calls →
      ((CacheState.new cfg m).exec pre).1.cache.entries.size ≤ cfg.capacity) ↔
    0 < cfg.capacity ∨ ∀ call ∈ calls, call.stores = false := by
  constructor
  · intro h
    -- with no room at all, the first response that is stored is one too many
    by_contra hno
    rw [not_or, Nat.not_lt, Nat.le_zero] at hno
    obtain ⟨hzero, hstores⟩ := hno
    apply hstores
    intro call hcall
    rw [Bool.eq_false_iff]
    intro hst
    obtain ⟨pre, post, rfl⟩ := List.append_of_mem hcall
    have hle := h (pre ++ [call]) ⟨post, by simp⟩
    rw [CacheState.exec_concat] at hle
    obtain ⟨now, op⟩ := call
    cases op with
    | insert query response pick =>
        have hpos := CacheState.size_step_insert_pos
          (s := ((CacheState.new cfg m).exec pre).1) hst now pick
        simp only at hle
        omega
    | get query => cases hst
    | flush => cases hst
  · intro h pre hpre
    rcases h with hpos | hno
    · have hb := CacheState.bounded_exec cfg m pre
      unfold CacheState.Bounded at hb
      rw [CacheState.exec_config] at hb
      omega
    · have hzero := CacheState.size_exec_of_not_stores cfg m fun c hc => hno c (hpre.mem hc)
      omega

/-- A record to store. -/
def oneRecord (msg : Message) : Message :=
  { msg with answers := [.fromRdata ⟨[labelOf "example", labelOf "org"], true⟩ 300 (.a 0)] }

/-- `validate` accepts a capacity of zero, and then one insert is one entry
too many. -/
theorem cache_exceeds_zero_capacity :
    let upstream : UpstreamEntry := { name := "mock".toList, address := "127.0.0.1:53".toList }
    let config : Config :=
      { serverBinds := [⟨.v4 0#32, 853⟩], upstreams := [upstream], cache := { capacity := 0 } }
    let query : Message := { queries := [⟨⟨[labelOf "example", labelOf "org"], true⟩, .A, .IN⟩] }
    config.validate (fun _ => false) (fun _ => false) = .ok () ∧
      ((CacheState.new config.cache {}).exec
        [⟨0, .insert query (oneRecord query) 0⟩]).1.cache.entries.size = 1 ∧
      ¬ 1 ≤ config.cache.capacity := by
  intro upstream config query
  refine ⟨by decide +kernel, ?_, by decide⟩
  decide +kernel

/-! ## Storing an answer again -/

theorem countP_or_le {α : Type*} (p q : α → Bool) (l : List α) :
    l.countP (fun x => p x || q x) ≤ l.countP p + l.countP q := by
  induction l with
  | nil => simp
  | cons x l ih =>
      simp only [List.countP_cons]
      cases p x <;> cases q x <;> simp <;> omega

/-- One of the requests that share an upstream's answer: the transaction ID
it puts in the answer and the moment it stores it. -/
structure CacheRequest where
  id : UInt16
  now : Nat
  pick : Nat

namespace CacheState

/-- `resolve_with_context` stores the answer once for every request. -/
def insertAll (s : CacheState) (query response : Message) (reqs : List CacheRequest) :
    CacheState :=
  reqs.foldl (fun s r => s.step ⟨r.now, .insert (query.setId r.id) (response.setId r.id) r.pick⟩) s

/-- How many entries of `s₀`, the one under `key` aside, `s` does not have. -/
def lostCount (s₀ s : CacheState) (key : CacheKey) : Nat :=
  s₀.cache.entries.keys.countP fun k => !(key == k) && (s.cache.entries.get? k).isNone

/-- Storing under a key that is present touches no other entry and counts no
eviction; storing one answer any number of times costs at most one other
entry. -/
structure KeepsOthers (s : CacheState) (query response : Message) (key : CacheKey) : Prop where
  present : (s.cache.entries.get? key).isSome = true → ∀ now pick,
    (∀ k, (key == k) = false →
      (s.step ⟨now, .insert query response pick⟩).cache.entries.get? k =
        s.cache.entries.get? k) ∧
    (s.step ⟨now, .insert query response pick⟩).metrics.cacheEvictions =
      s.metrics.cacheEvictions
  lost : ∀ reqs, s.lostCount (s.insertAll query response reqs) key ≤ 1

section
variable {s s₀ : CacheState} {query response : Message} {key : CacheKey}

theorem get?_step_insert (hk : CacheKey.fromMessage query = some key)
    (hst : Cache.stores query response = true) (now pick : Nat) {k : CacheKey}
    (hkk : (key == k) = false) :
    (s.step ⟨now, .insert query response pick⟩).cache.entries.get? k =
      if (s.cache.victim pick).any (· == k) then none else s.cache.entries.get? k := by
  obtain ⟨e, he⟩ := Cache.insert_eq_kept (c := s.cache) hk hst s.metrics now pick ()
  show (s.cache.insert s.metrics now pick query response ()).1.entries.get? k = _
  rw [he, AssocMap.get?_insert, hkk, if_neg Bool.false_ne_true, Cache.get?_kept]

theorem present_step_insert (hk : CacheKey.fromMessage query = some key)
    (hst : Cache.stores query response = true) (now pick : Nat) :
    ((s.step ⟨now, .insert query response pick⟩).cache.entries.get? key).isSome = true := by
  obtain ⟨e, he⟩ := Cache.insert_eq_kept (c := s.cache) hk hst s.metrics now pick ()
  show ((s.cache.insert s.metrics now pick query response ()).1.entries.get? key).isSome = true
  rw [he, AssocMap.get?_insert, if_pos BEq.rfl]
  rfl

theorem lostCount_self (s : CacheState) (key : CacheKey) : s.lostCount s key = 0 := by
  rw [lostCount, List.countP_eq_zero]
  intro k hk
  have hsome := AssocMap.get?_isSome_of_mem_keys hk
  obtain ⟨e, he⟩ := Option.isSome_iff_exists.mp hsome
  simp [he]

theorem lostCount_le_size (s₀ s : CacheState) (key : CacheKey) :
    s₀.lostCount s key ≤ s₀.cache.entries.size :=
  List.countP_le_length.trans_eq (List.length_map _)

/-- An insert that drops nothing, or its own old entry. -/
theorem lostCount_step_of_own (hk : CacheKey.fromMessage query = some key)
    (hst : Cache.stores query response = true) (now pick : Nat)
    (hv : ∀ v, s.cache.victim pick = some v → (v == key) = true) :
    s₀.lostCount (s.step ⟨now, .insert query response pick⟩) key = s₀.lostCount s key := by
  refine List.countP_congr fun k _ => ?_
  by_cases hkk : key == k
  · simp [hkk]
  · rw [Bool.not_eq_true] at hkk
    have hnot : (s.cache.victim pick).any (· == k) = false := by
      cases hvic : s.cache.victim pick with
      | none => rfl
      | some v =>
          rw [Option.any_some, Bool.eq_false_iff]
          intro hvk
          have htrans : (key == k) = true := BEq.trans (BEq.symm (hv v hvic)) hvk
          rw [hkk] at htrans
          cases htrans
    rw [get?_step_insert hk hst now pick hkk, hnot]
    simp

variable (s₀) in
/-- An insert costs at most one entry. -/
theorem lostCount_step_le (hk : CacheKey.fromMessage query = some key)
    (hst : Cache.stores query response = true) (now pick : Nat) :
    s₀.lostCount (s.step ⟨now, .insert query response pick⟩) key ≤ s₀.lostCount s key + 1 := by
  cases hvic : s.cache.victim pick with
  | none =>
      rw [lostCount_step_of_own hk hst now pick (by simp [hvic])]
      omega
  | some v =>
      have hone := AssocMap.countP_keys_le_one s₀.cache.entries v
      have hor : s₀.lostCount (s.step ⟨now, .insert query response pick⟩) key ≤
          s₀.cache.entries.keys.countP fun k =>
            (!(key == k) && (s.cache.entries.get? k).isNone) || k == v := by
        refine List.countP_mono_left fun k _ hlost => ?_
        rw [Bool.and_eq_true, Bool.not_eq_true'] at hlost
        obtain ⟨hkk, hnone⟩ := hlost
        rw [get?_step_insert hk hst now pick hkk, hvic] at hnone
        by_cases hvk : v == k
        · simp [BEq.symm hvk]
        · have hget : s.cache.entries.get? k = none := by simpa [hvk] using hnone
          simp [hkk, hget]
      have hadd := countP_or_le (fun k => !(key == k) && (s.cache.entries.get? k).isNone)
        (· == v) s₀.cache.entries.keys
      exact hor.trans (hadd.trans (Nat.add_le_add_left hone _))

/-- The number of entries after storing under a key that is present: the
victim's place is left empty unless the victim is the entry itself. -/
theorem size_step_insert_present (hk : CacheKey.fromMessage query = some key)
    (hst : Cache.stores query response = true)
    (hpresent : (s.cache.entries.get? key).isSome = true) (now pick : Nat) :
    (s.step ⟨now, .insert query response pick⟩).cache.entries.size =
      match s.cache.victim pick with
      | none => s.cache.entries.size
      | some v => if v == key then s.cache.entries.size else s.cache.entries.size - 1 := by
  rw [size_step_insert hk hst, Cache.get?_kept]
  cases hv : s.cache.victim pick with
  | none => simp [Cache.kept_of_no_victim hv, hpresent]
  | some v =>
      have hkept := Cache.size_kept hv
      by_cases hvk : v == key
      · simp only [Option.any_some, hvk, if_true, Option.isSome_none, Bool.false_eq_true, if_false]
        omega
      · simp only [Option.any_some, hvk, if_false, hpresent, if_true, Bool.false_eq_true]
        omega

variable (s₀) in
/-- From a state that holds the key: one entry is lost at most, none while
there is room. -/
theorem lostCount_insertAll_present (hk : CacheKey.fromMessage query = some key)
    (hst : Cache.stores query response = true) (reqs : List CacheRequest) (hb : s.Bounded)
    (hpresent : (s.cache.entries.get? key).isSome = true) :
    s₀.lostCount (s.insertAll query response reqs) key ≤ s₀.lostCount s key +
      if s.cache.entries.size < s.cache.config.capacity then 0 else 1 := by
  induction reqs generalizing s with
  | nil => simp [insertAll]
  | cons r reqs ih =>
      have hk' : CacheKey.fromMessage (query.setId r.id) = some key := hk
      have hst' : Cache.stores (query.setId r.id) (response.setId r.id) = true := hst
      let s' := s.step ⟨r.now, .insert (query.setId r.id) (response.setId r.id) r.pick⟩
      have hrest := ih (s := s') (bounded_step hb _) (present_step_insert hk' hst' _ _)
      rw [step_config] at hrest
      have hsize : s'.cache.entries.size = _ :=
        size_step_insert_present hk' hst' hpresent r.now r.pick
      refine hrest.trans ?_
      cases hv : s.cache.victim r.pick with
      | none =>
          rw [hv] at hsize
          rw [hsize, lostCount_step_of_own hk' hst' r.now r.pick (by simp [hv])]
      | some v =>
          rw [hv] at hsize
          by_cases hvk : v == key
          · -- the entry itself was dropped and stored anew
            simp only [hvk, if_true] at hsize
            rw [hsize, lostCount_step_of_own hk' hst' r.now r.pick (by simp [hv, hvk])]
          · -- another entry was dropped, and now there is room
            have hfull := (Cache.victim_isSome_iff (c := s.cache) r.pick).mp (by rw [hv]; rfl)
            have hle := lostCount_step_le s₀ (s := s) hk' hst' r.now r.pick
            have hb1 : s.cache.entries.size ≤ max s.cache.config.capacity 1 := hb
            have hother := Cache.two_le_size_of_victim hv hpresent hvk
            simp only [hvk, Bool.false_eq_true, if_false] at hsize
            have hroom : s'.cache.entries.size < s.cache.config.capacity := by omega
            rw [if_pos hroom, if_neg (by omega)]
            omega

/-- A full cache may drop any of its entries. -/
theorem exists_pick_victim {c : Cache Unit} (hfull : c.config.capacity ≤ c.entries.size)
    {k : CacheKey} (hk : (c.entries.get? k).isSome = true) :
    ∃ pick v, c.victim pick = some v ∧ (v == k) = true := by
  obtain ⟨e, he⟩ := Option.isSome_iff_exists.mp hk
  obtain ⟨v, hmem, hvk⟩ := AssocMap.exists_mem_of_get? he
  obtain ⟨pick, hlt, hget⟩ := List.mem_iff_getElem.mp (List.mem_map_of_mem (f := Prod.fst) hmem)
  have hlen : c.entries.keys.length = c.entries.size := List.length_map _
  have hpick : pick < c.entries.size := hlen ▸ hlt
  refine ⟨pick, v, ?_, hvk⟩
  rw [Cache.victim, if_pos hfull, Nat.mod_eq_of_lt hpick]
  exact List.getElem?_eq_some_iff.mpr ⟨hlt, hget⟩

/-- An insert into a full cache that loses a given other entry. -/
theorem exists_insert_losing (hk : CacheKey.fromMessage query = some key)
    (hst : Cache.stores query response = true)
    (hfull : s.cache.config.capacity ≤ s.cache.entries.size) {k : CacheKey}
    (hkk : (key == k) = false) (hkin : (s.cache.entries.get? k).isSome = true) :
    ∃ pick v, s.cache.victim pick = some v ∧ (v == k) = true ∧
      (s.step ⟨0, .insert query response pick⟩).cache.entries.get? k = none := by
  obtain ⟨pick, v, hv, hvk⟩ := exists_pick_victim hfull hkin
  refine ⟨pick, v, hv, hvk, ?_⟩
  rw [get?_step_insert hk hst 0 pick hkk, hv]
  simp [hvk]

/-- Two entries that are there before and not after. -/
theorem two_le_lostCount {a b : CacheKey × CacheEntry Unit}
    {rest : List (CacheKey × CacheEntry Unit)}
    (hentries : s₀.cache.entries.entries = a :: b :: rest)
    (hka : (key == a.1) = false) (hkb : (key == b.1) = false)
    (ha : s.cache.entries.get? a.1 = none) (hb : s.cache.entries.get? b.1 = none) :
    2 ≤ s₀.lostCount s key := by
  have hkeys : s₀.cache.entries.keys = a.1 :: b.1 :: rest.map Prod.fst := by
    rw [AssocMap.keys, hentries]
    rfl
  rw [lostCount, hkeys]
  simp [hka, hkb, ha, hb]

/-- Two requests with a new answer for a full cache may lose two entries:
each makes room, the second one for an entry that is already there. -/
theorem exists_two_lost (hk : CacheKey.fromMessage query = some key)
    (hst : Cache.stores query response = true)
    (hfull : s.cache.config.capacity ≤ s.cache.entries.size) (htwo : 2 ≤ s.cache.entries.size)
    (habsent : s.cache.entries.get? key = none) :
    ∃ reqs, 2 ≤ s.lostCount (s.insertAll query response reqs) key := by
  obtain ⟨a, b, rest, hentries⟩ : ∃ a b rest, s.cache.entries.entries = a :: b :: rest := by
    match h : s.cache.entries.entries with
    | [] | [_] => simp [AssocMap.size, h] at htwo
    | a :: b :: rest => exact ⟨a, b, rest, rfl⟩
  have hin : ∀ e ∈ s.cache.entries.entries,
      (key == e.1) = false ∧ (s.cache.entries.get? e.1).isSome = true := by
    intro e he
    have hget := AssocMap.get?_of_mem he
    refine ⟨?_, by rw [hget]; rfl⟩
    rw [Bool.eq_false_iff]
    intro hke
    rw [AssocMap.get?_congr _ hke, hget] at habsent
    cases habsent
  obtain ⟨hka, hain⟩ := hin a (by simp [hentries])
  obtain ⟨hkb, hbin⟩ := hin b (by simp [hentries])
  have hab : (a.1 == b.1) = false := by
    have hd := s.cache.entries.distinct
    rw [hentries, List.pairwise_cons] at hd
    exact hd.1 b (by simp)
  have hk' : CacheKey.fromMessage (query.setId 0) = some key := hk
  have hst' : Cache.stores (query.setId 0) (response.setId 0) = true := hst
  -- the first request drops `a`: the cache is as full as before
  obtain ⟨pick₁, v, hv, hva, hnone₁⟩ := exists_insert_losing (s := s) hk' hst' hfull hka hain
  let s₁ := s.step ⟨0, .insert (query.setId 0) (response.setId 0) pick₁⟩
  have hvb : (v == b.1) = false := by
    rw [Bool.eq_false_iff]
    intro hvb
    have htrans : (a.1 == b.1) = true := BEq.trans (BEq.symm hva) hvb
    rw [hab] at htrans
    cases htrans
  have hbin₁ : (s₁.cache.entries.get? b.1).isSome = true := by
    show ((s.step _).cache.entries.get? b.1).isSome = true
    rw [get?_step_insert hk' hst' 0 pick₁ hkb, hv]
    simpa [hvb] using hbin
  have hfull₁ : s₁.cache.config.capacity ≤ s₁.cache.entries.size := by
    have hkept := Cache.size_kept hv
    have hsize : s₁.cache.entries.size = _ := size_step_insert hk' hst' 0 pick₁
    rw [Cache.get?_kept, habsent, ite_self] at hsize
    simp only [Option.isSome_none, Bool.false_eq_true, if_false] at hsize
    show (s.step _).cache.config.capacity ≤ _
    rw [step_config]
    omega
  -- the second one drops `b`
  obtain ⟨pick₂, _, _, _, hnone₂⟩ := exists_insert_losing (s := s₁) hk' hst' hfull₁ hkb hbin₁
  refine ⟨[⟨0, 0, pick₁⟩, ⟨0, 0, pick₂⟩], two_le_lostCount hentries hka hkb ?_ hnone₂⟩
  show (s₁.step ⟨0, .insert (query.setId 0) (response.setId 0) pick₂⟩).cache.entries.get? a.1 = none
  rw [get?_step_insert hk' hst' 0 pick₂ hka, hnone₁, ite_self]

/-- Storing under a key that is present, in a full cache, counts an
eviction. -/
theorem evictions_step_full (hk : CacheKey.fromMessage query = some key)
    (hst : Cache.stores query response = true)
    (hfull : s.cache.config.capacity ≤ s.cache.entries.size)
    (hpresent : (s.cache.entries.get? key).isSome = true) (now pick : Nat) :
    (s.step ⟨now, .insert query response pick⟩).metrics.cacheEvictions ≠
      s.metrics.cacheEvictions := by
  have hvictim := (Cache.victim_isSome_iff (c := s.cache) pick).mpr
    ⟨hfull, AssocMap.size_pos_of_isSome hpresent⟩
  have hdropped : (s.dropped ⟨now, .insert query response pick⟩).isSome = true := by
    obtain ⟨ttl, ht⟩ := Cache.exists_ttl_of_stores hst s.cache.config
    simpa [dropped, hk, ht] using hvictim
  rw [evictions_step, hdropped, if_pos rfl]
  simp

theorem insertAll_of_not_stores (h : Cache.stores query response = false)
    (reqs : List CacheRequest) : s.insertAll query response reqs = s := by
  induction reqs with
  | nil => rfl
  | cons r reqs ih =>
      have h' : Cache.stores (query.setId r.id) (response.setId r.id) = false := h
      rw [insertAll, List.foldl_cons, step_of_not_stores h']
      exact ih

/-- With room in the cache nothing is lost by storing under a key that is
present. -/
theorem present_of_room (hk : CacheKey.fromMessage query = some key)
    (hst : Cache.stores query response = true)
    (hroom : s.cache.entries.size < s.cache.config.capacity) (now pick : Nat) :
    (∀ k, (key == k) = false →
      (s.step ⟨now, .insert query response pick⟩).cache.entries.get? k =
        s.cache.entries.get? k) ∧
    (s.step ⟨now, .insert query response pick⟩).metrics.cacheEvictions =
      s.metrics.cacheEvictions := by
  have hv : s.cache.victim pick = none := by
    rw [Cache.victim, if_neg (by omega)]
  constructor
  · intro k hkk
    rw [get?_step_insert hk hst now pick hkk, hv]
    simp
  · rw [evictions_step]
    simp [dropped, hv]

/-- With room in the cache the requests that share an answer lose one entry
at most: the first of them takes a place of its own, and the next may find
the cache full. -/
theorem lostCount_insertAll_of_room (hk : CacheKey.fromMessage query = some key)
    (hst : Cache.stores query response = true) (hb : s.Bounded)
    (hroom : s.cache.entries.size < s.cache.config.capacity) (reqs : List CacheRequest) :
    s.lostCount (s.insertAll query response reqs) key ≤ 1 := by
  cases reqs with
  | nil => simp [insertAll, lostCount_self]
  | cons r reqs =>
      have hk' : CacheKey.fromMessage (query.setId r.id) = some key := hk
      have hst' : Cache.stores (query.setId r.id) (response.setId r.id) = true := hst
      let s' := s.step ⟨r.now, .insert (query.setId r.id) (response.setId r.id) r.pick⟩
      have hv : s.cache.victim r.pick = none := by
        rw [Cache.victim, if_neg (by omega)]
      have hsame : s.lostCount s' key = 0 := by
        rw [lostCount_step_of_own hk' hst' r.now r.pick (by simp [hv]), lostCount_self]
      have hrest := lostCount_insertAll_present s (s := s') hk hst reqs
        (bounded_step hb _) (present_step_insert hk' hst' r.now r.pick)
      show s.lostCount (s'.insertAll query response reqs) key ≤ 1
      split at hrest <;> omega

end

end CacheState

/-- **Storing an answer again.** From every reachable cache, an answer
stored under a key that is present leaves the other entries and the
eviction counter alone, and the requests that share one answer lose at most
one other entry between them, exactly when nothing is stored, the cache is
below its capacity, or the key is new to a cache of at most one entry. -/
theorem insert_keeps_others_iff (cfg : CacheConfig) (m : Metrics) (calls : List CacheCall)
    (query response : Message) (key : CacheKey) (hk : CacheKey.fromMessage query = some key) :
    let s := ((CacheState.new cfg m).exec calls).1
    s.KeepsOthers query response key ↔
      response.records = [] ∨ s.cache.entries.size < cfg.capacity ∨
        (s.cache.entries.get? key = none ∧ s.cache.entries.size ≤ 1) := by
  intro s
  have hb : s.Bounded := CacheState.bounded_exec cfg m calls
  have hcfg : s.cache.config = cfg := CacheState.exec_config cfg m calls
  cases hst : Cache.stores query response with
  | false =>
      have hnil : response.records = [] := by simpa [Cache.stores, hk] using hst
      -- a response without records is not stored, and nothing has to make way
      refine iff_of_true ⟨?_, ?_⟩ (Or.inl hnil)
      · intro _ now pick
        rw [CacheState.step_of_not_stores hst]
        exact ⟨fun _ _ => rfl, rfl⟩
      · intro reqs
        rw [CacheState.insertAll_of_not_stores hst, CacheState.lostCount_self]
        exact Nat.zero_le _
  | true =>
      have hsome : response.records ≠ [] := by simpa [Cache.stores, hk] using hst
      constructor
      · intro h
        -- at capacity a key that is there still costs an entry, a new one can cost two
        by_contra hno
        rw [not_or, not_or, Nat.not_lt] at hno
        obtain ⟨-, hfull, hnew⟩ := hno
        rw [← hcfg] at hfull
        cases hget : s.cache.entries.get? key with
        | some e =>
            have hpresent : (s.cache.entries.get? key).isSome = true := by rw [hget]; rfl
            exact CacheState.evictions_step_full hk hst hfull hpresent 0 0
              (h.present hpresent 0 0).2
        | none =>
            have htwo : 2 ≤ s.cache.entries.size := by
              by_contra hlt
              exact hnew ⟨hget, by omega⟩
            obtain ⟨reqs, hreqs⟩ := CacheState.exists_two_lost hk hst hfull htwo hget
            have hone := h.lost reqs
            omega
      · rintro (hnil | hroom | ⟨habsent, hone⟩)
        · exact absurd hnil hsome
        · rw [← hcfg] at hroom
          exact ⟨fun _ => CacheState.present_of_room hk hst hroom,
            CacheState.lostCount_insertAll_of_room hk hst hb hroom⟩
        · refine ⟨fun hpresent => ?_, fun reqs => (CacheState.lostCount_le_size _ _ _).trans hone⟩
          rw [habsent] at hpresent
          cases hpresent

/-- Room for three and two answers stored: storing the first again leaves
the second where it is. -/
theorem insert_keeps_others_below_capacity :
    let query (name : String) : Message :=
      { queries := [⟨⟨[labelOf name, labelOf "org"], true⟩, .A, .IN⟩] }
    let key (name : String) : CacheKey :=
      ⟨⟨[labelOf name, labelOf "org"], true⟩, .A, .IN, false, false, none⟩
    let s := ((CacheState.new { capacity := 3 } {}).exec
      [⟨0, .insert (query "a") (oneRecord (query "a")) 0⟩,
        ⟨0, .insert (query "b") (oneRecord (query "b")) 0⟩]).1
    let again := s.step ⟨1, .insert (query "a") (oneRecord (query "a")) 0⟩
    s.cache.entries.size = 2 ∧ (s.cache.entries.get? (key "a")).isSome = true ∧
      (again.cache.entries.get? (key "b")).isSome = true ∧
      s.KeepsOthers (query "a") (oneRecord (query "a")) (key "a") := by
  intro query key s again
  have hk : CacheKey.fromMessage (query "a") = some (key "a") := rfl
  refine ⟨by decide +kernel, by decide +kernel, by decide +kernel, ?_⟩
  exact (insert_keeps_others_iff { capacity := 3 } {} _ (query "a") (oneRecord (query "a"))
    (key "a") hk).mpr (Or.inr (Or.inl (by decide +kernel)))

/-- A full cache of two answers: storing the first again drops the second,
and two requests that share a third answer drop both. -/
theorem insert_again_loses_others :
    let query (name : String) : Message :=
      { queries := [⟨⟨[labelOf name, labelOf "org"], true⟩, .A, .IN⟩] }
    let key (name : String) : CacheKey :=
      ⟨⟨[labelOf name, labelOf "org"], true⟩, .A, .IN, false, false, none⟩
    let s := ((CacheState.new { capacity := 2 } {}).exec
      [⟨0, .insert (query "a") (oneRecord (query "a")) 0⟩,
        ⟨0, .insert (query "b") (oneRecord (query "b")) 0⟩]).1
    let again := s.step ⟨1, .insert (query "a") (oneRecord (query "a")) 0⟩
    (s.cache.entries.get? (key "a")).isSome = true ∧
      (s.cache.entries.get? (key "b")).isSome = true ∧
      again.cache.entries.get? (key "b") = none ∧
      again.metrics.cacheEvictions = s.metrics.cacheEvictions + 1 ∧
      s.lostCount (s.insertAll (query "c") (oneRecord (query "c")) [⟨1, 1, 0⟩, ⟨2, 1, 1⟩])
        (key "c") = 2 := by
  intro query key s again
  refine ⟨by decide +kernel, by decide +kernel, ?_, by decide +kernel, by decide +kernel⟩
  rw [← Option.isNone_iff_eq_none]
  decide +kernel

end Dotdns
