import Mathlib.Data.List.Basic
import Dotdns.Lib.AssocMap

/-!
# Lib — least recently used

A bounded table whose entries are touched one at a time. Three readings of
it, each tied to the next:

* the HISTORY: `recents`, the distinct keys of a history, newest first,
  and `session`, what has been done to a key since the table last took it
  in;
* the LIST: `touch` moves an entry to the front and cuts the list at the
  capacity;
* the TICKED MAP: `tickTouch` stores with each value the number of its
  last use and looks for the smallest when it needs room.

Histories are newest first.
-/

namespace Lib.Lru

variable {κ ν α : Type*} [BEq κ] [LawfulBEq κ]

/-! ## The history -/

/-- The distinct keys of a history. -/
def recents : List κ → List κ
  | [] => []
  | k :: h => k :: (recents h).filter fun k' => !(k' == k)

/-- The keys a table of `cap` places holds. -/
def held (cap : Nat) (h : List κ) : List κ := (recents h).take cap

/-- What was done to `k` since the table last took it in: a use of `k` that
finds it in the table adds to its session, and one that does not starts
another. -/
def session (cap : Nat) (k : κ) : List (κ × α) → List α
  | [] => []
  | (k', a) :: h =>
      if k' == k
      then if k ∈ held cap (h.map Prod.fst) then a :: session cap k h else [a]
      else session cap k h

theorem nodup_recents (h : List κ) : (recents h).Nodup := by
  induction h with
  | nil => exact List.nodup_nil
  | cons k h ih =>
      rw [recents, List.nodup_cons]
      exact ⟨by simp, ih.filter _⟩

/-- Filtering out one key pulls at most one place up. -/
theorem take_filter_eq {l : List κ} (hl : l.Nodup) (k : κ) (n : Nat) :
    (l.filter fun k' => !(k' == k)).take n =
      ((l.take (n + 1)).filter fun k' => !(k' == k)).take n := by
  induction l generalizing n with
  | nil => simp
  | cons a l ih =>
      obtain ⟨ha, hl⟩ := List.nodup_cons.mp hl
      by_cases hak : a = k
      · subst hak
        have hkeep : ∀ l' : List κ, (∀ x ∈ l', x ∈ l) →
            (l'.filter fun k' => !(k' == a)) = l' := by
          intro l' hsub
          rw [List.filter_eq_self]
          intro x hx
          have hne : x ≠ a := by
            rintro rfl
            exact ha (hsub x hx)
          simpa using hne
        have hrest := hkeep l fun _ hx => hx
        have htake := hkeep (l.take n) fun _ hx => List.mem_of_mem_take hx
        simp [hrest, htake, List.take_take]
      · cases n with
        | zero => simp
        | succ n =>
            have hrest := ih hl n
            simp [hak, hrest]

/-- One use: the key comes to the front of those held. -/
theorem held_cons {cap : Nat} (hcap : 0 < cap) (k : κ) (h : List κ) :
    held cap (k :: h) = (k :: (held cap h).filter fun k' => !(k' == k)).take cap := by
  obtain ⟨n, rfl⟩ : ∃ n, cap = n + 1 := ⟨cap - 1, by omega⟩
  rw [held, recents, List.take_succ_cons, List.take_succ_cons, take_filter_eq (nodup_recents h)]
  rfl

theorem mem_held_cons {cap : Nat} (hcap : 0 < cap) (k : κ) (h : List κ) :
    k ∈ held cap (k :: h) := by
  obtain ⟨n, rfl⟩ : ∃ n, cap = n + 1 := ⟨cap - 1, by omega⟩
  rw [held_cons hcap, List.take_succ_cons]
  exact List.mem_cons_self

/-- A use costs a key its place only when the table is full, the key used
is new to it, and this one is the last. -/
theorem getLast?_held {cap : Nat} (hcap : 0 < cap) {k k' : κ} {h : List κ}
    (hin : k' ∈ held cap h) (hout : k' ∉ held cap (k :: h)) :
    (held cap h).getLast? = some k' ∧ k ∉ held cap h ∧ (held cap h).length = cap := by
  have hle : (held cap h).length ≤ cap := List.length_take_le _ _
  have hne : k' ≠ k := by
    rintro rfl
    exact hout (mem_held_cons hcap _ h)
  obtain ⟨n, rfl⟩ : ∃ n, cap = n + 1 := ⟨cap - 1, by omega⟩
  rw [held_cons hcap, List.take_succ_cons, List.mem_cons, not_or] at hout
  have hk : k ∉ held (n + 1) h := by
    intro hk
    -- the key used gives up its own place
    have hshort : ((held (n + 1) h).filter fun k'' => !(k'' == k)).length < n + 1 :=
      Nat.lt_of_lt_of_le
        (List.length_filter_lt_length_iff_exists.mpr ⟨k, hk, by simp⟩) hle
    rw [List.take_of_length_le (by omega)] at hout
    exact hout.2 (List.mem_filter.mpr ⟨hin, by simpa using hne⟩)
  have hself : ((held (n + 1) h).filter fun k'' => !(k'' == k)) = held (n + 1) h := by
    rw [List.filter_eq_self]
    intro x hx
    have hxk : x ≠ k := by
      rintro rfl
      exact hk hx
    simpa using hxk
  rw [hself] at hout
  have hdrop : k' ∈ (held (n + 1) h).drop n := by
    rw [← List.take_append_drop n (held (n + 1) h), List.mem_append] at hin
    exact hin.resolve_left hout.2
  have hlen : ((held (n + 1) h).drop n).length ≤ 1 := by
    rw [List.length_drop]
    omega
  obtain ⟨x, hx⟩ := List.length_eq_one_iff.mp
    (Nat.le_antisymm hlen (List.length_pos_of_mem hdrop))
  rw [hx, List.mem_singleton] at hdrop
  subst hdrop
  refine ⟨?_, hk, ?_⟩
  · rw [← List.take_append_drop n (held (n + 1) h), hx]
    simp
  · have hone := congrArg List.length hx
    rw [List.length_drop, List.length_singleton] at hone
    omega

/-- One key alone is never put out. -/
theorem session_replicate {cap : Nat} (hcap : 0 < cap) (k : κ) (a : α) (n : Nat) :
    session cap k (List.replicate n (k, a)) = List.replicate n a := by
  induction n with
  | zero => rfl
  | succ n ih =>
      rw [List.replicate_succ, session, if_pos BEq.rfl, ih]
      cases n with
      | zero => simp
      | succ n =>
          rw [List.map_replicate, List.replicate_succ, if_pos (mem_held_cons hcap _ _)]
          rfl

/-! ## The list -/

/-- The value under a key. -/
def find? (k : κ) (l : List (κ × ν)) : Option ν := (l.find? fun e => e.1 == k).map Prod.snd

/-- `k` moves to the front, as `fresh` if it is new; what no longer fits
falls off the end. -/
def touch (cap : Nat) (fresh : ν) (k : κ) (f : ν → ν) (l : List (κ × ν)) : List (κ × ν) :=
  ((k, f ((find? k l).getD fresh)) :: l.filter fun e => !(e.1 == k)).take cap

/-- The list after a history of uses, each with what it does to the value. -/
def table (cap : Nat) (fresh : ν) : List (κ × (ν → ν)) → List (κ × ν)
  | [] => []
  | (k, f) :: h => touch cap fresh k f (table cap fresh h)

omit [LawfulBEq κ] in
theorem length_table_le (cap : Nat) (fresh : ν) (h : List (κ × (ν → ν))) :
    (table cap fresh h).length ≤ cap := by
  cases h with
  | nil => exact Nat.zero_le cap
  | cons e h => exact List.length_take_le _ _

theorem find?_map {k : κ} {ks : List κ} (g : κ → ν) :
    find? k (ks.map fun k' => (k', g k')) = if k ∈ ks then some (g k) else none := by
  induction ks with
  | nil => rfl
  | cons a ks ih =>
      unfold find? at ih ⊢
      by_cases hak : a = k
      · simp [hak]
      · have hka : ¬ k = a := fun h => hak h.symm
        rw [List.map_cons, List.find?_cons_of_neg (by simpa using hak), ih]
        simp [hka]

/-- A session does not look at what is done. -/
theorem session_map {β : Type*} (cap : Nat) (k : κ) (g : α → β) (h : List (κ × α)) :
    session cap k (h.map fun e => (e.1, g e.2)) = (session cap k h).map g := by
  induction h with
  | nil => rfl
  | cons e h ih =>
      have hkeys : (h.map fun e => (e.1, g e.2)).map Prod.fst = h.map Prod.fst := by
        rw [List.map_map]
        rfl
      rw [List.map_cons, session, session, hkeys, ih]
      split
      · split <;> rfl
      · rfl

theorem length_session_le (cap : Nat) (k : κ) (h : List (κ × α)) :
    (session cap k h).length ≤ h.length := by
  induction h with
  | nil => exact Nat.le_refl 0
  | cons e h ih =>
      rw [session, List.length_cons]
      split
      · split
        · exact Nat.succ_le_succ ih
        · exact Nat.succ_le_succ (Nat.zero_le _)
      · exact Nat.le_succ_of_le ih

/-- The value of a key: the uses of its session, one after another. -/
def valueOf (fresh : ν) (uses : List (ν → ν)) : ν := uses.foldr (fun f v => f v) fresh

/-- **The list is the history.** It holds the keys most recently used, in
that order, each with the value of its session. -/
theorem table_eq {cap : Nat} (hcap : 0 < cap) (fresh : ν) (h : List (κ × (ν → ν))) :
    table cap fresh h =
      (held cap (h.map Prod.fst)).map fun k => (k, valueOf fresh (session cap k h)) := by
  induction h with
  | nil => simp [table, held, recents]
  | cons e h ih =>
      obtain ⟨k, f⟩ := e
      have hhead : f ((find? k (table cap fresh h)).getD fresh) =
          valueOf fresh (session cap k ((k, f) :: h)) := by
        rw [ih, find?_map]
        by_cases hk : k ∈ held cap (h.map Prod.fst) <;> simp [session, hk, valueOf]
      have hrest : (table cap fresh h).filter (fun e => !(e.1 == k)) =
          ((held cap (h.map Prod.fst)).filter fun k' => !(k' == k)).map fun k' =>
            (k', valueOf fresh (session cap k' ((k, f) :: h))) := by
        rw [ih, List.filter_map]
        refine List.map_congr_left fun k' hk' => ?_
        have hne : ¬ k = k' := by
          intro heq
          subst heq
          simpa using (List.mem_filter.mp hk').2
        simp [session, hne]
      rw [table, touch, hhead, hrest, List.map_cons, held_cons hcap, List.map_take, List.map_cons]

/-! ## The ticked map -/

/-- The entry with the smallest tick. -/
def oldest (tick : ν → Nat) (m : AssocMap κ ν) : Option κ :=
  (m.entries.minOn? fun e => tick e.2).map Prod.fst

/-- At capacity the oldest entry goes. -/
def makeRoom (tick : ν → Nat) (cap : Nat) (m : AssocMap κ ν) : AssocMap κ ν :=
  if m.size ≥ cap ∧ m.size ≠ 0
  then match oldest tick m with
    | some old => m.erase old
    | none => m
  else m

/-- Find the key, or make room for it and take it in. -/
def tickTouch (tick : ν → Nat) (cap : Nat) (fresh : ν) (k : κ) (f : ν → ν) (m : AssocMap κ ν) :
    AssocMap κ ν :=
  match m.get? k with
  | some v => m.insert k (f v)
  | none => (makeRoom tick cap m).insert k (f fresh)

/-- The entries in the order of their last use, all before the next
tick. -/
structure Ordered (tick : ν → Nat) (next : Nat) (l : List (κ × ν)) : Prop where
  newest : l.Pairwise fun a b => tick b.2 < tick a.2
  past : ∀ e ∈ l, tick e.2 < next

omit [BEq κ] [LawfulBEq κ] in
theorem ordered_nil (tick : ν → Nat) (next : Nat) : Ordered tick next ([] : List (κ × ν)) :=
  ⟨.nil, fun _ he => by cases he⟩

omit [LawfulBEq κ] in
theorem Ordered.touch {tick : ν → Nat} {next : Nat} {l : List (κ × ν)} (h : Ordered tick next l)
    (cap : Nat) (fresh : ν) (k : κ) {f : ν → ν} (hf : ∀ v, tick (f v) = next) :
    Ordered tick (next + 1) (touch cap fresh k f l) := by
  unfold Lru.touch
  have hrest : ∀ e ∈ l.filter (fun e => !(e.1 == k)), tick e.2 < next :=
    fun e he => h.past e (List.mem_filter.mp he).1
  constructor
  · refine List.Pairwise.sublist (List.take_sublist _ _) ?_
    refine List.pairwise_cons.mpr ⟨?_, h.newest.filter _⟩
    intro e he
    rw [hf]
    exact hrest e he
  · intro e he
    rcases List.mem_cons.mp (List.mem_of_mem_take he) with rfl | he
    · rw [hf]
      exact Nat.lt_succ_self next
    · exact Nat.lt_succ_of_lt (hrest e he)

theorem minOn?_concat {β : Type*} {t : β → Nat} {l : List β} {e : β}
    (h : (l ++ [e]).Pairwise fun a b => t b < t a) : (l ++ [e]).minOn? t = some e := by
  have hmem : e ∈ l ++ [e] := by simp
  obtain ⟨x, hx⟩ := Option.isSome_iff_exists.mp (List.isSome_minOn?_of_mem (f := t) hmem)
  have hle := List.apply_get_minOn?_le_of_mem (f := t) hmem
  simp only [hx, Option.get_some] at hle
  rcases List.mem_append.mp (List.minOn?_mem hx) with hin | hin
  · -- an earlier entry has a larger tick
    have hlt := (List.pairwise_append.mp h).2.2 x hin e (by simp)
    omega
  · rw [hx, List.mem_singleton.mp hin]

omit [LawfulBEq κ] in
/-- The smallest tick is the last in the order. -/
theorem oldest_eq {tick : ν → Nat} {next : Nat} {m : AssocMap κ ν}
    (h : Ordered tick next m.entries) : oldest tick m = (m.entries.map Prod.fst).getLast? := by
  unfold oldest
  rcases List.eq_nil_or_concat m.entries with hnil | ⟨l, e, hl⟩
  · rw [hnil]
    rfl
  · rw [List.concat_eq_append] at hl
    have hnew := h.newest
    rw [hl] at hnew ⊢
    rw [minOn?_concat hnew]
    simp

/-- Erasing the last key drops the last entry. -/
theorem erase_last {m : AssocMap κ ν} {l : List (κ × ν)} {e : κ × ν}
    (hl : m.entries = l ++ [e]) : (m.erase e.1).entries = l := by
  have hd := m.distinct
  rw [hl, List.pairwise_append] at hd
  show m.entries.filter (fun e' => !(e'.1 == e.1)) = l
  rw [hl, List.filter_append]
  have hkeep : l.filter (fun e' => !(e'.1 == e.1)) = l := by
    rw [List.filter_eq_self]
    intro e' he'
    simpa using hd.2.2 e' he' e (by simp)
  rw [hkeep]
  simp

/-- Room for one more. -/
theorem entries_makeRoom {tick : ν → Nat} {n next : Nat} {m : AssocMap κ ν}
    (hsize : m.size ≤ n + 1) (h : Ordered tick next m.entries) :
    (makeRoom tick (n + 1) m).entries = m.entries.take n := by
  have hlen : m.size = m.entries.length := rfl
  unfold makeRoom
  rw [oldest_eq h]
  rcases List.eq_nil_or_concat m.entries with hnil | ⟨l, e, hl⟩
  · rw [hnil] at hlen ⊢
    rw [if_neg (by simp [hlen]), hnil, List.take_nil]
  · rw [List.concat_eq_append] at hl
    rw [hl, List.length_append, List.length_singleton] at hlen
    rw [hl]
    simp only [List.map_append, List.map_cons, List.map_nil, List.getLast?_concat]
    by_cases hfull : m.size ≥ n + 1
    · rw [if_pos ⟨hfull, by omega⟩, erase_last hl,
        List.take_append_of_le_length (by omega), List.take_of_length_le (by omega)]
    · rw [if_neg (fun hc => hfull hc.1), hl, List.take_of_length_le (by simp; omega)]

/-- **The ticked map is the list.** -/
theorem entries_tickTouch {tick : ν → Nat} {cap next : Nat} (hcap : 0 < cap) {m : AssocMap κ ν}
    (hsize : m.size ≤ cap) (h : Ordered tick next m.entries) (fresh : ν) (k : κ) (f : ν → ν) :
    (tickTouch tick cap fresh k f m).entries = touch cap fresh k f m.entries := by
  obtain ⟨n, rfl⟩ : ∃ n, cap = n + 1 := ⟨cap - 1, by omega⟩
  have hfind : find? k m.entries = m.get? k := rfl
  unfold tickTouch touch
  rw [hfind, List.take_succ_cons]
  cases hk : m.get? k with
  | some v =>
      have herase := AssocMap.size_erase (m := m) (k := k) (by rw [hk]; rfl)
      have hlen : (m.erase k).entries.length ≤ n := by
        have hrfl : (m.erase k).size = (m.erase k).entries.length := rfl
        omega
      show (k, f v) :: (m.erase k).entries = (k, f v) :: (m.erase k).entries.take n
      rw [List.take_of_length_le hlen]
  | none =>
      have hself : m.entries.filter (fun e => !(e.1 == k)) = m.entries :=
        congrArg AssocMap.entries (AssocMap.erase_of_get?_none hk)
      have hkept : (m.entries.take n).filter (fun e => !(e.1 == k)) = m.entries.take n := by
        rw [List.filter_eq_self] at hself ⊢
        exact fun e he => hself e (List.mem_of_mem_take he)
      show (k, f fresh) :: (makeRoom tick (n + 1) m).entries.filter (fun e => !(e.1 == k)) = _
      rw [entries_makeRoom hsize h, hkept, hself]
      rfl

end Lib.Lru
