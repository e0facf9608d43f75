import Mathlib.Data.List.Nodup
import Mathlib.Data.List.TakeWhile
import Mathlib.Data.Set.Insert
import Mathlib.Logic.Function.Basic

/-!
# Keyed tables split into shards

A table whose entries have a key is split into shards, each of them a list: the entry of key `k`
belongs to shard `shard k`. `Holds T S` says that the shards `T` hold one entry for each key of the
set `S`, in its own shard, and nothing else.

The operations of such a table are operations on one list, or on every list at once: appending an
entry under a new key, deleting a key, replacing an entry under its key, and dropping a front of
every shard. Each lemma says which set of keys is held afterwards.
-/

namespace Sharded

variable {ι κ α : Type*} {shard : κ → ι} {key : α → κ} {T : ι → List α} {S : Set κ}

/-- The shards `T` hold one entry for each key of `S`, in its own shard. -/
structure Holds (shard : κ → ι) (key : α → κ) (T : ι → List α) (S : Set κ) : Prop where
  home : ∀ i, ∀ a ∈ T i, shard (key a) = i
  nodup : ∀ i, ((T i).map key).Nodup
  mem_iff : ∀ k, k ∈ S ↔ ∃ a ∈ T (shard k), key a = k

namespace Holds

theorem empty : Holds shard key (fun _ ↦ []) ∅ where
  home i a ha := absurd ha (by simp)
  nodup i := List.nodup_nil
  mem_iff k := by simp

/-- An entry is held under its key. -/
theorem mem (h : Holds shard key T S) {i : ι} {a : α} (ha : a ∈ T i) : key a ∈ S :=
  (h.mem_iff _).2 ⟨a, h.home i a ha ▸ ha, rfl⟩

/-- Entries with the same key are the same entry. -/
theorem eq_of_key_eq (h : Holds shard key T S) {i j : ι} {a b : α} (ha : a ∈ T i) (hb : b ∈ T j)
    (hk : key a = key b) : i = j ∧ a = b := by
  have hij : i = j := by rw [← h.home i a ha, ← h.home j b hb, hk]
  subst hij
  exact ⟨rfl, List.inj_on_of_nodup_map (h.nodup i) ha hb hk⟩

/-- **A key of the set is in exactly one place.** -/
theorem existsUnique_index (h : Holds shard key T S) {k : κ} (hk : k ∈ S) :
    ∃! p : ι × ℕ, ((T p.1)[p.2]?).map key = some k := by
  obtain ⟨a, ha, hak⟩ := (h.mem_iff k).1 hk
  obtain ⟨j, hj, hget⟩ := List.mem_iff_getElem.1 ha
  refine ⟨(shard k, j), by simp [hj, hget, hak], ?_⟩
  rintro ⟨i, j'⟩ hp
  obtain ⟨b, hb, hbk⟩ := Option.map_eq_some_iff.1 hp
  have hbmem : b ∈ T i := List.mem_of_getElem? hb
  obtain ⟨rfl, rfl⟩ := h.eq_of_key_eq hbmem ha (hbk.trans hak.symm)
  have hnd : (T (shard k)).Nodup := (h.nodup _).of_map
  have hjj : j' = j := by
    obtain ⟨hlt, hb'⟩ := List.getElem?_eq_some_iff.1 hb
    exact (hnd.getElem_inj_iff).1 (hb'.trans hget.symm)
  rw [hjj]

variable [DecidableEq ι]

/-- A shard is replaced by a list with the same keys. -/
theorem congr_keys (h : Holds shard key T S) {i : ι} {l : List α}
    (hkeys : l.map key = (T i).map key) : Holds shard key (Function.update T i l) S where
  home j a ha := by
    by_cases hji : j = i
    · subst hji
      rw [Function.update_self] at ha
      have hka : key a ∈ (T j).map key := hkeys ▸ List.mem_map_of_mem ha
      obtain ⟨b, hb, hbk⟩ := List.mem_map.1 hka
      rw [← hbk, h.home j b hb]
    · rw [Function.update_of_ne hji] at ha
      exact h.home j a ha
  nodup j := by
    by_cases hji : j = i
    · subst hji
      rw [Function.update_self, hkeys]
      exact h.nodup j
    · rw [Function.update_of_ne hji]
      exact h.nodup j
  mem_iff k := by
    rw [h.mem_iff]
    by_cases hki : shard k = i
    · subst hki
      rw [Function.update_self, ← List.mem_map, ← List.mem_map, hkeys]
    · rw [Function.update_of_ne hki]

/-- A new entry behind the others of its shard. -/
theorem append (h : Holds shard key T S) {a : α} (ha : key a ∉ S) :
    Holds shard key (Function.update T (shard (key a)) (T (shard (key a)) ++ [a]))
      (insert (key a) S) where
  home j b hb := by
    by_cases hj : j = shard (key a)
    · subst hj
      rw [Function.update_self, List.mem_append, List.mem_singleton] at hb
      rcases hb with hb | rfl
      · exact h.home _ b hb
      · rfl
    · rw [Function.update_of_ne hj] at hb
      exact h.home j b hb
  nodup j := by
    by_cases hj : j = shard (key a)
    · subst hj
      rw [Function.update_self, List.map_append, List.nodup_append]
      refine ⟨h.nodup _, List.nodup_singleton _, fun k hk k' hk' ↦ ?_⟩
      obtain ⟨b, hb, rfl⟩ := List.mem_map.1 hk
      rw [List.map_singleton, List.mem_singleton] at hk'
      rintro rfl
      exact ha (hk' ▸ h.mem hb)
    · rw [Function.update_of_ne hj]
      exact h.nodup j
  mem_iff k := by
    rw [Set.mem_insert_iff, h.mem_iff]
    by_cases hk : shard k = shard (key a)
    · rw [hk, Function.update_self]
      simp only [List.mem_append, List.mem_singleton, or_and_right, exists_or, exists_eq_left]
      rw [or_comm, eq_comm (a := k)]
    · rw [Function.update_of_ne hk, or_iff_right]
      rintro rfl
      exact hk rfl

/-- The entry of one key is deleted; the others of its shard keep their order. -/
theorem delete [DecidableEq κ] (h : Holds shard key T S) (k : κ) :
    Holds shard key (Function.update T (shard k) ((T (shard k)).filter (key · ≠ k)))
      (S \ {k}) where
  home j b hb := by
    by_cases hj : j = shard k
    · subst hj
      rw [Function.update_self] at hb
      exact h.home _ b (List.mem_of_mem_filter hb)
    · rw [Function.update_of_ne hj] at hb
      exact h.home j b hb
  nodup j := by
    by_cases hj : j = shard k
    · subst hj
      rw [Function.update_self]
      exact (h.nodup _).sublist (List.filter_sublist.map key)
    · rw [Function.update_of_ne hj]
      exact h.nodup j
  mem_iff k' := by
    rw [Set.mem_sdiff, Set.mem_singleton_iff, h.mem_iff]
    by_cases hk : shard k' = shard k
    · rw [hk, Function.update_self]
      simp only [List.mem_filter, decide_eq_true_eq]
      constructor
      · rintro ⟨⟨b, hb, rfl⟩, hne⟩
        exact ⟨b, ⟨hb, hne⟩, rfl⟩
      · rintro ⟨b, ⟨hb, hne⟩, rfl⟩
        exact ⟨⟨b, hb, rfl⟩, hne⟩
    · rw [Function.update_of_ne hk, and_iff_left]
      rintro rfl
      exact hk rfl

omit [DecidableEq ι] in
/-- A front of every shard is dropped. -/
theorem dropWhile (h : Holds shard key T S) (p : α → Bool) :
    Holds shard key (fun i ↦ (T i).dropWhile p)
      (S \ {k | ∃ i, k ∈ ((T i).takeWhile p).map key}) where
  home i a ha := h.home i a ((List.dropWhile_suffix p).subset ha)
  nodup i := (h.nodup i).sublist ((List.dropWhile_suffix p).sublist.map key)
  mem_iff k := by
    rw [Set.mem_sdiff, h.mem_iff]
    constructor
    · rintro ⟨⟨a, ha, rfl⟩, hnot⟩
      rw [← List.takeWhile_append_dropWhile (p := p) (l := T (shard (key a))),
        List.mem_append] at ha
      rcases ha with ha | ha
      · exact absurd ⟨_, List.mem_map_of_mem ha⟩ hnot
      · exact ⟨a, ha, rfl⟩
    · rintro ⟨a, ha, rfl⟩
      have hmem : a ∈ T (shard (key a)) := (List.dropWhile_suffix p).subset ha
      refine ⟨⟨a, hmem, rfl⟩, ?_⟩
      rintro ⟨i, hi⟩
      obtain ⟨b, hb, hbk⟩ := List.mem_map.1 hi
      obtain ⟨rfl, rfl⟩ := h.eq_of_key_eq ((List.takeWhile_prefix p).subset hb) hmem hbk
      have hnd := (h.nodup (shard (key b))).of_map
      rw [← List.takeWhile_append_dropWhile (p := p) (l := T (shard (key b))),
        List.nodup_append] at hnd
      exact hnd.2.2 b hb b ha rfl

end Holds

/-- With distinct keys, erasing the place where a key is found is filtering the key out. -/
theorem eraseIdx_eq_filter [DecidableEq κ] {l : List α} {k : κ} {j : ℕ}
    (hnd : (l.map key).Nodup) (hj : l.findIdx? (key · == k) = some j) :
    l.eraseIdx j = l.filter (key · ≠ k) := by
  induction l generalizing j with
  | nil => simp at hj
  | cons a l ih =>
    rw [List.map_cons, List.nodup_cons] at hnd
    rw [List.findIdx?_cons] at hj
    by_cases hak : key a = k
    · rw [beq_iff_eq.2 hak, if_pos rfl] at hj
      obtain rfl := Option.some.inj hj
      rw [List.eraseIdx_cons_zero, List.filter_cons_of_neg (by simpa using hak)]
      refine (List.filter_eq_self.2 fun b hb ↦ ?_).symm
      have hne : key b ≠ k := fun hbk ↦
        hnd.1 (List.mem_map.2 ⟨b, hb, hbk.trans hak.symm⟩)
      simpa using hne
    · rw [beq_false_of_ne hak] at hj
      obtain ⟨j', hj', rfl⟩ := Option.map_eq_some_iff.1 hj
      rw [List.eraseIdx_cons_succ, List.filter_cons_of_pos (by simpa using hak), ih hnd.2 hj']

/-! ### Fronts -/

/-- A property that an entry passes on to those in front of it holds for a front. -/
theorem filter_eq_takeWhile {p : α → Bool} {l : List α} (h : l.Pairwise fun a b ↦ p b → p a) :
    l.filter p = l.takeWhile p := by
  induction h with
  | nil => rfl
  | @cons a l hall _ ih =>
    by_cases ha : p a
    · rw [List.filter_cons_of_pos ha, List.takeWhile_cons_of_pos ha, ih]
    · rw [List.filter_cons_of_neg ha, List.takeWhile_cons_of_neg ha]
      exact List.filter_eq_nil_iff.2 fun b hb hpb ↦ ha (hall b hb hpb)

/-- What is behind the front is what does not have the property. -/
theorem filter_not_eq_dropWhile {p : α → Bool} {l : List α}
    (h : l.Pairwise fun a b ↦ p b → p a) : l.filter (!p ·) = l.dropWhile p := by
  induction h with
  | nil => rfl
  | @cons a l hall _ ih =>
    by_cases ha : p a
    · rw [List.filter_cons_of_neg (by simpa using ha), List.dropWhile_cons_of_pos ha, ih]
    · rw [List.dropWhile_cons_of_neg ha]
      refine List.filter_eq_self.2 fun b hb ↦ ?_
      rcases List.mem_cons.1 hb with rfl | hb
      · simpa using ha
      · simpa using fun hpb ↦ ha (hall b hb hpb)

end Sharded
