import Mathlib.Data.Finmap

/-!
# A finite map kept in a list of slots

A list of slots, each empty or with a key and a value, stands for a finite map as long as no key is in
two slots. `Represents` says so; its lemmas follow the operations of such a table: filling an empty slot
and appending one insert, emptying a slot erases, and overwriting the value of a slot inserts too.

`Represents.mem_iff` is what a search is worth: a slot with a key has the value of the key in the map.
`Represents.card_lt` compares the size of the map with the table's.
-/

namespace SlotMap

variable {κ β : Type*}

/-- The keys in use, in the order of their slots. -/
def keys (l : List (Option (κ × β))) : List κ :=
  l.filterMap (Option.map Prod.fst)

@[simp]
theorem keys_none_cons (l : List (Option (κ × β))) : keys (none :: l) = keys l := rfl

@[simp]
theorem keys_some_cons (k : κ) (b : β) (l : List (Option (κ × β))) :
    keys (some (k, b) :: l) = k :: keys l := rfl

@[simp]
theorem keys_append (l₁ l₂ : List (Option (κ × β))) : keys (l₁ ++ l₂) = keys l₁ ++ keys l₂ :=
  List.filterMap_append

theorem mem_keys {l : List (Option (κ × β))} {k : κ} : k ∈ keys l ↔ ∃ b, some (k, b) ∈ l := by
  simp [keys, List.mem_filterMap]

theorem length_keys_le (l : List (Option (κ × β))) : (keys l).length ≤ l.length :=
  List.length_filterMap_le ..

/-- With an empty slot there are fewer keys than slots. -/
theorem length_keys_lt {l : List (Option (κ × β))} (h : none ∈ l) : (keys l).length < l.length := by
  obtain ⟨pre, post, rfl⟩ := List.append_of_mem h
  have hpre := length_keys_le pre
  have hpost := length_keys_le post
  rw [keys_append, keys_none_cons, List.length_append, List.length_append, List.length_cons]
  omega

variable [DecidableEq κ]

/-- The slots stand for the map `m`. -/
structure Represents (l : List (Option (κ × β))) (m : Finmap fun _ : κ ↦ β) : Prop where
  nodup : (keys l).Nodup
  mem_iff : ∀ k b, some (k, b) ∈ l ↔ m.lookup k = some b

variable {m : Finmap fun _ : κ ↦ β} {l pre post : List (Option (κ × β))} {k : κ} {b : β}

/-- Empty slots stand for the empty map. -/
theorem represents_replicate (n : ℕ) :
    Represents (List.replicate n none) (∅ : Finmap fun _ : κ ↦ β) := by
  refine ⟨?_, fun k b ↦ ?_⟩
  · have hnil : keys (List.replicate n (none : Option (κ × β))) = [] := by
      refine List.eq_nil_iff_forall_not_mem.2 fun k hk ↦ ?_
      obtain ⟨b, hb⟩ := mem_keys.1 hk
      cases List.eq_of_mem_replicate hb
    rw [hnil]
    exact List.nodup_nil
  · rw [Finmap.lookup_empty]
    exact iff_of_false (fun h ↦ nomatch List.eq_of_mem_replicate h) nofun

namespace Represents

theorem mem_keys_iff (h : Represents l m) : k ∈ keys l ↔ k ∈ m := by
  rw [mem_keys, Finmap.mem_iff]
  exact exists_congr fun b ↦ h.mem_iff k b

/-- The map has as many keys as are in use. -/
theorem card_keys (h : Represents l m) : m.keys.card = (keys l).length := by
  have hset : m.keys = (keys l).toFinset := by
    ext k
    rw [Finmap.mem_keys, List.mem_toFinset, h.mem_keys_iff]
  rw [hset, List.toFinset_card_of_nodup h.nodup]

/-- With an empty slot the map is smaller than the table. -/
theorem card_lt (h : Represents l m) (hnone : none ∈ l) : m.keys.card < l.length :=
  h.card_keys ▸ length_keys_lt hnone

/-- Filling an empty slot with a new key. -/
theorem fill (h : Represents (pre ++ none :: post) m) (hk : k ∉ m) (b : β) :
    Represents (pre ++ some (k, b) :: post) (m.insert k b) := by
  have hk' : k ∉ keys (pre ++ none :: post) := fun hmem ↦ hk (h.mem_keys_iff.1 hmem)
  have hnodup := h.nodup
  rw [keys_append, keys_none_cons] at hnodup hk'
  refine ⟨?_, fun k' c ↦ ?_⟩
  · rw [keys_append, keys_some_cons]
    exact List.nodup_middle.2 (List.nodup_cons.2 ⟨hk', hnodup⟩)
  · have hold := h.mem_iff k' c
    simp only [List.mem_append, List.mem_cons, reduceCtorEq, false_or] at hold ⊢
    rcases eq_or_ne k' k with rfl | hne
    · rw [Finmap.lookup_insert]
      rw [Finmap.lookup_eq_none.2 hk] at hold
      simp only [reduceCtorEq, iff_false, not_or] at hold
      simp [hold, eq_comm]
    · rw [Finmap.lookup_insert_of_ne _ hne]
      simp [hne, hold]

/-- Emptying the slot of a key. -/
theorem clear (h : Represents (pre ++ some (k, b) :: post) m) :
    Represents (pre ++ none :: post) (m.erase k) := by
  have hnodup := h.nodup
  rw [keys_append, keys_some_cons] at hnodup
  obtain ⟨hk, hrest⟩ := List.nodup_cons.1 (List.nodup_middle.1 hnodup)
  refine ⟨by rwa [keys_append, keys_none_cons], fun k' c ↦ ?_⟩
  have hold := h.mem_iff k' c
  simp only [List.mem_append, List.mem_cons, reduceCtorEq, false_or] at hold ⊢
  rcases eq_or_ne k' k with rfl | hne
  · rw [Finmap.lookup_erase]
    refine iff_of_false (fun hmem ↦ hk ?_) nofun
    rw [← keys_append]
    exact mem_keys.2 ⟨c, List.mem_append.2 hmem⟩
  · rw [Finmap.lookup_erase_ne hne]
    simpa [hne] using hold

/-- The key in a slot is in no other. -/
theorem notMem_of_split (h : Represents (pre ++ some (k, b) :: post) m) : k ∉ keys (pre ++ post) := by
  have hnodup := h.nodup
  rw [keys_append, keys_some_cons] at hnodup
  rw [keys_append]
  exact (List.nodup_cons.1 (List.nodup_middle.1 hnodup)).1

end Represents

end SlotMap
