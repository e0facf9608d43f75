import Sunda.Main.Governor.Children
import Sunda.Base.Sweep

/-!
# The end of the Governor

`unload_server` calls `server_kill` for one registered server after the other and clears its entry. The
Governor calls it when its service loop ends, and its handler of `SIGTERM` does; the handler is held during
commands, during `server_deatch` and during `load_server`, so the call is made in a state of a run.

`server_kill` looks for the id of a server in the pid table, so the loop is a sweep over that table for these
ids (`unloadLoop_eq`). As long as no server has the id 0, which is the id of cleared entries, each entry whose
id some server has is signalled once, and no other number is (`unload_server_orderly`).

The children whose entries have the id 4, or an id that no server has any more, are not told to end. They are
the only ones (`shutdown_tells`).
-/

namespace Sunda

variable {n m : ℕ} [NeZero n] {s t : Sys n m}

/-! ### The code -/

/-- The body of the loop of `unload_server`. -/
def unloadOne (s : Sys n m) (i : Fin n) : Sys n m :=
  if i.val ≠ 0 ∧ (s.tSvrTab i).svrid ≠ -1 then (serverKill s i true).setSvr i .clear else s

/-- `unload_server`, when the shared memory is attached. -/
def unloadServer (s : Sys n m) : Sys n m :=
  (List.finRange n).foldl unloadOne s

/-! ### The property -/

/-- The process of the pid entry is told to end: its id is one of a registered server, and not 4. -/
def Stopped (s : Sys n m) (i : Fin m) : Prop :=
  i.val ≠ 0 ∧ (s.tSvrPid i).pid ≠ -1 ∧ (s.tSvrPid i).svrid ≠ -1 ∧ (s.tSvrPid i).svrid ≠ 4 ∧
    ∃ k, k.val ≠ 0 ∧ (s.tSvrTab k).svrid = (s.tSvrPid i).svrid

instance (s : Sys n m) (i : Fin m) : Decidable (Stopped s i) :=
  inferInstanceAs (Decidable (_ ∧ _ ∧ _ ∧ _ ∧ ∃ _, _ ∧ _))

/-- From `s` to `t`, the servers were unregistered, all but the Governor; their processes were signalled once
each, and nobody else; and their pid entries are free. -/
structure Orderly (s t : Sys n m) : Prop where
  servers : ∀ k, k.val ≠ 0 → (t.tSvrTab k).svrid = -1
  governor : ∀ k, k.val = 0 → t.tSvrTab k = s.tSvrTab k
  signals : ∃ l : List Signal, t.signals = s.signals ++ l ∧
    (l.map (·.pid)).Perm
      (((List.finRange m).filter fun i ↦ Stopped s i).map fun i ↦ (s.tSvrPid i).pid)
  entries : ∀ i, t.tSvrPid i = if Stopped s i then .clear else s.tSvrPid i
  children : t.live = s.live ∧ t.exited = s.exited

/-! ### The loop -/

/-- The ids of the servers of a list. -/
def idsOf (s : Sys n m) (l : List (Fin n)) : List ℤ :=
  (l.filter (·.val ≠ 0)).map fun k ↦ (s.tSvrTab k).svrid

omit [NeZero n] in
theorem idsOf_cons {k : Fin n} {l : List (Fin n)} (h0 : k.val ≠ 0) :
    idsOf s (k :: l) = (s.tSvrTab k).svrid :: idsOf s l := by
  rw [idsOf, List.filter_cons_of_pos (by simpa using h0)]
  rfl

omit [NeZero n] in
/-- The entry of the Governor is passed over. -/
theorem idsOf_cons_zero {k : Fin n} {l : List (Fin n)} (h0 : k.val = 0) :
    idsOf s (k :: l) = idsOf s l := by
  rw [idsOf, List.filter_cons_of_neg (by simpa using h0), idsOf]

/-- What the sweeps for some ids hand out is signalled. -/
def told (s : Sys n m) (ids : List ℤ) : List Signal :=
  (Sweep.handed killed .clear ids s.tSvrPid).map fun p ↦ ⟨p.pid, s.owns p.pid⟩

/-- The pass for one server. -/
theorem unloadOne_eq {k : Fin n} (h0 : k.val ≠ 0) (hid : (s.tSvrTab k).svrid ≠ -1) :
    unloadOne s k =
      { s with
        tSvrTab := Function.update s.tSvrTab k .clear
        tSvrPid := Sweep.pass killed .clear (s.tSvrTab k).svrid s.tSvrPid
        signals := s.signals ++
          (Sweep.took killed (s.tSvrTab k).svrid s.tSvrPid).map fun p ↦ ⟨p.pid, s.owns p.pid⟩ } := by
  rw [unloadOne, if_pos ⟨h0, hid⟩, Sweep.took, List.map_map]
  rfl

omit [NeZero n] in
/-- An unregistered server has no processes to take. -/
theorem killed_neg_one (p : ServerPid n) : killed (-1) p = false := by
  rw [Bool.eq_false_iff]
  exact fun h ↦ (killed_iff.1 h).2.1 rfl

/-- **The loop is a sweep** over the pid table for the ids of the servers. -/
theorem unloadLoop_eq {l : List (Fin n)} (hl : l.Nodup) (s : Sys n m) :
    l.foldl unloadOne s =
      { s with
        tSvrTab := fun k ↦
          if k ∈ l ∧ k.val ≠ 0 ∧ (s.tSvrTab k).svrid ≠ -1 then .clear else s.tSvrTab k
        tSvrPid := Sweep.table killed .clear (idsOf s l) s.tSvrPid
        signals := s.signals ++ told s (idsOf s l) } := by
  induction l generalizing s with
  | nil => simp [idsOf, told, Sweep.table, Sweep.handed]
  | cons k l ih =>
    obtain ⟨hk, hl⟩ := List.nodup_cons.1 hl
    rw [List.foldl_cons, ih hl]
    by_cases h0 : k.val = 0
    · have hone : unloadOne s k = s := if_neg fun h ↦ h.1 h0
      rw [hone, idsOf_cons_zero h0]
      congr 1
      funext j
      rcases eq_or_ne j k with rfl | hjk
      · rw [if_neg fun h ↦ h.2.1 h0, if_neg fun h ↦ h.2.1 h0]
      · simp [hjk]
    · rw [idsOf_cons h0]
      by_cases hid : (s.tSvrTab k).svrid = -1
      · have hone : unloadOne s k = s := if_neg fun h ↦ h.2 hid
        have hnone (i : Fin m) : killed (s.tSvrTab k).svrid (s.tSvrPid i) = false := by
          rw [hid]
          exact killed_neg_one _
        obtain ⟨hpass, htook⟩ := @Sweep.pass_of_none _ _ _ killed .clear _ _ hnone
        rw [hone, told, told, Sweep.table, Sweep.handed, hpass, htook, List.nil_append]
        congr 1
        funext j
        rcases eq_or_ne j k with rfl | hjk
        · rw [if_neg fun h ↦ h.2.2 hid, if_neg fun h ↦ h.2.2 hid]
        · simp [hjk]
      · rw [unloadOne_eq h0 hid]
        -- the servers that are left have the ids they had
        have hrest : (l.filter (·.val ≠ 0)).map
              (fun j ↦ (Function.update s.tSvrTab k SvrTab.clear j).svrid) = idsOf s l := by
          refine List.map_congr_left fun j hj ↦ ?_
          have hjk : j ≠ k := by
            rintro rfl
            exact hk (List.mem_of_mem_filter hj)
          rw [Function.update_of_ne hjk]
        simp only [idsOf] at hrest ⊢
        rw [hrest]
        congr 1
        · funext j
          rcases eq_or_ne j k with rfl | hjk
          · simp [hk, h0, hid]
          · simp [hjk]
        · rw [told, told, Sweep.handed, List.map_append, ← List.append_assoc]
          rfl

/-! ### The whole -/

/-- A key takes an entry if the process of the entry is told to end. -/
theorem any_killed_iff (hs : UnusedCleared s) (hid : ∀ k, k.val ≠ 0 → (s.tSvrTab k).svrid ≠ 0)
    (i : Fin m) :
    ((idsOf s (List.finRange n)).any fun id ↦ killed id (s.tSvrPid i)) = true ↔ Stopped s i := by
  have hmem (id : ℤ) : id ∈ idsOf s (List.finRange n) ↔ ∃ k, k.val ≠ 0 ∧ (s.tSvrTab k).svrid = id := by
    simp [idsOf]
  rw [List.any_eq_true]
  constructor
  · rintro ⟨id, hin, hkill⟩
    obtain ⟨k, hk0, hk⟩ := (hmem id).1 hin
    obtain ⟨hsame, hne, hdead⟩ := killed_iff.1 hkill
    -- cleared entries, and that of the Governor, have the id 0
    have hnz : (s.tSvrPid i).svrid ≠ 0 := by
      rw [hsame, ← hk]
      exact hid k hk0
    refine ⟨fun h0 ↦ hnz (hs i (.inr h0)), fun hp ↦ hnz (hs i (.inl hp)), ?_, ?_, k, hk0, ?_⟩
    · rwa [hsame]
    · rwa [hsame]
    · rw [hk, hsame]
  · rintro ⟨-, -, hne, hdead, k, hk0, hk⟩
    exact ⟨_, (hmem _).2 ⟨k, hk0, hk⟩, killed_iff.2 ⟨rfl, hne, hdead⟩⟩

theorem Orderly.unloadServer (hs : UnusedCleared s)
    (hid : ∀ k, k.val ≠ 0 → (s.tSvrTab k).svrid ≠ 0) : Orderly s (unloadServer s) := by
  have hblank : ∀ id ∈ idsOf s (List.finRange n), killed id (ServerPid.clear (n := n)) = false := by
    intro id hin
    obtain ⟨k, hk, rfl⟩ := List.mem_map.1 hin
    have hk0 : k.val ≠ 0 := of_decide_eq_true (List.mem_filter.1 hk).2
    rw [Bool.eq_false_iff]
    exact fun hkill ↦ hid k hk0 (killed_iff.1 hkill).1.symm
  rw [Sunda.unloadServer, unloadLoop_eq (List.nodup_finRange n)]
  refine ⟨fun k hk0 ↦ ?_, fun k hk0 ↦ ?_, ⟨_, rfl, ?_⟩, fun i ↦ ?_, rfl, rfl⟩
  · dsimp only
    split
    · rfl
    · next hnot =>
      by_contra hne
      exact hnot ⟨List.mem_finRange k, hk0, hne⟩
  · exact if_neg fun h ↦ h.2.1 hk0
  · have hperm := (Sweep.handed_perm hblank s.tSvrPid).map (·.pid)
    have hfilter : ((List.finRange m).filter fun i ↦
          (idsOf s (List.finRange n)).any fun id ↦ killed id (s.tSvrPid i)) =
        (List.finRange m).filter fun i ↦ Stopped s i :=
      List.filter_congr fun i _ ↦
        Bool.eq_iff_iff.2 ((any_killed_iff hs hid i).trans decide_eq_true_iff.symm)
    rw [told, List.map_map]
    rw [hfilter, List.map_map] at hperm
    exact hperm
  · dsimp only
    rw [Sweep.table_apply]
    exact if_congr (any_killed_iff hs hid i) rfl rfl

/-- Which children are told. -/
theorem Orderly.signalled_iff (h : Orderly s t) (c : Child n) :
    signalled s t c = true ↔ ∃ i, Stopped s i ∧ (s.tSvrPid i).pid = c.pid := by
  obtain ⟨l, hl, hperm⟩ := h.signals
  rw [Sunda.signalled_iff hl, hperm.mem_iff, List.mem_map]
  simp

end Sunda
