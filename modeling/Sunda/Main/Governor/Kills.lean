import Sunda.Main.Governor.Processes

/-!
# Whom `server_kill` signals

`server_kill` should signal and clear the pid entries of its server that have a process
(`OwnEntry`, `KillsOwn`). It looks at neither the server index nor the number of an entry: it takes the
entries with the id of the server, unless the id is -1 or equals `TUX_DEAD`.

Entries without a process have the id 0 in every reachable state, and so has the entry of the Governor
(`unusedCleared_of_reach`). So for a server with the id 0 the signals go to the Governor and to the
number -1, which is every process of the user. `server_kill_own_iff` says for which servers it is right.
-/

namespace Sunda

variable {n m : ℕ} {s t : Sys n m} {k : Fin n}

/-! ### The property -/

/-- The pid entry has a process of server `k`. -/
def OwnEntry (s : Sys n m) (k : Fin n) (i : Fin m) : Prop :=
  i.val ≠ 0 ∧ (s.tSvrPid i).svrpos = k ∧ (s.tSvrPid i).pid ≠ -1

instance (s : Sys n m) (k : Fin n) (i : Fin m) : Decidable (OwnEntry s k i) :=
  inferInstanceAs (Decidable (_ ∧ _ ∧ _))

/-- From `s` to `t`, one signal was sent for each entry of the server and no other signal, and these
entries were cleared. -/
structure KillsOwn [NeZero n] (s t : Sys n m) (k : Fin n) : Prop where
  signalled : t.signals.map (·.pid) = s.signals.map (·.pid) ++
    ((List.finRange m).filter fun i ↦ OwnEntry s k i).map fun i ↦ (s.tSvrPid i).pid
  cleared : ∀ i, t.tSvrPid i = if OwnEntry s k i then .clear else s.tSvrPid i

/-- The condition: the id of the server is not 0, and the processes with this id are those of the
server; for the id 4 there are none. -/
structure TellsApart (s : Sys n m) (k : Fin n) : Prop where
  nonzero : 0 < m → (s.tSvrTab k).svrid ≠ 0
  processes : ∀ i, i.val ≠ 0 → (s.tSvrPid i).pid ≠ -1 →
    ((s.tSvrPid i).svrpos = k ↔
      (s.tSvrPid i).svrid = (s.tSvrTab k).svrid ∧ (s.tSvrTab k).svrid ≠ 4)

/-! ### Entries without a process -/

/-- Entries without a process have the id 0, and so has that of the Governor. -/
def UnusedCleared (s : Sys n m) : Prop :=
  ∀ i, (s.tSvrPid i).pid = -1 ∨ i.val = 0 → (s.tSvrPid i).svrid = 0

/-- An entry that is written is cleared, or gets a process. -/
theorem UnusedCleared.of_cases [NeZero n] (hs : UnusedCleared s)
    (h : ∀ i, t.tSvrPid i = s.tSvrPid i ∨ t.tSvrPid i = .clear ∨
      i.val ≠ 0 ∧ 0 < (t.tSvrPid i).pid) : UnusedCleared t := by
  intro i hi
  rcases h i with heq | heq | ⟨h0, hpos⟩
  · rw [heq] at hi ⊢
    exact hs i hi
  · rw [heq]
    rfl
  · rcases hi with hpid | hi
    · omega
    · exact absurd hi h0

theorem Works.unusedCleared [NeZero n] {c : ℕ} (h : Works k s c t) (hs : UnusedCleared s) :
    UnusedCleared t := by
  refine hs.of_cases fun i ↦ ?_
  rcases h.tSvrPid_cases i with heq | ⟨-, h0, heq | ⟨-, hpos, -⟩⟩
  · exact .inl heq
  · exact .inr (.inl heq)
  · exact .inr (.inr ⟨h0, hpos⟩)

theorem UnusedCleared.stopped [NeZero n] (hs : UnusedCleared s) (k : Fin n) :
    UnusedCleared (stopServer s k) := by
  refine hs.of_cases fun i ↦ ?_
  rw [stopServer_tSvrPid]
  split
  · exact .inr (.inl rfl)
  · exact .inl rfl

/-- The handler keeps ids, and takes no process away. -/
theorem HandledPids.unusedCleared {now : ℤ} {i : Fin m} (h : HandledPids s now i k t)
    (hs : UnusedCleared s) : UnusedCleared t := by
  intro l hl
  rcases eq_or_ne l i with rfl | hli
  · rw [h.svrid]
    refine hs l (hl.imp_left fun hpid ↦ ?_)
    obtain ⟨-, -, hpos, -⟩ | ⟨-, hsame, -⟩ := h.process
    · omega
    · rwa [hsame] at hpid
  · obtain ⟨hpid, -, hid⟩ := h.keep hli
    rw [hid]
    rw [hpid] at hl
    exact hs l hl

theorem UnusedCleared.step [NeZero n] {a : Event} (hs : UnusedCleared s)
    (h : govStep s a = some t) : UnusedCleared t := by
  cases a with
  | exit pid =>
    rw [govStep] at h
    split at h
    · obtain rfl := Option.some.inj h
      exact hs
    · cases h
  | collect env x =>
    obtain ⟨-, ⟨-, rfl⟩ | ⟨i, -, hexit⟩⟩ := deatchOne_cases h
    · exact hs
    · exact (oneServerExit_handled hexit rfl).toHandledPids.unusedCleared
        (s := s.collected env x.pid) hs
  | cmd env cmd id =>
    obtain ⟨⟨rc, t'⟩, hgov, rfl⟩ := Option.map_eq_some_iff.1 h
    have hs' : UnusedCleared { s with forks := env.forks } := hs
    rcases governor_cases hgov with
      ⟨j, -, ⟨-, hrun⟩ | ⟨-, rfl⟩ | ⟨-, hrun⟩⟩ | ⟨-, -, hrun⟩ | rfl
    · rcases startKnown_works hrun with ⟨-, rfl⟩ | ⟨l, hl, d, -, hd, -⟩
      · exact hs
      · exact hd.unusedCleared hs'
    · exact hs'.stopped j
    · obtain ⟨c, hc, -⟩ := runTaskId_works hrun
      exact hc.unusedCleared (hs'.stopped j)
    · rcases startUnknown_works hrun with ⟨-, rfl⟩ | ⟨j, c, -, -, hc⟩
      · exact hs
      · exact hc.unusedCleared hs'
    · exact hs

/-- **Unused entries have no id**, in every run. -/
theorem unusedCleared_of_reach [NeZero n] {I : Env → Prop}
    (h : Guarded.Reach (govSystem n m I) Guarded.always s) : UnusedCleared s := by
  refine h.invariant (fun s hs ↦ ?_) fun s a t hs _ hstep ↦ hs.step hstep
  obtain ⟨env, mainPid, now, -, hmain⟩ := hs
  obtain ⟨lines, u, -, hu, rfl⟩ := governorMain_cases hmain
  refine loadServer_induction (pidsOk_of_loaded hu).unused fun j v _ _ hv ↦ ?_
  obtain ⟨c, hc⟩ := serverRun_ran (k := j) (s := v) rfl
  exact hc.works.unusedCleared hv

/-! ### One call -/

section Kill

variable [NeZero n]

theorem serverKill_signals (s : Sys n m) (k : Fin n) :
    (serverKill s k true).signals.map (·.pid) = s.signals.map (·.pid) ++
      ((List.finRange m).filter fun i ↦ killed (s.tSvrTab k).svrid (s.tSvrPid i)).map
        fun i ↦ (s.tSvrPid i).pid := by
  rw [serverKill, List.map_append, List.map_map]
  rfl

theorem serverKill_tSvrPid (s : Sys n m) (k : Fin n) (i : Fin m) :
    (serverKill s k true).tSvrPid i =
      if killed (s.tSvrTab k).svrid (s.tSvrPid i) then .clear else s.tSvrPid i := rfl

omit [NeZero n] in
theorem killed_iff {id : ℤ} {p : ServerPid n} :
    killed id p = true ↔ p.svrid = id ∧ id ≠ -1 ∧ id ≠ 4 := by
  rw [killed, Bool.and_eq_true, Bool.and_eq_true, beq_iff_eq, bne_iff_ne, bne_iff_ne, and_assoc]
  exact and_congr_right fun heq ↦ by rw [heq]

omit [NeZero n] in
/-- Under the condition, the entries that are taken are those of the server. -/
theorem TellsApart.killed_iff (h : TellsApart s k) (hs : UnusedCleared s)
    (hid : 0 ≤ (s.tSvrTab k).svrid) (i : Fin m) :
    killed (s.tSvrTab k).svrid (s.tSvrPid i) = true ↔ OwnEntry s k i := by
  rw [Sunda.killed_iff, OwnEntry]
  constructor
  · rintro ⟨hsame, -, hdead⟩
    have hnz : (s.tSvrPid i).svrid ≠ 0 := hsame ▸ h.nonzero (Nat.zero_lt_of_lt i.isLt)
    have h0 : i.val ≠ 0 := fun h0 ↦ hnz (hs i (.inr h0))
    have hpid : (s.tSvrPid i).pid ≠ -1 := fun hp ↦ hnz (hs i (.inl hp))
    exact ⟨h0, (h.processes i h0 hpid).2 ⟨hsame, hdead⟩, hpid⟩
  · rintro ⟨h0, hpos, hpid⟩
    obtain ⟨hsame, hdead⟩ := (h.processes i h0 hpid).1 hpos
    exact ⟨hsame, by omega, hdead⟩

/-- An entry that is cleared although it is not one of the server gets the number -1, so it had that
number before, and the signal went there. -/
theorem KillsOwn.own_of_killed (h : KillsOwn s (serverKill s k true) k) {i : Fin m}
    (hkill : killed (s.tSvrTab k).svrid (s.tSvrPid i) = true) : OwnEntry s k i := by
  by_contra hown
  have hclear := h.cleared i
  rw [serverKill_tSvrPid, if_pos hkill, if_neg hown] at hclear
  have hsig := h.signalled
  rw [serverKill_signals] at hsig
  have hmem : (s.tSvrPid i).pid ∈ ((List.finRange m).filter fun i ↦
      killed (s.tSvrTab k).svrid (s.tSvrPid i)).map fun i ↦ (s.tSvrPid i).pid :=
    List.mem_map.2 ⟨i, List.mem_filter.2 ⟨List.mem_finRange i, hkill⟩, rfl⟩
  rw [List.append_cancel_left hsig] at hmem
  obtain ⟨j, hj, heq⟩ := List.mem_map.1 hmem
  have hjown : OwnEntry s k j := of_decide_eq_true (List.mem_filter.1 hj).2
  rw [← hclear] at heq
  exact hjown.2.2 heq

/-- An entry of the server is cleared, so it was taken. -/
theorem KillsOwn.killed_of_own (h : KillsOwn s (serverKill s k true) k) {i : Fin m}
    (hown : OwnEntry s k i) : killed (s.tSvrTab k).svrid (s.tSvrPid i) = true := by
  by_contra hkill
  have hclear := h.cleared i
  rw [serverKill_tSvrPid, if_neg hkill, if_pos hown] at hclear
  exact hown.2.2 (congrArg (·.pid) hclear)

end Kill

end Sunda
