import Sunda.Main.Governor.Exits

/-!
# Events of one server and the other servers

An event concerns one server: the exit of one of its processes, or a command for its id. Every other
entry of the server table should stay as it is, and so should every used pid entry of another server,
with its restart counter and its time of death (`Undisturbed`).

The tables are indexed by server indices and by pid indices, and searched by ids, and the source mixes
the three. `undisturbed_iff` says for every event exactly when no other server is hit: the death is
counted at a pid index that equals the server index, `TUX_AVAIL` or `TUX_IDLE` is stored at a server
index that equals the pid index, and `tux_deletesvc` and `server_kill` hit whoever has the id.
-/

namespace Sunda

variable {n m : ℕ} [NeZero n] {s t u : Sys n m} {k : Fin n} {c : ℕ}

/-- The entries of other servers are the same in both states. -/
structure Undisturbed (s t : Sys n m) (k : Fin n) : Prop where
  servers : ∀ j, j ≠ k → t.tSvrTab j = s.tSvrTab j
  processes : ∀ i, (s.tSvrPid i).svrpos ≠ k → (s.tSvrPid i).pid ≠ -1 → t.tSvrPid i = s.tSvrPid i

/-- The event concerns the server at index `k`: a process of it is collected, or a command finds it,
or takes its free entry for an id that is not in the table. -/
def Concerns (s : Sys n m) (k : Fin n) : Event → Prop
  | .exit _ => False
  | .collect _ e => ∃ i, serverFindPid s e.pid = some i ∧ (s.tSvrPid i).svrpos = k
  | .cmd _ cmd id => (cmd = tskCmdStart ∨ cmd = tskCmdExit ∨ cmd = tskCmdFresh) ∧
      (findServerId s id = some k ∨ findServerId s id = none ∧ serverGetIdentry s = some k)

/-- No other server is hit when the process of the pid entry `i` exits: the pid entry with the index of
the server is not a used one of another server; and of the other servers those that `tux_deletesvc`
marks are `TUX_UNAVAIL` already, and the one with the index of a restarted pid entry, if it is not
marked, is `TUX_AVAIL` already. -/
def ExitHitsNone (env : Env) (s : Sys n m) (i : Fin m) : Prop :=
  let k := (s.tSvrPid i).svrpos
  (∀ l : Fin m, l.val = k.val → (s.tSvrPid l).svrpos ≠ k → (s.tSvrPid l).pid = -1) ∧
    ∀ j, j ≠ k → (ExitDeletes env s i j → (s.tSvrTab j).state = .unavail) ∧
      (¬ ExitDeletes env s i j → Restarts s i → s.forkOk = true → j.val = i.val →
        (s.tSvrTab j).state = .avail)

/-- The condition: as above for an exit; a start of a known id finds no pid entry, or one with the
index of the server or of a server that is `TUX_IDLE` already; and `server_kill` clears no process of
another server. -/
def HitsNone (s : Sys n m) (k : Fin n) : Event → Prop
  | .exit _ => True
  | .collect env e => ∀ i, serverFindPid s e.pid = some i → ExitHitsNone env (s.collected env e.pid) i
  | .cmd _ cmd id => findServerId s id = some k →
      (cmd = tskCmdStart → ∀ l j, serverGetPidentry s = some l → j ≠ k → j.val = l.val →
        (s.tSvrTab j).state = .idle) ∧
      (cmd = tskCmdExit ∨ cmd = tskCmdFresh → ∀ i, killed (s.tSvrTab k).svrid (s.tSvrPid i) = true →
        (s.tSvrPid i).pid ≠ -1 → (s.tSvrPid i).svrpos = k)

omit [NeZero n] in
/-- Only the tables are compared. -/
theorem undisturbed_congr {s' : Sys n m} (htab : s'.tSvrTab = s.tSvrTab)
    (hpid : s'.tSvrPid = s.tSvrPid) : Undisturbed s' t k ↔ Undisturbed s t k := by
  constructor
  · rintro ⟨hservers, hprocesses⟩
    rw [htab] at hservers
    rw [hpid] at hprocesses
    exact ⟨hservers, hprocesses⟩
  · rintro ⟨hservers, hprocesses⟩
    rw [← htab] at hservers
    rw [← hpid] at hprocesses
    exact ⟨hservers, hprocesses⟩

/-! ### Exits -/

omit [NeZero n] in
theorem oneServerExit_undisturbed_iff {env : Env} {now : ℤ} {i : Fin m}
    (h : oneServerExit env s now i = some t) (hk : (s.tSvrPid i).svrpos = k) :
    Undisturbed s t k ↔ ExitHitsNone env s i := by
  have hh := oneServerExit_handled h hk
  subst hk
  have hstate (j : Fin n) (hj : j ≠ (s.tSvrPid i).svrpos) :
      t.tSvrTab j = s.tSvrTab j ↔ exitState env s i j = (s.tSvrTab j).state := by
    rw [hh.servers j hj]
    exact ⟨fun heq ↦ congrArg (·.state) heq, fun heq ↦ by rw [heq]⟩
  constructor
  · intro hu
    refine ⟨fun l hl hpos ↦ ?_, fun j hj ↦ ?_⟩
    · by_contra hpid
      have hli : l ≠ i := fun heq ↦ hpos (by rw [heq])
      have hsame := hu.processes l hpos hpid
      rw [hh.counted l hli hl] at hsame
      have hcount : (s.tSvrPid l).totRestartCount + 1 = (s.tSvrPid l).totRestartCount :=
        congrArg (·.totRestartCount) hsame
      omega
    · have heq := (hstate j hj).1 (hu.servers j hj)
      rw [exitState] at heq
      refine ⟨fun hdel ↦ ?_, fun hdel hr hok hval ↦ ?_⟩
      · rw [← heq, if_pos hdel]
      · rw [← heq, if_neg hdel, if_pos ⟨hr, hok, hval⟩]
  · rintro ⟨hcount, hsvr⟩
    refine ⟨fun j hj ↦ (hstate j hj).2 ?_, fun l hpos hpid ↦ ?_⟩
    · obtain ⟨hdel, havail⟩ := hsvr j hj
      rw [exitState]
      split
      · next h => exact (hdel h).symm
      · next h =>
        split
        · next hr => exact (havail h hr.1 hr.2.1 hr.2.2).symm
        · rfl
    · have hli : l ≠ i := fun heq ↦ hpos (by rw [heq])
      exact hh.others l hli fun hl ↦ hpid (hcount l hl hpos)

/-! ### Commands -/

/-- Work for a server disturbs no other. -/
theorem Works.undisturbed (h : Works k s c t) : Undisturbed s t k :=
  ⟨fun _ hj ↦ h.tSvrTab_of_ne hj, fun _ _ hpid ↦ h.tSvrPid_of_used (.inl hpid)⟩

theorem startKnown_undisturbed_iff {env : Env} {rc : ℤ} (h : startKnown env s k = some (rc, t)) :
    Undisturbed s t k ↔ ∀ l j, serverGetPidentry s = some l → j ≠ k → j.val = l.val →
      (s.tSvrTab j).state = .idle := by
  rcases startKnown_works h with ⟨hnone, rfl⟩ | ⟨l, hl, d, hfind, hd, -⟩
  · refine ⟨fun _ l _ hsome ↦ ?_, fun _ ↦ (Works.svr _ .refl).undisturbed⟩
    rw [hnone] at hsome
    cases hsome
  · -- the work for the server starts from the marked tables
    have hother {j : Fin n} (hj : j ≠ k) (hval : j.val ≠ l.val) :
        t.tSvrTab j = s.tSvrTab j := by
      rw [hd.tSvrTab_of_ne hj, Sys.marked, Sys.setSvr_of_ne _ _ fun heq ↦ hval (congrArg Fin.val heq),
        Sys.setSvr_of_ne _ _ hj]
    have hmarked {j : Fin n} (hj : j ≠ k) (hval : j.val = l.val) :
        t.tSvrTab j = { s.tSvrTab j with state := .idle } := by
      obtain rfl : j = ⟨l, hl⟩ := Fin.ext hval
      rw [hd.tSvrTab_of_ne hj, Sys.marked, Sys.setSvr_self, Sys.setSvr_of_ne _ _ hj]
    constructor
    · intro hu l' j hl' hj hval
      rw [hfind] at hl'
      obtain rfl := Option.some.inj hl'
      rw [← hu.servers j hj, hmarked hj hval]
    · intro hidle
      refine ⟨fun j hj ↦ ?_, fun i _ hpid ↦ hd.tSvrPid_of_used (.inl hpid)⟩
      by_cases hval : j.val = l.val
      · rw [hmarked hj hval, ← hidle l j hfind hj hval]
      · exact hother hj hval

theorem stopServer_undisturbed_iff (s : Sys n m) (k : Fin n) :
    Undisturbed s (stopServer s k) k ↔ ∀ i, killed (s.tSvrTab k).svrid (s.tSvrPid i) = true →
      (s.tSvrPid i).pid ≠ -1 → (s.tSvrPid i).svrpos = k := by
  constructor
  · intro hu i hkill hpid
    by_contra hpos
    have hsame := hu.processes i hpos hpid
    rw [stopServer_tSvrPid, if_pos hkill] at hsame
    exact hpid (congrArg (·.pid) hsame).symm
  · intro hkill
    refine ⟨fun j hj ↦ Sys.setSvr_of_ne _ _ hj, fun i hpos hpid ↦ ?_⟩
    rw [stopServer_tSvrPid, if_neg fun h ↦ hpos (hkill i h hpid)]

/-- What `run_task_id` does after the kill disturbs nobody any more. -/
theorem Works.stopServer_undisturbed_iff (h : Works k (stopServer s k) c t) :
    Undisturbed s t k ↔ Undisturbed s (stopServer s k) k := by
  constructor
  · intro hu
    refine ⟨fun j hj ↦ Sys.setSvr_of_ne _ _ hj, fun i hpos hpid ↦ ?_⟩
    have hsame := hu.processes i hpos hpid
    rcases h.tSvrPid_cases i with heq | ⟨-, -, heq | ⟨heq, -⟩⟩
    · rw [← heq, hsame]
    · rw [heq] at hsame
      exact absurd (congrArg (·.pid) hsame).symm hpid
    · rw [hsame] at heq
      exact absurd heq hpos
  · intro hu
    refine ⟨fun j hj ↦ ?_, fun i hpos hpid ↦ ?_⟩
    · rw [h.tSvrTab_of_ne hj, hu.servers j hj]
    · have hsame := hu.processes i hpos hpid
      rw [h.tSvrPid_of_used (.inl (by rwa [hsame])), hsame]

/-- The same for every command that finds its server, or takes a free entry for it. -/
theorem governor_undisturbed_iff {env : Env} {cmd id rc : ℤ}
    (h : governor env cmd id s = some (rc, t))
    (hcmd : cmd = tskCmdStart ∨ cmd = tskCmdExit ∨ cmd = tskCmdFresh)
    (hk : findServerId s id = some k ∨ findServerId s id = none ∧ serverGetIdentry s = some k) :
    Undisturbed s t k ↔ HitsNone s k (.cmd env cmd id) := by
  rw [HitsNone]
  rcases hk with hk | ⟨hnone, hfree⟩
  · -- a server in the table
    rw [governor, hk] at h
    rcases hcmd with rfl | rfl | rfl
    · rw [if_pos rfl] at h
      rw [startKnown_undisturbed_iff h]
      exact ⟨fun hidle _ ↦ ⟨fun _ ↦ hidle, fun hne ↦ absurd hne (by decide)⟩,
        fun hhit ↦ (hhit hk).1 rfl⟩
    · rw [if_neg (by decide), if_pos rfl] at h
      obtain rfl := (Prod.mk.inj (Option.some.inj h)).2
      rw [stopServer_undisturbed_iff]
      exact ⟨fun hkill _ ↦ ⟨fun hne ↦ absurd hne (by decide), fun _ ↦ hkill⟩,
        fun hhit ↦ (hhit hk).2 (.inl rfl)⟩
    · rw [if_neg (by decide), if_neg (by decide), if_pos rfl] at h
      obtain ⟨c, hc, -⟩ := runTaskId_works h
      rw [hc.stopServer_undisturbed_iff, stopServer_undisturbed_iff]
      exact ⟨fun hkill _ ↦ ⟨fun hne ↦ absurd hne (by decide), fun _ ↦ hkill⟩,
        fun hhit ↦ (hhit hk).2 (.inr rfl)⟩
  · -- a free entry: whatever happens is work for it
    rw [governor, hnone] at h
    have hworks : ∃ c, Works k s c t := by
      have hunknown (h : startUnknown env s id = some (rc, t)) : ∃ c, Works k s c t := by
        rcases startUnknown_works h with ⟨hno, -⟩ | ⟨k', c, hk', -, hc⟩
        · rw [hfree] at hno
          cases hno
        · rw [hfree] at hk'
          obtain rfl := Option.some.inj hk'
          exact ⟨c, hc⟩
      rcases hcmd with rfl | rfl | rfl
      · rw [if_pos rfl] at h
        exact hunknown h
      · rw [if_neg (by decide), if_pos rfl] at h
        obtain rfl := (Prod.mk.inj (Option.some.inj h)).2
        exact ⟨0, .refl⟩
      · rw [if_neg (by decide), if_neg (by decide), if_pos rfl] at h
        exact hunknown h
    obtain ⟨c, hc⟩ := hworks
    refine ⟨fun _ hsome ↦ ?_, fun _ ↦ hc.undisturbed⟩
    rw [hnone] at hsome
    cases hsome

end Sunda
