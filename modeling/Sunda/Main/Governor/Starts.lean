import Sunda.Main.Governor.Effects

/-!
# The outcome of a start

What the commands `TSK_CMD_START` and `TSK_CMD_FRESH` leave behind.

When such a command fails, no pid entry may name a process whose server is not registered
(`StrayFree`). `failed_start_iff` says exactly when that is so: nothing was stray before, all processes
of a server that is refreshed were stopped, and the command failed before it started a process. The
functions clear the server entry on every failure but never stop what `server_run` had started.

When `TSK_CMD_START` succeeds the server should have a process and a state in which it is called
(`Callable`). `started_callable_iff` says when: a server in the table must not be `TUX_DEAD` or
`TUX_UNAVAIL`, unless the index of the pid entry happens to be its own, since `TUX_IDLE` is stored at
that index; and the line of a new server must ask for a process.
-/

namespace Sunda

variable {n m : ℕ} {s t : Sys n m} {k : Fin n} {c : ℕ}

/-! ### Stray processes -/

/-- The server of the pid entry is registered, with the entry's id. -/
def Registered (s : Sys n m) (i : Fin m) : Prop :=
  (s.tSvrTab (s.tSvrPid i).svrpos).svrid ≠ -1 ∧
    (s.tSvrTab (s.tSvrPid i).svrpos).svrid = (s.tSvrPid i).svrid

/-- Every used pid entry belongs to a registered server. -/
def StrayFree (s : Sys n m) : Prop :=
  ∀ i, (s.tSvrPid i).pid ≠ -1 → Registered s i

theorem strayFree_congr (hid : ∀ j, (t.tSvrTab j).svrid = (s.tSvrTab j).svrid)
    (hpid : ∀ i, t.tSvrPid i = s.tSvrPid i ∨ (t.tSvrPid i).pid = -1 ∧ (s.tSvrPid i).pid = -1) :
    StrayFree t ↔ StrayFree s := by
  refine forall_congr' fun i ↦ ?_
  rcases hpid i with heq | ⟨ht, hs⟩
  · rw [Registered, Registered, heq, hid]
  · simp [ht, hs]

/-- A server entry that is free before and after: nothing changes for the others. -/
theorem strayFree_setSvr_free {e : SvrTab} (hk : (s.tSvrTab k).svrid = -1) (he : e.svrid = -1) :
    StrayFree (s.setSvr k e) ↔ StrayFree s :=
  strayFree_congr (s.setSvr_field (·.svrid) (he.trans hk.symm)) fun _ ↦ .inl rfl

variable [NeZero n]

/-- **Strays of a server that is given up**: the processes it had, and those just started for it. -/
theorem Works.strayFree_iff (h : Works k s c t) (hk : (t.tSvrTab k).svrid = -1) :
    StrayFree t ↔
      (∀ i, (s.tSvrPid i).pid ≠ -1 → (s.tSvrPid i).svrpos ≠ k ∧ Registered s i) ∧ c = 0 := by
  constructor
  · intro hfree
    refine ⟨fun i hi ↦ ?_, ?_⟩
    · have hsame := h.tSvrPid_of_used (.inl hi)
      have hreg := hfree i (by rwa [hsame])
      rw [Registered, hsame] at hreg
      have hne : (s.tSvrPid i).svrpos ≠ k := fun heq ↦ hreg.1 (by rw [heq, hk])
      rw [h.tSvrTab_of_ne hne] at hreg
      exact ⟨hne, hreg⟩
    · rcases Nat.eq_zero_or_pos c with h0 | hc
      · exact h0
      · obtain ⟨i, -, hpos, hpid, -⟩ := h.exists_new hc
        have hreg := hfree i (by omega)
        rw [Registered, hpos, hk] at hreg
        exact absurd rfl hreg.1
  · rintro ⟨hold, rfl⟩ i hi
    rcases h.tSvrPid_of_zero i with heq | ⟨hi', -⟩
    · rw [heq] at hi
      obtain ⟨hne, hreg⟩ := hold i hi
      rw [Registered, heq, h.tSvrTab_of_ne hne]
      exact hreg
    · exact absurd hi' hi

/-! ### Failed commands -/

/-- `TSK_CMD_FRESH` stops all processes of the server at index `k`, and every other used pid entry
belongs to a registered server. -/
def AllStopped (s : Sys n m) (k : Fin n) : Prop :=
  ∀ i, (s.tSvrPid i).pid ≠ -1 → killed (s.tSvrTab k).svrid (s.tSvrPid i) = false →
    (s.tSvrPid i).svrpos ≠ k ∧ Registered s i

/-- The condition: no pid entry is stray before, or stays with the server that is refreshed; and the
command starts no process before it fails. -/
def NoStray (env : Env) (cmd id : ℤ) (s : Sys n m) : Prop :=
  match findServerId s id with
  | none => StrayFree s ∧ (s.canStart = true → ∀ k lines, serverGetIdentry s = some k →
      env.task = some lines → oneEntry env.exec id lines (s.tSvrTab k) = none)
  | some k =>
    if cmd = tskCmdFresh then
      AllStopped s k ∧ ((stopServer s k).canStart = true → ∀ lines, env.task = some lines →
        freshStarts env.exec lines (s.tSvrTab k) = false)
    else StrayFree s

theorem startUnknown_strayFree_iff {env : Env} {id err : ℤ}
    (h : startUnknown env s id = some (err, t)) (herr : err ≠ 0) :
    StrayFree t ↔ StrayFree s ∧ (s.canStart = true → ∀ k lines, serverGetIdentry s = some k →
      env.task = some lines → oneEntry env.exec id lines (s.tSvrTab k) = none) := by
  rw [startUnknown] at h
  split at h
  · next hnone =>
    obtain ⟨-, rfl⟩ := Prod.mk.inj (Option.some.inj h)
    exact ⟨fun hs ↦ ⟨hs, fun _ k _ hk ↦ by rw [hnone] at hk; cases hk⟩, And.left⟩
  · next k hk =>
    obtain ⟨-, hfree⟩ := serverGetIdentry_eq_some hk
    rw [runOneTask] at h
    split at h
    · next htask =>
      obtain ⟨-, rfl⟩ := Prod.mk.inj (Option.some.inj h)
      rw [strayFree_setSvr_free hfree rfl]
      exact ⟨fun hs ↦ ⟨hs, fun _ _ _ _ hl ↦ by rw [htask] at hl; cases hl⟩, And.left⟩
    · next lines htask =>
      rcases runOneLoop_cases h with ⟨hone, -, rfl⟩ | ⟨e, v, rc', c, hone, hran, hcase⟩
      · rw [strayFree_setSvr_free hfree rfl]
        refine ⟨fun hs ↦ ⟨hs, fun _ k' lines' hk' hl' ↦ ?_⟩, And.left⟩
        rw [hk] at hk'
        rw [htask] at hl'
        cases hk'
        cases hl'
        exact hone
      · obtain ⟨-, h0, -⟩ | ⟨hrc', -, rfl⟩ := hcase
        · exact absurd h0 herr
        -- the run failed, so processes are left over exactly when one could be started
        have hworks : Works k s c (v.setSvr k .clear) :=
          Nat.zero_add c ▸ .svr _ ((Works.svr e .refl).trans hran.works)
        rw [hworks.strayFree_iff (by rw [Sys.setSvr_self]; rfl)]
        have hleft : e.pidTot.toNat ≠ 0 := by have := hran.part hrc'; omega
        have hpos : 0 < c ↔ s.canStart = true := by
          rw [hran.pos]
          exact and_iff_right hleft
        refine and_congr ⟨fun hs i hi ↦ (hs i hi).2, fun hs i hi ↦ ⟨fun heq ↦ ?_, hs i hi⟩⟩ ?_
        · exact (hs i hi).1 (by rw [heq, hfree])
        · constructor
          · rintro rfl hcan
            exact absurd (hpos.2 hcan) (by omega)
          · intro hcan
            by_contra hc
            have hstart := hcan (hpos.1 (by omega)) k lines hk htask
            rw [hone] at hstart
            cases hstart

/-- The used pid entries that are left when the processes of a server were stopped. -/
theorem stopServer_forall_iff (s : Sys n m) (k : Fin n) :
    (∀ i, ((stopServer s k).tSvrPid i).pid ≠ -1 →
      ((stopServer s k).tSvrPid i).svrpos ≠ k ∧ Registered (stopServer s k) i) ↔
      AllStopped s k := by
  refine forall_congr' fun i ↦ ?_
  rw [Registered, stopServer_svrid, stopServer_tSvrPid]
  cases hk : killed (s.tSvrTab k).svrid (s.tSvrPid i) with
  | true => simp [ServerPid.clear]
  | false => simp [Registered]

theorem runTaskId_strayFree_iff {env : Env} {err : ℤ}
    (h : runTaskId env (stopServer s k) k = some (err, t)) (herr : err ≠ 0) :
    StrayFree t ↔ AllStopped s k ∧ ((stopServer s k).canStart = true →
      ∀ lines, env.task = some lines → freshStarts env.exec lines (s.tSvrTab k) = false) := by
  rw [runTaskId] at h
  split at h
  · next htask =>
    obtain ⟨-, rfl⟩ := Prod.mk.inj (Option.some.inj h)
    have hworks : Works k (stopServer s k) 0 ((stopServer s k).setSvr k .clear) := .svr _ .refl
    rw [hworks.strayFree_iff (by rw [Sys.setSvr_self]; rfl), stopServer_forall_iff]
    refine and_congr_right fun _ ↦ ⟨fun _ _ lines hl ↦ ?_, fun _ ↦ rfl⟩
    rw [htask] at hl
    cases hl
  · next lines htask =>
    obtain ⟨⟨rc, v⟩, hloop, heq⟩ := Option.map_eq_some_iff.1 h
    obtain ⟨c, hc⟩ := runTaskLoop_reran hloop
    have hrc : rc ≠ 0 := by
      rintro rfl
      rw [if_pos rfl] at heq
      exact herr (Prod.mk.inj heq).1.symm
    rw [if_neg hrc] at heq
    obtain ⟨rfl, rfl⟩ := Prod.mk.inj heq
    rw [hc.works.strayFree_iff (by rw [hc.fail hrc]; rfl), stopServer_forall_iff]
    have hpos := hc.pos
    rw [freshStarts_core _ _ (stopServer_core s k)] at hpos
    refine and_congr_right fun _ ↦ ⟨?_, fun hcan ↦ ?_⟩
    · rintro rfl hstart lines' hl
      rw [htask] at hl
      cases hl
      rw [← Bool.not_eq_true]
      exact fun hfresh ↦ absurd (hpos.2 ⟨hfresh, hstart⟩) (by omega)
    · by_contra hne
      obtain ⟨hfresh, hstart⟩ := hpos.1 (by omega)
      rw [hcan hstart lines htask] at hfresh
      cases hfresh

theorem startKnown_strayFree_iff {env : Env} {err : ℤ} (h : startKnown env s k = some (err, t))
    (herr : err ≠ 0) : StrayFree t ↔ StrayFree s := by
  rcases startKnown_cases h with ⟨-, -, rfl⟩ | ⟨l, hl, hfind, ⟨-, forks, rfl⟩ | ⟨h0, -⟩⟩
  · exact strayFree_congr (s.setSvr_field (·.svrid) rfl) fun _ ↦ .inl rfl
  · refine strayFree_congr (fun j ↦ ?_) fun i ↦ ?_
    · show (Sys.tSvrTab ((s.marked k ⟨l, hl⟩).setSvr k _) j).svrid = _
      exact (Sys.setSvr_field _ (·.svrid) (by rfl) j).trans (s.marked_svrid ..)
    · rcases eq_or_ne i l with rfl | hil
      · refine .inr ⟨?_, (serverGetPidentry_eq_some hfind).2⟩
        rw [Sys.abort, Sys.setPid_self]
        rfl
      · refine .inl ?_
        rw [Sys.abort, Sys.setPid_of_ne _ _ hil]
        rfl
  · exact absurd h0 herr

/-- A pid entry of the server at index `k` names a child that is alive. -/
def HasProcess (s : Sys n m) (k : Fin n) : Prop :=
  ∃ i : Fin m, i.val ≠ 0 ∧ (s.tSvrPid i).svrpos = k ∧ (s.tSvrPid i).pid ≠ -1 ∧
    ∃ c ∈ s.live, c.pid = (s.tSvrPid i).pid

/-- The server with the id has a process, and a state in which `tux_acall` and `tux_call` do not
refuse it. -/
def Callable (s : Sys n m) (id : ℤ) : Prop :=
  ∃ k, findServerId s id = some k ∧ HasProcess s k ∧
    (s.tSvrTab k).state ≠ .dead ∧ (s.tSvrTab k).state ≠ .unavail

/-- The condition: a server in the table is in such a state already, or has the index of the pid
entry; the line of a new server asks for a process, unless one was left over at its entry. -/
def StartReaches (env : Env) (id : ℤ) (s : Sys n m) : Prop :=
  match findServerId s id with
  | some k => ((s.tSvrTab k).state ≠ .dead ∧ (s.tSvrTab k).state ≠ .unavail) ∨
      ∃ l, serverGetPidentry s = some l ∧ l.val = k.val
  | none => ∀ k lines e, serverGetIdentry s = some k → env.task = some lines →
      oneEntry env.exec id lines (s.tSvrTab k) = some e → 0 < e.pidTot ∨ HasProcess s k

omit [NeZero n] in
theorem findServerId_congr {id : ℤ} (h : ∀ j, (t.tSvrTab j).svrid = (s.tSvrTab j).svrid) :
    findServerId t id = findServerId s id :=
  Slots.find_congr fun j _ ↦ by rw [h]

omit [NeZero n] in
/-- The only entry with the id is found. -/
theorem findServerId_of_unique {id : ℤ} (hk : k.val ≠ 0) (hid : (t.tSvrTab k).svrid = id)
    (h : ∀ j : Fin n, j.val ≠ 0 → j ≠ k → (t.tSvrTab j).svrid ≠ id) :
    findServerId t id = some k :=
  Slots.find_eq_some_iff.2 ⟨hk, beq_iff_eq.2 hid, fun j hj h0 ↦ beq_false_of_ne (h j h0 hj.ne)⟩

theorem Works.hasProcess_of_pos (h : Works k s c t) (hc : 0 < c) : HasProcess t k := by
  obtain ⟨i, h0, hpos, hpid, hlive⟩ := h.exists_new hc
  exact ⟨i, h0, hpos, by omega, _, hlive, rfl⟩

omit [NeZero n] in
/-- Where the search finds the entry `k`, its processes and its state decide. -/
theorem callable_iff_of_found {id : ℤ} (hknown : findServerId t id = some k) :
    Callable t id ↔
      HasProcess t k ∧ (t.tSvrTab k).state ≠ .dead ∧ (t.tSvrTab k).state ≠ .unavail := by
  constructor
  · rintro ⟨k', hk', hcall⟩
    rw [hknown] at hk'
    obtain rfl := Option.some.inj hk'
    exact hcall
  · exact fun hcall ↦ ⟨k, hknown, hcall⟩

theorem startKnown_callable_iff {env : Env} {id : ℤ} (hid : findServerId s id = some k)
    (h : startKnown env s k = some (0, t)) :
    Callable t id ↔ ((s.tSvrTab k).state ≠ .dead ∧ (s.tSvrTab k).state ≠ .unavail) ∨
      ∃ l, serverGetPidentry s = some l ∧ l.val = k.val := by
  rcases startKnown_cases h with ⟨-, h0, -⟩ | ⟨l, hl, hfind, ⟨h0, -⟩ | ⟨-, f, forks, hf, ho, rfl⟩⟩
  · exact absurd h0 (by decide)
  · exact absurd h0 (by decide)
  · obtain ⟨hl0, hfree⟩ := serverGetPidentry_eq_some hfind
    have hworks : Works k (s.marked k ⟨l, hl⟩) 1
        ((s.marked k ⟨l, hl⟩).fill k l (s.tSvrPid l).seq f forks) := .fill _ _ .refl hfind hf ho
    have hproc := (Works.svr { setTimeOut env ((s.marked k ⟨l, hl⟩).tSvrTab k) with
      pidTot := ((s.marked k ⟨l, hl⟩).tSvrTab k).pidTot + 1 } hworks).hasProcess_of_pos Nat.one_pos
    generalize ht : Sys.setSvr (Sys.fill _ k l (s.tSvrPid l).seq f forks) k _ = t' at hproc ⊢
    have hids (j : Fin n) : (t'.tSvrTab j).svrid = (s.tSvrTab j).svrid := by
      rw [← ht]
      refine (Sys.setSvr_field _ (·.svrid) ?_ j).trans (s.marked_svrid k ⟨l, hl⟩ j)
      rfl
    have hstate : (t'.tSvrTab k).state = if l.val = k.val then .idle else (s.tSvrTab k).state := by
      rw [← ht, Sys.setSvr_self]
      show ((s.marked k ⟨l, hl⟩).tSvrTab k).state = _
      split
      · next heq =>
        have hk : (⟨l, hl⟩ : Fin n) = k := Fin.ext heq
        rw [hk, Sys.marked, Sys.setSvr_self]
      · next hne =>
        have hk : k ≠ ⟨l, hl⟩ := fun heq ↦ hne (congrArg Fin.val heq).symm
        rw [Sys.marked, Sys.setSvr_of_ne _ _ hk, Sys.setSvr_self]
    have hknown : findServerId t' id = some k := (findServerId_congr hids).trans hid
    rw [callable_iff_of_found hknown, and_iff_right hproc, hstate]
    split
    · next heq => exact iff_of_true ⟨by decide, by decide⟩ (.inr ⟨l, hfind, heq⟩)
    · next hne =>
      constructor
      · exact .inl
      · rintro (hok | ⟨l', hl', heq⟩)
        · exact hok
        · rw [hfind] at hl'
          obtain rfl := Option.some.inj hl'
          exact absurd heq hne

theorem startUnknown_callable_iff {env : Env} {id : ℤ} (hid : findServerId s id = none)
    (h : startUnknown env s id = some (0, t)) :
    Callable t id ↔ ∀ k lines e, serverGetIdentry s = some k → env.task = some lines →
      oneEntry env.exec id lines (s.tSvrTab k) = some e → 0 < e.pidTot ∨ HasProcess s k := by
  rw [startUnknown] at h
  split at h
  · cases h
  · next k hk =>
    rw [runOneTask] at h
    split at h
    · cases h
    · next lines htask =>
      rcases runOneLoop_cases h with ⟨-, h0, -⟩ | ⟨e, v, rc', c, hone, hran, hcase⟩
      · exact absurd rfl h0
      · obtain ⟨rfl, -, rfl⟩ | ⟨-, h0, -⟩ := hcase
        swap
        · exact absurd h0 (by decide)
        have hstore : Works k s 0 (s.setSvr k e) := .svr e .refl
        have hworks := Nat.zero_add c ▸ hstore.trans hran.works
        have hknown : findServerId t id = some k := by
          refine findServerId_of_unique (serverGetIdentry_eq_some hk).1 ?_ fun j h0 hj ↦ ?_
          · rw [hran.entry]
            show e.svrid = id
            exact oneEntry_svrid hone
          · rw [hworks.tSvrTab_of_ne hj]
            exact findServerId_eq_none hid h0
        have hstate : (t.tSvrTab k).state ≠ .dead ∧ (t.tSvrTab k).state ≠ .unavail := by
          rw [hran.entry]
          show (if 0 < c then SvrStat.idle else e.state) ≠ .dead ∧
            (if 0 < c then SvrStat.idle else e.state) ≠ .unavail
          rw [oneEntry_state hone]
          split <;> exact ⟨by decide, by decide⟩
        have hproc : HasProcess t k ↔ 0 < e.pidTot ∨ HasProcess s k := by
          by_cases hpid : 0 < e.pidTot
          · have hc : 0 < c := by have := hran.all rfl; omega
            simp [hpid, hworks.hasProcess_of_pos hc]
          · -- nothing is started, so the processes are those from before
            have hidle := hran.idle (by omega)
            simp only [hpid, false_or]
            rw [hidle, HasProcess, HasProcess]
            rfl
        rw [callable_iff_of_found hknown, and_iff_left hstate, hproc]
        constructor
        · intro hcond k' lines' e' hk' htask' hone'
          rw [hk] at hk'
          rw [htask] at htask'
          cases hk'
          cases htask'
          rw [hone] at hone'
          cases hone'
          exact hcond
        · intro hcond
          exact hcond k lines e hk htask hone

end Sunda
