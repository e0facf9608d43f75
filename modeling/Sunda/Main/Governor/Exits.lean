import Sunda.Main.Governor.Effects

/-!
# What the handler of `SIGCLD` does to the tables

`oneServerExit_cases` lists the outcomes of `server_deatch` for the process of a pid entry, each as an
explicit state: the counters are stored (`Sys.died`); if the server is restarted, its line is read
again (`Sys.reloaded`), and `fork` fails or gives a new process, in which case the state at the index
of the pid entry is stored; and when the server has no process any more the servers whose id is its
index are marked (`Sys.deleted`).

`reloadParm` is what `reload_server_param` stores, as a function of the table and the file.
-/

namespace Sunda

variable {n m : ℕ} {s t : Sys n m} {i : Fin m} {k : Fin n}

/-! ### Reading the line again -/

/-- What `reload_server_param` stores for the server at index `k`: the lines are counted along with
the table, and the line that stands opposite the first entry with the server's id is taken. -/
def reloadParmFrom (exec : List UInt8 → Bool) (tab : Fin n → SvrTab) (k : Fin n) :
    ℕ → List (List UInt8) → Option SrvParm
  | _, [] => none
  | i, buf :: rest =>
    if h : i < n then
      if (tab ⟨i, h⟩).svrid ≠ (tab k).svrid then reloadParmFrom exec tab k (i + 1) rest
      else if (lineName buf).any exec then (parseLine buf).map (·.2)
      else none
    else none

def reloadParm (env : Env) (tab : Fin n → SvrTab) (k : Fin n) : Option SrvParm :=
  env.task.bind (reloadParmFrom env.exec tab k 1)

/-- The entry after `reload_server_param`. -/
def reloadEntry (env : Env) (tab : Fin n → SvrTab) (k : Fin n) : SvrTab :=
  (reloadParm env tab k).elim (tab k) fun r ↦ r.store (tab k)

theorem reloadLoop_eq {exec : List UInt8 → Bool} {j : ℕ} {lines : List (List UInt8)}
    (h : reloadLoop exec k j lines s = some t) :
    t = s.setSvr k
      ((reloadParmFrom exec s.tSvrTab k j lines).elim (s.tSvrTab k) fun r ↦
        r.store (s.tSvrTab k)) := by
  induction lines generalizing j with
  | nil =>
    obtain rfl := Option.some.inj h
    exact (Sys.setSvr_eq_self ..).symm
  | cons buf rest ih =>
    rw [reloadLoop] at h
    rw [reloadParmFrom]
    split at h
    · next hj =>
      rw [dif_pos hj]
      split at h
      · next hne =>
        rw [if_pos hne]
        exact ih h
      · next heq =>
        rw [if_neg heq]
        obtain ⟨⟨rc, e⟩, hreg, rfl⟩ := Option.map_eq_some_iff.1 h
        obtain ⟨name, hname, hreg⟩ := Option.bind_eq_some_iff.1 hreg
        rw [hname, Option.any_some]
        split at hreg
        · next hexec =>
          obtain ⟨-, rfl⟩ := Prod.mk.inj (Option.some.inj hreg)
          rw [hexec]
          rfl
        · next hexec =>
          obtain ⟨⟨rc', r⟩, hr, heq⟩ := Option.map_eq_some_iff.1 hreg
          obtain ⟨-, rfl⟩ := Prod.mk.inj heq
          rw [if_pos (by simpa using hexec), hr]
          rfl
    · next hj =>
      obtain rfl := Option.some.inj h
      rw [dif_neg hj]
      exact (Sys.setSvr_eq_self ..).symm

theorem reloadServerParam_eq {env : Env} (h : reloadServerParam env s k = some t) :
    t = s.setSvr k (reloadEntry env s.tSvrTab k) := by
  rw [reloadServerParam] at h
  rw [reloadEntry, reloadParm]
  cases htask : env.task with
  | none =>
    rw [htask] at h
    obtain rfl := Option.some.inj h
    exact (Sys.setSvr_eq_self ..).symm
  | some lines =>
    rw [htask] at h
    exact reloadLoop_eq h

/-! ### The outcomes -/

/-- The restart counter that `server_deatch` compares with 50. -/
def restartCount (s : Sys n m) (i : Fin m) : ℤ :=
  (s.tSvrPid i).totRestartCount + if i.val = (s.tSvrPid i).svrpos.val then 1 else 0

/-- The process of the pid entry is restarted. -/
def Restarts (s : Sys n m) (i : Fin m) : Prop :=
  restartCount s i ≤ 50 ∧ (s.tSvrTab (s.tSvrPid i).svrpos).type ≠ svrTemp

/-- The tables after the counters and the type were stored. -/
def Sys.died (s : Sys n m) (now : ℤ) (i : Fin m) (hk : (s.tSvrPid i).svrpos.val < m) : Sys n m :=
  let k := (s.tSvrPid i).svrpos
  let e := s.tSvrTab k
  let p := s.tSvrPid ⟨k, hk⟩
  (s.setPid ⟨k, hk⟩ { p with lastDie := now, totRestartCount := p.totRestartCount + 1 }).setSvr k
    { e with
      pidTot := e.pidTot - 1
      type := if 50 < restartCount s i then svrTemp else e.type }

/-- The tables before a restart: the counter of the pid entry, and the line read again. -/
def Sys.reloaded (env : Env) (s : Sys n m) (k : Fin n) (i : Fin m) : Sys n m :=
  let p := s.tSvrPid i
  (s.setPid i { p with totRestartCount := p.totRestartCount + 1 }).setSvr k
    (setTimeOut env (reloadEntry env s.tSvrTab k))

/-- The last branch of `server_deatch`. -/
def Sys.deleted (env : Env) (s : Sys n m) (k : Fin n) : Sys n m :=
  if (s.tSvrTab k).pidTot = 0 then tuxDeletesvc env.lock s k else s

theorem restart_cases {env : Env} (h : restart env s k i = some t) :
    (s.forkOk = false ∧ ∃ forks, t = { s.reloaded env k i with forks := forks }) ∨
    s.forkOk = true ∧ ∃ f forks, ∃ hi : i.val < n, 0 < f.pid ∧ s.owns f.pid = false ∧
      t = ((s.reloaded env k i).started k i f forks).setSvr ⟨i, hi⟩
        { (s.reloaded env k i).tSvrTab ⟨i, hi⟩ with state := .avail } := by
  obtain ⟨u, hu, hrest⟩ := Option.bind_eq_some_iff.1 h
  obtain rfl := reloadServerParam_eq hu
  dsimp only at hrest
  rw [Sys.setSvr_setSvr, Sys.setSvr_self] at hrest
  rcases serverStartPid_cases _ k i with ⟨f, forks, -, hok, hf, ho, heq⟩ | ⟨forks, hok, heq⟩
  · rw [heq] at hrest
    dsimp only at hrest
    split at hrest
    · next hi =>
      obtain rfl := Option.some.inj hrest
      exact .inr ⟨hok, f, forks, hi, hf, ho, rfl⟩
    · cases hrest
  · rw [heq] at hrest
    obtain rfl := Option.some.inj hrest
    exact .inl ⟨hok, forks, rfl⟩

/-- The counters and the type are stored one after the other. -/
theorem exitCounters_eq (s : Sys n m) (now : ℤ) (i : Fin m)
    (hk : (s.tSvrPid i).svrpos.val < m) : exitCounters s now i hk = s.died now i hk := by
  have hcount (u : Sys n m) (p : ServerPid n)
      (hu : u.tSvrPid = Function.update s.tSvrPid ⟨(s.tSvrPid i).svrpos, hk⟩ p)
      (hp : p.totRestartCount = (s.tSvrPid ⟨(s.tSvrPid i).svrpos, hk⟩).totRestartCount + 1) :
      (u.tSvrPid i).totRestartCount = restartCount s i := by
    rw [hu, restartCount]
    rcases eq_or_ne i ⟨(s.tSvrPid i).svrpos, hk⟩ with heq | hne
    · have hpos : i.val = (s.tSvrPid i).svrpos.val := congrArg Fin.val heq
      rw [if_pos hpos, ← heq, Function.update_self, hp, ← heq]
    · have hpos : i.val ≠ (s.tSvrPid i).svrpos.val := fun h ↦ hne (Fin.ext h)
      rw [if_neg hpos, Function.update_of_ne hne, add_zero]
  rw [exitCounters, Sys.died]
  dsimp only
  rw [hcount _ _ rfl rfl]
  split
  · simp [Sys.setSvr, Sys.setPid]
  · rfl

theorem died_restarts (s : Sys n m) (now : ℤ) (i : Fin m) (hk : (s.tSvrPid i).svrpos.val < m) :
    ((s.died now i hk).tSvrTab (s.tSvrPid i).svrpos).type ≠ svrTemp ↔ Restarts s i := by
  rw [Sys.died, Sys.setSvr_self, Restarts]
  dsimp only
  split
  · next hlt => simp [not_le.2 hlt]
  · next hle => simp [not_lt.1 hle]

/-- **The outcomes of `server_deatch`** for the process of the pid entry `i`. -/
theorem oneServerExit_cases {env : Env} {now : ℤ} (h : oneServerExit env s now i = some t)
    (hs : (s.tSvrPid i).svrpos = k) :
    ∃ hk : (s.tSvrPid i).svrpos.val < m,
      (¬ Restarts s i ∧ t = (s.died now i hk).deleted env k) ∨
      Restarts s i ∧
        ((s.forkOk = false ∧
          ∃ forks, t = Sys.deleted env { (s.died now i hk).reloaded env k i with forks := forks } k) ∨
        s.forkOk = true ∧ ∃ f forks, ∃ hi : i.val < n, 0 < f.pid ∧ s.owns f.pid = false ∧
          t = Sys.deleted env ((((s.died now i hk).reloaded env k i).started k i f forks).setSvr ⟨i, hi⟩
            { ((s.died now i hk).reloaded env k i).tSvrTab ⟨i, hi⟩ with state := .avail }) k) := by
  subst hs
  rw [oneServerExit] at h
  split at h
  · next hk =>
    refine ⟨hk, ?_⟩
    rw [exitCounters_eq] at h
    obtain ⟨u, hu, rfl⟩ := Option.map_eq_some_iff.1 h
    rw [← Sys.deleted]
    split at hu
    · next htype =>
      refine .inr ⟨(died_restarts s now i hk).1 htype, ?_⟩
      have hforks : (s.died now i hk).forkOk = s.forkOk := rfl
      rw [← hforks]
      rcases restart_cases hu with ⟨hok, forks, rfl⟩ | ⟨hok, f, forks, hi, hf, ho, rfl⟩
      · exact .inl ⟨hok, forks, rfl⟩
      · exact .inr ⟨hok, f, forks, hi, hf, ho, rfl⟩
    · next htype =>
      obtain rfl := Option.some.inj hu
      exact .inl ⟨fun hr ↦ htype ((died_restarts s now i hk).2 hr), rfl⟩
  · cases h

/-! ### What they have in common -/

instance (s : Sys n m) (i : Fin m) : Decidable (Restarts s i) :=
  inferInstanceAs (Decidable (_ ∧ _))

/-- The process count of the server afterwards. -/
def exitPidTot (env : Env) (s : Sys n m) (i : Fin m) : ℤ :=
  let k := (s.tSvrPid i).svrpos
  if Restarts s i then
    (reloadParm env s.tSvrTab k).elim ((s.tSvrTab k).pidTot - 1) fun r ↦ r.pidTot
  else (s.tSvrTab k).pidTot - 1

/-- The server at index `j` is marked by `tux_deletesvc`. -/
def ExitDeletes (env : Env) (s : Sys n m) (i : Fin m) (j : Fin n) : Prop :=
  env.lock = true ∧ exitPidTot env s i = 0 ∧ j.val ≠ 0 ∧
    (s.tSvrTab j).svrid = (s.tSvrPid i).svrpos.val

instance (env : Env) (s : Sys n m) (i : Fin m) (j : Fin n) : Decidable (ExitDeletes env s i j) :=
  inferInstanceAs (Decidable (_ ∧ _))

/-- The state of another server afterwards. -/
def exitState (env : Env) (s : Sys n m) (i : Fin m) (j : Fin n) : SvrStat :=
  if ExitDeletes env s i j then .unavail
  else if Restarts s i ∧ s.forkOk = true ∧ j.val = i.val then .avail
  else (s.tSvrTab j).state

/-- The effect of handling the exit of the process of the pid entry `i`, of server `k`, on the
processes. -/
structure HandledPids (s : Sys n m) (now : ℤ) (i : Fin m) (k : Fin n) (t : Sys n m) : Prop where
  /-- The death is counted at the index of the server. -/
  counted : ∀ l, l ≠ i → l.val = k.val → t.tSvrPid l =
    { s.tSvrPid l with lastDie := now, totRestartCount := (s.tSvrPid l).totRestartCount + 1 }
  others : ∀ l, l ≠ i → l.val ≠ k.val → t.tSvrPid l = s.tSvrPid l
  svrpos : (t.tSvrPid i).svrpos = k
  svrid : (t.tSvrPid i).svrid = (s.tSvrPid i).svrid
  process : (Restarts s i ∧ s.forkOk = true ∧ 0 < (t.tSvrPid i).pid ∧
      s.owns (t.tSvrPid i).pid = false ∧ t.live = ⟨(t.tSvrPid i).pid, k⟩ :: s.live) ∨
    (¬ (Restarts s i ∧ s.forkOk = true) ∧ (t.tSvrPid i).pid = (s.tSvrPid i).pid ∧ t.live = s.live)
  exited : t.exited = s.exited
  signals : t.signals = s.signals

/-- The effect on both tables. -/
structure Handled (env : Env) (s : Sys n m) (now : ℤ) (i : Fin m) (k : Fin n) (t : Sys n m) :
    Prop extends HandledPids s now i k t where
  servers : ∀ j, j ≠ k → t.tSvrTab j = { s.tSvrTab j with state := exitState env s i j }
  reg : (t.tSvrTab k).reg =
    if Restarts s i then (reloadEntry env s.tSvrTab k).reg else (s.tSvrTab k).reg
  pidTot : (t.tSvrTab k).pidTot = exitPidTot env s i

/-- Only ids are looked at when the line is found. -/
theorem reloadParm_congr {env : Env} {tab tab' : Fin n → SvrTab}
    (h : ∀ j, (tab' j).svrid = (tab j).svrid) (k : Fin n) :
    reloadParm env tab' k = reloadParm env tab k := by
  have hfrom (j : ℕ) (lines : List (List UInt8)) :
      reloadParmFrom env.exec tab' k j lines = reloadParmFrom env.exec tab k j lines := by
    induction lines generalizing j with
    | nil => rfl
    | cons buf rest ih => simp only [reloadParmFrom, h, ih]
  rw [reloadParm, reloadParm]
  congr 1
  exact funext fun lines ↦ hfrom 1 lines

/-- The deletion, for a state whose process count and ids are known. -/
theorem deleted_tSvrTab {env : Env} {u : Sys n m} {i : Fin m}
    (hpid : (u.tSvrTab (s.tSvrPid i).svrpos).pidTot = exitPidTot env s i) {j : Fin n}
    (hid : (u.tSvrTab j).svrid = (s.tSvrTab j).svrid) :
    (u.deleted env (s.tSvrPid i).svrpos).tSvrTab j =
      if ExitDeletes env s i j then { u.tSvrTab j with state := .unavail } else u.tSvrTab j := by
  rw [Sys.deleted, hpid, tuxDeletesvc]
  by_cases hp : exitPidTot env s i = 0
  · rw [if_pos hp]
    cases hl : env.lock with
    | false => simp [ExitDeletes, hl]
    | true => simp [ExitDeletes, hl, hp, hid]
  · rw [if_neg hp, if_neg fun h ↦ hp h.2.1]

theorem deleted_self (env : Env) (u : Sys n m) (k : Fin n) :
    ((u.deleted env k).tSvrTab k).reg = (u.tSvrTab k).reg ∧
      ((u.deleted env k).tSvrTab k).pidTot = (u.tSvrTab k).pidTot := by
  rw [Sys.deleted, tuxDeletesvc]
  split
  · split
    · dsimp only
      split
      · exact ⟨rfl, rfl⟩
      · exact ⟨rfl, rfl⟩
    · exact ⟨rfl, rfl⟩
  · exact ⟨rfl, rfl⟩

theorem deleted_same (env : Env) (u : Sys n m) (k : Fin n) :
    (u.deleted env k).tSvrPid = u.tSvrPid ∧ (u.deleted env k).live = u.live ∧
      (u.deleted env k).exited = u.exited ∧ (u.deleted env k).signals = u.signals := by
  rw [Sys.deleted, tuxDeletesvc]
  split
  · split <;> exact ⟨rfl, rfl, rfl, rfl⟩
  · exact ⟨rfl, rfl, rfl, rfl⟩

/-- What a line makes of an entry depends on the registered fields only. -/
theorem SrvParm.store_reg (r : SrvParm) {e e' : SvrTab} (h : e.reg = e'.reg) :
    (r.store e).reg = (r.store e').reg := by
  have hid : e.svrid = e'.svrid := congrArg (·.svrid) h
  have htype : e.msgType = e'.msgType := congrArg (·.msgType) h
  simp [SrvParm.store, SvrTab.reg, hid, htype]

section Died

variable (s) (now : ℤ) (hk : (s.tSvrPid i).svrpos.val < m)

theorem died_of_ne {j : Fin n} (hj : j ≠ (s.tSvrPid i).svrpos) :
    (s.died now i hk).tSvrTab j = s.tSvrTab j :=
  Sys.setSvr_of_ne _ _ hj

theorem died_self : ((s.died now i hk).tSvrTab (s.tSvrPid i).svrpos).reg =
      (s.tSvrTab (s.tSvrPid i).svrpos).reg ∧
    ((s.died now i hk).tSvrTab (s.tSvrPid i).svrpos).pidTot =
      (s.tSvrTab (s.tSvrPid i).svrpos).pidTot - 1 := by
  rw [Sys.died, Sys.setSvr_self]
  exact ⟨rfl, rfl⟩

theorem died_svrid (j : Fin n) :
    ((s.died now i hk).tSvrTab j).svrid = (s.tSvrTab j).svrid := by
  rw [Sys.died]
  exact Sys.setSvr_field _ (·.svrid) (by rfl) j

/-- A pid entry keeps its process and its server when a death is counted there. -/
theorem died_tSvrPid (l : Fin m) :
    (l.val ≠ (s.tSvrPid i).svrpos.val → (s.died now i hk).tSvrPid l = s.tSvrPid l) ∧
    (l.val = (s.tSvrPid i).svrpos.val → (s.died now i hk).tSvrPid l =
      { s.tSvrPid l with
        lastDie := now
        totRestartCount := (s.tSvrPid l).totRestartCount + 1 }) := by
  refine ⟨fun hne ↦ Sys.setPid_of_ne _ _ fun h ↦ hne (congrArg Fin.val h), fun heq ↦ ?_⟩
  obtain rfl : l = ⟨(s.tSvrPid i).svrpos, hk⟩ := Fin.ext heq
  exact Sys.setPid_self ..

theorem died_tSvrPid_keep (l : Fin m) :
    ((s.died now i hk).tSvrPid l).pid = (s.tSvrPid l).pid ∧
      ((s.died now i hk).tSvrPid l).svrpos = (s.tSvrPid l).svrpos ∧
      ((s.died now i hk).tSvrPid l).svrid = (s.tSvrPid l).svrid := by
  obtain ⟨hne, heq⟩ := died_tSvrPid s now hk l
  by_cases hl : l.val = (s.tSvrPid i).svrpos.val
  · rw [heq hl]
    exact ⟨rfl, rfl, rfl⟩
  · rw [hne hl]
    exact ⟨rfl, rfl, rfl⟩

end Died

/-- The line read again after a death. -/
theorem reloaded_self (env : Env) (now : ℤ) (hk : (s.tSvrPid i).svrpos.val < m) (hr : Restarts s i) :
    (((s.died now i hk).reloaded env (s.tSvrPid i).svrpos i).tSvrTab (s.tSvrPid i).svrpos).reg =
      (reloadEntry env s.tSvrTab (s.tSvrPid i).svrpos).reg ∧
    (((s.died now i hk).reloaded env (s.tSvrPid i).svrpos i).tSvrTab (s.tSvrPid i).svrpos).pidTot =
      exitPidTot env s i := by
  obtain ⟨hreg, hpid⟩ := died_self s now hk
  rw [Sys.reloaded, Sys.setSvr_self, exitPidTot, if_pos hr, reloadEntry, reloadEntry,
    reloadParm_congr (died_svrid s now hk)]
  cases reloadParm env s.tSvrTab (s.tSvrPid i).svrpos with
  | none => exact ⟨hreg, hpid⟩
  | some r => exact ⟨r.store_reg hreg, rfl⟩

/-- The other entries, and what the pid entry keeps. -/
theorem reloaded_of_ne (env : Env) (s : Sys n m) {k : Fin n} {i : Fin m} :
    (∀ j, j ≠ k → (s.reloaded env k i).tSvrTab j = s.tSvrTab j) ∧
    (∀ l, l ≠ i → (s.reloaded env k i).tSvrPid l = s.tSvrPid l) ∧
    ((s.reloaded env k i).tSvrPid i).pid = (s.tSvrPid i).pid ∧
    ((s.reloaded env k i).tSvrPid i).svrpos = (s.tSvrPid i).svrpos ∧
    ((s.reloaded env k i).tSvrPid i).svrid = (s.tSvrPid i).svrid := by
  refine ⟨fun j hj ↦ Sys.setSvr_of_ne _ _ hj, fun l hl ↦ Sys.setPid_of_ne _ _ hl, ?_⟩
  rw [Sys.reloaded, Sys.setSvr_tSvrPid, Sys.setPid_self]
  exact ⟨rfl, rfl, rfl⟩

/-- The deletion looks at the server table only. -/
theorem HandledPids.deleted {env : Env} {now : ℤ} {u : Sys n m} (h : HandledPids s now i k u) :
    HandledPids s now i k (u.deleted env k) := by
  obtain ⟨hpid, hlive, hex, hsig⟩ := deleted_same env u k
  constructor
  all_goals simp only [hpid, hlive, hex, hsig]
  exacts [h.counted, h.others, h.svrpos, h.svrid, h.process, h.exited, h.signals]

/-- The deletion stores the state that `exitState` gives. -/
theorem Handled.of_deleted {env : Env} {now : ℤ} {u : Sys n m}
    (h : HandledPids s now i (s.tSvrPid i).svrpos u)
    (hsvr : ∀ j, j ≠ (s.tSvrPid i).svrpos → u.tSvrTab j = { s.tSvrTab j with
      state := if Restarts s i ∧ s.forkOk = true ∧ j.val = i.val then .avail
        else (s.tSvrTab j).state })
    (hreg : (u.tSvrTab (s.tSvrPid i).svrpos).reg =
      if Restarts s i then (reloadEntry env s.tSvrTab (s.tSvrPid i).svrpos).reg
      else (s.tSvrTab (s.tSvrPid i).svrpos).reg)
    (hpid : (u.tSvrTab (s.tSvrPid i).svrpos).pidTot = exitPidTot env s i) :
    Handled env s now i (s.tSvrPid i).svrpos (u.deleted env (s.tSvrPid i).svrpos) := by
  obtain ⟨hself, hselfPid⟩ := deleted_self env u (s.tSvrPid i).svrpos
  refine ⟨h.deleted, fun j hj ↦ ?_, hself.trans hreg, hselfPid.trans hpid⟩
  rw [deleted_tSvrTab hpid (by rw [hsvr j hj]), hsvr j hj, exitState]
  by_cases hdel : ExitDeletes env s i j
  · simp [hdel]
  · simp [hdel]

/-- **Every outcome** of the handler has the effect that `Handled` describes. -/
theorem oneServerExit_handled {env : Env} {now : ℤ} (h : oneServerExit env s now i = some t)
    (hs : (s.tSvrPid i).svrpos = k) : Handled env s now i k t := by
  obtain ⟨hk, hcase⟩ := oneServerExit_cases h hs
  subst hs
  obtain ⟨hdpid, hdpos, hdid⟩ := died_tSvrPid_keep s now hk i
  rcases hcase with ⟨hr, rfl⟩ | ⟨hr, ⟨hok, forks, rfl⟩ | ⟨hok, f, forks, hi, hf, ho, rfl⟩⟩
  · -- not restarted
    refine .of_deleted ⟨fun l _ hl ↦ (died_tSvrPid s now hk l).2 hl,
      fun l _ hl ↦ (died_tSvrPid s now hk l).1 hl, hdpos, hdid,
      .inr ⟨fun h ↦ hr h.1, hdpid, rfl⟩, rfl, rfl⟩ (fun j hj ↦ ?_) ?_ ?_
    · rw [died_of_ne s now hk hj]
      simp [hr]
    · rw [if_neg hr]
      exact (died_self s now hk).1
    · rw [exitPidTot, if_neg hr]
      exact (died_self s now hk).2
  · -- the restart fails
    obtain ⟨hreg, hpidTot⟩ := reloaded_self env now hk hr
    obtain ⟨hsvr, hpids, hrpid, hrpos, hrid⟩ :=
      reloaded_of_ne env (s.died now i hk) (k := (s.tSvrPid i).svrpos) (i := i)
    refine .of_deleted ⟨fun l hli hl ↦ (hpids l hli).trans ((died_tSvrPid s now hk l).2 hl),
      fun l hli hl ↦ (hpids l hli).trans ((died_tSvrPid s now hk l).1 hl), hrpos.trans hdpos,
      hrid.trans hdid, .inr ⟨by simp [hok], hrpid.trans hdpid, rfl⟩, rfl, rfl⟩ (fun j hj ↦ ?_)
      (by rw [if_pos hr]; exact hreg) hpidTot
    refine (hsvr j hj).trans ((died_of_ne s now hk hj).trans ?_)
    simp [hok]
  · -- the restart succeeds, and the state goes to the index of the pid entry
    obtain ⟨hreg, hpidTot⟩ := reloaded_self env now hk hr
    obtain ⟨hsvr, hpids, -, hrpos, hrid⟩ :=
      reloaded_of_ne env (s.died now i hk) (k := (s.tSvrPid i).svrpos) (i := i)
    generalize hu : (s.died now i hk).reloaded env (s.tSvrPid i).svrpos i = u at *
    have hlive : u.live = s.live := by rw [← hu]; rfl
    have hexited : u.exited = s.exited := by rw [← hu]; rfl
    have hsignals : u.signals = s.signals := by rw [← hu]; rfl
    have hself : (u.started (s.tSvrPid i).svrpos i f forks).tSvrPid i =
      { u.tSvrPid i with pid := f.pid, lastStart := f.now } := Sys.setPid_self ..
    have hother {l : Fin m} (hl : l ≠ i) :
        (u.started (s.tSvrPid i).svrpos i f forks).tSvrPid l = u.tSvrPid l := Sys.setPid_of_ne _ _ hl
    refine .of_deleted ⟨fun l hli hl ↦ ?_, fun l hli hl ↦ ?_, ?_, ?_, .inl ⟨hr, hok, ?_⟩, hexited,
      hsignals⟩ (fun j hj ↦ ?_) ?_ ?_
    · exact (hother hli).trans ((hpids l hli).trans ((died_tSvrPid s now hk l).2 hl))
    · exact (hother hli).trans ((hpids l hli).trans ((died_tSvrPid s now hk l).1 hl))
    · rw [Sys.setSvr_tSvrPid, hself]
      exact hrpos.trans hdpos
    · rw [Sys.setSvr_tSvrPid, hself]
      exact hrid.trans hdid
    · rw [Sys.setSvr_tSvrPid, hself, Sys.setSvr_live, ← hlive]
      exact ⟨hf, ho, rfl⟩
    · rcases eq_or_ne j ⟨i, hi⟩ with rfl | hji
      · rw [Sys.setSvr_self, hsvr _ hj, died_of_ne s now hk hj]
        simp [hr, hok]
      · have hval : j.val ≠ i.val := fun h ↦ hji (Fin.ext h)
        rw [Sys.setSvr_of_ne _ _ hji]
        refine (hsvr j hj).trans ((died_of_ne s now hk hj).trans ?_)
        simp [hval]
    · rw [if_pos hr]
      exact (Sys.setSvr_field _ SvrTab.reg (by rfl) _).trans hreg
    · exact (Sys.setSvr_field _ SvrTab.pidTot (by rfl) _).trans hpidTot

/-- Another pid entry keeps its process and its server. -/
theorem HandledPids.keep {now : ℤ} (h : HandledPids s now i k t) {l : Fin m} (hl : l ≠ i) :
    (t.tSvrPid l).pid = (s.tSvrPid l).pid ∧ (t.tSvrPid l).svrpos = (s.tSvrPid l).svrpos ∧
      (t.tSvrPid l).svrid = (s.tSvrPid l).svrid := by
  rcases eq_or_ne l.val k.val with heq | hne
  · rw [h.counted l hl heq]
    exact ⟨rfl, rfl, rfl⟩
  · rw [h.others l hl hne]
    exact ⟨rfl, rfl, rfl⟩

/-! ### One pass of the handler -/

/-- The tables when `waitpid` has returned the child. -/
def Sys.collected (s : Sys n m) (env : Env) (pid : ℤ) : Sys n m :=
  { s with forks := env.forks, exited := s.exited.filter (·.pid ≠ pid) }

/-- The child is not in the pid table any more, or the exit of its entry is handled. -/
theorem deatchOne_cases {env : Env} {e : Exit} [NeZero n]
    (h : deatchOne env { s with forks := env.forks } e = some t) :
    (s.exited.any (·.pid == e.pid)) = true ∧
      ((serverFindPid s e.pid = none ∧ t = s.collected env e.pid) ∨
        ∃ i, serverFindPid s e.pid = some i ∧
          oneServerExit env (s.collected env e.pid) e.now i = some t) := by
  rw [deatchOne] at h
  split at h
  · next hany =>
    refine ⟨hany, ?_⟩
    dsimp only at h
    split at h
    · next hnone =>
      obtain rfl := Option.some.inj h
      exact .inl ⟨hnone, rfl⟩
    · next i hi => exact .inr ⟨i, hi, h⟩
  · cases h

end Sunda
