import Sunda.Main.Governor.Exits
import Sunda.Main.Governor.Capacity

/-!
# What gets registered

`register_server` is called in four places that walk the configuration file in different ways, and all
that counts later is what they leave in the server table. `Registers s k e a` says that the event `a`
registers the entry `e` at index `k`; `govStep_reg` says that every other entry keeps its registered
fields, and that entry `k` keeps them, is cleared, or gets those of `e`. `governorMain_cases` says what
is registered at start.

`Registers.invariant` is the induction over the lines that all four walks share.
-/

namespace Sunda

variable {n m : ℕ} {s t : Sys n m} {k : Fin n} {a : Event}

/-! ### At start -/

/-- What `register_server` makes of a line whose program is there. -/
def lineParm (exec : List UInt8 → Bool) (buf : List UInt8) : Option SrvParm :=
  if (lineName buf).any exec then (parseLine buf).map (·.2) else none

/-- The lines that are registered, in the order of the file. -/
def loaded (exec : List UInt8 → Bool) (lines : List (List UInt8)) : List SrvParm :=
  lines.filterMap (lineParm exec)

theorem lineParm_of_registerServer {exec : List UInt8 → Bool} {e e' : SvrTab} {buf : List UInt8}
    {rc : ℤ} (h : registerServer exec e buf = some (rc, e')) :
    (rc = 1 ∧ e' = e ∧ lineParm exec buf = none) ∨
      ∃ r, parseLine buf = some (rc, r) ∧ e' = r.store e ∧ lineParm exec buf = some r := by
  obtain ⟨name, hname, hrest⟩ := Option.bind_eq_some_iff.1 h
  rw [lineParm, hname, Option.any_some]
  split at hrest
  · next hexec =>
    obtain ⟨rfl, rfl⟩ := Prod.mk.inj (Option.some.inj hrest)
    exact .inl ⟨rfl, rfl, by rw [hexec]; rfl⟩
  · next hexec =>
    obtain ⟨⟨rc', r⟩, hr, heq⟩ := Option.map_eq_some_iff.1 hrest
    obtain ⟨rfl, rfl⟩ := Prod.mk.inj heq
    rw [Bool.not_eq_false] at hexec
    exact .inr ⟨r, hr, rfl, by rw [if_pos hexec, hr]; rfl⟩

/-- A line that `strtok` can take apart and that has no error returns at most 0. -/
theorem parseLine_le {buf : List UInt8} {rc : ℤ} {r : SrvParm} (h : parseLine buf = some (rc, r)) :
    rc ≤ 0 := by
  obtain ⟨name, -, hrest⟩ := Option.bind_eq_some_iff.1 h
  obtain ⟨p, -, hp⟩ := Option.bind_eq_some_iff.1 hrest
  exact (parmLoop_keeps (I := fun _ ↦ True) (fun _ _ _ _ ↦ trivial) hp trivial).2

/-- **The first loop of `server_load_cfg`** stores the lines from entry `i` on. -/
theorem loadCfgLoop_eq {exec : List UInt8 → Bool} {lines : List (List UInt8)} {i : ℕ}
    (h : loadCfgLoop exec i lines s = some (0, t))
    (hfree : ∀ j : Fin n, i ≤ j.val → s.tSvrTab j = .clear) :
    t = { s with tSvrTab := t.tSvrTab } ∧ ∀ j : Fin n, t.tSvrTab j =
      if j.val < i then s.tSvrTab j
      else (loaded exec lines)[j.val - i]?.elim .clear fun r ↦ r.store .clear := by
  induction lines generalizing i s with
  | nil =>
    obtain rfl := (Prod.mk.inj (Option.some.inj h)).2
    refine ⟨rfl, fun j ↦ ?_⟩
    split
    · rfl
    · next hj => exact hfree j (by omega)
  | cons buf rest ih =>
    rw [loadCfgLoop] at h
    split at h
    · next hi =>
      obtain ⟨⟨rc, e⟩, hreg, hrest⟩ := Option.bind_eq_some_iff.1 h
      dsimp only at hrest
      rw [hfree ⟨i, hi⟩ le_rfl] at hreg
      rcases lineParm_of_registerServer hreg with ⟨rfl, rfl, hline⟩ | ⟨r, hr, rfl, hline⟩
      · -- the program is not there: the entry stays for the next line
        rw [if_neg (by decide), if_pos (by decide)] at hrest
        have hsame : s.setSvr ⟨i, hi⟩ .clear = s := by
          rw [← hfree ⟨i, hi⟩ le_rfl]
          exact Sys.setSvr_eq_self ..
        rw [hsame] at hrest
        rw [loaded, List.filterMap_cons_none hline]
        exact ih hrest hfree
      · have hle := parseLine_le hr
        split at hrest
        · next hneg =>
          exact absurd (Prod.mk.inj (Option.some.inj hrest)).1 (by decide)
        · rw [if_neg (by omega)] at hrest
          have hother {j : Fin n} (hj : j.val ≠ i) :
              (s.setSvr ⟨i, hi⟩ (r.store .clear)).tSvrTab j = s.tSvrTab j :=
            Sys.setSvr_of_ne _ _ fun heq ↦ hj (congrArg Fin.val heq)
          obtain ⟨hsame, htab⟩ := ih hrest fun j hj ↦ by
            rw [hother (by omega)]
            exact hfree j (by omega)
          refine ⟨hsame, fun j ↦ ?_⟩
          rw [htab, loaded, loaded, List.filterMap_cons_some hline]
          rcases Nat.lt_trichotomy j.val i with hlt | heq | hgt
          · rw [if_pos (by omega), if_pos hlt, hother (by omega)]
          · obtain rfl : j = ⟨i, hi⟩ := Fin.ext heq
            rw [if_pos (Nat.lt_succ_self _), if_neg (lt_irrefl _), Sys.setSvr_self, Nat.sub_self]
            rfl
          · rw [if_neg (by omega), if_neg (by omega), show j.val - i = (j.val - (i + 1)) + 1 by omega]
            rfl
    · next hi =>
      obtain rfl := (Prod.mk.inj (Option.some.inj h)).2
      refine ⟨rfl, fun j ↦ ?_⟩
      rw [if_pos (by omega)]

/-- What line number `j` of the registered ones makes of an entry. -/
def loadedEntry (exec : List UInt8 → Bool) (lines : List (List UInt8)) (j : ℕ) : SvrTab :=
  (loaded exec lines)[j]?.elim .clear fun r ↦ r.store .clear

section Load

variable [NeZero n]

/-- The tables behind `server_load_cfg`. -/
structure Loaded (env : Env) (lines : List (List UInt8)) (mainPid now : ℤ) (u : Sys n m) : Prop where
  same : u = { sysStart mainPid now with forks := env.forks, tSvrTab := u.tSvrTab }
  zero : ∀ j : Fin n, j.val = 0 → u.tSvrTab j = (sysStart mainPid now : Sys n m).tSvrTab j
  entry : ∀ j : Fin n, j.val ≠ 0 → ∃ timeout,
    u.tSvrTab j = { loadedEntry env.exec lines (j.val - 1) with timeout := timeout }

/-- No process runs yet. -/
theorem Loaded.tSvrPid_clear {env : Env} {lines : List (List UInt8)} {mainPid now : ℤ}
    (hu : Loaded env lines mainPid now s) {i : Fin m} (hi : i.val ≠ 0) : s.tSvrPid i = .clear := by
  have hpid : s.tSvrPid i = if i.val = 0 then
      { ServerPid.clear with pid := mainPid, lastStart := now } else .clear := by
    rw [hu.same]
    rfl
  rw [hpid, if_neg hi]

theorem Loaded.pids_nil {env : Env} {lines : List (List UInt8)} {mainPid now : ℤ}
    (hu : Loaded env lines mainPid now s) : s.pids = [] := by
  rw [hu.same]
  rfl

theorem governorMain_cases {env : Env} {mainPid now : ℤ} (h : governorMain env mainPid now = some s) :
    ∃ lines u, env.task = some lines ∧ Loaded env lines mainPid now u ∧ s = loadServer u := by
  obtain ⟨⟨rc, u⟩, hload, hs⟩ := Option.bind_eq_some_iff.1 h
  dsimp only at hs
  split at hs
  · next h0 =>
    obtain rfl : rc = 0 := h0
    obtain rfl := Option.some.inj hs
    rw [serverLoadCfg] at hload
    split at hload
    · exact absurd (Prod.mk.inj (Option.some.inj hload)).1 (by decide)
    · next lines htask =>
      obtain ⟨⟨rc', v⟩, hloop, heq⟩ := Option.map_eq_some_iff.1 hload
      have hrc : rc' = 0 := by
        split at heq
        · next h0 => exact h0
        · exact (Prod.mk.inj heq).1
      obtain rfl := hrc
      rw [if_pos rfl] at heq
      obtain rfl := (Prod.mk.inj heq).2
      obtain ⟨hsame, htab⟩ := loadCfgLoop_eq hloop fun j hj ↦ by
        show (if j.val = 0 then _ else SvrTab.clear) = SvrTab.clear
        rw [if_neg (by omega)]
      refine ⟨lines, _, htask, ⟨?_, fun j hj ↦ ?_, fun j hj ↦ ?_⟩, rfl⟩
      · exact congrArg (fun w : Sys n m ↦ { w with tSvrTab := (loadTimeOuts env v).tSvrTab }) hsame
      · show (if j.val ≠ 0 ∧ _ then _ else v.tSvrTab j) = _
        rw [if_neg fun h ↦ h.1 hj, htab, if_pos (by omega)]
      · have hentry : v.tSvrTab j = loadedEntry env.exec lines (j.val - 1) := by
          rw [htab, if_neg (by omega)]
          rfl
        rw [← hentry]
        by_cases hid : j.val ≠ 0 ∧ (v.tSvrTab j).svrid ≠ -1
        · exact ⟨_, if_pos hid⟩
        · exact ⟨(v.tSvrTab j).timeout, if_neg hid⟩
  · cases hs

/-- What `load_server` does follows from what `server_run` does. -/
theorem loadServer_induction {P : Sys n m → Prop} {u : Sys n m} (h : P u)
    (hrun : ∀ (k : Fin n) (v : Sys n m), k.val ≠ 0 → (v.tSvrTab k).svrid ≠ -1 → P v →
      P (serverRun v k).2) : P (loadServer u) := by
  rw [loadServer]
  refine List.foldlRecOn _ _ h fun v hv k _ ↦ ?_
  split
  · next hk => exact hrun k v hk.1 hk.2 hv
  · exact hv

/-- `server_run` registers nothing. -/
theorem serverRun_reg (s : Sys n m) (k j : Fin n) :
    ((serverRun s k).2.tSvrTab j).reg = (s.tSvrTab j).reg ∧
      ((serverRun s k).2.tSvrTab j).pidTot = (s.tSvrTab j).pidTot := by
  have hrun : serverRun s k = ((serverRun s k).1, (serverRun s k).2) := rfl
  obtain ⟨c, hc⟩ := serverRun_ran hrun
  rcases eq_or_ne j k with rfl | hj
  · rw [hc.entry]
    exact ⟨rfl, rfl⟩
  · rw [hc.works.tSvrTab_of_ne hj]
    exact ⟨rfl, rfl⟩

theorem loadServer_reg (u : Sys n m) (j : Fin n) :
    ((loadServer u).tSvrTab j).reg = (u.tSvrTab j).reg ∧
      ((loadServer u).tSvrTab j).pidTot = (u.tSvrTab j).pidTot :=
  loadServer_induction (P := fun v : Sys n m ↦ (v.tSvrTab j).reg = (u.tSvrTab j).reg ∧
      (v.tSvrTab j).pidTot = (u.tSvrTab j).pidTot) ⟨rfl, rfl⟩ fun k v _ _ hv ↦
    ⟨(serverRun_reg v k j).1.trans hv.1, (serverRun_reg v k j).2.trans hv.2⟩

end Load

/-! ### In a step -/

theorem reg_of_core {e e' : SvrTab} (h : e.core = e'.core) : e.reg = e'.reg := by
  show e.core.reg = e'.core.reg
  rw [h]

section Step

variable [NeZero n] {e : SvrTab}

/-- The configuration lines that an event reads. -/
def Event.lines : Event → List (List UInt8)
  | .exit _ => []
  | .collect env _ => env.task.getD []
  | .cmd env _ _ => env.task.getD []

/-- The event registers the entry `e` at index `k`. A restart stores the line that stands opposite the
first entry with the id. A command for an id that is not in the table stores line after line in a
free entry, up to the one of the id; `TSK_CMD_FRESH` of one in the table stores all lines with the
program name of the entry. Commands keep what they have stored if no line and no start fails. -/
def Registers (s : Sys n m) (k : Fin n) (e : SvrTab) : Event → Prop
  | .exit _ => False
  | .collect env x => ∃ i r, serverFindPid s x.pid = some i ∧ (s.tSvrPid i).svrpos = k ∧
      Restarts s i ∧ reloadParm env s.tSvrTab k = some r ∧ e = r.store (s.tSvrTab k)
  | .cmd env cmd id => ∃ lines, env.task = some lines ∧
      ((cmd = tskCmdStart ∨ cmd = tskCmdFresh) ∧ findServerId s id = none ∧
          serverGetIdentry s = some k ∧ oneEntry env.exec id lines (s.tSvrTab k) = some e ∧
          Sys.Startable { s with forks := env.forks } e.pidTot.toNat ∨
        cmd = tskCmdFresh ∧ findServerId s id = some k ∧ e = freshEntry lines (s.tSvrTab k) ∧
          freshOk env.exec lines (s.tSvrTab k) = true ∧
          (stopServer { s with forks := env.forks } k).Startable (freshTotal lines (s.tSvrTab k)))

theorem freshEntry_invariant {P : SvrTab → Prop} {lines : List (List UInt8)} {e : SvrTab} (h : P e)
    (hstore : ∀ buf ∈ lines, ∀ rc r e, parseLine buf = some (rc, r) → P e → P (r.store e)) :
    P (freshEntry lines e) := by
  induction lines generalizing e with
  | nil => exact h
  | cons buf rest ih =>
    have hrest {e' : SvrTab} (he : P e') : P (freshEntry rest e') :=
      ih he fun b hb ↦ hstore b (List.mem_cons_of_mem _ hb)
    rw [freshEntry]
    split
    · cases hr : parseLine buf with
      | none => exact hrest h
      | some r => exact hrest (hstore buf List.mem_cons_self r.1 r.2 e hr h)
    · exact hrest h

theorem oneEntry_invariant {P : SvrTab → Prop} {exec : List UInt8 → Bool} {id : ℤ}
    {lines : List (List UInt8)} {e e' : SvrTab} (hone : oneEntry exec id lines e = some e') (h : P e)
    (hstore : ∀ buf ∈ lines, ∀ rc r e, parseLine buf = some (rc, r) → P e → P (r.store e)) :
    P e' := by
  induction lines generalizing e with
  | nil => cases hone
  | cons buf rest ih =>
    obtain ⟨⟨rc, e₁⟩, hreg, hrest⟩ := Option.bind_eq_some_iff.1 hone
    have he₁ : P e₁ := by
      obtain ⟨-, rfl⟩ | ⟨r, hr, rfl⟩ := of_registerServer hreg
      · exact h
      · exact hstore buf List.mem_cons_self rc r e hr h
    split at hrest
    · cases hrest
    · split at hrest
      · obtain rfl := Option.some.inj hrest
        exact he₁
      · exact ih hrest he₁ fun b hb ↦ hstore b (List.mem_cons_of_mem _ hb)

omit [NeZero n] in
theorem parseLine_of_reloadParm {env : Env} {tab : Fin n → SvrTab} {r : SrvParm}
    (h : reloadParm env tab k = some r) :
    ∃ buf ∈ env.task.getD [], ∃ rc, parseLine buf = some (rc, r) := by
  obtain ⟨lines, htask, h⟩ := Option.bind_eq_some_iff.1 h
  rw [htask, Option.getD_some]
  clear htask
  generalize 1 = i at h
  induction lines generalizing i with
  | nil => cases h
  | cons buf rest ih =>
    rw [reloadParmFrom] at h
    split at h
    · split at h
      · obtain ⟨b, hb, hr⟩ := ih _ h
        exact ⟨b, List.mem_cons_of_mem _ hb, hr⟩
      · split at h
        · obtain ⟨⟨rc, r'⟩, hr, rfl⟩ := Option.map_eq_some_iff.1 h
          exact ⟨buf, List.mem_cons_self, rc, hr⟩
        · cases h
    · cases h

/-- **What holds of the entry and is kept by storing a line** holds of what is registered. -/
theorem Registers.invariant {P : SvrTab → Prop} (h : Registers s k e a) (h0 : P (s.tSvrTab k))
    (hstore : ∀ buf ∈ a.lines, ∀ rc r e, parseLine buf = some (rc, r) → P e → P (r.store e)) :
    P e := by
  cases a with
  | exit pid => exact h.elim
  | collect env x =>
    obtain ⟨i, r, -, -, -, hr, rfl⟩ := h
    obtain ⟨buf, hbuf, rc, hparse⟩ := parseLine_of_reloadParm hr
    exact hstore buf hbuf rc r _ hparse h0
  | cmd env cmd id =>
    obtain ⟨lines, htask, h⟩ := h
    rw [Event.lines, htask, Option.getD_some] at hstore
    rcases h with ⟨-, -, -, hone, -⟩ | ⟨-, -, rfl, -⟩
    · exact oneEntry_invariant hone h0 hstore
    · exact freshEntry_invariant h0 hstore

/-- `TSK_CMD_START` of a known id registers nothing. -/
theorem startKnown_reg {env : Env} {rc : ℤ} (h : startKnown env s k = some (rc, t)) (j : Fin n) :
    (t.tSvrTab j).reg = (s.tSvrTab j).reg := by
  have hmarked (l : Fin n) : ((s.marked k l).tSvrTab j).reg = (s.tSvrTab j).reg := by
    rw [Sys.marked]
    exact (Sys.setSvr_field _ SvrTab.reg (by rfl) j).trans (s.setSvr_field SvrTab.reg (by rfl) j)
  rcases startKnown_cases h with ⟨-, -, rfl⟩ | ⟨l, hl, -, ⟨-, forks, rfl⟩ | ⟨-, f, forks, -, -, rfl⟩⟩
  · exact s.setSvr_field SvrTab.reg (by rfl) j
  · show (Sys.tSvrTab ((s.marked k ⟨l, hl⟩).setSvr k _) j).reg = _
    exact (Sys.setSvr_field _ SvrTab.reg (by rfl) j).trans (hmarked _)
  · refine (Sys.setSvr_field _ SvrTab.reg (by rfl) j).trans ?_
    exact hmarked _

theorem stopServer_reg (s : Sys n m) (k j : Fin n) :
    ((stopServer s k).tSvrTab j).reg = (s.tSvrTab j).reg :=
  s.setSvr_field SvrTab.reg (by rfl) j

/-- What a step does to the registered fields: those of one entry may change, and it is cleared then or
the step registers it. -/
def RegStep (s : Sys n m) (a : Event) (t : Sys n m) : Prop :=
  ∃ k, (∀ j, j ≠ k → (t.tSvrTab j).reg = (s.tSvrTab j).reg) ∧
    ((t.tSvrTab k).reg = (s.tSvrTab k).reg ∨ t.tSvrTab k = .clear ∨
      ∃ e, Registers s k e a ∧ (t.tSvrTab k).reg = e.reg)

theorem regStep_of_same (h : ∀ j, (t.tSvrTab j).reg = (s.tSvrTab j).reg) : RegStep s a t :=
  ⟨0, fun j _ ↦ h j, .inl (h 0)⟩

omit [NeZero n] in
theorem pids_collected (s : Sys n m) (env : Env) (pid : ℤ) :
    (s.collected env pid).pids.Sublist s.pids :=
  List.Sublist.map _ (List.Sublist.append_left List.filter_sublist _)

theorem collect_regStep {env : Env} {x : Exit}
    (h : deatchOne env { s with forks := env.forks } x = some t) : RegStep s (.collect env x) t := by
  obtain ⟨-, ⟨-, rfl⟩ | ⟨i, hi, hexit⟩⟩ := deatchOne_cases h
  · exact regStep_of_same fun _ ↦ rfl
  · have hh : Handled env (s.collected env x.pid) x.now i (s.tSvrPid i).svrpos t :=
      oneServerExit_handled hexit rfl
    refine ⟨(s.tSvrPid i).svrpos, fun j hj ↦ by rw [hh.servers j hj]; rfl, ?_⟩
    have hreg : (t.tSvrTab (s.tSvrPid i).svrpos).reg =
        if Restarts s i then (reloadEntry env s.tSvrTab (s.tSvrPid i).svrpos).reg
        else (s.tSvrTab (s.tSvrPid i).svrpos).reg := hh.reg
    split at hreg
    · next hr =>
      rw [reloadEntry] at hreg
      cases hparm : reloadParm env s.tSvrTab (s.tSvrPid i).svrpos with
      | none =>
        rw [hparm] at hreg
        exact .inl hreg
      | some r =>
        rw [hparm] at hreg
        exact .inr (.inr ⟨_, ⟨i, r, hi, rfl, hr, hparm, rfl⟩, hreg⟩)
    · exact .inl hreg

/-- A command for an id that is not in the table works for a free entry, which it clears or
registers. -/
theorem startUnknown_registers {env : Env} {cmd id rc : ℤ}
    (h : startUnknown env { s with forks := env.forks } id = some (rc, t))
    (hcmd : cmd = tskCmdStart ∨ cmd = tskCmdFresh) (hid : findServerId s id = none) :
    t = { s with forks := env.forks } ∨ ∃ k c, Works k { s with forks := env.forks } c t ∧
      (t.tSvrTab k = .clear ∨ ∃ e, Registers s k e (.cmd env cmd id) ∧
        (t.tSvrTab k).reg = e.reg ∧ (t.tSvrTab k).pidTot = e.pidTot ∧ c = e.pidTot.toNat) := by
  rw [startUnknown] at h
  split at h
  · exact .inl (Prod.mk.inj (Option.some.inj h)).2.symm
  · next k hk =>
    obtain ⟨c, hworks, hfail, hok⟩ := runOneTask_works h
    refine .inr ⟨k, c, hworks, ?_⟩
    rcases eq_or_ne rc 0 with h0 | hne
    · obtain ⟨lines, e, htask, hone, hc, hreg, hpid⟩ := hok h0
      obtain ⟨lines', e', htask', hone', hstart⟩ := (runOneTask_eq_zero_iff h).1 h0
      rw [htask] at htask'
      obtain rfl := Option.some.inj htask'
      rw [hone] at hone'
      obtain rfl := Option.some.inj hone'
      exact .inr ⟨e, ⟨lines, htask, .inl ⟨hcmd, hid, hk, hone, hstart⟩⟩, hreg, hpid, hc⟩
    · exact .inl (hfail hne)

/-- `TSK_CMD_FRESH` of an id in the table works for its entry when the processes were stopped. -/
theorem runTaskId_registers {env : Env} {id rc : ℤ}
    (h : runTaskId env (stopServer { s with forks := env.forks } k) k = some (rc, t))
    (hid : findServerId s id = some k) :
    ∃ c, Works k (stopServer { s with forks := env.forks } k) c t ∧
      (t.tSvrTab k = .clear ∨ ∃ e lines, env.task = some lines ∧
        Registers s k e (.cmd env tskCmdFresh id) ∧ (t.tSvrTab k).reg = e.reg ∧
        (t.tSvrTab k).pidTot = e.pidTot ∧ c = freshTotal lines (s.tSvrTab k)) := by
  obtain ⟨c, hworks, hfail, hok⟩ := runTaskId_works h
  refine ⟨c, hworks, ?_⟩
  rcases eq_or_ne rc 0 with h0 | hne
  · have hcore := stopServer_core { s with forks := env.forks } k
    have hfresh (lines : List (List UInt8)) := freshEntry_core lines hcore
    obtain ⟨lines, htask, hc, hreg, hpid⟩ := hok h0
    obtain ⟨lines', htask', hall, hstart⟩ := (runTaskId_eq_zero_iff h).1 h0
    rw [htask] at htask'
    obtain rfl := Option.some.inj htask'
    rw [freshOk_core _ _ hcore] at hall
    rw [freshTotal_core _ hcore] at hstart hc
    exact .inr ⟨_, lines, htask, ⟨lines, htask, .inr ⟨rfl, hid, rfl, hall, hstart⟩⟩,
      hreg.trans (reg_of_core (hfresh lines)), hpid.trans (congrArg (·.pidTot) (hfresh lines)), hc⟩
  · exact .inl (hfail hne)

theorem cmd_regStep {env : Env} {cmd id rc : ℤ}
    (h : governor env cmd id { s with forks := env.forks } = some (rc, t)) :
    RegStep s (.cmd env cmd id) t := by
  rcases governor_cases h with ⟨k, hid, ⟨-, hrun⟩ | ⟨-, rfl⟩ | ⟨rfl, hrun⟩⟩ | ⟨hid, hcmd, hrun⟩ | rfl
  · exact regStep_of_same fun j ↦ (startKnown_reg hrun j).trans rfl
  · exact regStep_of_same fun j ↦ stopServer_reg _ _ j
  · obtain ⟨c, hworks, hk⟩ := runTaskId_registers hrun hid
    refine ⟨k, fun j hj ↦ by rw [hworks.tSvrTab_of_ne hj, stopServer_reg], .inr ?_⟩
    exact hk.imp_right fun ⟨e, _, _, he, hreg, _⟩ ↦ ⟨e, he, hreg⟩
  · rcases startUnknown_registers hrun hcmd hid with rfl | ⟨k, c, hworks, hk⟩
    · exact regStep_of_same fun _ ↦ rfl
    · refine ⟨k, fun j hj ↦ by rw [hworks.tSvrTab_of_ne hj], .inr ?_⟩
      exact hk.imp_right fun ⟨e, he, hreg, _⟩ ↦ ⟨e, he, hreg⟩
  · exact regStep_of_same fun _ ↦ rfl

/-- **Registered fields in a step.** -/
theorem govStep_reg (h : govStep s a = some t) : RegStep s a t := by
  cases a with
  | exit pid =>
    rw [govStep] at h
    split at h
    · obtain rfl := Option.some.inj h
      exact regStep_of_same fun _ ↦ rfl
    · cases h
  | collect env x => exact collect_regStep h
  | cmd env cmd id =>
    obtain ⟨⟨rc, t'⟩, hgov, rfl⟩ := Option.map_eq_some_iff.1 h
    exact cmd_regStep hgov

/-! ### What steps preserve -/

/-- The indices in `p` hold different ids. -/
def DistinctIds (p : Fin n → Prop) (s : Sys n m) : Prop :=
  ∀ i j, p i → p j → i ≠ j → (s.tSvrTab i).svrid ≠ -1 → (s.tSvrTab i).svrid ≠ (s.tSvrTab j).svrid

variable {p : Fin n → Prop}

/-- **Ids stay different** when what is registered has an id that no other index in `p` holds. -/
theorem RegStep.distinctIds (h : RegStep s a t) (hs : DistinctIds p s)
    (hfree : ∀ k e, Registers s k e a → e.svrid ≠ -1 → ∀ j, p j → j ≠ k →
      (s.tSvrTab j).svrid ≠ e.svrid) : DistinctIds p t := by
  obtain ⟨k, hother, hk⟩ := h
  have hsame {j : Fin n} (hj : j ≠ k) : (t.tSvrTab j).svrid = (s.tSvrTab j).svrid :=
    congrArg (·.svrid) (hother j hj)
  -- the id at `k` is an old one, none, or a free one
  have hnew {j : Fin n} (hpk : p k) (hpj : p j) (hj : j ≠ k) (hid : (t.tSvrTab k).svrid ≠ -1) :
      (s.tSvrTab j).svrid ≠ (t.tSvrTab k).svrid := by
    rcases hk with heq | hclear | ⟨e, he, heq⟩
    · have hidk : (t.tSvrTab k).svrid = (s.tSvrTab k).svrid := congrArg (·.svrid) heq
      rw [hidk] at hid ⊢
      exact (hs k j hpk hpj hj.symm hid).symm
    · rw [hclear] at hid
      exact absurd rfl hid
    · have hidk : (t.tSvrTab k).svrid = e.svrid := congrArg (·.svrid) heq
      rw [hidk] at hid ⊢
      exact hfree k e he hid j hpj hj
  intro i j hpi hpj hij hid
  rcases eq_or_ne i k with rfl | hik
  · rw [hsame hij.symm]
    exact (hnew hpi hpj hij.symm hid).symm
  · rcases eq_or_ne j k with rfl | hjk
    · rw [hsame hik] at hid ⊢
      intro heq
      exact hnew hpj hpi hik (heq ▸ hid) heq
    · rw [hsame hik] at hid
      rw [hsame hik, hsame hjk]
      exact hs i j hpi hpj hij hid

/-- **Properties of registered fields stay** when storing a line keeps them. -/
theorem RegStep.forall {P : SvrTab → Prop} (hcongr : ∀ e e', e.reg = e'.reg → P e → P e')
    (h : RegStep s a t) (hs : ∀ j, p j → P (s.tSvrTab j)) (hclear : P .clear)
    (hnew : ∀ k e, p k → Registers s k e a → P e) : ∀ j, p j → P (t.tSvrTab j) := by
  obtain ⟨k, hother, hk⟩ := h
  intro j hj
  rcases eq_or_ne j k with rfl | hjk
  · rcases hk with heq | hcl | ⟨e, he, heq⟩
    · exact hcongr _ _ heq.symm (hs j hj)
    · rw [hcl]
      exact hclear
    · exact hcongr _ _ heq.symm (hnew j e hj he)
  · exact hcongr _ _ (hother j hjk).symm (hs j hj)

end Step

end Sunda
