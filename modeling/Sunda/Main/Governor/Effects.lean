import Sunda.Main.Governor.Commands

/-!
# What the Governor's functions do to the tables

Everything that `server_run`, `run_task_id` and `run_one_task` do for the server at index `k` is a
sequence of writes to entry `k` of the server table, of starts that fill a free pid entry, and of
starts that fail and leave a free pid entry free. `Works k s c s'` says that `s'` arises from `s` in
this way with `c` started processes. `serverRun_ran`, `runOneTask_works` and `runTaskId_works`
establish it; what other servers and their processes notice follows by one induction each.

`serverRun_ran` also says what `server_run` leaves in the server's own entry, and
`serverStartPid_cases` what the function below it can do.
-/

namespace Sunda

open Bytes

variable {n m : ℕ}

/-! ### Searches -/

theorem serverFindPid_eq_some {s : Sys n m} {pid : ℤ} {i : Fin m}
    (h : serverFindPid s pid = some i) : i.val ≠ 0 ∧ (s.tSvrPid i).pid = pid := by
  obtain ⟨h0, hp, -⟩ := Slots.find_eq_some_iff.1 h
  exact ⟨h0, eq_of_beq hp⟩

theorem serverGetPidentry_eq_some {s : Sys n m} {i : Fin m} (h : serverGetPidentry s = some i) :
    i.val ≠ 0 ∧ (s.tSvrPid i).pid = -1 :=
  serverFindPid_eq_some h

theorem findServerId_eq_some {s : Sys n m} {id : ℤ} {k : Fin n} (h : findServerId s id = some k) :
    k.val ≠ 0 ∧ (s.tSvrTab k).svrid = id := by
  obtain ⟨h0, hp, -⟩ := Slots.find_eq_some_iff.1 h
  exact ⟨h0, eq_of_beq hp⟩

theorem findServerId_eq_none {s : Sys n m} {id : ℤ} (h : findServerId s id = none) {k : Fin n}
    (hk : k.val ≠ 0) : (s.tSvrTab k).svrid ≠ id :=
  ne_of_beq_false (Slots.find_eq_none_iff.1 h k hk)

theorem serverGetIdentry_eq_some {s : Sys n m} {k : Fin n} (h : serverGetIdentry s = some k) :
    k.val ≠ 0 ∧ (s.tSvrTab k).svrid = -1 :=
  findServerId_eq_some h

/-! ### `register_server` -/

/-- The fields of an entry that only `register_server` stores. -/
def SvrTab.reg (e : SvrTab) : SvrTab :=
  { e with pidTot := 0, state := .clear, type := 0, timeout := 0 }

/-! ### One start -/

/-- The next `fork` gives a process. -/
def Sys.forkOk (s : Sys n m) : Bool :=
  s.forks.head?.any fun f ↦ decide (0 < f.pid) && !s.owns f.pid

/-- The state after `server_start_pid` at the pid entry `i`. -/
def Sys.started (s : Sys n m) (k : Fin n) (i : Fin m) (f : Fork) (forks : List Fork) : Sys n m :=
  { s with forks := forks, live := ⟨f.pid, k⟩ :: s.live }.setPid i
    { s.tSvrPid i with pid := f.pid, lastStart := f.now }

theorem serverStartPid_cases (s : Sys n m) (k : Fin n) (i : Fin m) :
    (∃ f forks, s.forks = f :: forks ∧ s.forkOk = true ∧ 0 < f.pid ∧ s.owns f.pid = false ∧
      serverStartPid s k i = .ok (s.started k i f forks)) ∨
    ∃ forks, s.forkOk = false ∧ serverStartPid s k i = .error { s with forks := forks } := by
  rw [serverStartPid, serverLoad.eq_def]
  cases hf : s.forks with
  | nil =>
    refine .inr ⟨[], by simp [Sys.forkOk, hf], ?_⟩
    show Except.error s = Except.error { s with forks := [] }
    rw [← hf]
  | cons f forks =>
    dsimp only
    by_cases hok : 0 < f.pid ∧ s.owns f.pid = false
    · rw [if_pos hok]
      exact .inl ⟨f, forks, rfl, by simp [Sys.forkOk, hf, hok], hok.1, hok.2, rfl⟩
    · rw [if_neg hok]
      refine .inr ⟨forks, ?_, rfl⟩
      rw [← Bool.not_eq_true]
      simpa [Sys.forkOk, hf] using hok

/-! ### Work for one server -/

section Works

variable [NeZero n]

/-- A free pid entry filled with a new process of server `k`. -/
def Sys.fill (s : Sys n m) (k : Fin n) (i : Fin m) (seq : ℤ) (f : Fork) (forks : List Fork) :
    Sys n m :=
  { s with forks := forks, live := ⟨f.pid, k⟩ :: s.live }.setPid i
    { s.tSvrPid i with
      pid := f.pid
      svrid := (s.tSvrTab k).svrid
      svrpos := k
      seq := seq
      lastStart := f.now }

/-- A free pid entry after a start that failed. -/
def Sys.abort (s : Sys n m) (i : Fin m) (forks : List Fork) : Sys n m :=
  { s with forks := forks }.setPid i .clear

/-- Writes to the entry of server `k` and starts of its processes, `c` of them with success. -/
inductive Works (k : Fin n) (s : Sys n m) : ℕ → Sys n m → Prop
  | refl : Works k s 0 s
  | svr {c : ℕ} {t : Sys n m} (e : SvrTab) : Works k s c t → Works k s c (t.setSvr k e)
  | fill {c : ℕ} {t : Sys n m} {i : Fin m} {f : Fork} (seq : ℤ) (forks : List Fork) :
    Works k s c t → serverGetPidentry t = some i → 0 < f.pid → t.owns f.pid = false →
      Works k s (c + 1) (t.fill k i seq f forks)
  | abort {c : ℕ} {t : Sys n m} {i : Fin m} (forks : List Fork) :
    Works k s c t → serverGetPidentry t = some i → Works k s c (t.abort i forks)

variable {k : Fin n} {c d : ℕ} {s t u : Sys n m}

theorem Works.trans (h : Works k s c t) (h' : Works k t d u) : Works k s (c + d) u := by
  induction h' with
  | refl => exact h
  | svr e _ ih => exact .svr e ih
  | fill seq forks _ hi hf ho ih => exact .fill seq forks ih hi hf ho
  | abort forks _ hi ih => exact .abort forks ih hi

/-! ### What other servers notice -/

theorem Works.tSvrTab_of_ne (h : Works k s c t) {j : Fin n} (hj : j ≠ k) :
    t.tSvrTab j = s.tSvrTab j := by
  induction h with
  | refl => rfl
  | svr e _ ih => rw [Sys.setSvr_of_ne _ _ hj, ih]
  | fill _ _ _ _ _ _ ih => exact ih
  | abort _ _ _ ih => exact ih

/-- A used pid entry, and that of the Governor, stay as they are. -/
theorem Works.tSvrPid_of_used (h : Works k s c t) {i : Fin m}
    (hi : (s.tSvrPid i).pid ≠ -1 ∨ i.val = 0) : t.tSvrPid i = s.tSvrPid i := by
  induction h with
  | refl => rfl
  | svr _ _ ih => exact ih
  | @fill _ t l _ _ _ _ hl _ _ ih =>
    obtain ⟨h0, hfree⟩ := serverGetPidentry_eq_some hl
    have hne : i ≠ l := by
      rintro rfl
      rw [ih] at hfree
      exact hi.elim (· hfree) h0
    rw [Sys.fill, Sys.setPid_of_ne _ _ hne]
    exact ih
  | @abort _ t l _ _ hl ih =>
    obtain ⟨h0, hfree⟩ := serverGetPidentry_eq_some hl
    have hne : i ≠ l := by
      rintro rfl
      rw [ih] at hfree
      exact hi.elim (· hfree) h0
    rw [Sys.abort, Sys.setPid_of_ne _ _ hne]
    exact ih

/-- A pid entry that changed was free, and is free again or runs a new process of the server. -/
theorem Works.tSvrPid_cases (h : Works k s c t) (i : Fin m) :
    t.tSvrPid i = s.tSvrPid i ∨ (s.tSvrPid i).pid = -1 ∧ i.val ≠ 0 ∧
      (t.tSvrPid i = .clear ∨
        (t.tSvrPid i).svrpos = k ∧ 0 < (t.tSvrPid i).pid ∧ ⟨(t.tSvrPid i).pid, k⟩ ∈ t.live) := by
  induction h with
  | refl => exact .inl rfl
  | svr _ _ ih => exact ih
  | @fill _ t l f _ _ _ hl hf _ ih =>
    obtain ⟨h0, hfree⟩ := serverGetPidentry_eq_some hl
    rcases eq_or_ne i l with rfl | hne
    · have hold : (s.tSvrPid i).pid = -1 := by
        rcases ih with ih | ih
        · rwa [← ih]
        · exact ih.1
      refine .inr ⟨hold, h0, .inr ?_⟩
      rw [Sys.fill, Sys.setPid_self]
      exact ⟨rfl, hf, List.mem_cons_self⟩
    · rw [Sys.fill, Sys.setPid_of_ne _ _ hne]
      rcases ih with ih | ⟨hold, hi0, ih | ⟨hpos, hpid, hmem⟩⟩
      · exact .inl ih
      · exact .inr ⟨hold, hi0, .inl ih⟩
      · exact .inr ⟨hold, hi0, .inr ⟨hpos, hpid, List.mem_cons_of_mem _ hmem⟩⟩
  | @abort _ t l _ _ hl ih =>
    obtain ⟨h0, hfree⟩ := serverGetPidentry_eq_some hl
    rcases eq_or_ne i l with rfl | hne
    · have hold : (s.tSvrPid i).pid = -1 := by
        rcases ih with ih | ih
        · rwa [← ih]
        · exact ih.1
      refine .inr ⟨hold, h0, .inl ?_⟩
      rw [Sys.abort, Sys.setPid_self]
    · rw [Sys.abort, Sys.setPid_of_ne _ _ hne]
      exact ih

/-- Without a new process, the used pid entries are the old ones. -/
theorem Works.tSvrPid_of_zero (h : Works k s 0 t) (i : Fin m) :
    t.tSvrPid i = s.tSvrPid i ∨ (t.tSvrPid i).pid = -1 ∧ (s.tSvrPid i).pid = -1 := by
  generalize hc : 0 = c at h
  induction h with
  | refl => exact .inl rfl
  | svr _ _ ih => exact ih hc
  | fill => cases hc
  | @abort _ t l _ _ hl ih =>
    obtain ⟨-, hfree⟩ := serverGetPidentry_eq_some hl
    rcases eq_or_ne i l with rfl | hne
    · refine .inr ⟨by rw [Sys.abort, Sys.setPid_self]; rfl, ?_⟩
      rcases ih hc with heq | ⟨-, hs⟩
      · rwa [← heq]
      · exact hs
    · rw [Sys.abort, Sys.setPid_of_ne _ _ hne]
      exact ih hc

/-- A new process has its pid entry, at the server that was worked for. -/
theorem Works.exists_new (h : Works k s c t) (hc : 0 < c) :
    ∃ i : Fin m, i.val ≠ 0 ∧ (t.tSvrPid i).svrpos = k ∧ 0 < (t.tSvrPid i).pid ∧
      ⟨(t.tSvrPid i).pid, k⟩ ∈ t.live := by
  induction h with
  | refl => cases hc
  | svr _ _ ih => exact ih hc
  | @fill _ t l _ _ _ _ hl hf _ _ =>
    refine ⟨l, (serverGetPidentry_eq_some hl).1, ?_⟩
    rw [Sys.fill, Sys.setPid_self]
    exact ⟨rfl, hf, List.mem_cons_self⟩
  | @abort _ t l _ _ hl ih =>
    obtain ⟨i, h0, hpos, hpid, hlive⟩ := ih hc
    have hne : i ≠ l := by
      rintro rfl
      rw [(serverGetPidentry_eq_some hl).2] at hpid
      exact absurd hpid (by decide)
    refine ⟨i, h0, ?_⟩
    rw [Sys.abort, Sys.setPid_of_ne _ _ hne]
    exact ⟨hpos, hpid, hlive⟩

/-! ### Counting processes -/

/-- The number of used pid entries from 1 on that belong to server `j`. -/
def running (s : Sys n m) (j : Fin n) : ℕ :=
  Slots.count (fun p ↦ p.svrpos == j && p.pid != -1) s.tSvrPid

/-- **Started processes are counted** for their server and for no other. -/
theorem Works.running (h : Works k s c t) (j : Fin n) :
    running t j = running s j + if j = k then c else 0 := by
  induction h with
  | refl => simp
  | svr _ _ ih => exact ih
  | @fill c t l f seq _ _ hl hf _ ih =>
    obtain ⟨h0, hfree⟩ := serverGetPidentry_eq_some hl
    have hcount := Slots.count_update_of_neg
      (p := fun p : ServerPid n ↦ p.svrpos == j && p.pid != -1) (t := t.tSvrPid) h0 (by simp [hfree])
      { t.tSvrPid l with
        pid := f.pid
        svrid := (t.tSvrTab k).svrid
        svrpos := k
        seq := seq
        lastStart := f.now }
    rw [Sunda.running, Sys.fill, Sys.setPid, hcount, ← Sunda.running, ih]
    have hpid : f.pid ≠ -1 := by omega
    rcases eq_or_ne j k with rfl | hjk
    · simp [hpid]; omega
    · simp [hjk, hjk.symm]
  | @abort _ t l _ _ hl ih =>
    obtain ⟨h0, hfree⟩ := serverGetPidentry_eq_some hl
    rw [← ih, Sunda.running, Sys.abort, Sys.setPid]
    exact Slots.count_update_of_eq (by simp [hfree, ServerPid.clear])

/-! ### `server_run` -/

/-- A process can be started: there is a free pid entry, and `fork` gives a process. -/
def Sys.canStart (s : Sys n m) : Bool :=
  (serverGetPidentry s).isSome && s.forkOk

/-- The outcome of a run of at most `left` starts for server `k`, whose entry was `e`: `c` processes
were started, all of them exactly when the return value is 0. -/
structure Ran (k : Fin n) (s : Sys n m) (left : ℕ) (e : SvrTab) (rc : ℤ) (t : Sys n m) (c : ℕ) :
    Prop where
  works : Works k s c t
  all : rc = 0 → c = left
  part : rc ≠ 0 → c < left
  pos : 0 < c ↔ left ≠ 0 ∧ s.canStart = true
  idle : left = 0 → t = s.setSvr k (t.tSvrTab k)
  entry : t.tSvrTab k = { e with state := if 0 < c then .idle else e.state }

theorem serverRunLoop_ran {left : ℕ} {i rc : ℤ} (h : serverRunLoop k left i s = (rc, t)) :
    ∃ c, Ran k s left (s.tSvrTab k) rc t c := by
  induction left generalizing i s with
  | zero =>
    obtain ⟨rfl, rfl⟩ := Prod.mk.inj h
    exact ⟨0, .refl, fun _ ↦ rfl, fun h0 ↦ absurd rfl h0, by simp,
      fun _ ↦ (Sys.setSvr_eq_self ..).symm, by simp⟩
  | succ left ih =>
    rw [serverRunLoop] at h
    split at h
    · next hl =>
      obtain ⟨rfl, rfl⟩ := Prod.mk.inj h
      exact ⟨0, .refl, fun h0 ↦ absurd h0 (by decide), fun _ ↦ Nat.succ_pos _,
        by simp [Sys.canStart, hl], nofun, by simp⟩
    · next l hl =>
      dsimp only at h
      -- the entry is prepared, then the start succeeds or fails
      rcases serverStartPid_cases (s.setPid l { s.tSvrPid l with
          svrid := (s.tSvrTab k).svrid, seq := i, svrpos := k }) k l with
        ⟨f, forks, -, hok, hf, ho, heq⟩ | ⟨forks, hok, heq⟩
      · rw [heq] at h
        obtain ⟨c, hc⟩ := ih h
        have hfill : Works k s 1 (s.fill k l i f forks) := .fill i forks .refl hl hf ho
        have hsame : Sys.started (s.setPid l { s.tSvrPid l with
            svrid := (s.tSvrTab k).svrid, seq := i, svrpos := k }) k l f forks =
            s.fill k l i f forks := by
          simp [Sys.started, Sys.fill, Sys.setPid]
        have hstart : s.canStart = true := by
          rw [Sys.canStart, hl]
          exact hok
        have hentry := hc.entry
        rw [hsame] at hentry
        refine ⟨c + 1, ?_, fun hrc ↦ by rw [hc.all hrc], fun hrc ↦ by have := hc.part hrc; omega,
          by simp [hstart], nofun, ?_⟩
        · rw [Nat.add_comm]
          exact (Works.svr _ hfill).trans (hsame ▸ hc.works)
        · rw [hentry, Sys.setSvr_self]
          simp [Sys.fill]
      · rw [heq] at h
        obtain ⟨rfl, rfl⟩ := Prod.mk.inj h
        have habort : Works k s 0 (s.abort l forks) := .abort forks .refl hl
        have hsame : Sys.setPid { s.setPid l { s.tSvrPid l with
            svrid := (s.tSvrTab k).svrid, seq := i, svrpos := k } with forks := forks } l .clear =
            s.abort l forks := by
          simp [Sys.abort, Sys.setPid]
        have hstart : s.canStart = false := by
          rw [Sys.canStart, hl]
          exact hok
        rw [hsame]
        exact ⟨0, habort, fun h0 ↦ absurd h0 (by decide), fun _ ↦ Nat.succ_pos _, by simp [hstart],
          nofun, by simp [Sys.abort]⟩

/-- **`server_run`** starts the processes of its server, all of them or some. -/
theorem serverRun_ran {rc : ℤ} (h : serverRun s k = (rc, t)) :
    ∃ c, Ran k s (s.tSvrTab k).pidTot.toNat { s.tSvrTab k with type := svrPerm } rc t c := by
  rw [serverRun] at h
  obtain ⟨c, hc⟩ := serverRunLoop_ran h
  have hentry := hc.entry
  rw [Sys.setSvr_self] at hentry
  refine ⟨c, ?_, fun hrc ↦ ?_, fun hrc ↦ ?_, ?_, fun h0 ↦ ?_, hentry⟩
  · rw [← Nat.zero_add c]
    exact (Works.svr _ .refl).trans hc.works
  · simpa using hc.all hrc
  · simpa using hc.part hrc
  · have hpos := hc.pos
    rw [Sys.setSvr_self] at hpos
    exact hpos
  · have hidle := hc.idle (by simpa using h0)
    rwa [Sys.setSvr_setSvr] at hidle

/-! ### `run_one_task` -/

/-- What the loop of `run_one_task` has made of a server entry when it finds the id, if it does not
fail before. -/
def oneEntry (exec : List UInt8 → Bool) (tuxId : ℤ) : List (List UInt8) → SvrTab → Option SvrTab
  | [], _ => none
  | buf :: rest, e =>
    (registerServer exec e buf).bind fun r ↦
      if r.1 ≠ 0 then none
      else if r.2.svrid = tuxId then some r.2
      else oneEntry exec tuxId rest r.2

theorem oneEntry_svrid {exec : List UInt8 → Bool} {tuxId : ℤ} {lines : List (List UInt8)}
    {e e' : SvrTab} (h : oneEntry exec tuxId lines e = some e') : e'.svrid = tuxId := by
  induction lines generalizing e with
  | nil => cases h
  | cons buf rest ih =>
    obtain ⟨r, -, hr⟩ := Option.bind_eq_some_iff.1 h
    split at hr
    · cases hr
    · split at hr
      · next hid => rwa [← Option.some.inj hr]
      · exact ih hr

/-- Every entry that was registered has the state that `register_server` stores. -/
theorem oneEntry_state {exec : List UInt8 → Bool} {tuxId : ℤ} {lines : List (List UInt8)}
    {e e' : SvrTab} (h : oneEntry exec tuxId lines e = some e') : e'.state = .avail := by
  induction lines generalizing e with
  | nil => cases h
  | cons buf rest ih =>
    obtain ⟨⟨rc, e₁⟩, hreg, hr⟩ := Option.bind_eq_some_iff.1 h
    split at hr
    · cases hr
    · next hrc =>
      split at hr
      · obtain rfl := Option.some.inj hr
        obtain ⟨rfl, -⟩ | ⟨r, -, rfl⟩ := of_registerServer hreg
        · exact absurd (show (1 : ℤ) ≠ 0 by decide) hrc
        · rfl
      · exact ih hr

/-- **`run_one_task`** fails before it runs anything and clears the entry, or it runs the server of
`oneEntry`; if that fails the entry is cleared, too. -/
theorem runOneLoop_cases {exec : List UInt8 → Bool} {id rc : ℤ} {lines : List (List UInt8)}
    (h : runOneLoop exec k id lines s = some (rc, t)) :
    (oneEntry exec id lines (s.tSvrTab k) = none ∧ rc ≠ 0 ∧ t = s.setSvr k .clear) ∨
    ∃ e u rc' c, oneEntry exec id lines (s.tSvrTab k) = some e ∧
      Ran k (s.setSvr k e) e.pidTot.toNat { e with type := svrPerm } rc' u c ∧
      (rc' = 0 ∧ rc = 0 ∧ t = u ∨ rc' ≠ 0 ∧ rc = sysOs ∧ t = u.setSvr k .clear) := by
  induction lines generalizing s with
  | nil =>
    obtain ⟨rfl, rfl⟩ := Prod.mk.inj (Option.some.inj h)
    exact .inl ⟨rfl, by decide, rfl⟩
  | cons buf rest ih =>
    obtain ⟨⟨rc₁, e⟩, hreg, hrest⟩ := Option.bind_eq_some_iff.1 h
    dsimp only at hrest
    rw [oneEntry, hreg, Option.bind_some]
    split at hrest
    · next hrc =>
      obtain ⟨rfl, rfl⟩ := Prod.mk.inj (Option.some.inj hrest)
      exact .inl ⟨if_pos hrc, by decide, by rw [Sys.setSvr_setSvr]⟩
    · next hrc =>
      rw [Sys.setSvr_self] at hrest
      rw [if_neg hrc]
      dsimp only
      split at hrest
      · next hid =>
        rw [if_pos hid]
        generalize hrun : serverRun (s.setSvr k e) k = run at hrest
        obtain ⟨rc', u⟩ := run
        obtain ⟨c, hc⟩ := serverRun_ran hrun
        rw [Sys.setSvr_self] at hc
        refine .inr ⟨e, u, rc', c, rfl, hc, ?_⟩
        split at hrest
        · next hne =>
          obtain ⟨rfl, rfl⟩ := Prod.mk.inj (Option.some.inj hrest)
          exact .inr ⟨hne, rfl, rfl⟩
        · next heq =>
          obtain ⟨rfl, rfl⟩ := Prod.mk.inj (Option.some.inj hrest)
          exact .inl ⟨not_not.1 heq, rfl, rfl⟩
      · next hid =>
        rw [if_neg hid]
        have hih := ih hrest
        rw [Sys.setSvr_self] at hih
        simpa only [Sys.setSvr_setSvr] using hih

/-- `run_one_task`: on success the entry of `oneEntry` is in the table, with all its processes. -/
theorem runOneTask_works {env : Env} {id rc : ℤ} (h : runOneTask env s k id = some (rc, t)) :
    ∃ c, Works k s c t ∧ (rc ≠ 0 → t.tSvrTab k = .clear) ∧ (rc = 0 → ∃ lines e,
      env.task = some lines ∧ oneEntry env.exec id lines (s.tSvrTab k) = some e ∧
      c = e.pidTot.toNat ∧ (t.tSvrTab k).reg = e.reg ∧ (t.tSvrTab k).pidTot = e.pidTot) := by
  rw [runOneTask] at h
  split at h
  · obtain ⟨rfl, rfl⟩ := Prod.mk.inj (Option.some.inj h)
    exact ⟨0, .svr _ .refl, fun _ ↦ Sys.setSvr_self .., fun h0 ↦ absurd h0 (by decide)⟩
  · next lines htask =>
    rcases runOneLoop_cases h with ⟨-, hrc, rfl⟩ | ⟨e, u, rc', c, hone, hran, hcase⟩
    · exact ⟨0, .svr _ .refl, fun _ ↦ Sys.setSvr_self .., fun h0 ↦ absurd h0 hrc⟩
    · have hworks : Works k s c u := Nat.zero_add c ▸ (Works.svr e .refl).trans hran.works
      rcases hcase with ⟨rfl, rfl, rfl⟩ | ⟨-, rfl, rfl⟩
      · refine ⟨c, hworks, fun h0 ↦ absurd rfl h0, fun _ ↦ ⟨lines, e, htask, hone, hran.all rfl, ?_⟩⟩
        rw [hran.entry]
        exact ⟨rfl, rfl⟩
      · exact ⟨c, .svr _ hworks, fun _ ↦ Sys.setSvr_self .., fun h0 ↦ absurd h0 (by decide)⟩

/-! ### `run_task_id` -/

/-- A line with the program name of the entry. -/
def SvrTab.named (e : SvrTab) (buf : List UInt8) : Bool :=
  (lineName buf).any fun sSvrName ↦ strncmpEq tuxNameLen e.name.toList sSvrName

/-- What the lines with the program name of the entry make of it, when all of them are stored. -/
def freshEntry : List (List UInt8) → SvrTab → SvrTab
  | [], e => e
  | buf :: rest, e =>
    if e.named buf then freshEntry rest ((parseLine buf).elim e fun r ↦ r.2.store e)
    else freshEntry rest e

/-- How many processes the lines with the program name of the entry ask for together. -/
def freshTotal : List (List UInt8) → SvrTab → ℕ
  | [], _ => 0
  | buf :: rest, e =>
    if e.named buf then
      (parseLine buf).elim 0 fun r ↦ r.2.pidTot.toNat + freshTotal rest (r.2.store e)
    else freshTotal rest e

/-- Whether `run_task_id` comes to start a process: a line with the program name of the entry asks
for one, and it and the ones before it can be registered. -/
def freshStarts (exec : List UInt8 → Bool) : List (List UInt8) → SvrTab → Bool
  | [], _ => false
  | buf :: rest, e =>
    if e.named buf then
      (registerServer exec e buf).elim false fun r ↦
        decide (r.1 = 0) && (decide (0 < r.2.pidTot) || freshStarts exec rest r.2)
    else freshStarts exec rest e

/-- The fields of the entry that a run of its processes leaves alone. -/
def SvrTab.core (e : SvrTab) : SvrTab :=
  { e with state := .clear, type := 0 }

theorem SrvParm.store_core (r : SrvParm) {e e' : SvrTab} (h : e.core = e'.core) :
    (r.store e).core = (r.store e').core := by
  have hid : e.svrid = e'.svrid := congrArg (·.svrid) h
  have htype : e.msgType = e'.msgType := congrArg (·.msgType) h
  simp [SrvParm.store, SvrTab.core, hid, htype]

theorem SvrTab.named_core {e e' : SvrTab} (h : e.core = e'.core) (buf : List UInt8) :
    e.named buf = e'.named buf := by
  have hname : e.name = e'.name := congrArg (·.name) h
  rw [SvrTab.named, SvrTab.named, hname]

theorem freshEntry_core (lines : List (List UInt8)) {e e' : SvrTab} (h : e.core = e'.core) :
    (freshEntry lines e).core = (freshEntry lines e').core := by
  induction lines generalizing e e' with
  | nil => exact h
  | cons buf rest ih =>
    rw [freshEntry, freshEntry, SvrTab.named_core h]
    split
    · cases parseLine buf with
      | none => exact ih h
      | some r => exact ih (r.2.store_core h)
    · exact ih h

theorem freshTotal_core (lines : List (List UInt8)) {e e' : SvrTab} (h : e.core = e'.core) :
    freshTotal lines e = freshTotal lines e' := by
  induction lines generalizing e e' with
  | nil => rfl
  | cons buf rest ih =>
    rw [freshTotal, freshTotal, SvrTab.named_core h]
    split
    · cases parseLine buf with
      | none => rfl
      | some r =>
        show r.2.pidTot.toNat + _ = r.2.pidTot.toNat + _
        rw [ih (r.2.store_core h)]
    · exact ih h

/-- Entries with the same core are registered with the same outcome, and have the same core then. -/
theorem registerServer_core (exec : List UInt8 → Bool) (buf : List UInt8) {e e' : SvrTab}
    (h : e.core = e'.core) :
    (registerServer exec e buf).map (fun r ↦ (r.1, r.2.core)) =
      (registerServer exec e' buf).map fun r ↦ (r.1, r.2.core) := by
  rw [registerServer, registerServer]
  cases lineName buf with
  | none => rfl
  | some name =>
    show Option.map _ (if _ then _ else _) = Option.map _ (if _ then _ else _)
    split
    · simp [h]
    · cases parseLine buf with
      | none => rfl
      | some r => simp [r.2.store_core h]

theorem freshStarts_core (exec : List UInt8 → Bool) (lines : List (List UInt8)) {e e' : SvrTab}
    (h : e.core = e'.core) : freshStarts exec lines e = freshStarts exec lines e' := by
  induction lines generalizing e e' with
  | nil => rfl
  | cons buf rest ih =>
    rw [freshStarts, freshStarts, SvrTab.named_core h]
    split
    · have hreg := registerServer_core exec buf h
      cases hr : registerServer exec e buf with
      | none =>
        rw [hr] at hreg
        rw [Option.map_eq_none_iff.1 hreg.symm]
      | some r =>
        rw [hr, Option.map_some, eq_comm, Option.map_eq_some_iff] at hreg
        obtain ⟨r', hr', heq⟩ := hreg
        obtain ⟨hrc, hcore⟩ := Prod.mk.inj heq
        have hpid : r'.2.pidTot = r.2.pidTot := congrArg (·.pidTot) hcore
        rw [hr', Option.elim_some, Option.elim_some, hrc, hpid, ih hcore]
    · exact ih h

/-- The outcome of the loop of `run_task_id`: `c` processes were started. A failed loop leaves a
cleared entry; the others have stored all lines with the program name and run each of them. -/
structure Reran (exec : List UInt8 → Bool) (lines : List (List UInt8)) (k : Fin n) (s : Sys n m)
    (rc : ℤ) (t : Sys n m) (c : ℕ) : Prop where
  works : Works k s c t
  pos : 0 < c ↔ freshStarts exec lines (s.tSvrTab k) = true ∧ s.canStart = true
  fail : rc ≠ 0 → t.tSvrTab k = .clear
  total : rc = 0 → c = freshTotal lines (s.tSvrTab k)
  entry : rc = 0 → (t.tSvrTab k).core = (freshEntry lines (s.tSvrTab k)).core

section Reran

variable {exec : List UInt8 → Bool} {buf : List UInt8} {rest : List (List UInt8)} {rc : ℤ} {e : SvrTab}

/-- A line of another program is skipped. -/
theorem Reran.skip (hnamed : (s.tSvrTab k).named buf = false) (h : Reran exec rest k s rc t c) :
    Reran exec (buf :: rest) k s rc t c := by
  refine ⟨h.works, ?_, h.fail, ?_, ?_⟩
  · rw [freshStarts, hnamed]
    exact h.pos
  · rw [freshTotal, hnamed]
    exact h.total
  · rw [freshEntry, hnamed]
    exact h.entry

/-- A line that cannot be registered ends the loop. -/
theorem Reran.refused {rc₁ : ℤ} (hnamed : (s.tSvrTab k).named buf = true)
    (hreg : registerServer exec (s.tSvrTab k) buf = some (rc₁, e)) (hrc₁ : rc₁ ≠ 0) (hrc : rc ≠ 0) :
    Reran exec (buf :: rest) k s rc ((s.setSvr k e).setSvr k .clear) 0 := by
  refine ⟨.svr _ (.svr e .refl), ?_, fun _ ↦ Sys.setSvr_self .., fun h0 ↦ absurd h0 hrc,
    fun h0 ↦ absurd h0 hrc⟩
  rw [freshStarts, hnamed, if_pos rfl, hreg, Option.elim_some, decide_eq_false hrc₁]
  simp

/-- So does one whose processes cannot all be started. -/
theorem Reran.failed {rc' : ℤ} (hnamed : (s.tSvrTab k).named buf = true)
    (hreg : registerServer exec (s.tSvrTab k) buf = some (0, e))
    (hran : Ran k (s.setSvr k e) e.pidTot.toNat { e with type := svrPerm } rc' u c) (hrc' : rc' ≠ 0)
    (hrc : rc ≠ 0) : Reran exec (buf :: rest) k s rc (u.setSvr k .clear) c := by
  have hworks : Works k s c u := Nat.zero_add c ▸ (Works.svr e .refl).trans hran.works
  refine ⟨.svr _ hworks, ?_, fun _ ↦ Sys.setSvr_self .., fun h0 ↦ absurd h0 hrc,
    fun h0 ↦ absurd h0 hrc⟩
  have hstart : (s.setSvr k e).canStart = s.canStart := rfl
  have hpos := hran.pos
  have hpart := hran.part hrc'
  have hpid : 0 < e.pidTot := by omega
  rw [hstart] at hpos
  rw [hpos, freshStarts, hnamed, if_pos rfl, hreg, Option.elim_some]
  simp [hpid, show e.pidTot.toNat ≠ 0 by omega]

/-- Otherwise the loop goes on with the processes of the line. -/
theorem Reran.ran (hnamed : (s.tSvrTab k).named buf = true)
    (hreg : registerServer exec (s.tSvrTab k) buf = some (0, e))
    (hran : Ran k (s.setSvr k e) e.pidTot.toNat { e with type := svrPerm } 0 u c)
    (h : Reran exec rest k u rc t d) : Reran exec (buf :: rest) k s rc t (c + d) := by
  have hworks : Works k s c u := Nat.zero_add c ▸ (Works.svr e .refl).trans hran.works
  have hall := hran.all rfl
  have hcore : (u.tSvrTab k).core = e.core := by rw [hran.entry]; rfl
  obtain ⟨h1, -⟩ | ⟨r, hr, rfl⟩ := of_registerServer hreg
  · exact absurd h1 (by decide)
  refine ⟨hworks.trans h.works, ?_, h.fail, fun hrc ↦ ?_, fun hrc ↦ ?_⟩
  · have hstart : (s.setSvr k (r.store (s.tSvrTab k))).canStart = s.canStart := rfl
    have hpos := hran.pos
    have hdpos := h.pos
    rw [hstart] at hpos
    rw [freshStarts_core exec rest hcore] at hdpos
    rw [freshStarts, hnamed, if_pos rfl, hreg, Option.elim_some, decide_eq_true rfl,
      Bool.true_and, Bool.or_eq_true, decide_eq_true_eq]
    by_cases hpid : 0 < (r.store (s.tSvrTab k)).pidTot
    · have hleft : (r.store (s.tSvrTab k)).pidTot.toNat ≠ 0 := by omega
      have hcpos : 0 < c := by omega
      simp [hpid, (hpos.1 hcpos).2, hcpos]
    · -- nothing was started, so the free pid entries are those from before
      have hleft : (r.store (s.tSvrTab k)).pidTot.toNat = 0 := by omega
      obtain rfl : c = 0 := hall.trans hleft
      have hidle : u.canStart = s.canStart := by rw [hran.idle hleft]; rfl
      rw [hidle] at hdpos
      simpa [hpid] using hdpos
  · rw [freshTotal, hnamed, if_pos rfl, hr, Option.elim_some, h.total hrc,
      freshTotal_core rest hcore, hall]
    rfl
  · rw [freshEntry, hnamed, if_pos rfl, hr, Option.elim_some, h.entry hrc]
    exact freshEntry_core rest hcore

theorem runTaskLoop_reran {lines : List (List UInt8)}
    (h : runTaskLoop exec k lines s = some (rc, t)) : ∃ c, Reran exec lines k s rc t c := by
  induction lines generalizing s with
  | nil =>
    obtain ⟨rfl, rfl⟩ := Prod.mk.inj (Option.some.inj h)
    exact ⟨0, .refl, by simp [freshStarts], fun h0 ↦ absurd rfl h0, fun _ ↦ rfl, fun _ ↦ rfl⟩
  | cons buf rest ih =>
    obtain ⟨nm, hnm, hrest⟩ := Option.bind_eq_some_iff.1 h
    have hnamed : (s.tSvrTab k).named buf = strncmpEq tuxNameLen (s.tSvrTab k).name.toList nm := by
      rw [SvrTab.named, hnm, Option.any_some]
    split at hrest
    · next hne =>
      obtain ⟨c, hc⟩ := ih hrest
      exact ⟨c, hc.skip (hnamed.trans hne)⟩
    · next heq =>
      rw [Bool.not_eq_false] at heq
      obtain ⟨⟨rc₁, e⟩, hreg, hrest⟩ := Option.bind_eq_some_iff.1 hrest
      dsimp only at hrest
      split at hrest
      · next hrc₁ =>
        obtain ⟨rfl, rfl⟩ := Prod.mk.inj (Option.some.inj hrest)
        exact ⟨0, .refused (hnamed.trans heq) hreg hrc₁ (by decide)⟩
      · next hrc₁ =>
        obtain rfl : rc₁ = 0 := not_not.1 hrc₁
        generalize hrun : serverRun (s.setSvr k e) k = run at hrest
        obtain ⟨rc', u⟩ := run
        obtain ⟨c, hc⟩ := serverRun_ran hrun
        rw [Sys.setSvr_self] at hc
        dsimp only at hrest
        split at hrest
        · next hrc' =>
          obtain ⟨rfl, rfl⟩ := Prod.mk.inj (Option.some.inj hrest)
          exact ⟨c, .failed (hnamed.trans heq) hreg hc hrc' (by decide)⟩
        · next hrc' =>
          obtain rfl : rc' = 0 := not_not.1 hrc'
          obtain ⟨d, hd⟩ := ih hrest
          exact ⟨c + d, .ran (hnamed.trans heq) hreg hc hd⟩

end Reran

/-- **`run_task_id`**: on success the entry is what the lines with its program name make of it, with
all their processes. -/
theorem runTaskId_works {env : Env} {rc : ℤ} (h : runTaskId env s k = some (rc, t)) :
    ∃ c, Works k s c t ∧ (rc ≠ 0 → t.tSvrTab k = .clear) ∧ (rc = 0 → ∃ lines,
      env.task = some lines ∧ c = freshTotal lines (s.tSvrTab k) ∧
      (t.tSvrTab k).reg = (freshEntry lines (s.tSvrTab k)).reg ∧
      (t.tSvrTab k).pidTot = (freshEntry lines (s.tSvrTab k)).pidTot) := by
  rw [runTaskId] at h
  split at h
  · obtain ⟨rfl, rfl⟩ := Prod.mk.inj (Option.some.inj h)
    exact ⟨0, .svr _ .refl, fun _ ↦ Sys.setSvr_self .., fun h0 ↦ absurd h0 (by decide)⟩
  · next lines htask =>
    obtain ⟨⟨rc', u⟩, hloop, heq⟩ := Option.map_eq_some_iff.1 h
    obtain ⟨c, hc⟩ := runTaskLoop_reran hloop
    split at heq
    · next h0 =>
      obtain rfl : rc' = 0 := h0
      obtain ⟨rfl, rfl⟩ := Prod.mk.inj heq
      refine ⟨c, .svr _ hc.works, fun h0 ↦ absurd rfl h0,
        fun _ ↦ ⟨lines, htask, hc.total rfl, ?_, ?_⟩⟩
      · rw [Sys.setSvr_self]
        show (u.tSvrTab k).core.reg = (freshEntry lines (s.tSvrTab k)).core.reg
        rw [hc.entry rfl]
      · rw [Sys.setSvr_self]
        show (u.tSvrTab k).core.pidTot = (freshEntry lines (s.tSvrTab k)).core.pidTot
        rw [hc.entry rfl]
    · next hne =>
      obtain ⟨rfl, rfl⟩ := Prod.mk.inj heq
      exact ⟨c, hc.works, hc.fail, fun h0 ↦ absurd h0 hne⟩

/-! ### `TSK_CMD_START` of a known id -/

/-- The tables after the type was stored, and `TUX_IDLE` at index `j`. -/
def Sys.marked (s : Sys n m) (k j : Fin n) : Sys n m :=
  let s := s.setSvr k { s.tSvrTab k with type := svrPerm }
  s.setSvr j { s.tSvrTab j with state := .idle }

omit [NeZero n] in
/-- The ids stay. -/
theorem Sys.marked_svrid (s : Sys n m) (k j l : Fin n) :
    ((s.marked k j).tSvrTab l).svrid = (s.tSvrTab l).svrid := by
  rw [marked]
  exact (Sys.setSvr_field _ (·.svrid) (by rfl) l).trans (s.setSvr_field (·.svrid) (by rfl) l)

/-- **`TSK_CMD_START`** of a known id finds no pid entry, fails to start a process, or starts one. The
state is stored in the server entry with the index of the pid entry. -/
theorem startKnown_cases {env : Env} {rc : ℤ} (h : startKnown env s k = some (rc, t)) :
    (serverGetPidentry s = none ∧ rc = sysLimit ∧
      t = s.setSvr k { s.tSvrTab k with type := svrPerm }) ∨
    ∃ l, ∃ hl : l.val < n, serverGetPidentry s = some l ∧
      ((rc = sysOs ∧ ∃ forks, t = ((s.marked k ⟨l, hl⟩).setSvr k
          (setTimeOut env ((s.marked k ⟨l, hl⟩).tSvrTab k))).abort l forks) ∨
        rc = 0 ∧ ∃ f forks, 0 < f.pid ∧ s.owns f.pid = false ∧
          t = ((s.marked k ⟨l, hl⟩).fill k l (s.tSvrPid l).seq f forks).setSvr k
            { setTimeOut env ((s.marked k ⟨l, hl⟩).tSvrTab k) with
              pidTot := ((s.marked k ⟨l, hl⟩).tSvrTab k).pidTot + 1 }) := by
  rw [startKnown] at h
  have hfind : serverGetPidentry (s.setSvr k { s.tSvrTab k with type := svrPerm }) =
    serverGetPidentry s := rfl
  dsimp only at h
  rw [hfind] at h
  split at h
  · next hnone =>
    obtain ⟨rfl, rfl⟩ := Prod.mk.inj (Option.some.inj h)
    exact .inl ⟨hnone, rfl, rfl⟩
  · next l hsome =>
    split at h
    · next hl =>
      refine .inr ⟨l, hl, hsome, ?_⟩
      have hsvrid : ((s.marked k ⟨l, hl⟩).tSvrTab k).svrid = (s.tSvrTab k).svrid := by
        rcases eq_or_ne k ⟨l, hl⟩ with hkl | hkl
        · simp [Sys.marked, ← hkl]
        · simp [Sys.marked, hkl]
      rcases serverStartPid_cases _ k l with ⟨f, forks, -, -, hf, ho, heq⟩ | ⟨forks, -, heq⟩
      · rw [heq] at h
        obtain ⟨rfl, rfl⟩ := Prod.mk.inj (Option.some.inj h)
        refine .inr ⟨rfl, f, forks, hf, ho, ?_⟩
        rw [Sys.fill, hsvrid]
        simp [Sys.started, Sys.setPid, Sys.setSvr, Sys.marked, setTimeOut]
      · rw [heq] at h
        obtain ⟨rfl, rfl⟩ := Prod.mk.inj (Option.some.inj h)
        refine .inl ⟨rfl, forks, ?_⟩
        simp [Sys.abort, Sys.setPid, Sys.setSvr, Sys.marked]
    · cases h

/-- With a pid entry, what follows is work for the server in the marked tables, and the process count
grows with the processes. -/
theorem startKnown_works {env : Env} {rc : ℤ} (h : startKnown env s k = some (rc, t)) :
    (serverGetPidentry s = none ∧ t = s.setSvr k { s.tSvrTab k with type := svrPerm }) ∨
      ∃ l, ∃ hl : l.val < n, ∃ d, serverGetPidentry s = some l ∧
        Works k (s.marked k ⟨l, hl⟩) d t ∧ (t.tSvrTab k).pidTot = (s.tSvrTab k).pidTot + d := by
  have hpidTot (l : Fin n) : ((s.marked k l).tSvrTab k).pidTot = (s.tSvrTab k).pidTot := by
    rw [Sys.marked]
    exact (Sys.setSvr_field _ SvrTab.pidTot (by rfl) k).trans (s.setSvr_field SvrTab.pidTot (by rfl) k)
  rcases startKnown_cases h with ⟨hnone, -, rfl⟩ | ⟨l, hl, hfind, hcase⟩
  · exact .inl ⟨hnone, rfl⟩
  · refine .inr ⟨l, hl, ?_⟩
    rcases hcase with ⟨-, forks, rfl⟩ | ⟨-, f, forks, hf, ho, rfl⟩
    · refine ⟨0, hfind, .abort forks (.svr _ .refl) hfind, ?_⟩
      show (Sys.tSvrTab ((s.marked k ⟨l, hl⟩).setSvr k _) k).pidTot = _
      rw [Sys.setSvr_self, Nat.cast_zero, add_zero]
      exact hpidTot _
    · refine ⟨1, hfind, .svr _ (.fill _ forks .refl hfind hf ho), ?_⟩
      rw [Sys.setSvr_self, Nat.cast_one]
      exact congrArg (· + 1) (hpidTot _)

/-! ### `server_kill` -/

theorem stopServer_tSvrPid (s : Sys n m) (k : Fin n) (i : Fin m) :
    (stopServer s k).tSvrPid i =
      if killed (s.tSvrTab k).svrid (s.tSvrPid i) then .clear else s.tSvrPid i := by
  simp [stopServer, serverKill]

theorem stopServer_svrid (s : Sys n m) (k j : Fin n) :
    ((stopServer s k).tSvrTab j).svrid = (s.tSvrTab j).svrid := by
  show (Sys.tSvrTab (s.setSvr k _) j).svrid = _
  exact s.setSvr_field (·.svrid) (by rfl) j

theorem stopServer_core (s : Sys n m) (k : Fin n) :
    ((stopServer s k).tSvrTab k).core = (s.tSvrTab k).core := by
  show (Sys.tSvrTab (s.setSvr k _) k).core = _
  rw [Sys.setSvr_self]
  rfl

/-! ### Commands -/

/-- Commands for an id that is not in the table work for one entry. -/
theorem startUnknown_works {env : Env} {id rc : ℤ} (h : startUnknown env s id = some (rc, t)) :
    serverGetIdentry s = none ∧ t = s ∨
      ∃ k c, serverGetIdentry s = some k ∧ runOneTask env s k id = some (rc, t) ∧ Works k s c t := by
  rw [startUnknown] at h
  split at h
  · next hnone => exact .inl ⟨hnone, (Prod.mk.inj (Option.some.inj h)).2.symm⟩
  · next k hk =>
    obtain ⟨c, hc, -⟩ := runOneTask_works h
    exact .inr ⟨k, c, hk, h, hc⟩

/-- What a command does, for an id in the table and for any other. -/
theorem governor_cases {env : Env} {cmd id rc : ℤ} (h : governor env cmd id s = some (rc, t)) :
    (∃ k, findServerId s id = some k ∧
      (cmd = tskCmdStart ∧ startKnown env s k = some (rc, t) ∨
        cmd = tskCmdExit ∧ t = stopServer s k ∨
        cmd = tskCmdFresh ∧ runTaskId env (stopServer s k) k = some (rc, t))) ∨
      (findServerId s id = none ∧ (cmd = tskCmdStart ∨ cmd = tskCmdFresh) ∧
        startUnknown env s id = some (rc, t)) ∨
      t = s := by
  rw [governor] at h
  split at h
  · next hcmd =>
    split at h
    · next k hid => exact .inl ⟨k, hid, .inl ⟨hcmd, h⟩⟩
    · next hid => exact .inr (.inl ⟨hid, .inl hcmd, h⟩)
  · split at h
    · next hcmd =>
      split at h
      · next k hid => exact .inl ⟨k, hid, .inr (.inl ⟨hcmd, (Prod.mk.inj (Option.some.inj h)).2.symm⟩)⟩
      · exact .inr (.inr (Prod.mk.inj (Option.some.inj h)).2.symm)
    · split at h
      · next hcmd =>
        split at h
        · next k hid => exact .inl ⟨k, hid, .inr (.inr ⟨hcmd, h⟩)⟩
        · next hid => exact .inr (.inl ⟨hid, .inr hcmd, h⟩)
      · exact .inr (.inr (Prod.mk.inj (Option.some.inj h)).2.symm)

end Works

end Sunda
