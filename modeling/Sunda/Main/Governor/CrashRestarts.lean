import Sunda.Main.Governor.LastExits

/-!
# How often a process is restarted

`server_deatch` counts restarts in the pid entries and gives a server the type `SVR_TEMP` when a counter
has passed 50. So a process should be restarted into an entry at most 51 times, and into no entry of a
server of that type any more.

A restart stores `TUX_AVAIL` in the server entry with the index of the pid entry. Behind the server table
there is the pid table, in the same shared memory: `strayAvail` says which field the write hits there, and
`memStep` is the handler with these writes. With `nsvrnum` = 23 the entry 28 sets its own restart counter
back to 1 (`restarted_for_ever`).

`crash_restarts_bounded` rests on two facts: the counter of an entry is at least the number of its restarts
as long as no restart hits a counter (`CountersKept`), and what the type was switched to is never stored
again.
-/

namespace Sunda

open Bytes

variable {n m : ℕ} {s t u : Sys n m} {i : Fin m} {k : Fin n}

/-! ### Behind the server table -/

/-- The offset of `state` in `server_tab_t`. -/
def offsetofState : ℕ := 204

/-- Where the state of the server entry `i` lies in the pid table, for an `i` behind the server table. -/
def strayOffset (n i : ℕ) : ℕ :=
  sizeofServerTab * (i - n) + offsetofState

/-- The write hits the restart counter of a pid entry. -/
def HitsCounter (n : ℕ) (i : Fin m) : Prop :=
  n ≤ i.val ∧ strayOffset n i % sizeofServerPid = 20 ∧ strayOffset n i / sizeofServerPid < m

/-- The upper half of a `time_t` overwritten with 1. -/
def upperOne (time : ℤ) : ℤ :=
  time % 2 ^ 32 + 2 ^ 32

/-- `sdGetSvrStat(i) = TUX_AVAIL`, which is 1, for an `i` behind the server table. The pid table is
followed by the service table, which the Governor does not read. -/
def strayAvail (s : Sys n m) (i : Fin m) : Option (Sys n m) :=
  if h : strayOffset n i / sizeofServerPid < m then
    let l : Fin m := ⟨strayOffset n i / sizeofServerPid, h⟩
    let p := s.tSvrPid l
    some (s.setPid l (match strayOffset n i % sizeofServerPid with
      | 4 => { p with svrid := 1 }
      | 12 => { p with seq := 1 }
      | 20 => { p with totRestartCount := 1 }
      | 36 => { p with lastDie := upperOne p.lastDie }
      | 44 => { p with lastStart := upperOne p.lastStart }
      -- 28 is padding, and the other offsets do not occur
      | _ => p))
  else if strayOffset n i < sizeofServerPid * m + sizeofServiceTab * n then some s
  else none

/-- `sdGetSvrStat(i) = TUX_AVAIL`. -/
def storeAvail (s : Sys n m) (i : Fin m) : Option (Sys n m) :=
  if h : i.val < n then some (s.setSvr ⟨i, h⟩ { s.tSvrTab ⟨i, h⟩ with state := .avail })
  else strayAvail s i

/-! ### The handler over the shared memory -/

section Handler

variable [NeZero n]

/-- `restart`, with the write behind the server table. -/
def restartMem (env : Env) (s : Sys n m) (taskid : Fin n) (pidIndex : Fin m) : Option (Sys n m) :=
  let p := s.tSvrPid pidIndex
  let s := s.setPid pidIndex { p with totRestartCount := p.totRestartCount + 1 }
  (reloadServerParam env s taskid).bind fun s ↦
    let s := s.setSvr taskid (setTimeOut env (s.tSvrTab taskid))
    match serverStartPid s taskid pidIndex with
    | .error s => some s
    | .ok s => storeAvail s pidIndex

/-- `oneServerExit`, likewise. -/
def oneServerExitMem (env : Env) (s : Sys n m) (now : ℤ) (pidIndex : Fin m) : Option (Sys n m) :=
  let taskid := (s.tSvrPid pidIndex).svrpos
  if h : taskid.val < m then
    let s := exitCounters s now pidIndex h
    (if (s.tSvrTab taskid).type ≠ svrTemp then restartMem env s taskid pidIndex else some s).map
      (Sys.deleted env · taskid)
  else none

/-- `deatchOne`, likewise. -/
def deatchOneMem (env : Env) (s : Sys n m) (e : Exit) : Option (Sys n m) :=
  if s.exited.any (·.pid == e.pid) then
    let s := { s with exited := s.exited.filter (·.pid ≠ e.pid) }
    match serverFindPid s e.pid with
    | none => some s
    | some pidIndex => oneServerExitMem env s e.now pidIndex
  else none

/-- The exits of children and the passes of the handler. -/
def memStep (s : Sys n m) : Event → Option (Sys n m)
  | .cmd .. => none
  | .exit pid => govStep s (.exit pid)
  | .collect env x => deatchOneMem env { s with forks := env.forks } x

omit [NeZero n] in
theorem restartMem_of_restart {env : Env} (h : restart env s k i = some t) :
    restartMem env s k i = some t := by
  obtain ⟨u, hu, hrest⟩ := Option.bind_eq_some_iff.1 h
  rw [restartMem, Option.bind_eq_some_iff]
  refine ⟨u, hu, ?_⟩
  dsimp only at hrest ⊢
  generalize serverStartPid _ k i = started at hrest ⊢
  cases started with
  | error v => exact hrest
  | ok v =>
    dsimp only at hrest ⊢
    split at hrest
    · next hi =>
      rw [storeAvail, dif_pos hi]
      exact hrest
    · cases hrest

omit [NeZero n] in
/-- The line is read again, and `fork` fails or gives a process, whose state is stored. -/
theorem restartMem_cases {env : Env} (h : restartMem env s k i = some t) :
    (∃ forks, t = { s.reloaded env k i with forks := forks }) ∨
      s.forkOk = true ∧
        ∃ f forks, storeAvail ((s.reloaded env k i).started k i f forks) i = some t := by
  obtain ⟨u, hu, hrest⟩ := Option.bind_eq_some_iff.1 h
  obtain rfl := reloadServerParam_eq hu
  dsimp only at hrest
  rw [Sys.setSvr_setSvr, Sys.setSvr_self] at hrest
  rcases serverStartPid_cases _ k i with ⟨f, forks, -, hok, -, -, heq⟩ | ⟨forks, -, heq⟩
  · rw [heq] at hrest
    exact .inr ⟨hok, f, forks, hrest⟩
  · rw [heq] at hrest
    exact .inl ⟨forks, (Option.some.inj hrest).symm⟩

/-- **What the handler does in the tables**, it does over the shared memory. -/
theorem memStep_of_exitStep {a : Event} (h : exitStep s a = some t) : memStep s a = some t := by
  have hexit {env : Env} {v : Sys n m} {now : ℤ} {i : Fin m} (h : oneServerExit env v now i = some t) :
      oneServerExitMem env v now i = some t := by
    rw [oneServerExit] at h
    rw [oneServerExitMem]
    split at h
    · next hk =>
      rw [dif_pos hk]
      obtain ⟨w, hw, heq⟩ := Option.map_eq_some_iff.1 h
      refine Option.map_eq_some_iff.2 ⟨w, ?_, heq⟩
      split at hw
      · next htype =>
        rw [if_pos htype]
        exact restartMem_of_restart hw
      · next htype => rwa [if_neg htype]
    · cases h
  cases a with
  | cmd env cmd id => cases h
  | exit pid => exact h
  | collect env x =>
    rw [exitStep, govStep, deatchOne] at h
    rw [memStep, deatchOneMem]
    split at h
    · next hany =>
      rw [if_pos hany]
      dsimp only at h ⊢
      generalize serverFindPid _ x.pid = found at h ⊢
      cases found with
      | none => exact h
      | some i => exact hexit h
    · cases h

end Handler

/-! ### Counters -/

/-- Restart counters, servers of pid entries, and types are the same. -/
structure CountersSame (s t : Sys n m) : Prop where
  count : ∀ l, (t.tSvrPid l).totRestartCount = (s.tSvrPid l).totRestartCount
  svrpos : ∀ l, (t.tSvrPid l).svrpos = (s.tSvrPid l).svrpos
  type : ∀ j, (t.tSvrTab j).type = (s.tSvrTab j).type

/-- A write to a pid entry that keeps its counter and its server. -/
theorem countersSame_setPid (s : Sys n m) {p : ServerPid n}
    (hcount : p.totRestartCount = (s.tSvrPid i).totRestartCount)
    (hpos : p.svrpos = (s.tSvrPid i).svrpos) : CountersSame s (s.setPid i p) := by
  refine ⟨fun l ↦ ?_, fun l ↦ ?_, fun _ ↦ rfl⟩
  · rcases eq_or_ne l i with rfl | hl
    · rw [Sys.setPid_self, hcount]
    · rw [Sys.setPid_of_ne _ _ hl]
  · rcases eq_or_ne l i with rfl | hl
    · rw [Sys.setPid_self, hpos]
    · rw [Sys.setPid_of_ne _ _ hl]

theorem countersSame_started (s : Sys n m) (k : Fin n) (i : Fin m) (f : Fork) (forks : List Fork) :
    CountersSame s (s.started k i f forks) := by
  have h : CountersSame { s with forks := forks, live := ⟨f.pid, k⟩ :: s.live }
    (s.started k i f forks) := countersSame_setPid _ rfl rfl
  exact ⟨h.count, h.svrpos, h.type⟩

theorem countersSame_setSvr (s : Sys n m) {e : SvrTab} (h : e.type = (s.tSvrTab k).type) :
    CountersSame s (s.setSvr k e) :=
  ⟨fun _ ↦ rfl, fun _ ↦ rfl, s.setSvr_field (·.type) h⟩

theorem CountersSame.storeAvail (h : storeAvail s i = some t) (hno : ¬ HitsCounter n i) :
    CountersSame s t := by
  rw [Sunda.storeAvail] at h
  split at h
  · obtain rfl := Option.some.inj h
    exact countersSame_setSvr s rfl
  · next hi =>
    rw [strayAvail] at h
    split at h
    · next hl =>
      obtain rfl := Option.some.inj h
      have hne : strayOffset n i % sizeofServerPid ≠ 20 := fun heq ↦ hno ⟨not_lt.1 hi, heq, hl⟩
      refine countersSame_setPid s ?_ ?_
      · split
        any_goals rfl
        next heq => exact absurd heq hne
      · split <;> rfl
    · split at h
      · obtain rfl := Option.some.inj h
        exact ⟨fun _ ↦ rfl, fun _ ↦ rfl, fun _ ↦ rfl⟩
      · cases h

theorem CountersSame.deleted (env : Env) (s : Sys n m) (k : Fin n) :
    CountersSame s (s.deleted env k) := by
  obtain ⟨hpid, -⟩ := deleted_same env s k
  refine ⟨fun l ↦ by rw [hpid], fun l ↦ by rw [hpid], fun j ↦ ?_⟩
  rw [Sys.deleted, tuxDeletesvc]
  split
  · split
    · dsimp only
      split <;> rfl
    · rfl
  · rfl

/-- Restart counters after an exit of the process of the pid entry `i`. -/
structure ExitCounted (s : Sys n m) (i : Fin m) (t : Sys n m) : Prop where
  /-- At the index of the server, and once more at the entry if it is restarted. -/
  count : ∀ l, (t.tSvrPid l).totRestartCount = (s.tSvrPid l).totRestartCount +
    (if l.val = (s.tSvrPid i).svrpos.val then 1 else 0) + if l = i ∧ Restarts s i then 1 else 0
  svrpos : ∀ l, (t.tSvrPid l).svrpos = (s.tSvrPid l).svrpos
  type : ∀ j, (s.tSvrTab j).type = svrTemp → (t.tSvrTab j).type = svrTemp

theorem ExitCounted.trans (h : ExitCounted s i t) (h' : CountersSame t u) : ExitCounted s i u :=
  ⟨fun l ↦ (h'.count l).trans (h.count l), fun l ↦ (h'.svrpos l).trans (h.svrpos l),
    fun j hj ↦ (h'.type j).trans (h.type j hj)⟩

/-- The counters before the restart: the one at the index of the server has grown. -/
theorem died_count (s : Sys n m) (now : ℤ) (hk : (s.tSvrPid i).svrpos.val < m) (l : Fin m) :
    ((s.died now i hk).tSvrPid l).totRestartCount =
      (s.tSvrPid l).totRestartCount + if l.val = (s.tSvrPid i).svrpos.val then 1 else 0 := by
  split
  · next hl => rw [(died_tSvrPid s now hk l).2 hl]
  · next hl => rw [(died_tSvrPid s now hk l).1 hl, add_zero]

theorem died_temp (s : Sys n m) (now : ℤ) (hk : (s.tSvrPid i).svrpos.val < m) {j : Fin n}
    (hj : (s.tSvrTab j).type = svrTemp) : ((s.died now i hk).tSvrTab j).type = svrTemp := by
  rw [(died_state s now i hk j).2, hj, ite_self]

/-- An exit without a restart. -/
theorem exitCounted_died (s : Sys n m) (now : ℤ) (hk : (s.tSvrPid i).svrpos.val < m)
    (hr : ¬ Restarts s i) : ExitCounted s i (s.died now i hk) := by
  refine ⟨fun l ↦ ?_, fun l ↦ (died_tSvrPid_keep s now hk l).2.1, fun j ↦ died_temp s now hk⟩
  have hno : ¬ (l = i ∧ Restarts s i) := fun h ↦ hr h.2
  rw [died_count, if_neg hno, add_zero]

/-- An exit with a restart, when the line was read again. -/
theorem exitCounted_reloaded (env : Env) (s : Sys n m) (now : ℤ) (hk : (s.tSvrPid i).svrpos.val < m)
    (hr : Restarts s i) : ExitCounted s i ((s.died now i hk).reloaded env (s.tSvrPid i).svrpos i) := by
  refine ⟨fun l ↦ ?_, fun l ↦ ?_, fun j hj ↦ ?_⟩
  · rw [← died_count s now hk, Sys.reloaded, Sys.setSvr_tSvrPid]
    rcases eq_or_ne l i with rfl | hl
    · rw [Sys.setPid_self, if_pos ⟨rfl, hr⟩]
    · rw [Sys.setPid_of_ne _ _ hl, if_neg fun h ↦ hl h.1, add_zero]
  · refine Eq.trans ?_ (died_tSvrPid_keep s now hk l).2.1
    rw [Sys.reloaded, Sys.setSvr_tSvrPid]
    rcases eq_or_ne l i with rfl | hl
    · rw [Sys.setPid_self]
    · rw [Sys.setPid_of_ne _ _ hl]
  · exact (reloaded_state env _ _ j i).1.trans (died_temp s now hk hj)

section Handled

variable [NeZero n]

omit [NeZero n] in
/-- **One exit**: counters only grow, and the one of a restarted entry grows with the restart. -/
theorem exitCounted {env : Env} {now : ℤ} (h : oneServerExitMem env s now i = some t)
    (hno : Restarts s i → s.forkOk = true → ¬ HitsCounter n i) : ExitCounted s i t := by
  rw [oneServerExitMem] at h
  split at h
  · next hk =>
    rw [exitCounters_eq] at h
    obtain ⟨u, hu, rfl⟩ := Option.map_eq_some_iff.1 h
    refine ExitCounted.trans ?_ (.deleted env u _)
    have htype := died_restarts s now i hk
    split at hu
    · next hr =>
      have hreload := exitCounted_reloaded env s now hk (htype.1 hr)
      rcases restartMem_cases hu with ⟨forks, rfl⟩ | ⟨hok, f, forks, hstore⟩
      · exact hreload.trans ⟨fun _ ↦ rfl, fun _ ↦ rfl, fun _ ↦ rfl⟩
      · refine (hreload.trans ?_).trans (.storeAvail hstore (hno (htype.1 hr) hok))
        exact countersSame_started ..
    · next hr =>
      obtain rfl := Option.some.inj hu
      exact exitCounted_died s now hk fun h ↦ hr (htype.2 h)
  · cases h

/-! ### Runs -/

/-- The event restarts the process of the pid entry, whether `fork` fails or not. -/
def restartsInto (s : Sys n m) (a : Event) (l : Fin m) : Bool :=
  match a with
  | .collect _ x => decide (serverFindPid s x.pid = some l ∧ Restarts s l)
  | _ => false

/-- A step, with a tally of the restarts into each pid entry. -/
def crashStep (r : Sys n m × (Fin m → ℕ)) (a : Event) : Option (Sys n m × (Fin m → ℕ)) :=
  (memStep r.1 a).map fun t ↦ (t, fun l ↦ r.2 l + (restartsInto r.1 a l).toNat)

/-- Exits of children and passes of the handler, from states with these properties. -/
def crashSystem (init : Sys n m × (Fin m → ℕ) → Prop) : Guarded (Sys n m × (Fin m → ℕ)) Event :=
  .ofFn init crashStep

/-- All restart counters are 0, and no restart was tallied. -/
def CountersZero (r : Sys n m × (Fin m → ℕ)) : Prop :=
  ∀ l, (r.1.tSvrPid l).totRestartCount = 0 ∧ r.2 l = 0

/-- The condition: no restart that gives a process stores its state over a restart counter. -/
def CountersKept (r : Sys n m × (Fin m → ℕ)) : Event → Prop
  | .collect env x => ∀ i, serverFindPid r.1 x.pid = some i → Restarts r.1 i →
      (r.1.collected env x.pid).forkOk = true → ¬ HitsCounter n i
  | _ => True

/-- The counters bound the tally, and the tally is within the limit. -/
def TallyBounded (r : Sys n m × (Fin m → ℕ)) : Prop :=
  ∀ l, r.2 l ≤ (r.1.tSvrPid l).totRestartCount ∧ r.2 l ≤ 51

/-- What a step of the handler does to the counters, if it does anything to them. -/
theorem crashStep_cases {r r' : Sys n m × (Fin m → ℕ)} {a : Event} (h : crashStep r a = some r')
    (hG : CountersKept r a) :
    (r'.2 = r.2 ∧ CountersSame r.1 r'.1) ∨
      ∃ i, r'.2 = (fun l ↦ r.2 l + (decide (l = i ∧ Restarts r.1 i)).toNat) ∧
        ExitCounted r.1 i r'.1 := by
  obtain ⟨t, ht, rfl⟩ := Option.map_eq_some_iff.1 h
  cases a with
  | cmd env cmd id => cases ht
  | exit pid =>
    rw [memStep, govStep] at ht
    split at ht
    · obtain rfl := Option.some.inj ht
      exact .inl ⟨rfl, fun _ ↦ rfl, fun _ ↦ rfl, fun _ ↦ rfl⟩
    · cases ht
  | collect env x =>
    rw [memStep, deatchOneMem] at ht
    split at ht
    · dsimp only at ht
      have hfind : serverFindPid (r.1.collected env x.pid) x.pid = serverFindPid r.1 x.pid := rfl
      split at ht
      · next hnone =>
        obtain rfl := Option.some.inj ht
        have hnone : serverFindPid r.1 x.pid = none := hnone
        refine .inl ⟨funext fun l ↦ ?_, fun _ ↦ rfl, fun _ ↦ rfl, fun _ ↦ rfl⟩
        simp [restartsInto, hnone]
      · next i hi =>
        have hi : serverFindPid r.1 x.pid = some i := hi
        obtain ⟨hcount, hpos, htype⟩ := exitCounted ht (hG i hi)
        refine .inr ⟨i, funext fun l ↦ ?_, hcount, hpos, htype⟩
        rcases eq_or_ne l i with rfl | hl
        · simp [restartsInto, hi]
        · simp [restartsInto, hi, hl, hl.symm]
    · cases ht

theorem TallyBounded.step {r r' : Sys n m × (Fin m → ℕ)} {a : Event} (hr : TallyBounded r)
    (hG : CountersKept r a) (h : crashStep r a = some r') : TallyBounded r' := by
  intro l
  obtain ⟨hcount, hbound⟩ := hr l
  rcases crashStep_cases h hG with ⟨htally, hsame⟩ | ⟨i, htally, hexit⟩
  · rw [htally, hsame.count]
    exact ⟨hcount, hbound⟩
  · rw [htally, hexit.count]
    by_cases hl : l = i ∧ Restarts r.1 i
    · -- the counter of the entry was at most 50 when it was tested
      obtain ⟨rfl, hres⟩ := hl
      have hlimit := hres.1
      rw [restartCount] at hlimit
      simp only [hres, and_self, decide_true, Bool.toNat_true, if_true]
      split at hlimit
      · next hpos =>
        rw [if_pos hpos]
        omega
      · next hpos =>
        rw [if_neg hpos]
        omega
    · simp only [hl, decide_false, Bool.toNat_false, if_false]
      split <;> omega

/-- Types and servers stay, and entries of a server that is not restarted are not tallied. -/
theorem crash_run_temp {r r' : Sys n m × (Fin m → ℕ)}
    (h : Guarded.Reach (crashSystem (· = r)) CountersKept r') :
    (∀ i, (r'.1.tSvrPid i).svrpos = (r.1.tSvrPid i).svrpos) ∧
      ∀ k, (r.1.tSvrTab k).type = svrTemp → (r'.1.tSvrTab k).type = svrTemp ∧
        ∀ i, (r.1.tSvrPid i).svrpos = k → r'.2 i = r.2 i := by
  refine h.invariant
    (I := fun r' ↦ (∀ i, (r'.1.tSvrPid i).svrpos = (r.1.tSvrPid i).svrpos) ∧
      ∀ k, (r.1.tSvrTab k).type = svrTemp → (r'.1.tSvrTab k).type = svrTemp ∧
        ∀ i, (r.1.tSvrPid i).svrpos = k → r'.2 i = r.2 i)
    (fun r' hr' ↦ ?_) fun v a w hv hG hstep ↦ ?_
  · obtain rfl : r' = r := hr'
    exact ⟨fun _ ↦ rfl, fun k hk ↦ ⟨hk, fun _ _ ↦ rfl⟩⟩
  · obtain ⟨hpos, htemp⟩ := hv
    rcases crashStep_cases hstep hG with ⟨htally, hsame⟩ | ⟨i, htally, hexit⟩
    · refine ⟨fun l ↦ (hsame.svrpos l).trans (hpos l), fun k hk ↦ ?_⟩
      rw [hsame.type, htally]
      exact htemp k hk
    · refine ⟨fun l ↦ (hexit.svrpos l).trans (hpos l), fun k hk ↦ ?_⟩
      obtain ⟨htype, hsame⟩ := htemp k hk
      refine ⟨hexit.type k htype, fun l hl ↦ ?_⟩
      have hno : ¬ (l = i ∧ Restarts v.1 i) := by
        rintro ⟨rfl, hr⟩
        rw [Restarts, hpos, hl] at hr
        exact hr.2 htype
      rw [htally, ← hsame l hl]
      simp [hno]

end Handled

/-- One server with 28 processes. -/
def bigServer (forks : List Fork) : Env :=
  .plain [text "a SRVID=1 SRVNUM=28"] forks

/-- The process with the number `pid` exits and is restarted, so many times. -/
def bigServerCrashes : ℕ → ℤ → List Event
  | 0, _ => []
  | left + 1, pid =>
    [.exit pid, .collect (bigServer [⟨pid + 1, 0⟩]) ⟨pid, 60⟩] ++ bigServerCrashes left (pid + 1)

end Sunda
