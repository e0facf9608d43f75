import Sunda.Main.Governor.Effects

/-!
# When every start succeeds

`server_run` starts its processes one by one and stops at the first failure. Whether all of them
start depends on the free pid entries and on the answers of `fork` that come next, so it can be said
before the run: `Sys.Startable s c` says that `c` more processes can be started.

`serverRun_startable` shows that `server_run` returns 0 exactly when its processes are startable, and
what is startable behind it. `runTaskId_eq_zero_iff` and `runOneTask_eq_zero_iff` lift this to the
two commands: they succeed exactly when every line that they store can be registered, and all
processes that the lines ask for are startable.
-/

namespace Sunda

open Bytes

variable {n m : ℕ}

/-! ### What the next starts need -/

/-- The next `c` answers of `fork` are new children, when these numbers are taken. -/
def goodForks : ℕ → List ℤ → List Fork → Prop
  | 0, _, _ => True
  | _ + 1, _, [] => False
  | c + 1, own, f :: forks => 0 < f.pid ∧ f.pid ∉ own ∧ goodForks c (f.pid :: own) forks

namespace Sys

/-- The numbers of the children that are alive or not collected. -/
def pids (s : Sys n m) : List ℤ :=
  (s.live ++ s.exited).map (·.pid)

/-- The number of free pid entries. -/
def free (s : Sys n m) : ℕ :=
  Slots.count (fun p ↦ p.pid == -1) s.tSvrPid

/-- `c` more processes can be started. -/
def Startable (s : Sys n m) (c : ℕ) : Prop :=
  c ≤ s.free ∧ goodForks c s.pids s.forks

theorem owns_eq_false_iff {s : Sys n m} {pid : ℤ} : s.owns pid = false ↔ pid ∉ s.pids := by
  rw [owns, pids, List.any_eq_false, List.mem_map]
  simp

theorem startable_zero (s : Sys n m) : s.Startable 0 :=
  ⟨Nat.zero_le _, trivial⟩

theorem not_startable_of_none {s : Sys n m} (h : serverGetPidentry s = none) (c : ℕ) :
    ¬ s.Startable (c + 1) := by
  intro hs
  rw [serverGetPidentry, serverFindPid, Slots.find_eq_none_iff] at h
  have hzero : s.free = 0 := Slots.count_eq_zero_iff.2 h
  have hle := hs.1
  omega

end Sys

theorem goodForks_mono {c d : ℕ} {own : List ℤ} {forks : List Fork}
    (h : goodForks (c + d) own forks) : goodForks c own forks := by
  induction c generalizing own forks with
  | zero => trivial
  | succ c ih =>
    rw [Nat.add_right_comm] at h
    cases forks with
    | nil => exact h.elim
    | cons f forks =>
      obtain ⟨hf, hown, hrest⟩ := h
      exact ⟨hf, hown, ih hrest⟩

namespace Sys

theorem Startable.mono {s : Sys n m} {c d : ℕ} (h : s.Startable (c + d)) : s.Startable c :=
  ⟨(Nat.le_add_right c d).trans h.1, goodForks_mono h.2⟩

variable {s t : Sys n m} {i : Fin m} {k : Fin n}

/-- A start takes a free pid entry. -/
theorem free_fill {f : Fork} (hi : serverGetPidentry s = some i) (hf : 0 < f.pid) (seq : ℤ)
    (forks : List Fork) : (s.fill k i seq f forks).free + 1 = s.free := by
  obtain ⟨h0, hfree⟩ := serverGetPidentry_eq_some hi
  have hcount := Slots.count_update (fun p : ServerPid n ↦ p.pid == -1) s.tSvrPid h0
    { s.tSvrPid i with
      pid := f.pid
      svrid := (s.tSvrTab k).svrid
      svrpos := k
      seq := seq
      lastStart := f.now }
  rw [free, free, fill, setPid]
  simpa [hfree, show f.pid ≠ -1 by omega] using hcount

/-- One start, and the rest. -/
theorem startable_succ_iff (hi : serverGetPidentry s = some i) (seq : ℤ) (c : ℕ) :
    s.Startable (c + 1) ↔ ∃ f forks, s.forks = f :: forks ∧ 0 < f.pid ∧ s.owns f.pid = false ∧
      (s.fill k i seq f forks).Startable c := by
  constructor
  · rintro ⟨hle, hgood⟩
    cases hforks : s.forks with
    | nil =>
      rw [hforks] at hgood
      exact hgood.elim
    | cons f forks =>
      rw [hforks] at hgood
      obtain ⟨hf, hown, hrest⟩ := hgood
      have hfree := free_fill (k := k) hi hf seq forks
      exact ⟨f, forks, rfl, hf, owns_eq_false_iff.2 hown, by omega, hrest⟩
  · rintro ⟨f, forks, hforks, hf, hown, hle, hgood⟩
    have hfree := free_fill (k := k) hi hf seq forks
    refine ⟨by omega, ?_⟩
    rw [hforks]
    exact ⟨hf, owns_eq_false_iff.1 hown, hgood⟩

end Sys

variable [NeZero n] {s t : Sys n m} {k : Fin n}

/-! ### `server_run` -/

/-- What a run of `left` starts says about what is startable: it succeeds exactly when they are, and
then the ones that are startable behind it were startable with them. -/
def RunsAll (s : Sys n m) (left : ℕ) (rc : ℤ) (t : Sys n m) : Prop :=
  (rc = 0 ↔ s.Startable left) ∧ (rc = 0 → ∀ d, t.Startable d ↔ s.Startable (left + d))

theorem serverRunLoop_startable {left : ℕ} {i rc : ℤ} (h : serverRunLoop k left i s = (rc, t)) :
    RunsAll s left rc t := by
  induction left generalizing i s with
  | zero =>
    obtain ⟨rfl, rfl⟩ := Prod.mk.inj h
    exact ⟨iff_of_true rfl s.startable_zero, fun _ d ↦ by rw [Nat.zero_add]⟩
  | succ left ih =>
    rw [serverRunLoop] at h
    split at h
    · next hnone =>
      obtain ⟨rfl, rfl⟩ := Prod.mk.inj h
      exact ⟨iff_of_false (by decide) (Sys.not_startable_of_none hnone left),
        fun h0 ↦ absurd h0 (by decide)⟩
    · next l hl =>
      dsimp only at h
      rcases serverStartPid_cases (s.setPid l { s.tSvrPid l with
          svrid := (s.tSvrTab k).svrid, seq := i, svrpos := k }) k l with
        ⟨f, forks, hforks, -, hf, ho, heq⟩ | ⟨forks, hok, heq⟩
      · rw [heq] at h
        obtain ⟨hall, hbehind⟩ := ih h
        have hsucc (c : ℕ) : s.Startable (c + 1) ↔ (s.fill k l i f forks).Startable c := by
          rw [Sys.startable_succ_iff (k := k) hl i]
          constructor
          · rintro ⟨f', forks', hforks', -, -, hc⟩
            obtain ⟨rfl, rfl⟩ := List.cons.inj (hforks.symm.trans hforks')
            exact hc
          · exact fun hc ↦ ⟨f, forks, hforks, hf, ho, hc⟩
        have hsame (c : ℕ) : Sys.Startable (Sys.setSvr (Sys.started (s.setPid l { s.tSvrPid l with
            svrid := (s.tSvrTab k).svrid, seq := i, svrpos := k }) k l f forks) k
              { (Sys.started (s.setPid l { s.tSvrPid l with
            svrid := (s.tSvrTab k).svrid, seq := i, svrpos := k }) k l f forks).tSvrTab k with
              state := .idle }) c ↔ (s.fill k l i f forks).Startable c := by
          simp [Sys.Startable, Sys.free, Sys.pids, Sys.started, Sys.fill, Sys.setPid, Sys.setSvr]
        refine ⟨?_, fun h0 d ↦ ?_⟩
        · rw [hall, hsame, hsucc]
        · rw [hbehind h0, hsame, Nat.add_right_comm, hsucc]
      · rw [heq] at h
        obtain ⟨rfl, rfl⟩ := Prod.mk.inj h
        refine ⟨iff_of_false (by decide) fun hs ↦ ?_, fun h0 ↦ absurd h0 (by decide)⟩
        obtain ⟨f, forks', hforks, hf, ho, -⟩ := (Sys.startable_succ_iff (k := k) hl i left).1 hs
        have hgood : s.forkOk = true := by simp [Sys.forkOk, hforks, hf, ho]
        have hbad : s.forkOk = false := hok
        rw [hgood] at hbad
        cases hbad

/-- **`server_run` succeeds** exactly when its processes are startable. -/
theorem serverRun_startable {rc : ℤ} (h : serverRun s k = (rc, t)) :
    RunsAll s (s.tSvrTab k).pidTot.toNat rc t := by
  rw [serverRun] at h
  have hrun := serverRunLoop_startable h
  rw [Sys.setSvr_self] at hrun
  exact hrun

/-! ### The commands -/

/-- Every line with the program name of the entry can be registered. -/
def freshOk (exec : List UInt8 → Bool) : List (List UInt8) → SvrTab → Bool
  | [], _ => true
  | buf :: rest, e =>
    if e.named buf then
      (registerServer exec e buf).any fun r ↦ decide (r.1 = 0) && freshOk exec rest r.2
    else freshOk exec rest e

theorem freshOk_core (exec : List UInt8 → Bool) (lines : List (List UInt8)) {e e' : SvrTab}
    (h : e.core = e'.core) : freshOk exec lines e = freshOk exec lines e' := by
  induction lines generalizing e e' with
  | nil => rfl
  | cons buf rest ih =>
    rw [freshOk, freshOk, SvrTab.named_core h]
    split
    · have hreg := registerServer_core exec buf h
      cases hr : registerServer exec e buf with
      | none =>
        rw [hr] at hreg
        rw [Option.map_eq_none_iff.1 hreg.symm]
      | some r =>
        rw [hr, Option.map_some, eq_comm, Option.map_eq_some_iff] at hreg
        obtain ⟨r', hr', heq⟩ := hreg
        obtain ⟨hrc, hcore⟩ := Prod.mk.inj heq
        rw [hr', Option.any_some, Option.any_some, hrc, ih hcore]
    · exact ih h

theorem runTaskLoop_eq_zero_iff {exec : List UInt8 → Bool} {rc : ℤ} {lines : List (List UInt8)}
    (h : runTaskLoop exec k lines s = some (rc, t)) :
    rc = 0 ↔ freshOk exec lines (s.tSvrTab k) = true ∧
      s.Startable (freshTotal lines (s.tSvrTab k)) := by
  induction lines generalizing s with
  | nil =>
    obtain ⟨rfl, rfl⟩ := Prod.mk.inj (Option.some.inj h)
    exact iff_of_true rfl ⟨rfl, s.startable_zero⟩
  | cons buf rest ih =>
    obtain ⟨nm, hnm, hrest⟩ := Option.bind_eq_some_iff.1 h
    have hnamed : (s.tSvrTab k).named buf = strncmpEq tuxNameLen (s.tSvrTab k).name.toList nm := by
      rw [SvrTab.named, hnm, Option.any_some]
    rw [freshOk, freshTotal, hnamed]
    split at hrest
    · -- a line of another program
      next hne =>
      rw [hne]
      exact ih hrest
    · next heq =>
      rw [Bool.not_eq_false] at heq
      rw [if_pos heq, if_pos heq]
      obtain ⟨⟨rc₁, e⟩, hreg, hrest⟩ := Option.bind_eq_some_iff.1 hrest
      rw [hreg, Option.any_some]
      dsimp only at hrest ⊢
      split at hrest
      · -- the line cannot be registered
        next hrc =>
        obtain ⟨rfl, rfl⟩ := Prod.mk.inj (Option.some.inj hrest)
        exact iff_of_false (by decide) fun hok ↦ by simp [hrc] at hok
      · next hrc =>
        obtain rfl : rc₁ = 0 := not_not.1 hrc
        obtain ⟨h1, -⟩ | ⟨r, hr, rfl⟩ := of_registerServer hreg
        · exact absurd h1 (by decide)
        rw [hr, Option.elim_some, decide_eq_true rfl, Bool.true_and]
        generalize hrun : serverRun (s.setSvr k (r.store (s.tSvrTab k))) k = run at hrest
        obtain ⟨rc', u⟩ := run
        obtain ⟨c, hc⟩ := serverRun_ran hrun
        obtain ⟨hall, hbehind⟩ := serverRun_startable hrun
        rw [Sys.setSvr_self] at hc hall hbehind
        have hcore : (u.tSvrTab k).core = (r.store (s.tSvrTab k)).core := by rw [hc.entry]; rfl
        have hsame (d : ℕ) : Sys.Startable (s.setSvr k (r.store (s.tSvrTab k))) d ↔ s.Startable d :=
          Iff.rfl
        dsimp only at hrest
        split at hrest
        · -- its run fails
          next hrc' =>
          obtain ⟨rfl, rfl⟩ := Prod.mk.inj (Option.some.inj hrest)
          exact iff_of_false (by decide) fun hok ↦ hrc' (hall.2 hok.2.mono)
        · next hrc' =>
          obtain rfl : rc' = 0 := not_not.1 hrc'
          rw [ih hrest, freshOk_core exec rest hcore, freshTotal_core rest hcore, hbehind rfl, hsame]
          rfl

/-- **`run_task_id` succeeds** exactly when all lines with the program name can be registered and the
processes they ask for can be started. -/
theorem runTaskId_eq_zero_iff {env : Env} {rc : ℤ} (h : runTaskId env s k = some (rc, t)) :
    rc = 0 ↔ ∃ lines, env.task = some lines ∧ freshOk env.exec lines (s.tSvrTab k) = true ∧
      s.Startable (freshTotal lines (s.tSvrTab k)) := by
  rw [runTaskId] at h
  split at h
  · next htask =>
    obtain ⟨rfl, rfl⟩ := Prod.mk.inj (Option.some.inj h)
    refine iff_of_false (by decide) ?_
    rintro ⟨lines, hlines, -⟩
    rw [htask] at hlines
    cases hlines
  · next lines htask =>
    obtain ⟨⟨rc', u⟩, hloop, heq⟩ := Option.map_eq_some_iff.1 h
    have hrc : rc = 0 ↔ rc' = 0 := by
      split at heq
      · next h0 => exact iff_of_true (Prod.mk.inj heq).1.symm h0
      · next hne => rw [(Prod.mk.inj heq).1]
    rw [hrc, runTaskLoop_eq_zero_iff hloop]
    refine ⟨fun hok ↦ ⟨lines, htask, hok⟩, ?_⟩
    rintro ⟨lines', hlines, hok⟩
    rw [htask] at hlines
    obtain rfl := Option.some.inj hlines
    exact hok

theorem runOneLoop_eq_zero_iff {exec : List UInt8 → Bool} {id rc : ℤ} {lines : List (List UInt8)}
    (h : runOneLoop exec k id lines s = some (rc, t)) :
    rc = 0 ↔ ∃ e, oneEntry exec id lines (s.tSvrTab k) = some e ∧ s.Startable e.pidTot.toNat := by
  induction lines generalizing s with
  | nil =>
    obtain ⟨rfl, rfl⟩ := Prod.mk.inj (Option.some.inj h)
    refine iff_of_false (by decide) ?_
    rintro ⟨e, hone, -⟩
    cases hone
  | cons buf rest ih =>
    obtain ⟨⟨rc₁, e⟩, hreg, hrest⟩ := Option.bind_eq_some_iff.1 h
    rw [oneEntry, hreg, Option.bind_some]
    dsimp only at hrest ⊢
    split at hrest
    · next hrc =>
      obtain ⟨rfl, rfl⟩ := Prod.mk.inj (Option.some.inj hrest)
      rw [if_pos hrc]
      refine iff_of_false (by decide) ?_
      rintro ⟨e, hone, -⟩
      cases hone
    · next hrc =>
      rw [if_neg hrc]
      rw [Sys.setSvr_self] at hrest
      split at hrest
      · -- the line of the id
        next hid =>
        rw [if_pos hid]
        generalize hrun : serverRun (s.setSvr k e) k = run at hrest
        obtain ⟨rc', u⟩ := run
        obtain ⟨hall, -⟩ := serverRun_startable hrun
        rw [Sys.setSvr_self] at hall
        have hsame : rc' = 0 ↔ ∃ e', some e = some e' ∧ s.Startable e'.pidTot.toNat := by
          rw [hall]
          refine ⟨fun hs ↦ ⟨e, rfl, hs⟩, ?_⟩
          rintro ⟨e', he, hs⟩
          rwa [Option.some.inj he]
        rw [← hsame]
        split at hrest
        · next hne =>
          rw [← (Prod.mk.inj (Option.some.inj hrest)).1]
          exact iff_of_false (by decide) hne
        · next heq =>
          rw [← (Prod.mk.inj (Option.some.inj hrest)).1]
          exact iff_of_true rfl (not_not.1 heq)
      · next hid =>
        rw [if_neg hid, ih hrest, Sys.setSvr_self]
        rfl

/-- **`run_one_task` succeeds** exactly when the loop comes to the line of the id, and the processes
it asks for can be started. -/
theorem runOneTask_eq_zero_iff {env : Env} {id rc : ℤ} (h : runOneTask env s k id = some (rc, t)) :
    rc = 0 ↔ ∃ lines e, env.task = some lines ∧ oneEntry env.exec id lines (s.tSvrTab k) = some e ∧
      s.Startable e.pidTot.toNat := by
  rw [runOneTask] at h
  split at h
  · next htask =>
    obtain ⟨rfl, rfl⟩ := Prod.mk.inj (Option.some.inj h)
    refine iff_of_false (by decide) ?_
    rintro ⟨lines, _, hlines, -⟩
    rw [htask] at hlines
    cases hlines
  · next lines htask =>
    rw [runOneLoop_eq_zero_iff h]
    constructor
    · rintro ⟨e, hone⟩
      exact ⟨lines, e, htask, hone⟩
    · rintro ⟨lines', e, hlines, hone⟩
      rw [htask] at hlines
      obtain rfl := Option.some.inj hlines
      exact ⟨e, hone⟩

end Sunda
