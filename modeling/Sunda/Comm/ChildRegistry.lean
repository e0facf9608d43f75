import Sunda.Base.Guarded
import Mathlib.Data.Int.Notation
import Mathlib.Tactic.Common

/-!
# The children of C001

The parent of C001 (`comm/C001/C001.c`) forks a child for each connection and notes it in `gpidSonPid` with
`reg_child`; the handler `child_exit` of `SIGCLD` is to take the exited ones out. A run is any interleaving
of the parent, of children that exit, and of the handler. Exits are merged: the signal is pending or not,
however many children have exited.

A free slot is one with the process id -1 for `reg_child`, but the table is a global of C and nothing ever
stores -1 there: `comm_init` does not fill it, unlike that of C002. So `reg_child` finds no slot, `child_exit`
finds no child, and the table stays as it is, which is the invariant `Untouched`. `registry_never_exact`
says so for every run. It also counts: `child_exit` returns behind the first child that it collects, so the
exits that were merged into one signal are left uncollected.

Runs in which an exit is reported before the child is registered, and runs with more children than slots,
are among those here.
-/

namespace Sunda

/-! ### The program -/

/-- `MAX_CHILD_NUM`. -/
def maxChildNum : ℕ := 5000

/-- `gpidSonPidDef`. -/
structure SonPid where
  pid : ℤ
  socketId : ℤ
  deriving DecidableEq

/-- `reg_child`; the loop goes on behind a free slot. -/
def regChild (gpidSonPid : List SonPid) (nPid socketId : ℤ) : List SonPid :=
  gpidSonPid.map fun e ↦ if e.pid = -1 then ⟨nPid, socketId⟩ else e

/-- What `child_exit` does to the table for a child that `waitpid` reported. It returns behind it, whether the
child has a slot or not. -/
def childExit (gpidSonPid : List SonPid) (nPid : ℤ) : List SonPid :=
  match gpidSonPid.findIdx? fun e ↦ e.pid = nPid with
  | some i => gpidSonPid.set i ⟨-1, -1⟩
  | none => gpidSonPid

/-- Where `main` is. -/
inductive C001Pc
  | accept
  /-- Behind `fork`, in front of `reg_child`. -/
  | forked (nPid socketId : ℤ)
  deriving DecidableEq

/-- The parent and its children. `exits` and `delivered` count the exits and the signals so far. -/
structure C001State where
  gpidSonPid : List SonPid
  pc : C001Pc
  /-- The children that have not exited, with their sockets. -/
  live : List SonPid
  /-- The children that have exited and are not collected. -/
  exited : List ℤ
  /-- `SIGCLD` is pending. -/
  pending : Bool
  /-- `child_exit` is running, in front of `waitpid`. -/
  running : Bool
  exits : ℕ
  delivered : ℕ
  deriving DecidableEq

/-- The steps. -/
inductive C001Act
  | fork (nPid socketId : ℤ)
  | regChild
  | exit (nPid : ℤ)
  | deliver
  /-- `waitpid` reports the child. -/
  | collect (nPid : ℤ)
  /-- `waitpid` reports nothing, which ends `child_exit`. -/
  | done

/-- The process ids in use. -/
def C001State.pids (s : C001State) : List ℤ := s.live.map SonPid.pid ++ s.exited

/-- One step. `main` does not run while the handler does. -/
def c001Step (s : C001State) : C001Act → Option C001State
  | .fork nPid socketId =>
    if s.running = false ∧ s.pc = .accept ∧ 0 < nPid ∧ nPid ∉ s.pids then
      some { s with pc := .forked nPid socketId, live := ⟨nPid, socketId⟩ :: s.live }
    else none
  | .regChild =>
    match s.running, s.pc with
    | false, .forked nPid socketId =>
      some { s with pc := .accept, gpidSonPid := Sunda.regChild s.gpidSonPid nPid socketId }
    | _, _ => none
  | .exit nPid =>
    if nPid ∈ s.live.map SonPid.pid then
      some { s with
        live := s.live.filter fun c ↦ c.pid ≠ nPid
        exited := nPid :: s.exited
        pending := true
        exits := s.exits + 1 }
    else none
  | .deliver =>
    if s.pending ∧ s.running = false then
      some { s with pending := false, running := true, delivered := s.delivered + 1 }
    else none
  | .collect nPid =>
    if s.running ∧ nPid ∈ s.exited then
      some { s with
        gpidSonPid := childExit s.gpidSonPid nPid
        exited := s.exited.erase nPid
        running := false }
    else none
  | .done => if s.running ∧ s.exited = [] then some { s with running := false } else none

/-- Behind `comm_init`: a global of C is filled with zeros. -/
def c001Init : C001State :=
  ⟨List.replicate maxChildNum ⟨0, 0⟩, .accept, [], [], false, false, 0, 0⟩

def c001System : Guarded C001State C001Act := .ofFn (· = c001Init) c001Step

/-! ### What is claimed of the table -/

/-- No signal is pending, no handler is running, and `main` is not on its way to `reg_child`. -/
def Quiescent (s : C001State) : Prop :=
  s.pending = false ∧ s.running = false ∧ s.pc = .accept

/-- The table is exact. -/
structure RegistryExact (s : C001State) : Prop where
  registered : ∀ c ∈ s.live, ∃! i : ℕ, s.gpidSonPid[i]? = some c
  free : ∀ e ∈ s.gpidSonPid, (∀ c ∈ s.live, e.pid ≠ c.pid) → e.pid = -1
  collected : s.exited = []

/-! ### The table stays as it is -/

/-- No slot was ever written. -/
def Untouched (gpidSonPid : List SonPid) : Prop :=
  gpidSonPid = List.replicate maxChildNum ⟨0, 0⟩

theorem regChild_untouched {tab : List SonPid} (h : Untouched tab) (nPid socketId : ℤ) :
    Untouched (regChild tab nPid socketId) := by
  rw [Untouched] at *
  rw [regChild, h, List.map_replicate, if_neg (by decide)]

theorem childExit_untouched {tab : List SonPid} (h : Untouched tab) {nPid : ℤ} (hpid : 0 < nPid) :
    Untouched (childExit tab nPid) := by
  have hnone : tab.findIdx? (fun e ↦ e.pid = nPid) = none := by
    rw [List.findIdx?_eq_none_iff]
    intro e he
    rw [h] at he
    rw [List.eq_of_mem_replicate he]
    exact decide_eq_false fun h0 ↦ by
      rw [← h0] at hpid
      exact absurd hpid (by decide)
  rw [childExit, hnone]
  exact h

/-- The invariant: the table, the process ids, and that each signal collects one child at most. -/
structure C001Inv (s : C001State) : Prop where
  untouched : Untouched s.gpidSonPid
  pids : ∀ p ∈ s.pids, 0 < p
  counted : s.exits + (if s.running then 1 else 0) ≤ s.exited.length + s.delivered

theorem c001Inv_init : C001Inv c001Init where
  untouched := rfl
  pids := by simp [C001State.pids, c001Init]
  counted := Nat.le_refl 0

/-- A child moves from the living to the exited, with a signal. -/
theorem C001Inv.exit {s : C001State} (h : C001Inv s) {nPid : ℤ} (hlive : nPid ∈ s.live.map SonPid.pid) :
    C001Inv { s with
      live := s.live.filter fun c ↦ c.pid ≠ nPid
      exited := nPid :: s.exited
      pending := true
      exits := s.exits + 1 } := by
  have hpids := h.pids
  have hcounted := h.counted
  simp only [C001State.pids, List.mem_append] at hpids
  refine ⟨h.untouched, ?_, ?_⟩
  · intro p hp
    simp only [C001State.pids, List.mem_append, List.mem_cons] at hp
    rcases hp with hp | rfl | hp
    · obtain ⟨c, hc, rfl⟩ := List.mem_map.1 hp
      exact hpids _ (.inl (List.mem_map.2 ⟨c, (List.mem_filter.1 hc).1, rfl⟩))
    · exact hpids _ (.inl hlive)
    · exact hpids _ (.inr hp)
  · rw [List.length_cons]
    dsimp only
    omega

/-- The handler collects one of the exited, and ends. -/
theorem C001Inv.collect {s : C001State} (h : C001Inv s) {nPid : ℤ} (hrunning : s.running = true)
    (hexited : nPid ∈ s.exited) :
    C001Inv { s with
      gpidSonPid := childExit s.gpidSonPid nPid
      exited := s.exited.erase nPid
      running := false } := by
  have hpids := h.pids
  have hcounted := h.counted
  simp only [C001State.pids, List.mem_append] at hpids
  have hlen := List.length_erase_of_mem hexited
  have hpos := List.length_pos_of_mem hexited
  rw [if_pos hrunning] at hcounted
  refine ⟨childExit_untouched h.untouched (hpids _ (.inr hexited)), ?_, ?_⟩
  · intro p hp
    rcases List.mem_append.1 hp with hp | hp
    · exact hpids p (.inl hp)
    · exact hpids p (.inr (List.mem_of_mem_erase hp))
  · dsimp only
    rw [if_neg (by decide), hlen]
    omega

/-- One step keeps the invariant. -/
theorem C001Inv.step {s s' : C001State} {a : C001Act} (h : C001Inv s) (hstep : c001Step s a = some s') :
    C001Inv s' := by
  have hcounted := h.counted
  cases a with
  | fork nPid socketId =>
    simp only [c001Step] at hstep
    split at hstep
    · next hg =>
      obtain rfl := Option.some.inj hstep
      refine ⟨h.untouched, ?_, hcounted⟩
      intro p hp
      rcases List.mem_cons.1 hp with rfl | hp
      · exact hg.2.2.1
      · exact h.pids p hp
    · cases hstep
  | regChild =>
    simp only [c001Step] at hstep
    split at hstep
    · obtain rfl := Option.some.inj hstep
      exact ⟨regChild_untouched h.untouched _ _, h.pids, hcounted⟩
    · cases hstep
  | exit nPid =>
    simp only [c001Step] at hstep
    split at hstep
    · next hlive =>
      obtain rfl := Option.some.inj hstep
      exact h.exit hlive
    · cases hstep
  | deliver =>
    simp only [c001Step] at hstep
    split at hstep
    · next hg =>
      obtain rfl := Option.some.inj hstep
      rw [hg.2, if_neg (by decide)] at hcounted
      refine ⟨h.untouched, h.pids, ?_⟩
      dsimp only
      rw [if_pos rfl]
      omega
    · cases hstep
  | collect nPid =>
    simp only [c001Step] at hstep
    split at hstep
    · next hg =>
      obtain rfl := Option.some.inj hstep
      exact h.collect hg.1 hg.2
    · cases hstep
  | done =>
    simp only [c001Step] at hstep
    split at hstep
    · next hg =>
      obtain rfl := Option.some.inj hstep
      rw [if_pos hg.1] at hcounted
      refine ⟨h.untouched, h.pids, ?_⟩
      dsimp only
      rw [if_neg (by decide)]
      omega
    · cases hstep

/-- A table without a write is not exact: its slots are not free. -/
theorem C001Inv.not_exact {s : C001State} (h : C001Inv s) : ¬ RegistryExact s := by
  intro hexact
  have hslot : (⟨0, 0⟩ : SonPid) ∈ s.gpidSonPid := by
    rw [h.untouched]
    exact List.mem_replicate.2 ⟨by decide, rfl⟩
  have hfree := hexact.free _ hslot fun c hc h0 ↦ by
    have hpos := h.pids c.pid (List.mem_append_left _ (List.mem_map_of_mem hc))
    rw [← h0] at hpos
    exact absurd hpos (by decide)
  exact absurd hfree (by decide)

/-- **The registry is never exact.** In every state of every run no slot was written, so no child is
registered and no slot is free; and there are at least as many uncollected children as exits for which no
signal of their own was delivered. -/
theorem registry_never_exact {s : C001State} (h : c001System.Reach Guarded.always s) :
    ¬ RegistryExact s ∧ Untouched s.gpidSonPid ∧ s.exits ≤ s.exited.length + s.delivered := by
  have hinv : C001Inv s := h.invariant (by rintro _ rfl; exact c001Inv_init)
    fun _ _ _ hs _ hstep ↦ hs.step hstep
  have hcounted := hinv.counted
  exact ⟨hinv.not_exact, hinv.untouched, by omega⟩

/-- A child is forked and registered, and the table does not have it. -/
theorem registry_never_exact_one :
    ∃ s, c001System.Reach Guarded.always s ∧ Quiescent s ∧ s.live = [⟨10, 4⟩] ∧ ¬ RegistryExact s ∧
      Untouched s.gpidSonPid := by
  obtain ⟨s, hs, hquiet, hlive⟩ : ∃ s, Guarded.runFn (Guarded.guardFn Guarded.always c001Step)
      c001Init [.fork 10 4, .regChild] = some s ∧ Quiescent s ∧ s.live = [⟨10, 4⟩] :=
    ⟨_, rfl, ⟨rfl, rfl, rfl⟩, rfl⟩
  have hreach : c001System.Reach Guarded.always s := Guarded.reach_of_runFn (.init rfl) hs
  exact ⟨s, hreach, hquiet, hlive, (registry_never_exact hreach).1, (registry_never_exact hreach).2.1⟩

/-- Two children exit, and the handler runs for both. -/
def twoExits : List C001Act :=
  [.fork 10 4, .regChild, .fork 11 5, .regChild, .exit 10, .exit 11, .deliver, .collect 10]

/-- Nothing is pending behind the handler, and yet a child is left uncollected. -/
theorem merged_exit_left_uncollected :
    ∃ s, c001System.Reach Guarded.always s ∧ Quiescent s ∧ s.exited = [11] ∧ ¬ RegistryExact s := by
  obtain ⟨s, hs, hquiet, hexited⟩ : ∃ s, Guarded.runFn (Guarded.guardFn Guarded.always c001Step)
      c001Init twoExits = some s ∧ Quiescent s ∧ s.exited = [11] := ⟨_, rfl, ⟨rfl, rfl, rfl⟩, rfl⟩
  refine ⟨s, Guarded.reach_of_runFn (.init rfl) hs, hquiet, hexited, fun hexact ↦ ?_⟩
  rw [hexact.collected] at hexited
  cases hexited

end Sunda
