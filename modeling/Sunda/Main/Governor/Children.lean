import Sunda.Main.Governor.Kills
import Sunda.Main.Governor.Counts

/-!
# No child is forgotten

A process that was started and has no pid entry would run on unnoticed: the Governor could neither stop nor
restart it. The model can tell whether that happens if it also remembers which of the children that are alive
were sent `SIGTERM` since they were started (`Watched`, `watchStep`). The number alone would not do, since the
kernel hands numbers out again.

`children_accounted` says that in every run, whatever fails on the way, every child that is alive was sent
`SIGTERM`, or a pid entry names it. A step gives each new child an entry (`Follows.new`), and takes an entry
only from a child that it signals, or that was collected (`Follows.kept`).
-/

namespace Sunda

variable {n m : ℕ} {s t u : Sys n m} {k : Fin n} {i : Fin m} {c : Child n}

/-! ### The children -/

/-- A pid entry names the child. -/
def Named (s : Sys n m) (c : Child n) : Prop :=
  ∃ i, i.val ≠ 0 ∧ (s.tSvrPid i).pid = c.pid ∧ (s.tSvrPid i).svrpos = c.taskid

/-- The child was sent a signal from `s` to `t`. -/
def signalled (s t : Sys n m) (c : Child n) : Bool :=
  (t.signals.drop s.signals.length).any fun sig ↦ sig.pid == c.pid

/-- The tables, and the children that are alive and were sent `SIGTERM`. -/
structure Watched (n m : ℕ) where
  sys : Sys n m
  told : List (Child n)

/-- The children that are alive in `t` and were sent `SIGTERM`, when those in `s` were `told`. -/
def toldAfter (s t : Sys n m) (told : List (Child n)) : List (Child n) :=
  t.live.filter fun c ↦ decide (c ∈ s.live) && (decide (c ∈ told) || signalled s t c)

theorem mem_toldAfter {told : List (Child n)} :
    c ∈ toldAfter s t told ↔ c ∈ t.live ∧ c ∈ s.live ∧ (c ∈ told ∨ signalled s t c = true) := by
  simp [toldAfter]

/-- One event. -/
def watchStep [NeZero n] (w : Watched n m) (a : Event) : Option (Watched n m) :=
  (govStep w.sys a).map fun t ↦ ⟨t, toldAfter w.sys t w.told⟩

/-- The runs of the Governor, watched. When it starts nobody was sent anything. -/
def watchSystem (n m : ℕ) [NeZero n] (I : Env → Prop) : Guarded (Watched n m) Event :=
  .ofFn (fun w ↦ (govSystem n m I).init w.sys ∧ w.told = []) watchStep

/-- Watching changes nothing. -/
theorem reach_of_watched [NeZero n] {I : Env → Prop} {w : Watched n m}
    (h : Guarded.Reach (watchSystem n m I) Guarded.always w) :
    Guarded.Reach (govSystem n m I) Guarded.always w.sys := by
  refine h.invariant (I := fun w ↦ Guarded.Reach (govSystem n m I) Guarded.always w.sys)
    (fun w hw ↦ ?_) fun w a w' hw _ hstep ↦ ?_
  · obtain ⟨hw, -⟩ := hw
    exact .init hw
  · obtain ⟨t, ht, rfl⟩ := Option.map_eq_some_iff.1 hstep
    exact .step hw trivial ht

/-! ### The numbers of the children -/

/-- Children have different, positive numbers. -/
structure NumbersOk (s : Sys n m) : Prop where
  nodup : s.pids.Nodup
  positive : PidsPositive s

theorem NumbersOk.fill [NeZero n] {f : Fork} (h : NumbersOk s) (hf : 0 < f.pid)
    (ho : s.owns f.pid = false) (seq : ℤ) (forks : List Fork) :
    NumbersOk (s.fill k i seq f forks) := by
  refine ⟨List.nodup_cons.2 ⟨Sys.owns_eq_false_iff.1 ho, h.nodup⟩, fun pid hpid ↦ ?_⟩
  rcases List.mem_cons.1 hpid with rfl | hmem
  · exact hf
  · exact h.positive pid hmem

theorem Works.numbersOk [NeZero n] {d : ℕ} (h : Works k s d t) (hs : NumbersOk s) : NumbersOk t := by
  induction h with
  | refl => exact hs
  | svr _ _ ih => exact ⟨ih.nodup, ih.positive⟩
  | fill seq forks _ _ hf ho ih => exact ih.fill hf ho seq forks
  | abort _ _ _ ih => exact ⟨ih.nodup, ih.positive⟩

/-- A child that exits keeps its number until it is collected. -/
theorem perm_exit (s : Sys n m) (pid : ℤ) :
    (s.live.filter (·.pid ≠ pid) ++ (s.live.filter (·.pid = pid) ++ s.exited)).Perm
      (s.live ++ s.exited) := by
  rw [← List.append_assoc]
  refine List.Perm.append_right _ (List.perm_append_comm.trans ?_)
  have hsplit := List.filter_append_perm (fun c : Child n ↦ decide (c.pid = pid)) s.live
  simpa using hsplit

theorem NumbersOk.handled {env : Env} {x : Exit} (h : NumbersOk s)
    (hh : HandledPids (s.collected env x.pid) x.now i k t) : NumbersOk t := by
  refine ⟨?_, h.positive.handled hh⟩
  have hnodup := (pids_collected s env x.pid).nodup h.nodup
  obtain ⟨-, -, -, hown, hlive⟩ | ⟨-, -, hlive⟩ := hh.process
  · rw [Sys.pids, hlive, hh.exited]
    exact List.nodup_cons.2 ⟨Sys.owns_eq_false_iff.1 hown, hnodup⟩
  · rw [Sys.pids, hlive, hh.exited]
    exact hnodup

theorem NumbersOk.step [NeZero n] {a : Event} (h : NumbersOk s) (hs : govStep s a = some t) :
    NumbersOk t := by
  cases a with
  | exit pid =>
    rw [govStep] at hs
    split at hs
    · obtain rfl := Option.some.inj hs
      have hperm := (perm_exit s pid).map (·.pid)
      exact ⟨hperm.nodup_iff.2 h.nodup, fun p hp ↦ h.positive p (hperm.mem_iff.1 hp)⟩
    · cases hs
  | collect env x =>
    obtain ⟨-, ⟨-, rfl⟩ | ⟨j, -, hexit⟩⟩ := deatchOne_cases hs
    · have hsub := pids_collected s env x.pid
      exact ⟨hsub.nodup h.nodup, fun p hp ↦ h.positive p (hsub.subset hp)⟩
    · exact h.handled (oneServerExit_handled hexit rfl).toHandledPids
  | cmd env cmd id =>
    obtain ⟨⟨rc, t'⟩, hgov, rfl⟩ := Option.map_eq_some_iff.1 hs
    obtain ⟨j, v, d, hlive, hex, hworks⟩ := governor_works hgov
    have hpids : v.pids = s.pids := by
      rw [Sys.pids, hlive, hex]
      rfl
    refine hworks.numbersOk ⟨?_, ?_⟩
    · rw [hpids]
      exact h.nodup
    · rw [PidsPositive, hpids]
      exact h.positive

/-! ### What one step does to a child -/

/-- From `s` to `t`, new children are named, and the others stay so unless they are signalled. -/
structure Follows (s t : Sys n m) : Prop where
  new : ∀ c ∈ t.live, c ∉ s.live → Named t c
  kept : ∀ c ∈ t.live, c ∈ s.live → Named s c → Named t c ∨ signalled s t c = true

theorem signalled_iff {l : List Signal} (h : t.signals = s.signals ++ l) :
    signalled s t c = true ↔ c.pid ∈ l.map (·.pid) := by
  rw [signalled, h, List.drop_left, List.any_eq_true, List.mem_map]
  simp

theorem signalled_trans {l l' : List Signal} (h : t.signals = s.signals ++ l)
    (h' : u.signals = t.signals ++ l') :
    signalled s u c = true ↔ signalled s t c = true ∨ signalled t u c = true := by
  have hall : u.signals = s.signals ++ (l ++ l') := by rw [h', h, List.append_assoc]
  rw [signalled_iff hall, signalled_iff h, signalled_iff h', List.map_append, List.mem_append]

/-- A child that is alive keeps a positive number, so its entry is in use. -/
theorem NumbersOk.used (h : NumbersOk s) (hc : c ∈ s.live) (hpid : (s.tSvrPid i).pid = c.pid) :
    (s.tSvrPid i).pid ≠ -1 := by
  have hpos := h.positive c.pid (List.mem_map.2 ⟨c, List.mem_append_left _ hc, rfl⟩)
  omega

section Works

variable [NeZero n] {d : ℕ}

theorem Works.signals (h : Works k s d t) : t.signals = s.signals := by
  induction h with
  | refl => rfl
  | svr _ _ ih => exact ih
  | fill _ _ _ _ _ _ ih => exact ih
  | abort _ _ _ ih => exact ih

/-- Work for a server takes no entry away. -/
theorem Works.named (h : Works k s d t) (hs : NumbersOk s) (hc : c ∈ s.live) (hn : Named s c) :
    Named t c := by
  obtain ⟨i, h0, hpid, hpos⟩ := hn
  have hsame := h.tSvrPid_of_used (i := i) (.inl (hs.used hc hpid))
  exact ⟨i, h0, by rw [hsame, hpid], by rw [hsame, hpos]⟩

/-- **Each process that is started gets an entry**, and keeps it while others are started. -/
theorem Works.named_new (h : Works k s d t) (hs : NumbersOk s) (hc : c ∈ t.live)
    (hnew : c ∉ s.live) : Named t c := by
  induction h with
  | refl => exact absurd hc hnew
  | svr _ _ ih => exact ih hc
  | @fill _ v i f seq forks hw hi hf ho ih =>
    obtain ⟨h0, -⟩ := serverGetPidentry_eq_some hi
    rcases List.mem_cons.1 hc with rfl | hold
    · refine ⟨i, h0, ?_, ?_⟩ <;> rw [Sys.fill, Sys.setPid_self]
    · have hstep : Works k v 1 (v.fill k i seq f forks) := .fill seq forks .refl hi hf ho
      exact hstep.named (hw.numbersOk hs) hold (ih hold)
  | @abort _ v i forks hw hi ih =>
    have hstep : Works k v 0 (v.abort i forks) := .abort forks .refl hi
    exact hstep.named (hw.numbersOk hs) hc (ih hc)

/-- `server_kill` signals whom it takes the entry from. -/
theorem named_stopServer (s : Sys n m) (k : Fin n) (hn : Named s c) :
    Named (stopServer s k) c ∨ signalled s (stopServer s k) c = true := by
  obtain ⟨i, h0, hpid, hpos⟩ := hn
  have hentry := stopServer_tSvrPid s k i
  by_cases hk : killed (s.tSvrTab k).svrid (s.tSvrPid i) = true
  · right
    have hid : ((s.setSvr k { s.tSvrTab k with type := svrTemp, state := .dead }).tSvrTab k).svrid =
        (s.tSvrTab k).svrid := by rw [Sys.setSvr_self]
    refine (signalled_iff rfl).2 ?_
    rw [List.map_map]
    refine List.mem_map.2 ⟨i, List.mem_filter.2 ⟨List.mem_finRange i, ?_⟩, hpid⟩
    rw [hid]
    exact hk
  · left
    rw [if_neg hk] at hentry
    exact ⟨i, h0, by rw [hentry, hpid], by rw [hentry, hpos]⟩

end Works

/-- A child that is collected was not alive, so its entry can be used again. -/
theorem NumbersOk.pid_ne_exited (h : NumbersOk s) {x : Child n} (hc : c ∈ s.live)
    (hx : x ∈ s.exited) : c.pid ≠ x.pid := by
  have hnodup : (s.live.map (·.pid) ++ s.exited.map (·.pid)).Nodup := by
    rw [← List.map_append]
    exact h.nodup
  intro heq
  refine (List.nodup_append.1 hnodup).2.2 _ (List.mem_map.2 ⟨c, hc, rfl⟩) _
    (List.mem_map.2 ⟨x, hx, rfl⟩) heq

theorem Follows.handled {env : Env} {x : Exit} (hs : NumbersOk s) (hx : ∃ y ∈ s.exited, y.pid = x.pid)
    (hi : serverFindPid s x.pid = some i)
    (hh : HandledPids (s.collected env x.pid) x.now i (s.tSvrPid i).svrpos t) : Follows s t := by
  obtain ⟨hi0, hipid⟩ := serverFindPid_eq_some hi
  -- the entry of the child that was collected is not that of one that is alive
  have hkept (c : Child n) (hc : c ∈ s.live) (hn : Named s c) : Named t c := by
    obtain ⟨l, h0, hpid, hpos⟩ := hn
    have hli : l ≠ i := by
      rintro rfl
      obtain ⟨y, hy, hyx⟩ := hx
      exact hs.pid_ne_exited hc hy (by rw [← hpid, hipid, hyx])
    obtain ⟨hsame, hsamePos, -⟩ := hh.keep hli
    exact ⟨l, h0, hsame.trans hpid, hsamePos.trans hpos⟩
  refine ⟨fun c hc hnew ↦ ?_, fun c _ hold hn ↦ .inl (hkept c hold hn)⟩
  obtain ⟨-, -, -, -, hlive⟩ | ⟨-, -, hlive⟩ := hh.process
  · rw [hlive] at hc
    rcases List.mem_cons.1 hc with rfl | hold
    · exact ⟨i, hi0, rfl, hh.svrpos⟩
    · exact absurd hold hnew
  · rw [hlive] at hc
    exact absurd hc hnew

variable [NeZero n]

/-- Work for a server, perhaps after it was stopped. -/
theorem Follows.works {d : ℕ} {l : List Signal} (hv : u.signals = s.signals ++ l)
    (hlive : u.live = s.live) (hnum : NumbersOk u)
    (hnamed : ∀ c ∈ s.live, Named s c → Named u c ∨ signalled s u c = true)
    (h : Works k u d t) : Follows s t := by
  refine ⟨fun c hc hnew ↦ h.named_new hnum hc (by rwa [hlive]), fun c _ hold hn ↦ ?_⟩
  rcases hnamed c hold hn with hn' | hsig
  · exact .inl (h.named hnum (by rwa [hlive]) hn')
  · exact .inr ((signalled_trans hv (h.signals.trans (List.append_nil _).symm)).2 (.inl hsig))

theorem follows_of_governor {env : Env} {cmd id rc : ℤ} (hs : NumbersOk s)
    (h : governor env cmd id s = some (rc, t)) : Follows s t := by
  have hsame : s.signals = s.signals ++ [] := (List.append_nil _).symm
  have hstop (j : Fin n) : NumbersOk (stopServer s j) := ⟨hs.nodup, hs.positive⟩
  rcases governor_cases h with ⟨j, -, ⟨-, hrun⟩ | ⟨-, rfl⟩ | ⟨-, hrun⟩⟩ | ⟨-, -, hrun⟩ | rfl
  · rcases startKnown_works hrun with ⟨-, rfl⟩ | ⟨l, hl, d, -, hd, -⟩
    · exact .works hsame rfl hs (fun c _ hn ↦ .inl hn) (.svr (k := j) _ .refl)
    · exact .works (u := s.marked j ⟨l, hl⟩) hsame rfl ⟨hs.nodup, hs.positive⟩ (fun c _ hn ↦ .inl hn) hd
  · exact .works (k := j) (u := stopServer s j) rfl rfl (hstop j) (fun c _ hn ↦ named_stopServer s j hn) .refl
  · obtain ⟨d, hd, -⟩ := runTaskId_works hrun
    exact .works (u := stopServer s j) rfl rfl (hstop j) (fun c _ hn ↦ named_stopServer s j hn) hd
  · rcases startUnknown_works hrun with ⟨-, rfl⟩ | ⟨j, d, -, -, hd⟩
    · exact .works (k := 0) hsame rfl hs (fun c _ hn ↦ .inl hn) .refl
    · exact .works hsame rfl hs (fun c _ hn ↦ .inl hn) hd
  · exact .works (k := 0) hsame rfl hs (fun c _ hn ↦ .inl hn) .refl

/-- **One step.** -/
theorem follows_of_step {a : Event} (hs : NumbersOk s) (h : govStep s a = some t) : Follows s t := by
  cases a with
  | exit pid =>
    rw [govStep] at h
    split at h
    · obtain rfl := Option.some.inj h
      exact ⟨fun c hc hnew ↦ absurd (List.mem_of_mem_filter hc) hnew, fun c _ _ hn ↦ .inl hn⟩
    · cases h
  | collect env x =>
    obtain ⟨hany, ⟨-, rfl⟩ | ⟨i, hi, hexit⟩⟩ := deatchOne_cases h
    · exact ⟨fun c hc hnew ↦ absurd hc hnew, fun c _ _ hn ↦ .inl hn⟩
    · obtain ⟨y, hy, hyx⟩ := List.any_eq_true.1 hany
      exact .handled hs ⟨y, hy, eq_of_beq hyx⟩ hi (oneServerExit_handled hexit rfl).toHandledPids
  | cmd env cmd id =>
    obtain ⟨⟨rc, t'⟩, hgov, rfl⟩ := Option.map_eq_some_iff.1 h
    have hforks : NumbersOk { s with forks := env.forks } := ⟨hs.nodup, hs.positive⟩
    have hfollows := follows_of_governor hforks hgov
    exact ⟨hfollows.new, hfollows.kept⟩

/-! ### Runs -/

/-- Every child that is alive was sent `SIGTERM`, or is named. -/
def Accounted (w : Watched n m) : Prop :=
  ∀ c ∈ w.sys.live, c ∈ w.told ∨ Named w.sys c

omit [NeZero n] in
theorem Accounted.follows {w : Watched n m} (h : Accounted w) (ht : Follows w.sys t) :
    Accounted ⟨t, toldAfter w.sys t w.told⟩ := by
  intro c hc
  by_cases hold : c ∈ w.sys.live
  · rcases h c hold with htold | hn
    · exact .inl (mem_toldAfter.2 ⟨hc, hold, .inl htold⟩)
    · rcases ht.kept c hc hold hn with hn' | hsig
      · exact .inr hn'
      · exact .inl (mem_toldAfter.2 ⟨hc, hold, .inr hsig⟩)
  · exact .inr (ht.new c hc hold)

/-- What holds after `load_server`. -/
theorem numbersOk_of_governorMain {env : Env} {mainPid now : ℤ}
    (h : governorMain env mainPid now = some s) :
    NumbersOk s ∧ ∀ c ∈ s.live, Named s c := by
  obtain ⟨lines, u, -, hu, rfl⟩ := governorMain_cases h
  have hempty : u.pids = [] := hu.pids_nil
  have hnone : u.live = [] := (List.append_eq_nil_iff.1 (List.map_eq_nil_iff.1 hempty)).1
  refine loadServer_induction (P := fun v ↦ NumbersOk v ∧ ∀ c ∈ v.live, Named v c) ⟨⟨?_, ?_⟩, ?_⟩
    fun k v _ _ hv ↦ ?_
  · rw [hempty]
    exact List.nodup_nil
  · rw [PidsPositive, hempty]
    exact fun p hp ↦ absurd hp List.not_mem_nil
  · rw [hnone]
    exact fun c hc ↦ absurd hc List.not_mem_nil
  · obtain ⟨d, hd⟩ := serverRun_ran (k := k) (s := v) rfl
    refine ⟨hd.works.numbersOk hv.1, fun c hc ↦ ?_⟩
    by_cases hold : c ∈ v.live
    · exact hd.works.named hv.1 hold (hv.2 c hold)
    · exact hd.works.named_new hv.1 hc hold

theorem numbersOk_of_reach {I : Env → Prop} (h : Guarded.Reach (govSystem n m I) Guarded.always s) :
    NumbersOk s := by
  refine h.invariant (fun s hs ↦ ?_) fun s a t hs _ hstep ↦ hs.step hstep
  obtain ⟨env, mainPid, now, -, hmain⟩ := hs
  exact (numbersOk_of_governorMain hmain).1

/-- The invariant. -/
theorem accounted_of_reach {I : Env → Prop} {w : Watched n m}
    (h : Guarded.Reach (watchSystem n m I) Guarded.always w) : Accounted w := by
  have hboth : NumbersOk w.sys ∧ Accounted w := by
    refine h.invariant (I := fun w ↦ NumbersOk w.sys ∧ Accounted w) (fun w hw ↦ ?_)
      fun w a w' hw _ hstep ↦ ?_
    · obtain ⟨⟨env, mainPid, now, -, hmain⟩, -⟩ := hw
      obtain ⟨hnum, hnamed⟩ := numbersOk_of_governorMain hmain
      exact ⟨hnum, fun c hc ↦ .inr (hnamed c hc)⟩
    · obtain ⟨t, ht, rfl⟩ := Option.map_eq_some_iff.1 hstep
      exact ⟨hw.1.step ht, hw.2.follows (follows_of_step hw.1 ht)⟩
  exact hboth.2

end Sunda
