import Sunda.Main.Governor.Capacity
import Sunda.Main.Governor.ServerRecord

/-!
# Starting a configured server

`TSK_CMD_START` of an id that is not in the table should register the server of its line and run it,
whatever the other lines say (`StartedAs`).

`run_one_task` stores line after line in the entry it was given and looks at the id of the entry behind
each. So a line without an id does no harm: the id of the entry stays as it was. But a line that
`register_server` rejects ends the command, and it rejects a line whose program is missing, or whose
first field is quoted and has a blank in it (`SrvLine.Passes`). `start_configured_iff` says that the
command succeeds exactly when the lines in front of a line with the id pass, and the id itself is read.
-/

namespace Sunda

open Bytes

variable {n m : ℕ} [NeZero n] {s t : Sys n m} {j : Fin n}

/-! ### Lines -/

/-- A line of the file: a record whose program name has no blank, written in some way. -/
structure SrvLine where
  record : SrvRecord
  noBlank : 32 ∉ record.name.chars
  rendering : Rendering record

namespace SrvLine

def text (l : SrvLine) : List UInt8 :=
  l.rendering.line

/-- The fields in the order in which they stand in the line. -/
def fields (l : SrvLine) : List Field :=
  l.rendering.parts.map Prod.snd

/-- The id that the line gives. -/
def id (l : SrvLine) : Option ℤ :=
  l.record.srvid.map Subtype.val

/-- The number of processes that the line asks for. -/
def processes (l : SrvLine) : ℤ :=
  l.record.srvnum.elim 5 Subtype.val

/-- The program is there. -/
def Installed (exec : List UInt8 → Bool) (l : SrvLine) : Prop :=
  exec l.record.name.chars = true

/-- The first field is quoted. -/
def QuotedFirst (l : SrvLine) : Prop :=
  ∃ t rest, l.fields = .srvparm t :: rest

/-- `register_server` accepts the line: its program is there, it has a field, and the first one, if it is
quoted, has no blank in it. -/
structure Passes (exec : List UInt8 → Bool) (l : SrvLine) : Prop where
  installed : l.Installed exec
  ne_nil : l.fields ≠ []
  noBlank : ∀ t rest, l.fields = .srvparm t :: rest → 32 ∉ t.chars

end SrvLine

/-- The condition: there is a line with the id whose program is there and whose first field is not
quoted, and all lines in front of it pass. -/
def FoundBehind (exec : List UInt8 → Bool) (id : ℤ) (lines : List SrvLine) : Prop :=
  ∃ pre w post, lines = pre ++ w :: post ∧ w.id = some id ∧ w.Installed exec ∧ ¬ w.QuotedFirst ∧
    ∀ l ∈ pre, l.Passes exec

/-! ### One line -/

section Line

variable (exec : List UInt8 → Bool) (l : SrvLine) (e : SvrTab)

theorem registerServer_text : registerServer exec e l.text =
    if exec l.record.name.chars = false then some (1, e)
    else (Field.parsed (.defaults l.record.name.chars) l.fields).map fun p ↦ (p.1, p.2.store e) := by
  have hname := lineName_name l.record.name.noNul l.record.name.ne_nil l.noBlank
    (renderFields l.rendering.parts) (head_renderFields l.rendering.parts)
  rw [progName_of_noBlank l.record.name.noNul l.noBlank l.record.name.length_le] at hname
  rw [registerServer, SrvLine.text, Rendering.line, hname, Option.bind_some,
    parseLine_render l.noBlank, SrvLine.fields]

variable {exec l}

/-- A line that does not pass is rejected. -/
theorem registerServer_rejected (h : ¬ l.Passes exec) :
    ∀ r, registerServer exec e l.text = some r → r.1 ≠ 0 := by
  rintro ⟨rc, e'⟩ hr rfl
  rw [registerServer_text] at hr
  split at hr
  · cases hr
  · next hexec =>
    refine h ⟨eq_true_of_ne_false hexec, fun hnil ↦ ?_, fun t rest hq hb ↦ ?_⟩
    · rw [hnil] at hr
      cases hr
    · rw [hq, Field.parsed, if_pos hb] at hr
      cases hr

/-- A line that passes is stored; its id is read if the first field is not quoted. -/
theorem registerServer_passed (h : l.Passes exec) :
    ∃ e', registerServer exec e l.text = some (0, e') ∧ (¬ l.QuotedFirst → e' = l.record.entry e) ∧
      (l.QuotedFirst → e'.svrid = e.svrid) := by
  have hexec : ¬ exec l.record.name.chars = false := by
    rw [show exec l.record.name.chars = true from h.installed]
    decide
  obtain ⟨f, rest, hfields⟩ := List.exists_cons_of_ne_nil h.ne_nil
  by_cases hf : f.key = .srvparm
  · obtain ⟨t, rfl⟩ := Field.exists_srvparm hf
    refine ⟨((SrvParm.defaults l.record.name.chars).assign t.chars .srvparm).store e, ?_,
      fun hq ↦ absurd ⟨t, rest, hfields⟩ hq, fun _ ↦ rfl⟩
    rw [registerServer_text, if_neg hexec, hfields, Field.parsed, if_neg (h.noBlank t rest hfields)]
    rfl
  · have hperm : (f :: rest).Perm l.record.fields := hfields ▸ l.rendering.perm
    refine ⟨l.record.entry e, ?_, fun _ ↦ rfl, ?_⟩
    · rw [registerServer_text, if_neg hexec, hfields, Field.parsed_of_unquoted hf,
        l.record.assignAll_perm hperm, Option.map_some, l.record.store_assignAll]
    · rintro ⟨t, rest', hq⟩
      rw [hfields] at hq
      obtain ⟨rfl, -⟩ := List.cons.inj hq
      exact absurd rfl hf

omit [NeZero n] in
/-- A line with the id and an unquoted field in front passes when its program is there. -/
theorem SrvLine.passes_of_unquoted {id : ℤ} (hid : l.id = some id) (hexec : l.Installed exec)
    (hq : ¬ l.QuotedFirst) : l.Passes exec := by
  obtain ⟨v, hv, -⟩ := Option.map_eq_some_iff.1 hid
  refine ⟨hexec, fun hnil ↦ ?_, fun t rest h ↦ absurd ⟨t, rest, h⟩ hq⟩
  have hmem : Field.srvid v ∈ l.fields := l.rendering.perm.symm.subset (SrvRecord.mem_fields.2 hv)
  rw [hnil] at hmem
  exact absurd hmem List.not_mem_nil

end Line

/-! ### The loop of `run_one_task` -/

/-- What the loop finds is the entry of a line with the id. -/
theorem oneEntry_lines {exec : List UInt8 → Bool} {id : ℤ} {lines : List SrvLine} {e e' : SvrTab}
    (he : e.svrid ≠ id) (h : oneEntry exec id (lines.map SrvLine.text) e = some e') :
    ∃ pre w post, lines = pre ++ w :: post ∧ w.id = some id ∧ w.Installed exec ∧ ¬ w.QuotedFirst ∧
      (∀ l ∈ pre, l.Passes exec) ∧ ∃ e₀, e' = w.record.entry e₀ := by
  induction lines generalizing e with
  | nil => cases h
  | cons l rest ih =>
    obtain ⟨⟨rc, e₁⟩, hreg, hrest⟩ := Option.bind_eq_some_iff.1 h
    by_cases hpass : l.Passes exec
    · obtain ⟨e₂, hreg₂, hunq, hq⟩ := registerServer_passed e hpass
      rw [hreg] at hreg₂
      obtain ⟨rfl, rfl⟩ := Prod.mk.inj (Option.some.inj hreg₂)
      dsimp only at hrest
      rw [if_neg (not_not.2 rfl)] at hrest
      split at hrest
      · -- the id was read from this line
        next hid =>
        obtain rfl := Option.some.inj hrest
        have hquoted : ¬ l.QuotedFirst := fun hquoted ↦ he ((hq hquoted).symm.trans hid)
        refine ⟨[], l, rest, rfl, ?_, hpass.installed, hquoted, fun _ hl ↦ absurd hl List.not_mem_nil,
          e, hunq hquoted⟩
        rw [hunq hquoted, SrvRecord.entry] at hid
        rw [SrvLine.id]
        cases hv : l.record.srvid with
        | none =>
          rw [hv] at hid
          exact absurd hid he
        | some v =>
          rw [hv] at hid
          exact congrArg some hid
      · next hid =>
        obtain ⟨pre, w, post, rfl, hw, hexec, hquoted, hpre, he'⟩ := ih hid hrest
        exact ⟨l :: pre, w, post, rfl, hw, hexec, hquoted, List.forall_mem_cons.2 ⟨hpass, hpre⟩, he'⟩
    · have hne := registerServer_rejected e hpass _ hreg
      dsimp only at hne hrest
      rw [if_pos hne] at hrest
      cases hrest

/-- **The loop finds a line** with the id behind lines that pass. -/
theorem oneEntry_isSome {exec : List UInt8 → Bool} {id : ℤ} {lines : List SrvLine} (e : SvrTab)
    (h : FoundBehind exec id lines) :
    (oneEntry exec id (lines.map SrvLine.text) e).isSome = true := by
  obtain ⟨pre, w, post, rfl, hw, hexec, hquoted, hpre⟩ := h
  induction pre generalizing e with
  | nil =>
    obtain ⟨e', hreg, hunq, -⟩ :=
      registerServer_passed e (SrvLine.passes_of_unquoted hw hexec hquoted)
    have hid : e'.svrid = id := by
      obtain ⟨v, hv, rfl⟩ := Option.map_eq_some_iff.1 hw
      rw [hunq hquoted, SrvRecord.entry, hv]
      rfl
    simp [oneEntry, hreg, hid]
  | cons l pre ih =>
    obtain ⟨hl, hpre⟩ := List.forall_mem_cons.1 hpre
    obtain ⟨e', hreg, -⟩ := registerServer_passed e hl
    rw [List.cons_append, List.map_cons, oneEntry, hreg, Option.bind_some, if_neg (not_not.2 rfl)]
    split
    · rfl
    · exact ih e' hpre

/-- A loop that finds its line returns. -/
theorem runOneLoop_isSome {exec : List UInt8 → Bool} {id : ℤ} {lines : List (List UInt8)}
    {e : SvrTab} (h : oneEntry exec id lines (s.tSvrTab j) = some e) :
    (runOneLoop exec j id lines s).isSome = true := by
  induction lines generalizing s with
  | nil => cases h
  | cons buf rest ih =>
    obtain ⟨⟨rc, e₁⟩, hreg, hrest⟩ := Option.bind_eq_some_iff.1 h
    rw [runOneLoop, hreg, Option.bind_some]
    dsimp only at hrest ⊢
    split at hrest
    · cases hrest
    · next hrc =>
      rw [if_neg hrc, Sys.setSvr_self]
      split at hrest
      · next hid =>
        rw [if_pos hid]
        split <;> rfl
      · next hid =>
        rw [if_neg hid]
        exact ih (by rw [Sys.setSvr_self]; exact hrest)

/-! ### The command -/

/-- The server of the line is in the table, with all its processes, and no other entry changed. -/
structure StartedAs (s t : Sys n m) (j : Fin n) (l : SrvLine) : Prop where
  entry : t.tSvrTab j = { l.record.entry .clear with
    type := svrPerm
    state := if 0 < l.processes then .idle else .avail }
  others : ∀ k, k ≠ j → t.tSvrTab k = s.tSvrTab k
  processes : running t j = running s j + l.processes.toNat

/-- A success of `run_one_task` is the start of a line with the id. -/
theorem startedAs_of_runOneTask {env : Env} {id : ℤ} {lines : List SrvLine}
    (htask : env.task = some (lines.map SrvLine.text)) (hid : (s.tSvrTab j).svrid ≠ id)
    (h : runOneTask env s j id = some (0, t)) :
    ∃ pre w post, lines = pre ++ w :: post ∧ w.id = some id ∧ w.Installed env.exec ∧
      ¬ w.QuotedFirst ∧ (∀ l ∈ pre, l.Passes env.exec) ∧ StartedAs s t j w := by
  rw [runOneTask, htask] at h
  rcases runOneLoop_cases h with ⟨-, hne, -⟩ | ⟨e, u, rc, c, hone, hran, ⟨hrc, -, rfl⟩ | ⟨-, hne, -⟩⟩
  · exact absurd rfl hne
  · obtain ⟨pre, w, post, hlines, hw, hexec, hquoted, hpre, e₀, rfl⟩ := oneEntry_lines hid hone
    refine ⟨pre, w, post, hlines, hw, hexec, hquoted, hpre, ?_⟩
    have hc : c = w.processes.toNat := hran.all hrc
    have hpos : 0 < c ↔ 0 < w.processes := by omega
    obtain ⟨v, hv, -⟩ := Option.map_eq_some_iff.1 hw
    refine ⟨?_, fun k hk ↦ ?_, ?_⟩
    · rw [hran.entry]
      simp only [hpos]
      simp [SrvRecord.entry, hv]
    · rw [hran.works.tSvrTab_of_ne hk, Sys.setSvr_of_ne _ _ hk]
    · rw [hran.works.running, if_pos rfl, hc]
      rfl
  · exact absurd hne (by decide)

/-- **A configured server is started** exactly when its line stands behind lines that pass, and the id is
read from it. -/
theorem start_configured_iff {env : Env} {id : ℤ} {lines : List SrvLine}
    (htask : env.task = some (lines.map SrvLine.text)) (hid : findServerId s id = none)
    (hj : serverGetIdentry s = some j)
    (hstart : ∀ l ∈ lines, l.id = some id → s.Startable l.processes.toNat) :
    (∃ t w, w ∈ lines ∧ w.id = some id ∧ w.Installed env.exec ∧
      governor env tskCmdStart id s = some (0, t) ∧ StartedAs s t j w) ↔
      FoundBehind env.exec id lines := by
  have hgov : governor env tskCmdStart id s = runOneTask env s j id := by
    rw [governor, if_pos rfl, hid]
    show startUnknown env s id = _
    rw [startUnknown, hj]
  have hfree : (s.tSvrTab j).svrid ≠ id := findServerId_eq_none hid (serverGetIdentry_eq_some hj).1
  rw [hgov]
  constructor
  · rintro ⟨t, -, -, -, -, hrun, -⟩
    obtain ⟨pre, w, post, hlines, hw, hexec, hquoted, hpre, -⟩ :=
      startedAs_of_runOneTask htask hfree hrun
    exact ⟨pre, w, post, hlines, hw, hexec, hquoted, hpre⟩
  · intro hfound
    obtain ⟨e, hone⟩ := Option.isSome_iff_exists.1 (oneEntry_isSome (s.tSvrTab j) hfound)
    have hloop : runOneTask env s j id =
        runOneLoop env.exec j id (lines.map SrvLine.text) s := by
      rw [runOneTask, htask]
    obtain ⟨⟨rc, t⟩, hrun⟩ := Option.isSome_iff_exists.1 (runOneLoop_isSome hone)
    rw [← hloop] at hrun
    obtain ⟨pre, w, post, hlines, hw, hexec, -, -, e₀, rfl⟩ := oneEntry_lines hfree hone
    have hmem : w ∈ lines := hlines ▸ List.mem_append_right _ List.mem_cons_self
    obtain rfl : rc = 0 :=
      (runOneTask_eq_zero_iff hrun).2 ⟨_, _, htask, hone, hstart w hmem hw⟩
    obtain ⟨pre, w', post, rfl, hw', hexec', -, -, hstarted⟩ :=
      startedAs_of_runOneTask htask hfree hrun
    exact ⟨t, w', List.mem_append_right _ List.mem_cons_self, hw', hexec', hrun, hstarted⟩

/-- A line `<name> SRVID=<id> SRVNUM=1`, with one character for the name. -/
def SrvLine.short (name : UInt8) (id : IntVal) (hz : 0 ≠ name) (hb : 32 ≠ name)
    (hlen : ([name] ++ renderFields [(0, .srvid id), (0, .srvnum ⟨1, by decide⟩)]).length ≤ 512) :
    SrvLine where
  record := ⟨⟨[name], List.cons_ne_nil _ _, Nat.le_add_left 1 31, by simpa using hz⟩, some id,
    some ⟨1, by decide⟩, none, none, none⟩
  noBlank := by simpa using hb
  rendering := ⟨[(0, .srvid id), (0, .srvnum ⟨1, by decide⟩)], .refl _, hlen⟩

/-- The lines `a SRVID=1 SRVNUM=1` and `b SRVID=2 SRVNUM=1`. -/
def lineA : SrvLine :=
  .short 97 ⟨1, by decide⟩ (by decide) (by decide) (by decide +kernel)
def lineB : SrvLine :=
  .short 98 ⟨2, by decide⟩ (by decide) (by decide) (by decide +kernel)

/-- The cleared tables, where `fork` gives the process 10 next. -/
def emptySys : Sys 2 2 :=
  { sysStart 1 0 with forks := [⟨10, 0⟩] }

/-- The file has both lines, and the program of the second is there. -/
def envAB (exec : List UInt8 → Bool) : Env :=
  ⟨some [lineA.text, lineB.text], some [], exec, true, []⟩

theorem emptySys_startable : emptySys.Startable 1 :=
  ⟨by decide +kernel, by decide, by decide, trivial⟩

/-- Both programs are there, and the second server is started. -/
theorem start_configured_second :
    (∃ t w, w ∈ [lineA, lineB] ∧ w.id = some 2 ∧ w.Installed (fun _ ↦ true) ∧
      governor (envAB fun _ ↦ true) tskCmdStart 2 emptySys = some (0, t) ∧
      StartedAs emptySys t 1 w) ↔ FoundBehind (fun _ ↦ true) 2 [lineA, lineB] := by
  have htask : (envAB fun _ ↦ true).task = some ([lineA, lineB].map SrvLine.text) := rfl
  refine start_configured_iff htask (by decide +kernel) (by decide +kernel) fun l hl _ ↦ ?_
  rcases List.mem_pair.1 hl with rfl | rfl
  · exact emptySys_startable
  · exact emptySys_startable

/-- The program of the first line is missing, and the second server is not started. -/
theorem missing_program_blocks_start :
    findServerId emptySys 2 = none ∧ serverGetIdentry emptySys = some 1 ∧ lineB.id = some 2 ∧
      lineB.Installed (fun name ↦ name == [98]) ∧ emptySys.Startable lineB.processes.toNat ∧
      ¬ ∃ t, governor (envAB fun name ↦ name == [98]) tskCmdStart 2 emptySys = some (0, t) := by
  refine ⟨by decide +kernel, by decide +kernel, rfl, rfl, emptySys_startable, ?_⟩
  have hrc : (governor (envAB fun name ↦ name == [98]) tskCmdStart 2 emptySys).map (·.1) =
      some sysSystem := by decide +kernel
  rintro ⟨t, ht⟩
  rw [ht] at hrc
  have hzero : (0 : ℤ) = sysSystem := Option.some.inj hrc
  exact absurd hzero (by decide)

end Sunda
