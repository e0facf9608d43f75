import Sunda.Main.Governor.Agreement
import Sunda.Tux.ServiceTable
import Sunda.Tux.Tuxcall

/-!
# Dispatch

`tux_acall` and `tux_call` look a name up in the server table of the Governor and queue the request under
the message type of the entry they find. A request should be queued exactly when a registered server
offers the service and is not refused, and then for such a server (`Dispatched`).

The search of `tux_locatemb` compares names only, and its first hit decides. An entry of a server without
`RQADDR` has the empty name, as a cleared one has; a server that was stopped keeps its name in front of
another that offers the same. `dispatched_iff` says for every table of a run which names are dispatched:
those whose first entry is right (`FirstServes`).
-/

namespace Sunda

open Bytes SysV

variable {n m : ℕ} {tab : List ServerTab} {svrName : List UInt8}

/-! ### The property -/

/-- A registered server offers the service, in a state in which it is called. A name counts up to
`TUX_NAME_LEN` characters, which is what the table stores of it. -/
def Offers (svrName : List UInt8) (e : ServerTab) : Prop :=
  e.svrid ≠ -1 ∧ svcKey svrName = svcKey e.svcName.toList ∧ e.state ≠ .unavail ∧ e.state ≠ .dead

/-- The request is to be queued. -/
def ToBeSent (tab : List ServerTab) (svrName : List UInt8) : Prop :=
  svcKey svrName ≠ [] ∧ ∃ e ∈ tab, Offers svrName e

/-- The queued request for the entry. -/
def requestTo (e : ServerTab) (reqBuf : List UInt8) (len : ℕ) : Msg :=
  (⟨e.msgType, 0, bufRead reqBuf 0 len⟩ : IPCQueMsg).queued len

/-- The outcome of a call is the right one: the request behind the queue `q`, for a server that offers the
service, or an error. -/
structure Dispatched (tab : List ServerTab) (svrName reqBuf : List UInt8) (len : ℕ) (q : List Msg)
    (r : Option (Except ℤ (List Msg))) : Prop where
  sent : ToBeSent tab svrName → ∃ e ∈ tab, Offers svrName e ∧
    r = some (.ok (q ++ [requestTo e reqBuf len]))
  refused : ¬ ToBeSent tab svrName → ∃ tuxErrno, r = some (.error tuxErrno)

/-- A length that the bus takes, and a queue that is not full. -/
structure ValidCall (mb : MbCtrl) (k : SndKernel) (q : List Msg) (len : ℕ) : Prop where
  max : (len : ℤ) ≤ mb.maxMsgLen.toInt
  bus : len < busMaxMsgLen
  text : len + sizeofLong ≤ k.msgmax
  accepts : k.Accepts q

/-! ### What a call does -/

/-- A request for the entry reaches the queue. -/
def ServerTab.Sendable (e : ServerTab) : Prop :=
  e.state ≠ .unavail ∧ e.state ≠ .dead ∧ 0 < e.msgType.toInt

/-- The outcome of a call follows from the entry it finds. -/
structure CallsLocated (tab : List ServerTab) (svrName reqBuf : List UInt8) (len : ℕ) (q : List Msg)
    (r : Option (Except ℤ (List Msg))) : Prop where
  sent : ∀ e, locatedEntry tab svrName = some e → e.Sendable →
    r = some (.ok (q ++ [requestTo e reqBuf len]))
  refused : (∀ e, locatedEntry tab svrName = some e → ¬ e.Sendable) → ∃ tuxErrno, r = some (.error tuxErrno)

/-- The send of a request reaches the queue exactly with a positive type. -/
theorem msqSnd_request {mb : MbCtrl} {k : SndKernel} {q : List Msg} {len : ℕ} (h : ValidCall mb k q len)
    (e : ServerTab) (reqBuf : List UInt8) :
    0 < e.msgType.toInt ∧ msqSnd k q ⟨e.msgType, 0, bufRead reqBuf 0 len⟩ len .yes =
        (0, q ++ [requestTo e reqBuf len]) ∨
      ¬ 0 < e.msgType.toInt ∧ (msqSnd k q ⟨e.msgType, 0, bufRead reqBuf 0 len⟩ len .yes).1 ≠ 0 := by
  by_cases htype : 0 < e.msgType.toInt
  · exact .inl ⟨htype, msqSnd_eq_zero h.accepts htype h.bus (.inr h.text)⟩
  · refine .inr ⟨htype, fun h0 ↦ htype ?_⟩
    have hsnd : msqSnd k q ⟨e.msgType, 0, bufRead reqBuf 0 len⟩ len .yes =
        (0, (msqSnd k q ⟨e.msgType, 0, bufRead reqBuf 0 len⟩ len .yes).2) := Prod.ext h0 rfl
    exact (of_msqSnd_zero hsnd).2.1

/-- What both functions do behind their checks, with their own error numbers. -/
theorem callsLocated_of_eq {mb : MbCtrl} {k : SndKernel} {q : List Msg} {svrName reqBuf : List UInt8}
    {len : ℕ} (h : ValidCall mb k q len) (noent snd : ℤ) {r : Option (Except ℤ (List Msg))}
    (hnone : locatedEntry mb.tSvrTab svrName = none → r = some (.error noent))
    (hdead : ∀ e, locatedEntry mb.tSvrTab svrName = some e → e.state = .unavail ∨ e.state = .dead →
      r = some (.error sysDeadSvc))
    (hsnd : ∀ e, locatedEntry mb.tSvrTab svrName = some e → ¬ (e.state = .unavail ∨ e.state = .dead) →
      r = match msqSnd k q ⟨e.msgType, 0, bufRead reqBuf 0 len⟩ len .yes with
        | (0, q') => some (.ok q')
        | (_, _) => some (.error snd)) :
    CallsLocated mb.tSvrTab svrName reqBuf len q r := by
  refine ⟨fun e he hsend ↦ ?_, fun hno ↦ ?_⟩
  · obtain ⟨hun, hd, htype⟩ := hsend
    rcases msqSnd_request h e reqBuf with ⟨-, heq⟩ | ⟨hneg, -⟩
    · rw [hsnd e he (by simp [hun, hd]), heq]
      rfl
    · exact absurd htype hneg
  · cases he : locatedEntry mb.tSvrTab svrName with
    | none => exact ⟨_, hnone he⟩
    | some e =>
      by_cases hstate : e.state = .unavail ∨ e.state = .dead
      · exact ⟨_, hdead e he hstate⟩
      · rw [not_or] at hstate
        rcases msqSnd_request h e reqBuf with ⟨htype, -⟩ | ⟨-, hne⟩
        · exact absurd ⟨hstate.1, hstate.2, htype⟩ (hno e he)
        · refine ⟨snd, ?_⟩
          rw [hsnd e he (not_or.2 hstate)]
          generalize msqSnd k q ⟨e.msgType, 0, bufRead reqBuf 0 len⟩ len .yes = sent at hne
          obtain ⟨rc, q'⟩ := sent
          split
          · next heq => exact absurd (congrArg Prod.fst heq) hne
          · rfl

theorem tuxAcall_callsLocated {mb : MbCtrl} {k : SndKernel} {q : List Msg} {svrName reqBuf : List UInt8}
    {realLen reqBuflen : ℤ} {len : ℕ} (hlen : (if reqBuflen = 0 then realLen else reqBuflen) = len)
    (h : ValidCall mb k q len) :
    CallsLocated mb.tSvrTab svrName reqBuf len q
      (tuxAcall mb k realLen q (some svrName) (some reqBuf) reqBuflen) := by
  have hmax := h.max
  have hbus := h.bus
  have hlim : ¬ ((len : ℤ) < 0 ∨ mb.maxMsgLen.toInt < len) := by omega
  have hfit : ¬ (busMaxMsgLen : ℤ) < len := by omega
  simp only [tuxAcall, hlen, if_neg hlim, locatedEntry_eq, if_neg hfit, Int.toNat_natCast]
  refine callsLocated_of_eq h sysErrSvc sysOs (fun he ↦ ?_) (fun e he hstate ↦ ?_) fun e he hstate ↦ ?_
  · rw [he]
  · rw [he]
    exact if_pos hstate
  · rw [he]
    exact if_neg hstate

theorem tuxCallSend_callsLocated {mb : MbCtrl} {k : SndKernel} {q : List Msg}
    {svrName reqBuf : List UInt8} {realLen tuxErrno reqBuflen : ℤ} {len : ℕ}
    (hlen : (if reqBuflen = 0 then realLen else reqBuflen) = len) (h : ValidCall mb k q len) :
    CallsLocated mb.tSvrTab svrName reqBuf len q
      (tuxCallSend mb k realLen tuxErrno q (some svrName) (some reqBuf) reqBuflen true) := by
  have hmax := h.max
  have hbus := h.bus
  have hlim : ¬ ((len : ℤ) < 0 ∨ mb.maxMsgLen.toInt < len) := by omega
  have hfit : ¬ (busMaxMsgLen : ℤ) < len := by omega
  simp only [tuxCallSend, hlen, if_neg hlim, locatedEntry_eq, if_neg hfit, Int.toNat_natCast]
  refine callsLocated_of_eq h sysNoent tuxErrno (fun he ↦ ?_) (fun e he hstate ↦ ?_) fun e he hstate ↦ ?_
  · rw [he]
  · rw [he]
    exact if_pos hstate
  · rw [he]
    exact if_neg hstate

/-! ### The condition -/

/-- The first entry with the name is right: it takes the request, and is that of a registered server,
and the name is not empty; or it takes none, and no server is to get one. -/
def FirstServes (tab : List ServerTab) (svrName : List UInt8) : Prop :=
  ∀ e, locatedEntry tab svrName = some e →
    (e.Sendable → svcKey svrName ≠ [] ∧ e.svrid ≠ -1) ∧ (¬ e.Sendable → ¬ ToBeSent tab svrName)

/-- No entry without a server has the message type of a server. -/
def TypesTell (tab : List ServerTab) : Prop :=
  ∀ e ∈ tab, ∀ e' ∈ tab, e.svrid = -1 → 0 < e.msgType.toInt → e'.svrid ≠ -1 → e.msgType ≠ e'.msgType

theorem requestTo_inj {e e' : ServerTab} {reqBuf : List UInt8} {len : ℕ}
    (h : requestTo e reqBuf len = requestTo e' reqBuf len) : e.msgType = e'.msgType :=
  BitVec.toInt_inj.1 (congrArg Message.mtype h)

theorem of_locatedEntry {e : ServerTab} (h : locatedEntry tab svrName = some e) :
    strncmpEq tuxNameLen svrName e.svcName.toList = true :=
  List.find?_some (p := fun e : ServerTab ↦ strncmpEq tuxNameLen svrName e.svcName.toList) h

theorem locatedEntry_offers {e : ServerTab} (h : locatedEntry tab svrName = some e)
    (hid : e.svrid ≠ -1) (hsend : e.Sendable) : Offers svrName e :=
  ⟨hid, (strncmpEq_iff tuxNameLen svrName e.svcName.toList).1 (of_locatedEntry h), hsend.1, hsend.2.1⟩

/-- A server that offers the service is found, or another entry in front of it. -/
theorem exists_locatedEntry {e : ServerTab} (he : e ∈ tab) (h : Offers svrName e) :
    ∃ e', locatedEntry tab svrName = some e' := by
  rw [← Option.isSome_iff_exists, locatedEntry, List.find?_isSome]
  exact ⟨e, he, (strncmpEq_iff _ _ _).2 h.2.1⟩

/-- **One table**: a call that does what the entry it finds says does the right thing exactly when that
entry is right. -/
theorem CallsLocated.dispatched_iff {reqBuf : List UInt8} {len : ℕ} {q : List Msg}
    {r : Option (Except ℤ (List Msg))} (h : CallsLocated tab svrName reqBuf len q r)
    (htab : TypesTell tab) : Dispatched tab svrName reqBuf len q r ↔ FirstServes tab svrName := by
  constructor
  · intro hd e he
    refine ⟨fun hsend ↦ ?_, fun hsend hto ↦ ?_⟩
    · have hr := h.sent e he hsend
      have hto : ToBeSent tab svrName := by
        by_contra hno
        obtain ⟨tuxErrno, herr⟩ := hd.refused hno
        rw [hr] at herr
        cases herr
      obtain ⟨e', he', hoff, hr'⟩ := hd.sent hto
      rw [hr] at hr'
      have hreq := (List.singleton_inj.1 (List.append_cancel_left (Except.ok.inj (Option.some.inj hr'))))
      refine ⟨hto.1, fun hid ↦ ?_⟩
      exact htab e (List.mem_of_find?_eq_some he) e' he' hid hsend.2.2 hoff.1 (requestTo_inj hreq)
    · obtain ⟨tuxErrno, herr⟩ := h.refused fun e' he' ↦ by
        rw [he] at he'
        obtain rfl := Option.some.inj he'
        exact hsend
      obtain ⟨e', -, -, hr'⟩ := hd.sent hto
      rw [herr] at hr'
      cases hr'
  · intro hf
    refine ⟨fun hto ↦ ?_, fun hno ↦ h.refused fun e he hsend ↦ ?_⟩
    · obtain ⟨hkey, e', he', hoff⟩ := hto
      obtain ⟨e, he⟩ := exists_locatedEntry he' hoff
      have hsend : e.Sendable := by
        by_contra hno
        exact (hf e he).2 hno ⟨hkey, e', he', hoff⟩
      exact ⟨e, List.mem_of_find?_eq_some he, locatedEntry_offers he ((hf e he).1 hsend).2 hsend,
        h.sent e he hsend⟩
    · obtain ⟨hkey, hid⟩ := (hf e he).1 hsend
      exact hno ⟨hkey, e, List.mem_of_find?_eq_some he, locatedEntry_offers he hid hsend⟩

/-! ### Tables of a run -/

/-- The entry was cleared, or has the message type of its id. -/
def IdTyped (e : SvrTab) : Prop :=
  e.svrid = -1 ∧ e.msgType = 0 ∨ IntRange e.svrid ∧ e.msgType = msgTypeOf e.svrid

theorem msgTypeOf_inj {v v' : ℤ} (h : IntRange v) (h' : IntRange v') (heq : msgTypeOf v = msgTypeOf v') :
    v = v' := by
  obtain ⟨hlo, hhi⟩ := h
  obtain ⟨hlo', hhi'⟩ := h'
  have hval := congrArg BitVec.toInt heq
  rw [msgTypeOf, msgTypeOf, BitVec.toInt_signExtend_of_le (by decide),
    BitVec.toInt_signExtend_of_le (by decide), BitVec.toInt_ofInt, BitVec.toInt_ofInt, Int.bmod_def,
    Int.bmod_def] at hval
  omega

theorem idTyped_congr {e e' : SvrTab} (h : e'.reg = e.reg) (he : IdTyped e) : IdTyped e' := by
  have hid : e'.svrid = e.svrid := congrArg (·.svrid) h
  have htype : e'.msgType = e.msgType := congrArg (·.msgType) h
  rw [IdTyped, hid, htype]
  exact he

theorem SrvParm.store_idTyped {r : SrvParm} (hr : ∀ v, r.svrid = some v → IntRange v) {e : SvrTab}
    (h : IdTyped e) : IdTyped (r.store e) := by
  rw [IdTyped, SrvParm.store]
  cases hv : r.svrid with
  | none => exact h
  | some v => exact .inr ⟨hr v hv, rfl⟩

/-- The table as the calls see it. -/
def Sys.serverTab (s : Sys n m) : List ServerTab :=
  List.ofFn fun i ↦ (s.tSvrTab i).toServerTab

theorem typesTell_of_idTyped {s : Sys n m} (h : ∀ i, IdTyped (s.tSvrTab i)) : TypesTell s.serverTab := by
  intro e he e' he' hid htype hid' heq
  obtain ⟨i, rfl⟩ := List.mem_ofFn.1 he
  obtain ⟨j, rfl⟩ := List.mem_ofFn.1 he'
  rcases h i with ⟨-, hzero⟩ | ⟨hi, hti⟩
  · rw [hzero] at htype
    exact absurd htype (by decide)
  · rcases h j with ⟨hj, -⟩ | ⟨hj, htj⟩
    · exact hid' hj
    · rw [hti, htj] at heq
      exact hid' ((msgTypeOf_inj hi hj heq).symm.trans hid)

section Runs

variable [NeZero n] {s t : Sys n m}

theorem idTyped_start {env : Env} {mainPid now : ℤ} (h : governorMain env mainPid now = some s)
    (i : Fin n) : IdTyped (s.tSvrTab i) := by
  obtain ⟨lines, u, -, hu, rfl⟩ := governorMain_cases h
  have hreg := (loadServer_reg u i).1
  have hu : IdTyped (u.tSvrTab i) := by
    rcases eq_or_ne i.val 0 with hi | hi
    · rw [hu.zero i hi, sysStart]
      dsimp only
      rw [if_pos hi]
      exact .inr ⟨⟨by decide, by decide⟩, rfl⟩
    · obtain ⟨timeout, hentry⟩ := hu.entry i hi
      rw [hentry, loadedEntry]
      cases hr : (loaded env.exec lines)[i.val - 1]? with
      | none => exact .inl ⟨rfl, rfl⟩
      | some r =>
        obtain ⟨buf, -, rc, hparse⟩ := mem_loaded (List.mem_of_getElem? hr)
        exact r.store_idTyped (intRange_of_parseLine hparse) (e := .clear) (.inl ⟨rfl, rfl⟩)
  exact idTyped_congr hreg hu

theorem idTyped_step {a : Event} (h : ∀ i, IdTyped (s.tSvrTab i)) (hs : govStep s a = some t) (i : Fin n) :
    IdTyped (t.tSvrTab i) := by
  refine (govStep_reg hs).forall (P := IdTyped) (p := fun _ ↦ True)
    (fun e e' heq he ↦ idTyped_congr heq.symm he) (fun j _ ↦ h j) (.inl ⟨rfl, rfl⟩)
    (fun k e _ he ↦ ?_) i trivial
  exact he.invariant (h k) fun _ _ _ r _ hr hP ↦ r.store_idTyped (intRange_of_parseLine hr) hP

/-- In every table of a run. -/
theorem typesTell_of_reach (hs : Guarded.Reach (govSystem n m fun _ ↦ True) Guarded.always s) :
    TypesTell s.serverTab := by
  refine typesTell_of_idTyped (hs.invariant (I := fun s ↦ ∀ i, IdTyped (s.tSvrTab i)) ?_ ?_)
  · rintro s ⟨env, mainPid, now, -, hmain⟩
    exact idTyped_start hmain
  · exact fun s a t h _ hstep ↦ idTyped_step h hstep

end Runs

/-- The shared memory of the examples: the table, and no advertised service. -/
def Sys.mbCtrl (s : Sys n m) : MbCtrl where
  maxMsgLen := 4096
  tSvrTab := s.serverTab
  tSvcTab := s.serverTab.map fun _ ↦ SvcTab.start.toServiceTab
  nsvrnum_eq := List.length_map _

/-- A kernel without faults, and an empty queue. -/
theorem validCall_one (s : Sys n m) : ValidCall s.mbCtrl ⟨none, none, 8192⟩ [] 1 :=
  ⟨show (1 : ℤ) ≤ (4096 : BitVec 32).toInt by decide, by decide, by decide, ⟨rfl, rfl, by decide, by decide⟩⟩

end Sunda
