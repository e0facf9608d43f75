import Sunda.Tux.Tuxcall

/-!
# The cause of a failed call

`tux_call` and `tux_acall` in one piece: their steps in the order in which they are made, and for a
call that returns -1 the step that failed, next to the value of `tux_errno` that it leaves.

Every exit of `tux_acall` assigns `tux_errno`. `tux_call` does not where `MsqSnd` refuses the request
and where `MsqRcv` comes back without a reply, so there the caller sees what an earlier call left; the
second of these is how the alarm ends a wait. `reportsCause_iff` says that these two exits are the
only ones.

A process that is not attached does not get as far as the check of `mbctrl`: the length is compared
with `mbctrl->max_msg_len` before.
-/

namespace Sunda

open SysV

/-- The two functions. -/
inductive CallKind
  | call
  | acall
  deriving DecidableEq

/-- The arguments of a call. `rsp` is whether both pointers for the reply are given; `tux_acall` has
none. -/
structure CallArgs where
  svrName : Option (List UInt8)
  reqBuf : Option (List UInt8)
  reqBuflen : ℤ
  rsp : Bool

/-- What a call meets: the shared tables, the length that `tux_real_len` returns, the outcome of the
send, and for `tux_call` that of the receive under the type `gipcMsgHead.req_msg_type`. -/
structure CallWorld where
  mbctrl : Option MbCtrl
  realLen : ℤ
  sndKernel : SndKernel
  reqQue : List Msg
  rcvFault : Option Errno
  expired : Bool
  rspQue : List Msg
  reqMsgType : BitVec 64

/-- How a call ends: with 0, with -1 and a value of `tux_errno`, not yet, or not at all. -/
inductive CallEnd
  | ok
  | fail (tuxErrno : ℤ)
  | waiting
  | crash
  deriving DecidableEq

/-- The end of a `tux_call` that got as far as the receive. -/
def CallRcvd.callEnd : CallRcvd → CallEnd
  | .waiting => .waiting
  | .fail e _ => .fail e
  | .got _ _ _ => .ok

/-- The checks in front of the first use of `mbctrl`, which is where a process that is not attached
ends. -/
def detachedEnd (given : Bool) (reqBuflen : ℤ) : CallEnd :=
  if given = false then .fail sysInval
  else if reqBuflen < 0 then .fail sysInval
  else .crash

/-- `tux_call`, or `tux_acall`, where `tux_errno` is `tuxErrno` before. -/
def CallWorld.run (w : CallWorld) (kind : CallKind) (a : CallArgs) (tuxErrno : ℤ) : CallEnd :=
  let reqBuflen := if a.reqBuflen = 0 then w.realLen else a.reqBuflen
  match kind, w.mbctrl with
  | .acall, none => detachedEnd (a.svrName.isSome && a.reqBuf.isSome) reqBuflen
  | .acall, some mb =>
    match tuxAcall mb w.sndKernel w.realLen w.reqQue a.svrName a.reqBuf a.reqBuflen with
    | none => .crash
    | some (.error e) => .fail e
    | some (.ok _) => .ok
  | .call, none => detachedEnd (a.svrName.isSome && a.reqBuf.isSome && a.rsp) reqBuflen
  | .call, some mb =>
    match tuxCallSend mb w.sndKernel w.realLen tuxErrno w.reqQue a.svrName a.reqBuf a.reqBuflen
      a.rsp with
    | none => .crash
    | some (.error e) => .fail e
    | some (.ok _) =>
      (tuxCallRcv w.rcvFault w.expired tuxErrno w.rspQue w.reqMsgType).callEnd

/-! ### Steps -/

/-- The steps of a call. -/
inductive CallStep
  /-- The pointers are given. -/
  | arguments
  /-- The length is allowed. -/
  | length
  /-- The service is offered. -/
  | service
  /-- Its server is not dead. -/
  | alive
  /-- `MsqSnd` queues the request. -/
  | send
  /-- `MsqRcv` returns a reply. -/
  | receive
  /-- The timer has not expired by then. -/
  | timer
  deriving DecidableEq

/-- The step at which a request fails, of those that both functions make. -/
def requestStep (mb : MbCtrl) (k : SndKernel) (realLen : ℤ) (q : List Msg)
    (svrName reqBuf : Option (List UInt8)) (reqBuflen : ℤ) : Option CallStep :=
  match svrName, reqBuf with
  | some svrName, some reqBuf =>
    let reqBuflen := if reqBuflen = 0 then realLen else reqBuflen
    if reqBuflen < 0 ∨ mb.maxMsgLen.toInt < reqBuflen then some .length
    else
      match (tuxLocatemb mb svrName).bind fun svrno ↦ mb.tSvrTab[svrno]? with
      | none => some .service
      | some e =>
        if e.state = .unavail ∨ e.state = .dead then some .alive
        else if (msqSnd k q ⟨e.msgType, 0, Bytes.bufRead reqBuf 0 reqBuflen.toNat⟩ reqBuflen .yes).1 = 0
          then none
        else some .send
  | _, _ => some .arguments

/-- The step at which the wait for the reply fails. -/
def replyStep (fault : Option Errno) (expired : Bool) (q : List Msg) (reqMsgType : BitVec 64) :
    Option CallStep :=
  match msqRcv fault q busMaxMsgLen reqMsgType.toInt false with
  | .waiting => none
  | .fail _ => some .receive
  | .got iMsgLen _ _ =>
    if iMsgLen ≤ 0 then some .receive else if expired then some .timer else none

/-- The step at which a call fails. -/
def CallWorld.failedStep (w : CallWorld) (kind : CallKind) (a : CallArgs) : Option CallStep :=
  match w.mbctrl, kind with
  | none, .acall =>
    if (a.svrName.isSome && a.reqBuf.isSome) = false then some .arguments else some .length
  | none, .call =>
    if (a.svrName.isSome && a.reqBuf.isSome && a.rsp) = false then some .arguments else some .length
  | some mb, .acall =>
    requestStep mb w.sndKernel w.realLen w.reqQue a.svrName a.reqBuf a.reqBuflen
  | some mb, .call =>
    if a.rsp = false then some .arguments
    else (requestStep mb w.sndKernel w.realLen w.reqQue a.svrName a.reqBuf a.reqBuflen).or
      (replyStep w.rcvFault w.expired w.rspQue w.reqMsgType)

/-- The error number that belongs to a failed step. A wait that the alarm ended timed out; every
other failure of a queue is `SYS_OS`. -/
def CallStep.code (w : CallWorld) (kind : CallKind) : CallStep → ℤ
  | .arguments | .length => sysInval
  | .service => if kind = .call then sysNoent else sysErrSvc
  | .alive => sysDeadSvc
  | .send => sysOs
  | .receive => if w.rcvFault = some EINTR ∧ w.expired = true then sysTimeout else sysOs
  | .timer => sysTimeout

/-- A call that fails has itself assigned `tux_errno` the code of the step that failed: the value
afterwards is that code, whatever it was before. -/
def CallWorld.ReportsCause (w : CallWorld) (kind : CallKind) (a : CallArgs) : Prop :=
  ∃ s, w.failedStep kind a = some s ∧ ∀ tuxErrno, w.run kind a tuxErrno = .fail (s.code w kind)

/-! ### The exits -/

/-- Every exit of `tux_acall` is that of its failed step. -/
theorem of_tuxAcall {mb : MbCtrl} {k : SndKernel} {realLen : ℤ} {q : List Msg}
    {svrName reqBuf : Option (List UInt8)} {reqBuflen : ℤ} {outcome : Except ℤ (List Msg)}
    (h : tuxAcall mb k realLen q svrName reqBuf reqBuflen = some outcome) (w : CallWorld) :
    (requestStep mb k realLen q svrName reqBuf reqBuflen = none ∧ ∃ q', outcome = .ok q') ∨
      ∃ s, requestStep mb k realLen q svrName reqBuf reqBuflen = some s ∧ s ≠ .receive ∧
        s ≠ .timer ∧ outcome = .error (s.code w .acall) := by
  match svrName, reqBuf with
  | none, _ =>
    exact .inr ⟨.arguments, rfl, by decide, by decide, (Option.some.inj h).symm⟩
  | some _, none =>
    exact .inr ⟨.arguments, rfl, by decide, by decide, (Option.some.inj h).symm⟩
  | some svrName, some reqBuf =>
    simp only [tuxAcall] at h
    simp only [requestStep]
    generalize (if reqBuflen = 0 then realLen else reqBuflen) = n at h ⊢
    by_cases hn : n < 0 ∨ mb.maxMsgLen.toInt < n
    · rw [if_pos hn] at h ⊢
      exact .inr ⟨.length, rfl, by decide, by decide, (Option.some.inj h).symm⟩
    rw [if_neg hn] at h ⊢
    generalize ((tuxLocatemb mb svrName).bind fun svrno ↦ mb.tSvrTab[svrno]?) = entry at h ⊢
    cases entry with
    | none => exact .inr ⟨.service, rfl, by decide, by decide, (Option.some.inj h).symm⟩
    | some e =>
      dsimp only at h ⊢
      by_cases hstate : e.state = .unavail ∨ e.state = .dead
      · rw [if_pos hstate] at h ⊢
        exact .inr ⟨.alive, rfl, by decide, by decide, (Option.some.inj h).symm⟩
      rw [if_neg hstate] at h ⊢
      split at h
      · exact absurd h (Option.some_ne_none _).symm
      generalize msqSnd k q ⟨e.msgType, 0, Bytes.bufRead reqBuf 0 n.toNat⟩ n .yes = sent at h ⊢
      obtain ⟨rc, q'⟩ := sent
      by_cases hrc : rc = 0
      · subst hrc
        exact .inl ⟨rfl, q', (Option.some.inj h).symm⟩
      · rw [if_neg hrc]
        refine .inr ⟨.send, rfl, by decide, by decide, ?_⟩
        split at h
        · next heq => exact absurd (congrArg Prod.fst heq) hrc
        · exact (Option.some.inj h).symm

/-- Where a call fails for every value of `tux_errno`, only that value is left to be compared. -/
theorem reportsCause_of_fail {w : CallWorld} {kind : CallKind} {a : CallArgs} {s : CallStep}
    {f : ℤ → ℤ} (hstep : w.failedStep kind a = some s)
    (hrun : ∀ tuxErrno, w.run kind a tuxErrno = .fail (f tuxErrno)) :
    w.ReportsCause kind a ↔ ∀ tuxErrno, f tuxErrno = s.code w kind := by
  constructor
  · rintro ⟨s', hs', hall⟩ tuxErrno
    obtain rfl : s = s' := Option.some.inj (hstep.symm.trans hs')
    exact CallEnd.fail.inj ((hrun tuxErrno).symm.trans (hall tuxErrno))
  · intro hall
    refine ⟨s, hstep, fun tuxErrno ↦ ?_⟩
    rw [hrun, hall]

/-- An exit that assigns nothing. -/
theorem not_reportsCause_of_fail {w : CallWorld} {kind : CallKind} {a : CallArgs} {s : CallStep}
    (hstep : w.failedStep kind a = some s)
    (hrun : ∀ tuxErrno, w.run kind a tuxErrno = .fail tuxErrno) : ¬ w.ReportsCause kind a := by
  rw [reportsCause_of_fail hstep hrun]
  intro hall
  have := hall (s.code w kind + 1)
  omega

/-- The two places in which `tux_call` does not assign `tux_errno`. -/
def CallStep.Unassigned (kind : CallKind) (s : CallStep) : Prop :=
  kind = .call ∧ (s = .send ∨ s = .receive)

/-- An exit that assigns the code of its step. -/
theorem reportsCause_of_code {w : CallWorld} {kind : CallKind} {a : CallArgs} {s : CallStep}
    (hstep : w.failedStep kind a = some s)
    (hrun : ∀ tuxErrno, w.run kind a tuxErrno = .fail (s.code w kind)) : w.ReportsCause kind a :=
  (reportsCause_of_fail hstep hrun).mpr fun _ ↦ rfl

theorem exits_of_code {w : CallWorld} {kind : CallKind} {a : CallArgs} {s : CallStep}
    (hstep : w.failedStep kind a = some s) (hs : s ≠ .send ∧ s ≠ .receive ∨ kind = .acall)
    (hrun : ∀ tuxErrno, w.run kind a tuxErrno = .fail (s.code w kind)) :
    ∃ s, w.failedStep kind a = some s ∧ (w.ReportsCause kind a ↔ ¬ s.Unassigned kind) := by
  refine ⟨s, hstep, iff_of_true (reportsCause_of_code hstep hrun) ?_⟩
  rintro ⟨hkind, hu⟩
  rcases hs with ⟨hsend, hreceive⟩ | hacall
  · exact hu.elim hsend hreceive
  · rw [hkind] at hacall
    cases hacall

theorem exits_of_unassigned {w : CallWorld} {a : CallArgs} {s : CallStep}
    (hstep : w.failedStep .call a = some s) (hs : s = .send ∨ s = .receive)
    (hrun : ∀ tuxErrno, w.run .call a tuxErrno = .fail tuxErrno) :
    ∃ s, w.failedStep .call a = some s ∧ (w.ReportsCause .call a ↔ ¬ s.Unassigned .call) :=
  ⟨s, hstep, iff_of_false (not_reportsCause_of_fail hstep hrun) fun hnot ↦ hnot ⟨rfl, hs⟩⟩

/-- A process that is not attached fails in the arguments or the length, or crashes. -/
theorem detached_exits {w : CallWorld} {kind : CallKind} {a : CallArgs} (given : Bool) (n : ℤ)
    (hrun : ∀ tuxErrno, w.run kind a tuxErrno = detachedEnd given n)
    (hstep : w.failedStep kind a = if given = false then some .arguments else some .length)
    {tuxErrno e : ℤ} (h : w.run kind a tuxErrno = .fail e) :
    ∃ s, w.failedStep kind a = some s ∧ (w.ReportsCause kind a ↔ ¬ s.Unassigned kind) := by
  cases given with
  | false => exact exits_of_code hstep (.inl (by decide)) hrun
  | true =>
    have hneg : n < 0 := by
      by_contra hn
      rw [hrun, detachedEnd, if_neg (by decide), if_neg hn] at h
      cases h
    refine exits_of_code hstep (.inl (by decide)) fun errno ↦ ?_
    rw [hrun, detachedEnd, if_neg (by decide), if_pos hneg]
    rfl

theorem acall_exits {w : CallWorld} {mb : MbCtrl} (hmb : w.mbctrl = some mb) {a : CallArgs}
    {tuxErrno e : ℤ} (h : w.run .acall a tuxErrno = .fail e) :
    ∃ s, w.failedStep .acall a = some s ∧ (w.ReportsCause .acall a ↔ ¬ s.Unassigned .acall) := by
  simp only [CallWorld.run, hmb] at h
  split at h
  · cases h
  · next e' hacall =>
    rcases of_tuxAcall hacall w with ⟨-, q', hq⟩ | ⟨s, hstep, -, -, hcode⟩
    · cases hq
    · refine exits_of_code (s := s) ?_ (.inr rfl) fun errno ↦ ?_
      · simp only [CallWorld.failedStep, hmb]
        exact hstep
      · simp only [CallWorld.run, hmb, hacall]
        rw [Except.error.inj hcode]
  · cases h

/-- The wait for the reply. -/
theorem reply_exits {w : CallWorld} {a : CallArgs} {tuxErrno e : ℤ}
    (hstep : w.failedStep .call a = replyStep w.rcvFault w.expired w.rspQue w.reqMsgType)
    (hrun : ∀ errno, w.run .call a errno =
      (tuxCallRcv w.rcvFault w.expired errno w.rspQue w.reqMsgType).callEnd)
    (h : w.run .call a tuxErrno = .fail e) :
    ∃ s, w.failedStep .call a = some s ∧ (w.ReportsCause .call a ↔ ¬ s.Unassigned .call) := by
  rw [hrun] at h
  simp only [tuxCallRcv] at hrun h
  rw [replyStep] at hstep
  generalize msqRcv w.rcvFault w.rspQue busMaxMsgLen w.reqMsgType.toInt false = rcvd
    at hstep hrun h
  cases rcvd with
  | waiting => cases h
  | fail errno => exact exits_of_unassigned hstep (.inr rfl) hrun
  | got iMsgLen ipcMsgOut rest =>
    dsimp only at hstep hrun h
    by_cases hlen : iMsgLen ≤ 0
    · rw [if_pos hlen] at hstep
      simp only [if_pos hlen] at hrun
      exact exits_of_unassigned hstep (.inr rfl) hrun
    rw [if_neg hlen] at hstep h
    simp only [if_neg hlen] at hrun
    by_cases hexp : w.expired = true
    · rw [if_pos hexp] at hstep
      simp only [if_pos hexp] at hrun
      exact exits_of_code hstep (.inl (by decide)) hrun
    · rw [if_neg hexp] at h
      cases h

/-- Without room for the reply nothing is done. -/
theorem tuxCallSend_false (mb : MbCtrl) (k : SndKernel) (realLen tuxErrno : ℤ) (q : List Msg)
    (svrName reqBuf : Option (List UInt8)) (reqBuflen : ℤ) :
    tuxCallSend mb k realLen tuxErrno q svrName reqBuf reqBuflen false =
      some (.error sysInval) := by
  match svrName, reqBuf with
  | none, _ => rfl
  | some _, none => rfl
  | some _, some _ => rfl

theorem call_exits {w : CallWorld} {mb : MbCtrl} (hmb : w.mbctrl = some mb) {a : CallArgs}
    {tuxErrno e : ℤ} (h : w.run .call a tuxErrno = .fail e) :
    ∃ s, w.failedStep .call a = some s ∧ (w.ReportsCause .call a ↔ ¬ s.Unassigned .call) := by
  by_cases hrsp : a.rsp = false
  · refine exits_of_code (s := .arguments) ?_ (.inl (by decide)) fun errno ↦ ?_
    · simp only [CallWorld.failedStep, hmb, if_pos hrsp]
    · simp only [CallWorld.run, hmb, hrsp, tuxCallSend_false]
      rfl
  have hgiven : a.rsp = true := by simpa using hrsp
  have hfailed : w.failedStep .call a =
      (requestStep mb w.sndKernel w.realLen w.reqQue a.svrName a.reqBuf a.reqBuflen).or
        (replyStep w.rcvFault w.expired w.rspQue w.reqMsgType) := by
    simp only [CallWorld.failedStep, hmb, if_neg hrsp]
  simp only [CallWorld.run, hmb, hgiven, tuxCallSend_eq] at h
  cases hacall : tuxAcall mb w.sndKernel w.realLen w.reqQue a.svrName a.reqBuf a.reqBuflen with
  | none =>
    rw [hacall] at h
    cases h
  | some outcome =>
    rcases of_tuxAcall hacall w with ⟨hstep, q', rfl⟩ | ⟨s, hstep, hreceive, htimer, rfl⟩
    · -- the request is queued
      rw [hstep, Option.none_or] at hfailed
      refine reply_exits hfailed (fun errno ↦ ?_) (?_ : w.run .call a tuxErrno = .fail e)
      · simp only [CallWorld.run, hmb, hgiven, tuxCallSend_eq, hacall]
        rfl
      · simp only [CallWorld.run, hmb, hgiven, tuxCallSend_eq]
        exact h
    · rw [hstep, Option.some_or] at hfailed
      have hrun : ∀ errno, w.run .call a errno = .fail (callErrno errno (s.code w .acall)) := by
        intro errno
        simp only [CallWorld.run, hmb, hgiven, tuxCallSend_eq, hacall]
        rfl
      cases s with
      | send => exact exits_of_unassigned hfailed (.inl rfl) hrun
      | receive => exact absurd rfl hreceive
      | timer => exact absurd rfl htimer
      | arguments => exact exits_of_code hfailed (.inl (by decide)) hrun
      | length => exact exits_of_code hfailed (.inl (by decide)) hrun
      | service => exact exits_of_code hfailed (.inl (by decide)) hrun
      | alive => exact exits_of_code hfailed (.inl (by decide)) hrun

/-- **A failed call reports its own cause iff it did not fail in the send or in the receive of
`tux_call`.** -/
theorem reportsCause_iff {w : CallWorld} {kind : CallKind} {a : CallArgs} {tuxErrno e : ℤ}
    (h : w.run kind a tuxErrno = .fail e) :
    ∃ s, w.failedStep kind a = some s ∧ (w.ReportsCause kind a ↔ ¬ s.Unassigned kind) := by
  cases hmb : w.mbctrl with
  | none =>
    cases kind with
    | call =>
      refine detached_exits (a.svrName.isSome && a.reqBuf.isSome && a.rsp)
        (if a.reqBuflen = 0 then w.realLen else a.reqBuflen) (fun errno ↦ ?_) ?_ h
      · simp only [CallWorld.run, hmb]
      · simp only [CallWorld.failedStep, hmb]
    | acall =>
      refine detached_exits (a.svrName.isSome && a.reqBuf.isSome)
        (if a.reqBuflen = 0 then w.realLen else a.reqBuflen) (fun errno ↦ ?_) ?_ h
      · simp only [CallWorld.run, hmb]
      · simp only [CallWorld.failedStep, hmb]
  | some mb =>
    cases kind with
    | call => exact call_exits hmb h
    | acall => exact acall_exits hmb h

/-- One server, alive, and a request of one byte; the wait for its reply is ended by the alarm. -/
def alarmWorld : CallWorld where
  mbctrl := some ⟨4000, [⟨1, List.Vector.replicate 33 65, .avail, 300001, 5⟩],
    [⟨1, List.Vector.replicate 33 65, 0⟩], rfl⟩
  realLen := 0
  sndKernel := ⟨none, none, 8192⟩
  reqQue := []
  rcvFault := some EINTR
  expired := true
  rspQue := []
  reqMsgType := 7

/-- The same with a reply in the queue. -/
def lateWorld : CallWorld :=
  { alarmWorld with rcvFault := none, rspQue := [⟨7, List.replicate 20 0⟩] }

/-- A call with a request of one byte. -/
def oneByteCall : CallArgs := ⟨some (List.replicate 32 65), some [1], 1, true⟩

/-- A reply that is received after the alarm is reported as a time-out. -/
theorem reportsCause_late : lateWorld.ReportsCause .call oneByteCall := by
  have hfail : lateWorld.run .call oneByteCall 0 = .fail sysTimeout := by decide
  obtain ⟨s, hs, hiff⟩ := reportsCause_iff hfail
  have hstep : lateWorld.failedStep .call oneByteCall = some .timer := by decide
  obtain rfl := Option.some.inj (hs.symm.trans hstep)
  exact hiff.mpr (by rintro ⟨-, h | h⟩ <;> cases h)

/-- The wait that the alarm ended fails with whatever was in `tux_errno`. -/
theorem alarm_not_reported :
    ¬ ∀ (w : CallWorld) (kind : CallKind) (a : CallArgs) (tuxErrno e : ℤ),
      w.run kind a tuxErrno = .fail e → w.ReportsCause kind a := by
  intro hall
  obtain ⟨s, hs, hcode⟩ := hall alarmWorld .call oneByteCall 0 0 (by decide)
  have hstep : alarmWorld.failedStep .call oneByteCall = some .receive := by decide
  obtain rfl := Option.some.inj (hs.symm.trans hstep)
  have hzero : alarmWorld.run .call oneByteCall 0 = .fail 0 := by decide
  exact absurd (hzero.symm.trans (hcode 0)) (by decide)

end Sunda
