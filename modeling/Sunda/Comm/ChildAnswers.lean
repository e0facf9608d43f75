import Sunda.Comm.Responses

/-!
# The answer of a child of C001

`child_proc` of `comm/C001/C001.c` as a whole: the frame is received, `call_svr` calls `tux_call`, and the
response is written. Where `tux_call` fails, `call_svr` packs an error response and returns -1, and
`child_proc` returns on that value before it writes anything. So the client gets an answer iff `tux_call`
returned 0 with a reply that has at least a head (`child_answers_iff`).
-/

namespace Sunda

open Bytes Arrivals SysV

section Child

variable (mb : MbCtrl) (k : SndKernel) (tuxErrno : ℤ) (reqQue : List Msg) (fault : Option Errno)
  (expired : Bool) (rspQue : List Msg) (pid : ℕ) (utime : BitVec 64)

/-- The `tux_call` of `call_svr` in the process `pid`, with the queues when the request is sent and when the
reply is received. `none` is a copy beyond the end of an array on the way to it. -/
def childCall (sSrcBuf : List UInt8) (iBufLen : ℕ) : Option CallRcvd :=
  (callSvr mb k tuxErrno reqQue sSrcBuf iBufLen pid utime).map fun
    | .error e => .fail e rspQue
    | .ok _ => tuxCallRcv fault expired tuxErrno rspQue (BitVec.ofNat 64 pid)

/-- `child_proc` on a connection. -/
def childProc (s : Sock UInt8) : ChildOut :=
  match rcvTxnMsg s socketMsgHeadLen with
  | ⟨0, some (sSrcBuf, iBufLen), _⟩ =>
    (childCall mb k tuxErrno reqQue fault expired rspQue pid utime sSrcBuf iBufLen.toNat).elim .fault
      (childRespond sSrcBuf)
  | _ => .ret []

end Child

/-- The child writes one well-formed response with the number of the request: the service's result without an
error, or the response of `pack_err_rsp`. -/
def ChildAnswers (sSrcBuf : List UInt8) (call : Option CallRcvd) (out : ChildOut) : Prop :=
  ∃ (h : SundaReqHead) (r : List UInt8), out = .write (requestFrame h r) ∧ FitsPrefix (h, r) ∧
    h.ssn = (frameReqHead sSrcBuf).ssn ∧
    ((h.errNo = 0 ∧ ∃ sRspBuf lRspLen rest, call = some (.got sRspBuf lRspLen rest) ∧
        r = sRspBuf.drop sizeofIPCMsgHead) ∨
      (h.errNo ≠ 0 ∧ requestFrame h r = packErrRsp (frameReqHead sSrcBuf)))

/-- The call returned 0, with a reply that has at least a head. -/
def CallReplied (call : Option CallRcvd) : Prop :=
  ∃ sRspBuf lRspLen rest, call = some (.got sRspBuf lRspLen rest) ∧ (sizeofIPCMsgHead : ℤ) ≤ lRspLen

/-- What `tux_call` stores when it returns 0: as many bytes as it says, and no more than the bus carries. -/
theorem of_tuxCallRcv_got {fault : Option Errno} {expired : Bool} {tuxErrno n : ℤ} {q rest : List Msg}
    {t : BitVec 64} {sRspBuf : List UInt8}
    (h : tuxCallRcv fault expired tuxErrno q t = .got sRspBuf n rest) :
    0 < n ∧ (sRspBuf.length : ℤ) = n ∧ n + sizeofLong ≤ busMaxMsgLen := by
  rw [tuxCallRcv, msqRcv] at h
  cases hrcv : msgrcv fault q busMaxMsgLen t.toInt false with
  | waiting =>
    rw [hrcv] at h
    cases h
  | fail e =>
    rw [hrcv] at h
    cases h
  | got m rest' =>
    rw [hrcv] at h
    obtain ⟨-, -, -, -, hfits⟩ := select_of_msgrcv_got hrcv
    have hsize : m.mtext.length ≤ busMaxMsgLen := hfits
    dsimp only at h
    split_ifs at h with hlen hexp
    obtain ⟨rfl, rfl, -⟩ := CallRcvd.got.inj h
    rw [bufRead_length]
    omega

/-- The reply of a child's call is such a one. -/
theorem of_childCall_got {mb : MbCtrl} {k : SndKernel} {tuxErrno : ℤ} {reqQue : List Msg}
    {fault : Option Errno} {expired : Bool} {rspQue : List Msg} {pid : ℕ} {utime : BitVec 64}
    {sSrcBuf sRspBuf : List UInt8} {iBufLen : ℕ} {n : ℤ} {rest : List Msg}
    (h : childCall mb k tuxErrno reqQue fault expired rspQue pid utime sSrcBuf iBufLen =
      some (.got sRspBuf n rest)) :
    (sRspBuf.length : ℤ) = n ∧ n + sizeofLong ≤ busMaxMsgLen := by
  obtain ⟨outcome, -, hreply⟩ := Option.map_eq_some_iff.mp h
  cases outcome with
  | error e => cases hreply
  | ok q => exact (of_tuxCallRcv_got hreply).2

/-- The response to a reply with a head. -/
theorem callSvrRsp_eq {sSrcBuf sRspBuf : List UInt8} (hhead : sizeofIPCMsgHead ≤ sRspBuf.length)
    (hbus : sRspBuf.length + sizeofLong ≤ busMaxMsgLen) :
    FitsPrefix ({ frameReqHead sSrcBuf with errNo := 0 }, sRspBuf.drop sizeofIPCMsgHead) ∧
      callSvrRsp sSrcBuf sRspBuf sRspBuf.length =
        some (requestFrame { frameReqHead sSrcBuf with errNo := 0 }
          (sRspBuf.drop sizeofIPCMsgHead)) := by
  rw [sizeofIPCMsgHead] at hhead
  rw [sizeofLong, busMaxMsgLen] at hbus
  have hfit : sizeofReqHead + (sRspBuf.drop sizeofIPCMsgHead).length < 10 ^ socketMsgHeadLen := by
    rw [List.length_drop, sizeofReqHead, socketMsgHeadLen]
    omega
  refine ⟨hfit, ?_⟩
  have hbody : bufRead sRspBuf sizeofIPCMsgHead (sRspBuf.length - sizeofIPCMsgHead) =
      sRspBuf.drop sizeofIPCMsgHead := bufRead_drop (by rw [sizeofIPCMsgHead]; omega)
  have hpfx := Decimal.sprintf0d_length (w := socketMsgHeadLen) (by decide) hfit
  rw [callSvrRsp]
  dsimp only
  rw [if_neg (by rw [sizeofIPCMsgHead, sizeofChildDestBuf, socketMsgHeadLen, sizeofReqHead]; omega),
    hbody, ← List.length_drop, Nat.add_comm, List.take_of_length_le hpfx.le]
  rfl

/-- A frame is written for a reply only. -/
theorem of_childRespond_write {sSrcBuf frame : List UInt8} {reply : CallRcvd}
    (h : childRespond sSrcBuf reply = .write frame) :
    ∃ sRspBuf n rest, reply = .got sRspBuf n rest ∧ sizeofIPCMsgHead ≤ n.toNat := by
  cases reply with
  | waiting => cases h
  | fail e rest => cases h
  | got sRspBuf n rest =>
    refine ⟨sRspBuf, n, rest, rfl, ?_⟩
    by_contra hshort
    rw [childRespond, callSvrRsp, if_pos (.inl (by omega))] at h
    cases h

theorem childProc_of_rcvTxnMsg {s s' : Sock UInt8} {sSrcBuf : List UInt8} {iBufLen : ℤ}
    (hrcv : rcvTxnMsg s socketMsgHeadLen = ⟨0, some (sSrcBuf, iBufLen), s'⟩) (mb : MbCtrl)
    (k : SndKernel) (tuxErrno : ℤ) (reqQue : List Msg) (fault : Option Errno) (expired : Bool)
    (rspQue : List Msg) (pid : ℕ) (utime : BitVec 64) :
    childProc mb k tuxErrno reqQue fault expired rspQue pid utime s =
      (childCall mb k tuxErrno reqQue fault expired rspQue pid utime sSrcBuf iBufLen.toNat).elim
        .fault (childRespond sSrcBuf) := by
  rw [childProc, hrcv]
  rfl

/-- **A child answers its client iff its call is replied to.** -/
theorem child_answers_iff {s s' : Sock UInt8} {sSrcBuf : List UInt8} {iBufLen : ℤ}
    (hrcv : rcvTxnMsg s socketMsgHeadLen = ⟨0, some (sSrcBuf, iBufLen), s'⟩) (mb : MbCtrl)
    (k : SndKernel) (tuxErrno : ℤ) (reqQue : List Msg) (fault : Option Errno) (expired : Bool)
    (rspQue : List Msg) (pid : ℕ) (utime : BitVec 64) :
    ChildAnswers sSrcBuf
        (childCall mb k tuxErrno reqQue fault expired rspQue pid utime sSrcBuf iBufLen.toNat)
        (childProc mb k tuxErrno reqQue fault expired rspQue pid utime s) ↔
      CallReplied
        (childCall mb k tuxErrno reqQue fault expired rspQue pid utime sSrcBuf iBufLen.toNat) := by
  rw [childProc_of_rcvTxnMsg hrcv]
  generalize hcall : childCall mb k tuxErrno reqQue fault expired rspQue pid utime sSrcBuf
    iBufLen.toNat = call
  constructor
  · rintro ⟨h, r, hout, -⟩
    cases call with
    | none => cases hout
    | some reply =>
      obtain ⟨sRspBuf, n, rest, rfl, hhead⟩ := of_childRespond_write hout
      rw [sizeofIPCMsgHead] at hhead
      exact ⟨sRspBuf, n, rest, rfl, by rw [sizeofIPCMsgHead]; omega⟩
  · rintro ⟨sRspBuf, n, rest, rfl, hhead⟩
    obtain ⟨rfl, hbus⟩ := of_childCall_got hcall
    obtain ⟨hfit, hrsp⟩ := @callSvrRsp_eq sSrcBuf _ (Int.ofNat_le.mp hhead)
      (by exact_mod_cast hbus)
    refine ⟨_, _, ?_, hfit, rfl, .inl ⟨rfl, sRspBuf, _, rest, rfl, rfl⟩⟩
    rw [Option.elim_some, childRespond, Int.toNat_natCast, hrsp]

/-- A request of two bytes to `testsvr`, received in one piece. -/
theorem rcvTxnMsg_testsvr : ∃ s', rcvTxnMsg ⟨requestFrame testsvrReqHead [65, 66], []⟩
    socketMsgHeadLen = ⟨0, some (requestFrame testsvrReqHead [65, 66], 46), s'⟩ :=
  rcvTxnMsg_requestFrame (by decide) (List.append_nil _).symm (.of_buffered (by decide))

/-- A request of two bytes to `testsvr`, whose reply of one byte is there, is answered. -/
theorem child_answers_testsvr :
    ChildAnswers (requestFrame testsvrReqHead [65, 66])
      (some (.got (bareHead.toBytes ++ [67]) 97 []))
      (childProc testsvrMb ⟨none, none, 8192⟩ 0 [] none false
        [⟨77, List.replicate 8 0 ++ (bareHead.toBytes ++ [67])⟩] 77 0
        ⟨requestFrame testsvrReqHead [65, 66], []⟩) := by
  obtain ⟨s', hrcv⟩ := rcvTxnMsg_testsvr
  have hcall : childCall testsvrMb ⟨none, none, 8192⟩ 0 [] none false
      [⟨77, List.replicate 8 0 ++ (bareHead.toBytes ++ [67])⟩] 77 0
      (requestFrame testsvrReqHead [65, 66]) 46 =
        some (.got (bareHead.toBytes ++ [67]) 97 []) := by
    decide +kernel
  have hiff := child_answers_iff hrcv testsvrMb ⟨none, none, 8192⟩ 0 [] none false
    [⟨77, List.replicate 8 0 ++ (bareHead.toBytes ++ [67])⟩] 77 0
  rw [← hcall]
  exact hiff.mpr ⟨_, _, _, hcall, by decide⟩

/-- The server of `testsvr` when it is dead. -/
def deadMb : MbCtrl where
  maxMsgLen := 8096
  tSvrTab := [⟨1, charField 33 testsvrName 0, .dead, 300001, 20⟩]
  tSvcTab := [⟨0, charField 33 testsvrName 0, 8⟩]
  nsvrnum_eq := rfl

/-- A request to a server that is dead gets no answer. -/
theorem dead_service_not_answered :
    ¬ ∀ (s s' : Sock UInt8) (sSrcBuf : List UInt8) (iBufLen : ℤ) (mb : MbCtrl) (k : SndKernel)
      (tuxErrno : ℤ) (reqQue : List Msg) (fault : Option Errno) (expired : Bool) (rspQue : List Msg)
      (pid : ℕ) (utime : BitVec 64),
      rcvTxnMsg s socketMsgHeadLen = ⟨0, some (sSrcBuf, iBufLen), s'⟩ →
      (socketMsgHeadLen + sizeofReqHead : ℤ) ≤ iBufLen →
      ChildAnswers sSrcBuf
        (childCall mb k tuxErrno reqQue fault expired rspQue pid utime sSrcBuf iBufLen.toNat)
        (childProc mb k tuxErrno reqQue fault expired rspQue pid utime s) := by
  intro hall
  obtain ⟨s', hrcv⟩ := rcvTxnMsg_testsvr
  have hcall : childCall deadMb ⟨none, none, 8192⟩ 0 [] none false [] 77 0
      (requestFrame testsvrReqHead [65, 66]) 46 = some (.fail sysDeadSvc []) := by
    decide +kernel
  obtain ⟨h, r, hout, -⟩ := hall _ s' _ _ deadMb ⟨none, none, 8192⟩ 0 [] none false [] 77 0 hrcv
    (by decide)
  rw [childProc_of_rcvTxnMsg hrcv] at hout
  have hret := congrArg (fun call ↦ call.elim ChildOut.fault
    (childRespond (requestFrame testsvrReqHead [65, 66]))) hcall
  cases hret.symm.trans hout

end Sunda
