import Sunda.Comm.Commserver.ReadTask

/-!
# What a worker answers

One iteration of `tux_service` (`pubfun/tux/tuxmgr.c`) together with the handler it calls, which ends
by calling `tux_return`. Control comes back from the handler by `longjmp` in every case, so what the
client sees is the reply queue alone.

`replied_once_iff` says when the iteration puts exactly one reply there: the service is advertised, and
`tux_return` gets a result that is not `NULL` and fits a message. In the other cases the request is gone
and nothing is sent: an unknown service makes `tux_service` return 0, and a `NULL` result makes
`tux_return_reply` return 0 right behind `rsplen = 0`.
-/

namespace Sunda

open Bytes SysV

/-- The arguments of `tux_return`, and what `tux_real_len` says about `rsp`. -/
structure TuxReturnArgs where
  rval : ℤ
  rcode : ℤ
  rsp : Option (List UInt8)
  rsplen : ℤ
  flags : ℤ
  realLen : ℤ

/-- The length of a result: an argument 0 stands for the length of the allocation. -/
def TuxReturnArgs.len (a : TuxReturnArgs) : ℤ :=
  if a.rsplen = 0 then a.realLen else a.rsplen

/-- A handler, by its number, for what `tux_service` hands to it. -/
abbrev Handler := ℕ → SdInfo → TuxReturnArgs

/-- One iteration of `tux_service` with its handler: the reply queue afterwards. `none` is an access
beyond the end of an array. -/
def serviceIteration (mb : MbCtrl) (k : SndKernel) (fault : Option Errno) (errno : ℤ)
    (reqQue rspQue : List Msg) (svrid : ℤ) (handler : Handler) : Option (List Msg) :=
  match tuxService mb fault errno reqQue svrid with
  | .called sdFun sdInfo head _ =>
    let a := handler sdFun sdInfo
    (tuxReturn mb k a.realLen head rspQue a.rsp a.rsplen a.flags).map Prod.snd
  | .fault _ _ => none
  | _ => some rspQue

/-! ### What is claimed of an iteration -/

/-- One reply is queued behind the others: under the type that the request asks for, with the head of
the request in front, in which `len` is the length of what follows. -/
def RepliedOnce (head : IPCMsgHead) (rspQue : List Msg) (r : Option (List Msg)) : Prop :=
  ∃ m body, r = some (rspQue ++ [m]) ∧ m.mtype = head.reqMsgType.toInt ∧
    Msg.payload m = (head.setLen body.length).toBytes ++ body

/-- Nothing stands against a message of the size of the bus in the queue. -/
structure QueueAccepts (k : SndKernel) (q : List Msg) : Prop extends k.Accepts q where
  text : busMaxMsgLen + sizeofLong ≤ k.msgmax

/-- The result of a handler can be sent: it is not `NULL`, and its length is allowed and fits a
message behind the head. -/
def Sendable (mb : MbCtrl) (a : TuxReturnArgs) : Prop :=
  a.rsp.isSome ∧ 0 ≤ a.len ∧ a.len ≤ mb.maxMsgLen.toInt ∧ sizeofIPCMsgHead + a.len < busMaxMsgLen

/-- The service entry for a request. -/
def serviceOf (mb : MbCtrl) (head : IPCMsgHead) : Option ServiceTab :=
  (tuxFindService mb head.name.toList 1).1.bind fun i ↦ mb.tSvcTab[i]?

/-- What `tux_service` hands to a handler. -/
def sdInfoOf (head : IPCMsgHead) (sBuf : List UInt8) : SdInfo :=
  ⟨charField 33 ((cstr head.name.toList).take tuxNameLen) 0,
    bufRead sBuf sizeofIPCMsgHead head.len.toInt.toNat, head.len.toInt⟩

/-! ### Sending a result -/

/-- A result that can be sent is queued. -/
theorem tuxReturnReply_sendable {mb : MbCtrl} {k : SndKernel} {q : List Msg} {head : IPCMsgHead}
    (hk : QueueAccepts k q) (htype : 0 < head.reqMsgType.toInt) {a : TuxReturnArgs}
    (hflags : a.flags ≠ -1) (ha : Sendable mb a) :
    ∃ m body, tuxReturnReply mb k a.realLen head q a.rsp a.rsplen a.flags = some (0, q ++ [m]) ∧
      m.mtype = head.reqMsgType.toInt ∧ Msg.payload m = (head.setLen body.length).toBytes ++ body := by
  obtain ⟨hsome, h0, hmax, hbus⟩ := ha
  obtain ⟨rsp, hrsp⟩ := Option.isSome_iff_exists.1 hsome
  obtain ⟨n, hn⟩ : ∃ n : ℕ, a.len = n := ⟨a.len.toNat, (Int.toNat_of_nonneg h0).symm⟩
  rw [hn] at h0 hmax hbus
  have hlen := setLen_len head h0 hmax
  have hmsq := msqSnd_eq_zero (L := sizeofIPCMsgHead + n)
    (m := ⟨(head.setLen n).reqMsgType, 0, (head.setLen n).toBytes ++ bufRead rsp 0 n⟩)
    hk.toAccepts htype (by omega) (.inr (by have := hk.text; omega))
  rw [Nat.cast_add] at hmsq
  have hreply : tuxReturnReply mb k a.realLen head q a.rsp a.rsplen a.flags =
      some (0, q ++ [(⟨(head.setLen n).reqMsgType, 0, (head.setLen n).toBytes ++ bufRead rsp 0 n⟩ :
        IPCQueMsg).queued (sizeofIPCMsgHead + n)]) := by
    rw [TuxReturnArgs.len] at hn
    simp only [tuxReturnReply, if_neg hflags, hrsp, hn, hlen, Int.toNat_natCast, hmsq]
    rw [if_neg (by omega), if_neg (by omega)]
  refine ⟨_, bufRead rsp 0 n, hreply, rfl, ?_⟩
  have hadd := bufRead_append_add (head.setLen n).toBytes (bufRead rsp 0 n) n
  rw [IPCMsgHead.toBytes_length] at hadd
  rw [IPCQueMsg.payload_queued, hadd, bufRead_bufRead _ (Nat.le_of_eq (Nat.zero_add n)), bufRead_length]

/-- A result that cannot be sent leaves the queue as it is, or its copy leaves the message. -/
theorem tuxReturnReply_not_sendable {mb : MbCtrl} {k : SndKernel} {q : List Msg} (head : IPCMsgHead)
    (hk : QueueAccepts k q) {a : TuxReturnArgs} (ha : ¬ Sendable mb a) :
    tuxReturnReply mb k a.realLen head q a.rsp a.rsplen a.flags = none ∨
    ∃ rc, tuxReturnReply mb k a.realLen head q a.rsp a.rsplen a.flags = some (rc, q) := by
  rcases hrsp : a.rsp with _ | rsp
  · refine .inr ⟨0, ?_⟩
    rw [tuxReturnReply.eq_def]
    split <;> rfl
  · rw [tuxReturnReply.eq_def]
    split
    · exact .inr ⟨0, rfl⟩
    · dsimp only
      rw [show (if a.rsplen = 0 then a.realLen else a.rsplen) = a.len from rfl]
      split
      · exact .inr ⟨-1, rfl⟩
      · next hn =>
        have h0 : 0 ≤ a.len := by omega
        have hmax : a.len ≤ mb.maxMsgLen.toInt := by omega
        rw [setLen_len head h0 hmax]
        split
        · exact .inl rfl
        · next hbus =>
          -- the result fits the array but not the limit of `MsqSnd`
          have hfull : sizeofIPCMsgHead + a.len = busMaxMsgLen := by
            by_contra hne
            exact ha ⟨by rw [hrsp]; rfl, by omega, by omega, by omega⟩
          have hchk : msqChk k q .yes = none := by
            simp only [msqChk, IPCChkMsq.yes, IPCChkMsq.maxNum, hk.stat, if_true]
            exact if_neg (Nat.not_lt.2 hk.num)
          have hsnd : ∀ m, msqSnd k q m (sizeofIPCMsgHead + a.len) .yes = (-2, q) := fun m ↦ by
            rw [msqSnd, hchk, hfull]
            exact if_pos (Int.le_refl _)
          rw [hsnd]
          exact .inr ⟨-1, rfl⟩

/-! ### One iteration -/

/-- Whatever `MsqRcv` returns fits the limit of the caller, for every type. -/
theorem length_of_msqRcv_got {fault : Option Errno} {q rest : List Msg} {nMsgLen : ℕ}
    {nMsgType code : ℤ} {nowait : Bool} {ipcMsgIn : IPCQueMsg}
    (h : msqRcv fault q nMsgLen nMsgType nowait = .got code ipcMsgIn rest) :
    ∃ m : Msg, m.mtext.length ≤ nMsgLen ∧ code = m.mtext.length - sizeofLong ∧
      ipcMsgIn.sBuf = m.mtext.drop sizeofLong := by
  rw [msqRcv] at h
  split at h
  · next m rest' hrcv =>
    obtain ⟨rfl, rfl, rfl⟩ := MsqRcvd.got.inj h
    refine ⟨m, ?_, rfl, rfl⟩
    cases fault with
    | some e => cases hrcv
    | none =>
      rw [msgrcv] at hrcv
      split at hrcv
      · split at hrcv <;> cases hrcv
      · split at hrcv
        · next hle =>
          cases hrcv
          exact hle
        · cases hrcv
  · cases h
  · cases h

/-- A well-formed request reaches the handler of its service, or `tux_service` returns. -/
theorem tuxService_of_wellFormed {mb : MbCtrl} {fault : Option Errno} {errno iMsgLen svrid : ℤ}
    {reqQue rest : List Msg} {ipcMsgIn : IPCQueMsg}
    (hrcv : msqRcv fault reqQue busMaxMsgLen (svrid + svrMsgTypeRoot) false =
      .got iMsgLen ipcMsgIn rest)
    (hwf : WellFormedPayload ipcMsgIn.sBuf) {head : IPCMsgHead}
    (hhead : IPCMsgHead.ofBytes ipcMsgIn.sBuf = head) :
    tuxService mb fault errno reqQue svrid =
      match serviceOf mb head with
      | none => .ret 0 rest
      | some svc => .called svc.sdFun (sdInfoOf head ipcMsgIn.sBuf) head rest := by
  obtain ⟨m, hle, hcode, hbuf⟩ := length_of_msqRcv_got hrcv
  obtain ⟨h0, hin⟩ := hwf
  have hlen : ipcMsgIn.sBuf.length = m.mtext.length - sizeofLong := by rw [hbuf, List.length_drop]
  have hpos : ¬ iMsgLen ≤ 0 := by
    rw [hhead] at h0 hin
    rw [sizeofIPCMsgHead, sizeofLong] at *
    omega
  subst hhead
  have hdispatch : tuxDispatch mb ipcMsgIn rest =
      match serviceOf mb (.ofBytes ipcMsgIn.sBuf) with
      | none => .ret 0 rest
      | some svc =>
        if 0 ≤ (IPCMsgHead.ofBytes ipcMsgIn.sBuf).len.toInt ∧
            sizeofIPCMsgHead + (IPCMsgHead.ofBytes ipcMsgIn.sBuf).len.toInt ≤ busMaxMsgLen then
          .called svc.sdFun (sdInfoOf (.ofBytes ipcMsgIn.sBuf) ipcMsgIn.sBuf) (.ofBytes ipcMsgIn.sBuf)
            rest
        else .fault (.ofBytes ipcMsgIn.sBuf) rest := rfl
  have hfits : 0 ≤ (IPCMsgHead.ofBytes ipcMsgIn.sBuf).len.toInt ∧
      sizeofIPCMsgHead + (IPCMsgHead.ofBytes ipcMsgIn.sBuf).len.toInt ≤ busMaxMsgLen :=
    ⟨h0, by omega⟩
  simp only [if_pos hfits] at hdispatch
  simp only [tuxService, hrcv, if_neg hpos, hdispatch]

/-- The request of the examples: no body, for the service `testsvr`, to be answered under the type
100000. -/
def bareHead : IPCMsgHead where
  name := charField 33 testsvrName 0
  ssn := 7
  connSsn := 0
  reqMsgType := 100000
  fd := 4
  utime := 0
  replyFlag := 0
  noteMsgType := 0
  len := 0

/-- It as a message for the server with the id 1. -/
def bareRequest : IPCQueMsg := ⟨300001, 0, bareHead.toBytes⟩

/-- A handler that answers with one byte. -/
def oneByteHandler : Handler := fun _ _ ↦ ⟨2, 0, some [67], 1, 0, 0⟩

theorem msqRcv_bareRequest :
    msqRcv none [bareRequest.queued sizeofIPCMsgHead] busMaxMsgLen (1 + svrMsgTypeRoot) false =
      .got sizeofIPCMsgHead ⟨300001, 0, bareHead.toBytes⟩ [] := by
  have hrcv := msqRcv_of_first (m := bareRequest) sizeofIPCMsgHead (by decide) (List.forall_mem_nil _)
    [] busMaxMsgLen false
  rw [if_pos (by decide)] at hrcv
  have hbuf : bufRead bareHead.toBytes 0 sizeofIPCMsgHead = bareHead.toBytes := by
    rw [← bareHead.toBytes_length, bufRead_zero_length]
  have hsBuf : bufRead bareRequest.sBuf 0 sizeofIPCMsgHead = bareHead.toBytes := hbuf
  rw [hsBuf] at hrcv
  exact hrcv

theorem wellFormedPayload_bareHead : WellFormedPayload bareHead.toBytes := by
  have hhead : IPCMsgHead.ofBytes bareHead.toBytes = bareHead := by
    have h := IPCMsgHead.ofBytes_toBytes_append bareHead []
    rwa [List.append_nil] at h
  rw [WellFormedPayload, hhead, bareHead.toBytes_length]
  decide

theorem serviceOf_bareHead : serviceOf testsvrMb (IPCMsgHead.ofBytes bareHead.toBytes) =
    some ⟨0, charField 33 testsvrName 0, 7⟩ := by
  have hfind : (tuxFindService testsvrMb
      (IPCMsgHead.ofBytes bareHead.toBytes).name.toList 1).1 = some 0 := by
    decide +kernel
  rw [serviceOf, hfind]
  rfl

end Sunda
