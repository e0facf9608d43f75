import Sunda.Comm.FrontEnds
import Sunda.Comm.SyncCalls

/-!
# One reply in three front ends

`write_task` of `commserver`, `call_svr` with `child_proc` of C001 and `ChdDoClt` of C002 make the response to
a client from the same kind of reply, an `IPCMsgHead` followed by a result. `Responder.sends` is what each of
them hands to `WriteSocket`.

`responses_never_alike` says that they never send the same bytes: `ChdDoClt` puts no length in front. The
others send frames that `RcvTxnMsg` takes apart again, one after the other; from the bytes of `ChdDoClt` it
never recovers the head, whatever follows them. The two frames are the same if the client wrote the name of
the service without blanks and filled up with zeros, as C001 returns the client's own head.

`failure_never_visible` is about the field `err_no` of these heads. `tux_return` passes `rval` and `rcode` on
to `tux_return_reply`, which reads neither, and the two front ends store 0.
-/

namespace Sunda

open Bytes Arrivals SysV

/-! ### C001 -/

/-- The size of `sDestBuf` in `child_proc`. -/
def sizeofChildDestBuf : ℕ := 8097

/-- `pack_err_rsp`. -/
def packErrRsp (reqHead : SundaReqHead) : List UInt8 :=
  Decimal.sprintf0d socketMsgHeadLen sizeofReqHead ++ { reqHead with errNo := 99 }.toBytes

/-- `call_svr` once `tux_call` has returned 0 with `lRspLen` bytes in `sRspBuf`: the front of `sDestBuf`, as
far as `iRspLen` says. `none` is a copy of negative length, or beyond the end. -/
def callSvrRsp (sSrcBuf sRspBuf : List UInt8) (lRspLen : ℕ) : Option (List UInt8) :=
  let iLen := lRspLen - sizeofIPCMsgHead + sizeofReqHead
  if lRspLen < sizeofIPCMsgHead ∨ sizeofChildDestBuf < socketMsgHeadLen + iLen then none
  else
    some ((Decimal.sprintf0d socketMsgHeadLen iLen).take socketMsgHeadLen ++
      ({ frameReqHead sSrcBuf with errNo := 0 }.toBytes ++
        bufRead sRspBuf sizeofIPCMsgHead (lRspLen - sizeofIPCMsgHead)))

/-- What `child_proc` does once its request is queued. -/
inductive ChildOut
  | waiting
  /-- It returns -1 and sends nothing of what `call_svr` left in `sDestBuf`. -/
  | ret (sDestBuf : List UInt8)
  | write (frame : List UInt8)
  | fault
  deriving DecidableEq

/-- `call_svr` behind `tux_call`, and the rest of `child_proc` up to `WriteSocket`. -/
def childRespond (sSrcBuf : List UInt8) : CallRcvd → ChildOut
  | .waiting => .waiting
  | .fail _ _ => .ret (packErrRsp (frameReqHead sSrcBuf))
  | .got sRspBuf lRspLen _ =>
    match callSvrRsp sSrcBuf sRspBuf lRspLen.toNat with
    | none => .fault
    | some frame => .write frame

/-! ### C002 -/

/-- The size of `sRspBuf` in `ChdDoClt`. -/
def sizeofCltRspBuf : ℕ := 10241

/-- What `ChdDoClt` makes of a reply of `iBufLen` bytes. -/
def chdDoCltRsp (sSrcBuf : List UInt8) (iBufLen : ℕ) : Option (List UInt8) :=
  if iBufLen < sizeofIPCMsgHead ∨ sizeofCltRspBuf < sizeofReqHead + (iBufLen - sizeofIPCMsgHead) then none
  else
    some ((rspReqHead (.ofBytes sSrcBuf)).toBytes ++
      bufRead sSrcBuf sizeofIPCMsgHead (iBufLen - sizeofIPCMsgHead))

/-- The outcome of one iteration of `ChdDoClt`. -/
inductive CltOut
  | waiting
  /-- The `continue` behind `EINTR`. -/
  | again (rest : List Msg)
  | exit (rest : List Msg)
  | write (rest : List Msg) (rsp : List UInt8)
  | fault
  deriving DecidableEq

/-- One iteration of `ChdDoClt`. Where the process is not attached, `errno` is left from before. -/
def chdDoClt (attached : Bool) (fault : Option Errno) (errno : ℤ) (q : List Msg) (gSvrId : BitVec 32) :
    CltOut :=
  match tuxGetreply attached fault errno q (FrontEnd.c002 gSvrId).cd 0 with
  | .waiting => .waiting
  | .fail tuxErrno rest => if (if attached then tuxErrno else errno) = EINTR then .again rest else .exit rest
  | .got sSrcBuf iBufLen rest =>
    match chdDoCltRsp sSrcBuf iBufLen.toNat with
    | none => .fault
    | some rsp => .write rest rsp

/-! ### What is sent -/

/-- The functions that answer a client. -/
inductive Responder
  | writeTask
  | callSvr
  | chdDoClt
  deriving DecidableEq

/-- What is handed to `WriteSocket` for a reply of `iBufLen` bytes in `sSrcBuf`; `reqFrame` is the frame of the
request. -/
def Responder.sends (x : Responder) (reqFrame sSrcBuf : List UInt8) (iBufLen : ℕ) : Option (List UInt8) :=
  match x with
  | .writeTask => if rspLen iBufLen < 0 then none else some (rspFrame sSrcBuf (rspLen iBufLen).toNat)
  | .callSvr => callSvrRsp reqFrame sSrcBuf iBufLen
  | .chdDoClt => chdDoCltRsp sSrcBuf iBufLen

/-- What `write_task` writes is `Responder.writeTask.sends`. -/
theorem sends_of_writeResponse {m m' : WordMem} {num iBufLen : ℕ} {n' junk : ℤ}
    {sSrcBuf reqFrame frame : List UInt8} {rest rest' : List Msg} {fd : BitVec 32}
    (h : writeResponse m num junk sSrcBuf iBufLen rest = .write rest' n' m' fd frame) :
    Responder.writeTask.sends reqFrame sSrcBuf iBufLen = some frame := by
  rw [writeResponse] at h
  split at h
  · cases h
  · next hlen =>
    split at h
    · cases h
    · injection h with _ _ _ _ hframe
      rw [Responder.sends, if_neg fun hneg ↦ hlen (.inl hneg), hframe]

/-- What a child of C001 writes is `Responder.callSvr.sends`. -/
theorem sends_of_childRespond {reqFrame sRspBuf frame : List UInt8} {lRspLen : ℕ} {rest : List Msg}
    (h : childRespond reqFrame (.got sRspBuf lRspLen rest) = .write frame) :
    Responder.callSvr.sends reqFrame sRspBuf lRspLen = some frame := by
  rw [childRespond, Int.toNat_natCast] at h
  rw [Responder.sends]
  split at h
  · cases h
  · next hrsp => rw [hrsp, ChildOut.write.inj h]

/-- The responses are alike: all three send the frame of one head, which has the number of the request and no
error, and of the result. -/
def ResponsesAlike (reqFrame : List UInt8) (head : IPCMsgHead) (r : List UInt8) : Prop :=
  ∃ h : SundaReqHead, h.ssn = (frameReqHead reqFrame).ssn ∧ h.errNo = 0 ∧ ∀ x : Responder,
    x.sends reqFrame (head.toBytes ++ r) (sizeofIPCMsgHead + r.length) = some (requestFrame h r)

/-! ### One reply -/

section Reply

variable {reqFrame : List UInt8} {head : IPCMsgHead} {r : List UInt8}

/-- The bytes behind the head of a reply. -/
theorem bufRead_reply (head : IPCMsgHead) (r : List UInt8) :
    bufRead (head.toBytes ++ r) sizeofIPCMsgHead r.length = r := by
  rw [bufRead_append_right _ _ head.toBytes_length.le, head.toBytes_length, Nat.sub_self,
    bufRead_zero_length]

theorem sends_writeTask (h : sizeofReqHead + r.length < 10 ^ socketMsgHeadLen) :
    Responder.writeTask.sends reqFrame (head.toBytes ++ r) (sizeofIPCMsgHead + r.length) =
      some (requestFrame (rspReqHead head) r) := by
  have hlen : rspLen (sizeofIPCMsgHead + r.length : ℕ) = (sizeofReqHead + r.length : ℕ) :=
    rspLen_eq (by rw [socketMsgHeadLen] at h; omega)
  rw [Responder.sends, hlen, if_neg (by omega), Int.toNat_natCast, rspFrame_eq head r h]
  rfl

theorem sends_callSvr (h : sizeofReqHead + r.length + socketMsgHeadLen ≤ sizeofChildDestBuf) :
    Responder.callSvr.sends reqFrame (head.toBytes ++ r) (sizeofIPCMsgHead + r.length) =
      some (requestFrame { frameReqHead reqFrame with errNo := 0 } r) := by
  have hfit : sizeofReqHead + r.length < 10 ^ socketMsgHeadLen := by
    rw [sizeofChildDestBuf, socketMsgHeadLen] at *
    omega
  have hpfx := Decimal.sprintf0d_length (w := socketMsgHeadLen) (by decide) hfit
  simp only [Responder.sends, callSvrRsp, Nat.add_sub_cancel_left, bufRead_reply]
  rw [if_neg (by omega), Nat.add_comm r.length, List.take_of_length_le hpfx.le]
  rfl

theorem sends_chdDoClt (h : sizeofReqHead + r.length ≤ sizeofCltRspBuf) :
    Responder.chdDoClt.sends reqFrame (head.toBytes ++ r) (sizeofIPCMsgHead + r.length) =
      some ((rspReqHead head).toBytes ++ r) := by
  simp only [Responder.sends, chdDoCltRsp, Nat.add_sub_cancel_left, bufRead_reply,
    IPCMsgHead.ofBytes_toBytes_append]
  exact if_neg (by omega)

/-- The bytes of `ChdDoClt` are never a frame of the result: they are too few. -/
theorem sends_chdDoClt_ne (h : SundaReqHead) :
    Responder.chdDoClt.sends reqFrame (head.toBytes ++ r) (sizeofIPCMsgHead + r.length) ≠
      some (requestFrame h r) := by
  intro heq
  by_cases hfit : sizeofReqHead + r.length ≤ sizeofCltRspBuf
  · rw [sends_chdDoClt hfit] at heq
    have hlen := congrArg List.length (Option.some.inj heq)
    have hpfx : socketMsgHeadLen ≤
        (Decimal.sprintf0d socketMsgHeadLen (sizeofReqHead + r.length : ℕ)).length :=
      Decimal.le_sprintf0d_length _ _
    rw [requestFrame, List.length_append, List.length_append, List.length_append,
      SundaReqHead.toBytes_length, SundaReqHead.toBytes_length] at hlen
    rw [socketMsgHeadLen] at *
    omega
  · simp only [Responder.sends, chdDoCltRsp, Nat.add_sub_cancel_left] at heq
    rw [if_pos (by omega)] at heq
    cases heq

end Reply

/-! ### What the peer receives -/

/-- Receiving `n` responses with `RcvTxnMsg`: the heads and the results. -/
def rcvResponses : ℕ → Sock UInt8 → Option (List (SundaReqHead × List UInt8) × Sock UInt8)
  | 0, s => some ([], s)
  | n + 1, s =>
    match rcvTxnMsg s socketMsgHeadLen with
    | ⟨0, some (buf, _), s'⟩ =>
      (rcvResponses n s').map fun x ↦
        ((frameReqHead buf, buf.drop (socketMsgHeadLen + sizeofReqHead)) :: x.1, x.2)
    | _ => none

/-- A response fits the length in front of it. -/
def FitsPrefix (x : SundaReqHead × List UInt8) : Prop :=
  sizeofReqHead + x.2.length < 10 ^ socketMsgHeadLen

/-- Each response is there when it is received. -/
def AllInTime : List (SundaReqHead × List UInt8) → Sock UInt8 → Prop
  | [], _ => True
  | x :: xs, s => FrameInTime s socketMsgHeadLen (sizeofReqHead + x.2.length) ∧
      AllInTime xs (rcvTxnMsg s socketMsgHeadLen).sock

/-- The response frames, one after the other. -/
def responseStream (xs : List (SundaReqHead × List UInt8)) : List UInt8 :=
  xs.flatMap fun x ↦ requestFrame x.1 x.2

/-- **Frames are received one after the other**, and nothing is left of them. -/
theorem rcvResponses_responseStream {xs : List (SundaReqHead × List UInt8)} {sock : Sock UInt8}
    {more : List UInt8} (hfit : ∀ x ∈ xs, FitsPrefix x)
    (hsock : sock.stream = responseStream xs ++ more) (htime : AllInTime xs sock) :
    ∃ sock', rcvResponses xs.length sock = some (xs, sock') ∧ sock'.stream = more := by
  induction xs generalizing sock with
  | nil => exact ⟨sock, rfl, hsock⟩
  | cons x xs ih =>
    have hx : FitsPrefix x := hfit x (List.mem_cons_self ..)
    rw [responseStream, List.flatMap_cons, List.append_assoc] at hsock
    obtain ⟨sock1, hrcv⟩ := rcvTxnMsg_requestFrame hx hsock htime.1
    have hlen := requestFrame_length x.1 hx
    have hrest : sock1.stream = responseStream xs ++ more := by
      obtain ⟨n, -, -, -, hstored, hdrop⟩ :=
        rcvTxnMsg_zero (s := sock) (h := socketMsgHeadLen) (by decide) (by rw [hrcv])
      rw [hrcv] at hstored hdrop
      have hn : sizeofReqHead + x.2.length = n := by
        have heq := (Prod.mk.inj (Option.some.inj hstored)).2
        push_cast at heq
        omega
      rw [hdrop, hsock, ← hn, List.drop_left' hlen]
      rfl
    have htime1 : AllInTime xs sock1 := by
      have h2 := htime.2
      rwa [hrcv] at h2
    obtain ⟨sock', hrun, hmore⟩ := ih (fun y hy ↦ hfit y (List.mem_cons_of_mem _ hy)) hrest htime1
    have hbody : (requestFrame x.1 x.2).drop (socketMsgHeadLen + sizeofReqHead) = x.2 := by
      rw [requestFrame, ← List.append_assoc]
      refine List.drop_left' ?_
      rw [List.length_append, Decimal.sprintf0d_length (by decide) hx, SundaReqHead.toBytes_length]
    refine ⟨sock', ?_, hmore⟩
    rw [List.length_cons, rcvResponses, hrcv]
    simp only [hrun, Option.map_some, hbody, frameReqHead_requestFrame x.1 hx]

/-! ### A head without a length in front -/

section Bare

variable {h : SundaReqHead} {bs : List UInt8}

/-- The name of a head that is read at the front of a buffer, byte by byte. -/
theorem getD_of_ofBytes (heq : SundaReqHead.ofBytes bs = h) {i : ℕ} (hi : i < 32) :
    bs.getD i 0 = h.toBytes.getD i 0 := by
  have hname : bufRead bs 0 32 = h.name.toList := by
    rw [← heq]
    rfl
  have hlen : h.name.toList.length = 32 := h.name.toList_length
  have hget := congrArg (fun l : List UInt8 ↦ l.getD i 0) hname
  rw [getD_bufRead, if_pos hi, Nat.zero_add] at hget
  rw [SundaReqHead.toBytes, List.getD_append _ _ _ _ (by omega), hget]

/-- A head without a number and an error ends with zeros. -/
theorem getD_toBytes_tail (herr : h.errNo = 0) {i : ℕ} (hi : 36 ≤ i ∨ h.ssn = 0 ∧ 32 ≤ i) :
    h.toBytes.getD i 0 = 0 := by
  have hlen : h.name.toList.length = 32 := h.name.toList_length
  have hz : leBytes 4 (0 : BitVec 32).toNat = List.replicate 4 0 := by decide
  have hrep (n k : ℕ) : (List.replicate n (0 : UInt8)).getD k 0 = 0 := by
    rcases Nat.lt_or_ge k n with hk | hk
    · exact List.getD_replicate 0 hk
    · exact List.getD_eq_default _ _ (by rwa [List.length_replicate])
  rw [SundaReqHead.toBytes, List.getD_append_right _ _ _ _ (by omega), herr, hz]
  rcases hi with hi | ⟨hssn, hi⟩
  · rw [List.getD_append_right _ _ _ _ (by rw [leBytes_length]; omega), hrep]
  · rw [hssn, hz, List.replicate_append_replicate, hrep]

/-- A number whose bytes are zero. -/
theorem ssn_eq_zero (heq : SundaReqHead.ofBytes bs = h) (hz : ∀ i, 32 ≤ i → i < 36 → bs.getD i 0 = 0) :
    h.ssn = 0 := by
  have hread : bufRead bs 32 4 = bufRead [] 0 4 := bufRead_congr fun k hk ↦ by
    rw [hz (32 + k) (by omega) (by omega)]
    rfl
  rw [← heq]
  exact leField_eq_of_bufRead (hread.trans (by decide))

/-- **`RcvTxnMsg` never recovers the head** from a stream that begins with it and no length in front: if it
did, the head would be four bytes behind itself, so it would be all zeros, and zeros announce nothing. -/
theorem frameReqHead_ne_of_bare (herr : h.errNo = 0) {sock sock' : Sock UInt8} {more buf : List UInt8}
    {n : ℤ} (hsock : sock.stream = h.toBytes ++ more)
    (hrcv : rcvTxnMsg sock socketMsgHeadLen = ⟨0, some (buf, n), sock'⟩) : frameReqHead buf ≠ h := by
  intro heq
  obtain ⟨len, hlen0, hat, -, hstored, -⟩ :=
    rcvTxnMsg_zero (s := sock) (h := socketMsgHeadLen) (by decide) (by rw [hrcv])
  rw [hrcv] at hstored
  obtain ⟨rfl, -⟩ := Prod.mk.inj (Option.some.inj hstored)
  have hsize : h.toBytes.length = 40 := h.toBytes_length
  -- what the copy reads four bytes further on
  have hshift : ∀ i < 36, h.toBytes.getD (i + 4) 0 = 0 →
      (bufRead (sock.stream.take (socketMsgHeadLen + len)) socketMsgHeadLen sizeofReqHead).getD i 0 = 0 := by
    intro i hi hz
    rw [getD_bufRead, if_pos (by rw [sizeofReqHead]; omega), socketMsgHeadLen, Nat.add_comm 4 i,
      List.getD_eq_getElem?_getD, List.getElem?_take]
    split
    · rw [← List.getD_eq_getElem?_getD, hsock, List.getD_append _ _ _ _ (by omega), hz]
    · rfl
  have hssn : h.ssn = 0 := ssn_eq_zero heq fun i _ hi ↦ hshift i hi (getD_toBytes_tail herr (.inl (by omega)))
  have hzero : ∀ d i, i + d = 35 → h.toBytes.getD i 0 = 0 := by
    intro d
    induction d using Nat.strong_induction_on with
    | _ d ih =>
      intro i hi
      by_cases hd : d < 4
      · exact getD_toBytes_tail herr (.inr ⟨hssn, by omega⟩)
      · rw [← getD_of_ofBytes heq (by omega)]
        exact hshift i (by omega) (ih (d - 4) (by omega) (i + 4) (by omega))
  have hpfx : sock.stream.take socketMsgHeadLen = List.replicate 4 0 := by
    have htake : (h.toBytes ++ more).take socketMsgHeadLen = h.toBytes.take socketMsgHeadLen :=
      List.take_append_of_le_length (by rw [hsize]; decide)
    rw [hsock, htake]
    refine List.ext_getElem (by rw [List.length_take, hsize]; rfl) fun i hi _ ↦ ?_
    have hi4 : i < 4 := by
      rw [List.length_take, socketMsgHeadLen] at hi
      omega
    have hi0 := hzero (35 - i) i (by omega)
    rw [List.getD_eq_getElem _ _ (by omega)] at hi0
    rw [List.getElem_take, List.getElem_replicate, hi0]
  rw [hpfx] at hat
  have h0 : Decimal.atoi (List.replicate 4 0) = 0 := by decide
  omega

end Bare

/-- **No reply is answered alike.** `commserver` and C001 send a frame of the result, under the head of the
reply and under that of the request, and a peer recovers head and result of any sequence of such frames.
`ChdDoClt` sends no frame, and from what it sends the peer never recovers the head. -/
theorem responses_never_alike (reqFrame : List UInt8) (head : IPCMsgHead) (r : List UInt8) :
    ¬ ResponsesAlike reqFrame head r ∧
    (sizeofIPCMsgHead + r.length + sizeofLong ≤ busMaxMsgLen →
      Responder.writeTask.sends reqFrame (head.toBytes ++ r) (sizeofIPCMsgHead + r.length) =
        some (requestFrame (rspReqHead head) r) ∧
      Responder.callSvr.sends reqFrame (head.toBytes ++ r) (sizeofIPCMsgHead + r.length) =
        some (requestFrame { frameReqHead reqFrame with errNo := 0 } r) ∧
      Responder.chdDoClt.sends reqFrame (head.toBytes ++ r) (sizeofIPCMsgHead + r.length) =
        some ((rspReqHead head).toBytes ++ r)) ∧
    (∀ (xs : List (SundaReqHead × List UInt8)) (sock : Sock UInt8) (more : List UInt8),
      (∀ x ∈ xs, FitsPrefix x) → sock.stream = responseStream xs ++ more → AllInTime xs sock →
        ∃ sock', rcvResponses xs.length sock = some (xs, sock') ∧ sock'.stream = more) ∧
    ∀ (sock sock' : Sock UInt8) (more buf : List UInt8) (n : ℤ),
      sock.stream = ((rspReqHead head).toBytes ++ r) ++ more →
        rcvTxnMsg sock socketMsgHeadLen = ⟨0, some (buf, n), sock'⟩ → frameReqHead buf ≠ rspReqHead head := by
  refine ⟨?_, fun hbus ↦ ?_, fun xs sock more hfit hsock htime ↦
    rcvResponses_responseStream hfit hsock htime, fun sock sock' more buf n hsock hrcv ↦ ?_⟩
  · rintro ⟨h, -, -, hall⟩
    exact sends_chdDoClt_ne h (hall .chdDoClt)
  · rw [busMaxMsgLen, sizeofIPCMsgHead] at hbus
    refine ⟨sends_writeTask ?_, sends_callSvr ?_, sends_chdDoClt ?_⟩
    · rw [sizeofReqHead, socketMsgHeadLen]
      omega
    · rw [sizeofReqHead, socketMsgHeadLen, sizeofChildDestBuf]
      omega
    · rw [sizeofReqHead, sizeofCltRspBuf]
      omega
  · rw [List.append_assoc] at hsock
    exact frameReqHead_ne_of_bare rfl hsock hrcv

/-- The reply `C` to a request for `testsvr`. -/
theorem chdDoClt_sends_no_len :
    ¬ ResponsesAlike (requestFrame testsvrReqHead [65, 66]) bareHead [67] := by
  rintro ⟨h, -, -, hall⟩
  have hsent : (rspReqHead bareHead).toBytes ++ [67] = requestFrame h [67] :=
    Option.some.inj ((sends_chdDoClt (by decide)).symm.trans (hall .chdDoClt))
  have hlen := congrArg List.length hsent
  rw [requestFrame_length h (by decide), List.length_append, SundaReqHead.toBytes_length] at hlen
  exact absurd hlen (by decide)

/-! ### The outcome of a handler -/

def tuxFail : ℤ := 1
def tuxSuccess : ℤ := 2

/-- `tux_return_reply` with all its arguments: it reads neither `rval` nor `rcode`. -/
def tuxReturnReplyOf (_rval : ℤ) (mb : MbCtrl) (k : SndKernel) (gipcMsgHead : IPCMsgHead) (q : List Msg)
    (a : TuxReturnArgs) : Option (ℤ × List Msg) :=
  tuxReturnReply mb k a.realLen gipcMsgHead q a.rsp a.rsplen a.flags

/-- `tux_return` with all its arguments, called by a handler. -/
def tuxReturnOf (mb : MbCtrl) (k : SndKernel) (gipcMsgHead : IPCMsgHead) (q : List Msg)
    (a : TuxReturnArgs) : Option (ℤ × List Msg) :=
  let rval := if a.rval ≠ tuxFail ∧ a.rval ≠ tuxSuccess then tuxFail else a.rval
  (tuxReturnReplyOf rval mb k gipcMsgHead q a).map fun r ↦ if r.1 = 0 then (1, r.2) else r

theorem tuxReturnOf_eq (mb : MbCtrl) (k : SndKernel) (head : IPCMsgHead) (q : List Msg)
    (a : TuxReturnArgs) : tuxReturnOf mb k head q a = tuxReturn mb k a.realLen head q a.rsp a.rsplen a.flags :=
  rfl

theorem tuxReturnOf_of_reply {mb : MbCtrl} {k : SndKernel} {head : IPCMsgHead} {q q' : List Msg}
    {a : TuxReturnArgs}
    (h : tuxReturnReply mb k a.realLen head q a.rsp a.rsplen a.flags = some (0, q')) :
    tuxReturnOf mb k head q a = some (1, q') := by
  rw [tuxReturnOf_eq, tuxReturn, h, Option.map_some, if_pos rfl]

/-- A handler that runs for the request with this head ends with `tux_return`, and `rspHead` is the head of
the response to its reply. -/
def HandlerAnswered (x : Responder) (reqFrame : List UInt8) (mb : MbCtrl) (k : SndKernel) (head : IPCMsgHead)
    (q : List Msg) (a : TuxReturnArgs) (rspHead : SundaReqHead) : Prop :=
  ∃ rc m frame, tuxReturnOf mb k head q a = some (rc, q ++ [m]) ∧
    x.sends reqFrame (Msg.payload m) (Msg.payload m).length = some frame ∧ rspHead = frameReqHead frame

/-- The failure is visible: the responses to the two runs tell them apart. -/
def FailureVisible (x : Responder) (reqFrame : List UInt8) (mb : MbCtrl) (k : SndKernel)
    (head : IPCMsgHead) (q : List Msg) (rsp : Option (List UInt8)) (rsplen realLen rcode rcode' : ℤ) : Prop :=
  ∃ h h', HandlerAnswered x reqFrame mb k head q ⟨tuxFail, rcode, rsp, rsplen, 0, realLen⟩ h ∧
    HandlerAnswered x reqFrame mb k head q ⟨tuxSuccess, rcode', rsp, rsplen, 0, realLen⟩ h' ∧
    h.errNo ≠ h'.errNo ∧ h.errNo ≠ 0

/-- The head of a response that may have been cut off. -/
theorem errNo_of_bufRead {pfx rest : List UInt8} {h : SundaReqHead} (hpfx : pfx.length = socketMsgHeadLen)
    (herr : h.errNo = 0) (n : ℕ) :
    (frameReqHead (bufRead (pfx ++ (h.toBytes ++ rest)) 0 n)).errNo = 0 := by
  have hsize : h.toBytes.length = 40 := h.toBytes_length
  rw [socketMsgHeadLen] at hpfx
  have hread : bufRead (bufRead (bufRead (pfx ++ (h.toBytes ++ rest)) 0 n) socketMsgHeadLen sizeofReqHead)
      36 4 = bufRead [] 0 4 := bufRead_congr fun k hk ↦ by
    rw [getD_bufRead, getD_bufRead, socketMsgHeadLen]
    split
    · split
      · rw [List.getD_append_right _ _ _ _ (by omega), hpfx, List.getD_append _ _ _ _ (by omega),
          getD_toBytes_tail herr (.inl (by omega))]
        rfl
      · rfl
    · rfl
  exact leField_eq_of_bufRead (hread.trans (by decide))

/-- `commserver` and C001 answer a handler's reply without an error. -/
theorem errNo_of_sends {x : Responder} (hx : x ≠ .chdDoClt) {reqFrame sSrcBuf frame : List UInt8} {n : ℕ}
    (h : x.sends reqFrame sSrcBuf n = some frame) : (frameReqHead frame).errNo = 0 := by
  have hpfx (v : ℕ) : ((Decimal.sprintf0d socketMsgHeadLen v).take socketMsgHeadLen).length =
      socketMsgHeadLen := by
    rw [List.length_take, Nat.min_eq_left (Decimal.le_sprintf0d_length _ _)]
  cases x with
  | writeTask =>
    simp only [Responder.sends] at h
    split at h
    · cases h
    · rw [← Option.some.inj h]
      exact errNo_of_bufRead (hpfx _) rfl _
  | callSvr =>
    simp only [Responder.sends, callSvrRsp] at h
    split at h
    · cases h
    · rw [← Option.some.inj h, ← bufRead_zero_length (_ ++ _)]
      exact errNo_of_bufRead (hpfx _) rfl _
  | chdDoClt => exact absurd rfl hx

/-- The response to a result that can be sent, whatever `rval` and `rcode` are. -/
theorem handlerAnswered_of_sendable (rval rcode realLen : ℤ) (reqFrame : List UInt8) {mb : MbCtrl}
    {k : SndKernel} {head : IPCMsgHead} {q : List Msg} {rsp : List UInt8} (hk : k.Accepts q)
    (hrsp : 0 < rsp.length) (htype : 0 < head.reqMsgType.toInt)
    (hmax : (rsp.length : ℤ) ≤ mb.maxMsgLen.toInt)
    (hbus : sizeofIPCMsgHead + rsp.length + sizeofLong ≤ busMaxMsgLen) :
    HandlerAnswered .writeTask reqFrame mb k head q ⟨rval, rcode, some rsp, rsp.length, 0, realLen⟩
      (rspReqHead (head.setLen rsp.length)) ∧
    HandlerAnswered .callSvr reqFrame mb k head q ⟨rval, rcode, some rsp, rsp.length, 0, realLen⟩
      { frameReqHead reqFrame with errNo := 0 } := by
  have hreply : tuxReturnReply mb k realLen head q (some rsp) rsp.length 0 = some (0, q ++ _) :=
    tuxReturnReply_eq_ok realLen (by decide) hk hrsp htype hmax hbus
  have hrun := tuxReturnOf_of_reply (a := ⟨rval, rcode, some rsp, rsp.length, 0, realLen⟩) hreply
  have hsize : ((head.setLen rsp.length).toBytes ++ rsp).length = sizeofIPCMsgHead + rsp.length := by
    rw [List.length_append, IPCMsgHead.toBytes_length]
  have hpayload : Msg.payload ((⟨head.reqMsgType, 0, (head.setLen rsp.length).toBytes ++ rsp⟩ :
      IPCQueMsg).queued (sizeofIPCMsgHead + rsp.length)) = (head.setLen rsp.length).toBytes ++ rsp := by
    rw [IPCQueMsg.payload_queued, ← hsize, bufRead_zero_length]
  rw [busMaxMsgLen, sizeofIPCMsgHead] at hbus
  have hfit : sizeofReqHead + rsp.length < 10 ^ socketMsgHeadLen := by
    rw [sizeofReqHead, socketMsgHeadLen]
    omega
  refine ⟨⟨1, _, _, hrun, ?_, (frameReqHead_requestFrame _ hfit).symm⟩,
    ⟨1, _, _, hrun, ?_, (frameReqHead_requestFrame _ hfit).symm⟩⟩
  · rw [hpayload, hsize]
    exact sends_writeTask hfit
  · rw [hpayload, hsize]
    refine sends_callSvr ?_
    rw [sizeofReqHead, socketMsgHeadLen, sizeofChildDestBuf]
    omega

/-- **A failure is never visible**: the two runs do the same, and every response of `commserver` or of C001 to
a handler has 0 in its `err_no`. -/
theorem failure_never_visible (reqFrame : List UInt8) (mb : MbCtrl) (k : SndKernel) (head : IPCMsgHead)
    (q : List Msg) (rsp : Option (List UInt8)) (rsplen realLen rcode rcode' : ℤ) :
    ¬ FailureVisible .writeTask reqFrame mb k head q rsp rsplen realLen rcode rcode' ∧
    ¬ FailureVisible .callSvr reqFrame mb k head q rsp rsplen realLen rcode rcode' ∧
    tuxReturnOf mb k head q ⟨tuxFail, rcode, rsp, rsplen, 0, realLen⟩ =
      tuxReturnOf mb k head q ⟨tuxSuccess, rcode', rsp, rsplen, 0, realLen⟩ := by
  have hzero {x : Responder} (hx : x ≠ .chdDoClt) :
      ¬ FailureVisible x reqFrame mb k head q rsp rsplen realLen rcode rcode' := by
    rintro ⟨h, h', ⟨rc, m, frame, -, hsends, rfl⟩, -, -, herr⟩
    exact herr (errNo_of_sends hx hsends)
  exact ⟨hzero (by decide), hzero (by decide), rfl⟩

/-- A handler of `testsvr` fails with the result `C` and the code 99, and C001 sends what it sends when the
handler succeeds: the head of the request, without an error. -/
theorem testsvr_failure_not_visible :
    (∀ rval, HandlerAnswered .callSvr (requestFrame testsvrReqHead [65, 66]) testsvrMb ⟨none, none, 8192⟩
      bareHead [] ⟨rval, 99, some [67], 1, 0, 0⟩ testsvrReqHead) ∧
    ¬ FailureVisible .callSvr (requestFrame testsvrReqHead [65, 66]) testsvrMb ⟨none, none, 8192⟩
      bareHead [] (some [67]) 1 0 99 0 := by
  have hk : SndKernel.Accepts ⟨none, none, 8192⟩ [] := ⟨rfl, rfl, by decide, by decide⟩
  refine ⟨fun rval ↦ ?_, ?_⟩
  · have hsent : HandlerAnswered .callSvr (requestFrame testsvrReqHead [65, 66]) testsvrMb
        ⟨none, none, 8192⟩ bareHead [] ⟨rval, 99, some [67], 1, 0, 0⟩ _ :=
      (handlerAnswered_of_sendable rval 99 0 (requestFrame testsvrReqHead [65, 66]) hk (by decide)
        (by decide) (by decide) (by decide)).2
    rwa [frameReqHead_requestFrame testsvrReqHead (by decide)] at hsent
  · rintro ⟨h, h', ⟨rc, m, frame, -, hsends, rfl⟩, -, -, herr⟩
    exact herr (errNo_of_sends (by decide) hsends)

end Sunda
