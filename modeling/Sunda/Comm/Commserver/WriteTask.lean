import Sunda.Base.Decimal
import Sunda.Comm.Commserver.Table
import Sunda.Tux.Tuxmgr

/-!
# Writing a reply

One iteration of `write_task` (`comm/commserver/commserver.c`): receive a reply with `tux_getreply`,
make a response frame of it, look the connection up, and hand the frame to `WriteSocket`.

Three things of the source are arguments here, because the program does not decide them: what the
kernel makes of the receive, the value of `iBufLen` left over from an earlier iteration, which is used
again when `tux_getreply` fails with an error that the loop does not end on, and the value that
`get_conn_inf` returns when it runs off its end.
-/

namespace Sunda

open Bytes SysV

/-- `req_head` of a response: the name and number of the reply's head, and no error. -/
def rspReqHead (head : IPCMsgHead) : SundaReqHead where
  name := charField 32 head.name.toList 0
  ssn := head.ssn
  errNo := 0

/-- `iRspLen` before the length prefix is counted, in `unsigned long` arithmetic cut down to an
`int`. -/
def rspLen (iBufLen : ℤ) : ℤ :=
  (BitVec.ofInt 32 (iBufLen - sizeofIPCMsgHead + sizeofReqHead)).toInt

/-- The bytes handed to `WriteSocket`, for a length that is not negative. The copy of the body is as
long as the whole response, so it ends with bytes behind the reply. -/
def rspFrame (sSrcBuf : List UInt8) (iRspLen : ℕ) : List UInt8 :=
  bufRead ((Decimal.sprintf0d socketMsgHeadLen iRspLen).take socketMsgHeadLen ++
    ((rspReqHead (.ofBytes sSrcBuf)).toBytes ++ bufRead sSrcBuf sizeofIPCMsgHead iRspLen))
    0 (iRspLen + socketMsgHeadLen)

/-- The outcome of one iteration of `write_task`. -/
inductive WriteOut
  /-- No reply is queued. -/
  | waiting
  /-- The thread ended, behind `SYS_SYSTEM`. -/
  | ret
  /-- The loop went on without a response. -/
  | next (rest : List Msg) (iBufLen : ℤ)
  /-- `WriteSocket(fd, frame, …)` was called, with the table as it then was. -/
  | write (rest : List Msg) (iBufLen : ℤ) (mem : WordMem) (fd : BitVec 32) (frame : List UInt8)
  /-- A copy of a negative length, or an access to a shard that does not exist. -/
  | fault

/-- The mutex-protected section of `write_task`: the table with the connection marked, or nothing when
the connection is not found. `junk` is what `get_conn_inf` returns when it runs off its end. -/
def writeMark (m : WordMem) (num : ℕ) (junk : ℤ) (fd connSsn : BitVec 32) : Option WordMem :=
  let idx := fd.toNat % num
  let pos := (getConnInf m idx connSsn).getD junk
  if pos < 0 then none else some (setCommClientStat m idx pos.toNat fdStatWrite)

/-- The part of `write_task` behind the receive. -/
def writeResponse (m : WordMem) (num : ℕ) (junk : ℤ) (sSrcBuf : List UInt8) (iBufLen : ℤ)
    (rest : List Msg) : WriteOut :=
  let head := IPCMsgHead.ofBytes sSrcBuf
  if rspLen iBufLen < 0 ∨ head.fd.toInt < 0 then .fault
  else
    match writeMark m num junk head.fd head.connSsn with
    | none => .next rest iBufLen
    | some m' => .write rest iBufLen m' head.fd (rspFrame sSrcBuf (rspLen iBufLen).toNat)

/-- One iteration of `write_task`. -/
def writeTask (m : WordMem) (num : ℕ) (junk : ℤ) (attached : Bool) (fault : Option Errno)
    (errno : ℤ) (q : List Msg) (iBufLen : ℤ) : WriteOut :=
  match tuxGetreply attached fault errno q commSMsgTypeRoot 0 with
  | .waiting => .waiting
  | .got sSrcBuf rspLen rest => writeResponse m num junk sSrcBuf rspLen rest
  | .fail tuxErrno rest =>
    if tuxErrno = sysSystem then .ret
    else if tuxErrno = ENOMSG then .next rest iBufLen
    else writeResponse m num junk [] iBufLen rest

/-- The response to a reply of `head` and `body`: the length, the head for the client, the body. -/
def responseFrame (head : IPCMsgHead) (body : List UInt8) : List UInt8 :=
  Decimal.sprintf0d socketMsgHeadLen (sizeofReqHead + body.length : ℕ) ++
    ((rspReqHead head).toBytes ++ body)

theorem rspLen_eq {n : ℕ} (h : n + sizeofReqHead < 2 ^ 31) :
    rspLen (sizeofIPCMsgHead + n : ℕ) = (sizeofReqHead + n : ℕ) := by
  rw [rspLen, BitVec.toInt_ofInt, Int.bmod_def]
  push_cast
  rw [sizeofReqHead] at *
  omega

/-- The over-long copy does not show in the response: what is written is the frame of the reply. -/
theorem rspFrame_eq (head : IPCMsgHead) (body : List UInt8)
    (h : sizeofReqHead + body.length < 10 ^ socketMsgHeadLen) :
    rspFrame (head.toBytes ++ body) (sizeofReqHead + body.length) = responseFrame head body := by
  have hpfx : (Decimal.sprintf0d socketMsgHeadLen (sizeofReqHead + body.length : ℕ)).length =
      socketMsgHeadLen := Decimal.sprintf0d_length (by decide) h
  have hbody : bufRead (head.toBytes ++ body) sizeofIPCMsgHead (sizeofReqHead + body.length) =
      bufRead body 0 (sizeofReqHead + body.length) := by
    rw [bufRead_append_right _ _ (by rw [head.toBytes_length]), head.toBytes_length, Nat.sub_self]
  have hlen : sizeofReqHead + body.length + socketMsgHeadLen =
      (responseFrame head body).length := by
    rw [responseFrame, List.length_append, List.length_append, hpfx, SundaReqHead.toBytes_length]
    omega
  have hzeros : bufRead body 0 (sizeofReqHead + body.length) =
      body ++ List.replicate sizeofReqHead 0 := by
    rw [Nat.add_comm, ← List.append_nil body]
    have hadd := bufRead_append_add body [] sizeofReqHead
    rw [List.append_nil] at hadd ⊢
    rw [hadd]
    rfl
  rw [rspFrame, IPCMsgHead.ofBytes_toBytes_append, hbody, hzeros,
    List.take_of_length_le (by omega), ← List.append_assoc, ← List.append_assoc, hlen]
  show bufRead (_ ++ _) 0 _ = responseFrame head body
  rw [responseFrame, bufRead_append_left, ← List.append_assoc]
  · exact bufRead_zero_length _
  · rw [← List.append_assoc]
    omega

end Sunda
