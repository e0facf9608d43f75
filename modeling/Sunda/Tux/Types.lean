import Sunda.Base.Bytes

/-!
# Records of the message bus

The constants and records of `sunda.h`, `funmsq.h` and `tux.h` that travel through the System V
queues and the shared tables, with the byte layout of the two heads.

`IPCMsgHead` stands in front of every queued request and reply, `SundaReqHead` (the source's
`sunda_req_head_t`) behind the length prefix of every client frame. Both are laid out as the
compiler does on a 64-bit little-endian machine; the padding is zero, as every head is cleared
with `memset` before it is filled. `IPCMsgHead.ofBytes_toBytes_append` and
`SundaReqHead.ofBytes_toBytes_append` are the round trips: a head read back from the front of a
buffer is the head that was copied there, whatever follows it.
-/

namespace Sunda

open Bytes

/-! ### Constants -/

def tuxNameLen : ℕ := 32
def busMaxMsgLen : ℕ := 4060
def msqMaxNum : ℕ := 1024
def maxTimeoutSec : ℕ := 20

def commSMsgTypeRoot : ℕ := 100000
def commLMsgTypeRoot : ℕ := 200000
def svrMsgTypeRoot : ℕ := 300000
def mngMsgTypeRoot : ℕ := 400000
def cmdRootMsgType : ℕ := 500000

def replyFlagSyn : ℕ := 1
def replyFlagAsyn : ℕ := 2

/-- The error numbers of `errcode.h` that the modelled functions store in `tux_errno`. -/
def sysInval : ℤ := -2001
def sysOs : ℤ := -2002
def sysNoent : ℤ := -2003
def sysTimeout : ℤ := -2004
def sysSystem : ℤ := -2009
def sysErrSvc : ℤ := -2010
def sysDeadSvc : ℤ := -2011

/-- `sizeof(IPCMsgHead)`. -/
def sizeofIPCMsgHead : ℕ := 96

/-- `sizeof(sunda_req_head_t)`. -/
def sizeofReqHead : ℕ := 40

/-- The sizes of the structures in the shared memory, with an `int` of 4 bytes and a `long`, `time_t`
and pointer of 8. -/
def sizeofMbCtrl : ℕ := 40
def sizeofServerTab : ℕ := 232
def sizeofServerPid : ℕ := 48
def sizeofServiceTab : ℕ := 56

/-! ### The head of a queued message -/

/-- `IPCMsgHead`. -/
@[ext]
structure IPCMsgHead where
  name : List.Vector UInt8 33
  ssn : BitVec 32
  connSsn : BitVec 32
  reqMsgType : BitVec 64
  fd : BitVec 32
  utime : BitVec 64
  replyFlag : BitVec 32
  noteMsgType : BitVec 64
  len : BitVec 64
  deriving DecidableEq

namespace IPCMsgHead

/-- The bytes of the structure in memory. -/
def toBytes (h : IPCMsgHead) : List UInt8 :=
  h.name.toList ++ (List.replicate 3 0 ++ (leBytes 4 h.ssn.toNat ++ (leBytes 4 h.connSsn.toNat ++
    (List.replicate 4 0 ++ (leBytes 8 h.reqMsgType.toNat ++ (leBytes 4 h.fd.toNat ++
      (List.replicate 4 0 ++ (leBytes 8 h.utime.toNat ++ (leBytes 4 h.replyFlag.toNat ++
        (List.replicate 4 0 ++ (leBytes 8 h.noteMsgType.toNat ++
          leBytes 8 h.len.toNat)))))))))))

/-- The structure at the front of a zero-filled buffer. -/
def ofBytes (bs : List UInt8) : IPCMsgHead where
  name := charField 33 bs 0
  ssn := leField 4 bs 36
  connSsn := leField 4 bs 40
  reqMsgType := leField 8 bs 48
  fd := leField 4 bs 56
  utime := leField 8 bs 64
  replyFlag := leField 4 bs 72
  noteMsgType := leField 8 bs 80
  len := leField 8 bs 88

/-- A cleared head, as `memset` leaves it. -/
def zero : IPCMsgHead := ofBytes []

@[simp]
theorem toBytes_length (h : IPCMsgHead) : h.toBytes.length = sizeofIPCMsgHead := by
  simp [toBytes, sizeofIPCMsgHead]

/-- **Round trip** of the head, whatever follows it. -/
theorem ofBytes_toBytes_append (h : IPCMsgHead) (rest : List UInt8) :
    ofBytes (h.toBytes ++ rest) = h := by
  ext1
  · refine charField_eq_of_bufRead ?_
    rw [toBytes, List.append_assoc, bufRead_append_zero _ _ (by simp)]
  all_goals
    refine leField_eq_of_bufRead ?_
    simp only [toBytes, List.append_assoc]
    simp (disch := simp) only [bufRead_append_right, List.Vector.toList_length,
      List.length_replicate, leBytes_length, Nat.reduceSub, Nat.sub_self]
    exact bufRead_append_zero _ _ (by simp)

end IPCMsgHead

/-! ### The head of a client frame -/

/-- `sunda_req_head_t`. -/
@[ext]
structure SundaReqHead where
  name : List.Vector UInt8 32
  ssn : BitVec 32
  errNo : BitVec 32
  deriving DecidableEq

namespace SundaReqHead

/-- The bytes of the structure in memory; it has no padding. -/
def toBytes (h : SundaReqHead) : List UInt8 :=
  h.name.toList ++ (leBytes 4 h.ssn.toNat ++ leBytes 4 h.errNo.toNat)

/-- The structure at the front of a zero-filled buffer. -/
def ofBytes (bs : List UInt8) : SundaReqHead where
  name := charField 32 bs 0
  ssn := leField 4 bs 32
  errNo := leField 4 bs 36

@[simp]
theorem toBytes_length (h : SundaReqHead) : h.toBytes.length = sizeofReqHead := by
  simp [toBytes, sizeofReqHead]

/-- **Round trip** of the head, whatever follows it. -/
theorem ofBytes_toBytes_append (h : SundaReqHead) (rest : List UInt8) :
    ofBytes (h.toBytes ++ rest) = h := by
  ext1
  · refine charField_eq_of_bufRead ?_
    rw [toBytes, List.append_assoc, bufRead_append_zero _ _ (by simp)]
  all_goals
    refine leField_eq_of_bufRead ?_
    simp only [toBytes, List.append_assoc]
    simp (disch := simp) only [bufRead_append_right, List.Vector.toList_length, leBytes_length,
      Nat.reduceSub, Nat.sub_self]
    exact bufRead_append_zero _ _ (by simp)

end SundaReqHead

/-! ### Queued messages -/

/-- `IPCQueMsg`. `sBuf` is what was copied to the front of the cleared array. -/
structure IPCQueMsg where
  nMsgType : BitVec 64
  nMsgSource : BitVec 64
  sBuf : List UInt8
  deriving DecidableEq

/-- `IPCChkMsq`. -/
structure IPCChkMsq where
  nChkFlag : ℤ
  nMsqMaxNum : ℤ
  nWaitFlag : ℤ

/-- How every sender of the bus fills it: `MSQ_CHK_YES` in a cleared structure. -/
def IPCChkMsq.yes : IPCChkMsq := ⟨1, 0, 0⟩

end Sunda
