import Sunda.Comm.Requests

/-!
# The arrays behind a client frame

`RcvTxnMsg` (`pubfun/common/funsock.c`) reads a frame to arrays of its own and copies it to the `sSrcBuf` of
its caller, whose size it does not know; `read_task`, `ChdDoSvr` and `call_svr` copy from there to `req_head`
and `sReqBuf`. Which bytes are touched depends on the four characters of the length prefix alone, once the
frame has arrived.

`frame_copies_inside_iff` says for every stream when all of this stays inside the arrays. The arrays of
`RcvTxnMsg` are large enough for four characters; `sSrcBuf` is not. `read_task` and `ChdDoSvr` copy as many
bytes as the whole frame has, from behind its heads, and `call_svr` subtracts the heads from a length that
may be smaller.
-/

namespace Sunda

open Arrivals

/-! ### Arrays -/

/-- The local arrays; those of the three callers have the same sizes. -/
inductive FrameArray
  | sMsgLen
  | sMsgInBuf
  | sSrcBuf
  | reqHead
  | sReqBuf
  deriving DecidableEq

def FrameArray.size : FrameArray → ℕ
  | .sMsgLen => 129
  | .sMsgInBuf => 10241
  | .sSrcBuf => sizeofReadSrcBuf
  | .reqHead => sizeofReqHead
  | .sReqBuf => 10241

/-- The bytes of an array that a call of `read` or one side of a `memcpy` is given. -/
structure Span where
  arr : FrameArray
  off : ℤ
  len : ℤ
  deriving DecidableEq

/-- They are inside; a negative length is an enormous `size_t`. -/
def Span.Inside (a : Span) : Prop :=
  0 ≤ a.off ∧ 0 ≤ a.len ∧ a.off + a.len ≤ a.arr.size

instance (a : Span) : Decidable a.Inside := inferInstanceAs (Decidable (_ ∧ _ ∧ _))

/-! ### The copies -/

/-- The copies of `RcvTxnMsg`. -/
def rcvTxnMsgSpans (s : Sock UInt8) (iHeadLen : ℤ) : List Span :=
  ⟨.sMsgLen, 0, iHeadLen⟩ ::
    match readSocket s iHeadLen with
    | (none, _) => []
    | (some sMsgLen, s1) =>
      let iMsgInLen := Decimal.atoi sMsgLen
      if iMsgInLen ≤ 0 then []
      else
        ⟨.sMsgInBuf, 0, iMsgInLen⟩ ::
          match readSocket s1 iMsgInLen with
          | (none, _) => []
          | (some _, _) =>
            [⟨.sMsgLen, 0, iHeadLen⟩, ⟨.sSrcBuf, 0, iHeadLen⟩, ⟨.sMsgInBuf, 0, iMsgInLen⟩,
              ⟨.sSrcBuf, iHeadLen, iMsgInLen⟩]

namespace Translator

/-- The length of the copy from behind the heads. -/
def copyLen (t : Translator) (iBufLen : ℤ) : ℤ :=
  match t with
  | .readTask _ _ | .chdDoSvr _ _ => iBufLen
  | .callSvr _ _ => iBufLen - socketMsgHeadLen - sizeofReqHead

/-- The copies of a caller once it has a frame of `iBufLen` bytes. -/
def requestSpans (t : Translator) (iBufLen : ℤ) : List Span :=
  [⟨.sSrcBuf, socketMsgHeadLen, sizeofReqHead⟩, ⟨.reqHead, 0, sizeofReqHead⟩,
    ⟨.sReqBuf, 0, sizeofIPCMsgHead⟩, ⟨.sSrcBuf, socketMsgHeadLen + sizeofReqHead, t.copyLen iBufLen⟩,
    ⟨.sReqBuf, sizeofIPCMsgHead, t.copyLen iBufLen⟩]

/-- All copies for the next frame on the socket. -/
def frameSpans (t : Translator) (s : Sock UInt8) : List Span :=
  rcvTxnMsgSpans s socketMsgHeadLen ++
    match rcvTxnMsg s socketMsgHeadLen with
    | ⟨0, some (_, iBufLen), _⟩ => t.requestSpans iBufLen
    | ⟨_, _, _⟩ => []

/-- The announced lengths that the caller can take. -/
def Takes (t : Translator) (n : ℕ) : Prop :=
  match t with
  | .readTask _ _ | .chdDoSvr _ _ =>
    socketMsgHeadLen + sizeofReqHead + (socketMsgHeadLen + n) ≤ sizeofReadSrcBuf
  | .callSvr _ _ => sizeofReqHead ≤ n ∧ socketMsgHeadLen + n ≤ sizeofChildSrcBuf

/-- The copies of a caller stay inside exactly when the one from behind the heads does. -/
theorem requestSpans_forall (t : Translator) (iBufLen : ℤ) :
    (∀ a ∈ t.requestSpans iBufLen, a.Inside) ↔
      0 ≤ t.copyLen iBufLen ∧ socketMsgHeadLen + sizeofReqHead + t.copyLen iBufLen ≤ sizeofReadSrcBuf := by
  simp only [requestSpans, List.forall_mem_cons, List.not_mem_nil, false_implies, implies_true, Span.Inside,
    FrameArray.size, sizeofReadSrcBuf, socketMsgHeadLen, sizeofReqHead, sizeofIPCMsgHead, and_true]
  push_cast
  simp only [true_and]
  omega

/-- So it does exactly when something is passed on. -/
theorem requestSpans_inside_iff (t : Translator) (sSrcBuf : List UInt8) (iBufLen : ℕ) :
    (∀ a ∈ t.requestSpans iBufLen, a.Inside) ↔ (t.passes sSrcBuf iBufLen).isSome := by
  have hover {p : Prop} [Decidable p] {x : Passed} : (if p then none else some x).isSome ↔ ¬ p := by
    split <;> simp [*]
  rw [requestSpans_forall]
  cases t with
  | readTask socketid tClient =>
    rw [passes, hover, copyLen]
    omega
  | callSvr pid utime =>
    rw [passes, hover, copyLen, sizeofChildSrcBuf, sizeofReadSrcBuf]
    omega
  | chdDoSvr giConnScktId utime =>
    rw [passes, hover, copyLen]
    omega

/-- For a frame that `RcvTxnMsg` has received, these and its own copy to `sSrcBuf`. -/
theorem takes_iff (t : Translator) (n : ℕ) :
    t.Takes n ↔ (∀ a ∈ t.requestSpans (socketMsgHeadLen + n), a.Inside) ∧
      socketMsgHeadLen + n ≤ sizeofReadSrcBuf := by
  rw [requestSpans_forall]
  cases t with
  | readTask socketid tClient =>
    rw [Takes, copyLen]
    omega
  | callSvr pid utime =>
    rw [Takes, copyLen, sizeofChildSrcBuf, sizeofReadSrcBuf]
    omega
  | chdDoSvr giConnScktId utime =>
    rw [Takes, copyLen]
    omega

end Translator

/-! ### One frame -/

/-- The socket holds a frame that announces `n` bytes, and `RcvTxnMsg` gets all of it. -/
def Announces (s : Sock UInt8) (n : ℕ) : Prop :=
  0 < n ∧ Decimal.atoi (s.stream.take socketMsgHeadLen) = n ∧ FrameInTime s socketMsgHeadLen n

/-- Four characters announce less than 10000 bytes. -/
theorem atoi_prefix_lt {s s' : Sock UInt8} {pfx : List UInt8} {m : ℕ}
    (h : ReadDone s socketMsgHeadLen pfx s' m) : Decimal.atoi pfx < 10000 := by
  have hlt := Decimal.atoi_lt (s := pfx) (by rw [h.length]; decide)
  rwa [h.length] at hlt

/-- The prefix is read to an array that is large enough. -/
theorem inside_sMsgLen : Span.Inside ⟨.sMsgLen, 0, socketMsgHeadLen⟩ := by
  decide

theorem inside_sMsgInBuf {n : ℕ} (h : (n : ℤ) < 10000) : Span.Inside ⟨.sMsgInBuf, 0, n⟩ := by
  refine ⟨le_rfl, Int.natCast_nonneg n, ?_⟩
  rw [FrameArray.size]
  push_cast
  omega

/-- **`RcvTxnMsg` with a frame**: its own arrays hold it, and it is copied to `sSrcBuf`. -/
theorem rcvTxnMsgSpans_of_announces {s : Sock UInt8} {n : ℕ} (h : Announces s n) :
    (∃ sSrcBuf s', rcvTxnMsg s socketMsgHeadLen = ⟨0, some (sSrcBuf, socketMsgHeadLen + n), s'⟩) ∧
      ((∀ a ∈ rcvTxnMsgSpans s socketMsgHeadLen, a.Inside) ↔
        socketMsgHeadLen + n ≤ sizeofReadSrcBuf) := by
  obtain ⟨hn, hat, hframe⟩ := h
  rcases readSocket_spec s (n := socketMsgHeadLen) (by decide) with
    ⟨-, pfx, s1, m, hread, hdone⟩ | ⟨hin, -⟩
  · have hpfx : Decimal.atoi pfx = n := by rw [hdone.taken, hat]
    have hlt := atoi_prefix_lt hdone
    rw [hpfx] at hlt
    rcases readSocket_spec s1 hn with ⟨-, body, s2, m2, hread2, -⟩ | ⟨-, s2, k, hread2, -⟩
    · refine ⟨⟨pfx ++ body, s2, by simp [rcvTxnMsg, hread, hpfx, hn.ne', hread2]⟩, ?_⟩
      have hspans : rcvTxnMsgSpans s socketMsgHeadLen = [⟨.sMsgLen, 0, socketMsgHeadLen⟩,
          ⟨.sMsgInBuf, 0, n⟩, ⟨.sMsgLen, 0, socketMsgHeadLen⟩, ⟨.sSrcBuf, 0, socketMsgHeadLen⟩,
          ⟨.sMsgInBuf, 0, n⟩, ⟨.sSrcBuf, socketMsgHeadLen, n⟩] := by
        simp [rcvTxnMsgSpans, hread, hpfx, hn.ne', hread2]
      rw [hspans]
      simp only [List.forall_mem_cons, List.not_mem_nil, false_implies, implies_true, and_true,
        inside_sMsgLen, inside_sMsgInBuf hlt, true_and]
      simp only [Span.Inside, FrameArray.size, sizeofReadSrcBuf, socketMsgHeadLen]
      push_cast
      simp only [true_and]
      omega
    · -- the body would not be there in time
      rcases rcvTxnMsg_ret_cases s (by decide) hn hat with ⟨-, hzero⟩ | ⟨hno, -⟩
      · simp [rcvTxnMsg, hread, hpfx, hn.ne', hread2] at hzero
      · exact absurd hframe hno
  · exact absurd hframe.inTime hin

/-- **Without one** it fails, and stays inside its own arrays. -/
theorem rcvTxnMsgSpans_of_not {s : Sock UInt8} (h : ∀ n, ¬ Announces s n) :
    (rcvTxnMsg s socketMsgHeadLen).ret ≠ 0 ∧
      ∀ a ∈ rcvTxnMsgSpans s socketMsgHeadLen, a.Inside := by
  rcases readSocket_spec s (n := socketMsgHeadLen) (by decide) with
    ⟨-, pfx, s1, m, hread, hdone⟩ | ⟨-, s1, k, hread, -⟩
  · by_cases hat : Decimal.atoi pfx ≤ 0
    · refine ⟨by simp [rcvTxnMsg, hread, hat], ?_⟩
      simp only [rcvTxnMsgSpans, hread, if_pos hat, List.forall_mem_singleton]
      exact inside_sMsgLen
    · obtain ⟨n, hn⟩ : ∃ n : ℕ, Decimal.atoi pfx = n := ⟨(Decimal.atoi pfx).toNat, by omega⟩
      have hn0 : 0 < n := by omega
      have hlt := atoi_prefix_lt hdone
      rw [hn] at hlt
      have hstream : Decimal.atoi (s.stream.take socketMsgHeadLen) = n := by rw [← hdone.taken, hn]
      rcases readSocket_spec s1 hn0 with ⟨-, body, s2, m2, hread2, -⟩ | ⟨-, s2, k, hread2, -⟩
      · rcases rcvTxnMsg_ret_cases s (by decide) hn0 hstream with ⟨hframe, -⟩ | ⟨-, hret, -⟩
        · exact absurd ⟨hn0, hstream, hframe⟩ (h n)
        · simp [rcvTxnMsg, hread, hn, hn0.ne', hread2] at hret
      · refine ⟨by simp [rcvTxnMsg, hread, hn, hn0.ne', hread2], ?_⟩
        have hspans : rcvTxnMsgSpans s socketMsgHeadLen =
            [⟨.sMsgLen, 0, socketMsgHeadLen⟩, ⟨.sMsgInBuf, 0, n⟩] := by
          simp [rcvTxnMsgSpans, hread, hn, hn0.ne', hread2]
        rw [hspans, List.forall_mem_cons, List.forall_mem_singleton]
        exact ⟨inside_sMsgLen, inside_sMsgInBuf hlt⟩
  · refine ⟨by simp [rcvTxnMsg, hread], ?_⟩
    simp only [rcvTxnMsgSpans, hread, List.forall_mem_singleton]
    exact inside_sMsgLen

/-- For a frame that is there, the length decides. -/
theorem frameSpans_iff_takes (t : Translator) {s : Sock UInt8} {n : ℕ} (h : Announces s n) :
    (∀ a ∈ t.frameSpans s, a.Inside) ↔ t.Takes n := by
  obtain ⟨⟨sSrcBuf, s', hrcv⟩, hspans⟩ := rcvTxnMsgSpans_of_announces h
  have hall : t.frameSpans s = rcvTxnMsgSpans s socketMsgHeadLen ++
      t.requestSpans (socketMsgHeadLen + n) := by
    rw [Translator.frameSpans, hrcv]
    rfl
  rw [hall, List.forall_mem_append, hspans, and_comm, ← t.takes_iff]

/-- **The copies for a client frame stay inside the arrays** exactly when the frame, if it arrives, announces
a length that the caller can take. -/
theorem frame_copies_inside_iff (t : Translator) (s : Sock UInt8) :
    (∀ a ∈ t.frameSpans s, a.Inside) ↔ ∀ n, Announces s n → t.Takes n := by
  by_cases h : ∃ n, Announces s n
  · obtain ⟨n, hann⟩ := h
    have huniq (n' : ℕ) (h : Announces s n') : n' = n := by
      have heq := h.2.1.symm.trans hann.2.1
      exact_mod_cast heq
    rw [frameSpans_iff_takes t hann]
    exact ⟨fun h n' hn' ↦ huniq n' hn' ▸ h, fun h ↦ h n hann⟩
  · have hno : ∀ n, ¬ Announces s n := fun n hn ↦ h ⟨n, hn⟩
    obtain ⟨hret, hown⟩ := rcvTxnMsgSpans_of_not hno
    refine iff_of_true (fun a ha ↦ ?_) fun n hn ↦ absurd hn (hno n)
    rw [Translator.frameSpans, List.mem_append] at ha
    rcases ha with ha | ha
    · exact hown a ha
    · generalize rcvTxnMsg s socketMsgHeadLen = r at hret ha
      obtain ⟨ret, stored, sock⟩ := r
      split at ha
      · next heq => exact absurd (congrArg RcvTxn.ret heq) hret
      · cases ha

/-- A frame of 8050 bytes, all of it there. -/
def longFrame : Sock UInt8 := ⟨[56, 48, 53, 48] ++ List.replicate 8050 65, []⟩

/-- A frame of one byte. -/
def shortFrame : Sock UInt8 := ⟨[48, 48, 48, 49, 65], []⟩

theorem announces_longFrame : Announces longFrame 8050 := by
  have htake : longFrame.stream.take socketMsgHeadLen = [56, 48, 53, 48] := rfl
  refine ⟨by decide, ?_, .of_buffered ?_⟩
  · rw [htake]
    decide
  · rw [longFrame, List.length_append, List.length_replicate]
    decide

theorem announces_shortFrame : Announces shortFrame 1 :=
  ⟨by decide, by decide, .of_buffered (by decide)⟩

/-- `read_task` and `ChdDoSvr` copy the first one from behind its heads beyond `sSrcBuf`, and `call_svr`
copies the second one with a negative length. -/
theorem frame_copies_leave_arrays :
    (¬ ∀ a ∈ (Translator.readTask 5 ⟨5, 0, 0, fdStatRead⟩).frameSpans longFrame, a.Inside) ∧
    (¬ ∀ a ∈ (Translator.chdDoSvr 5 0).frameSpans longFrame, a.Inside) ∧
    ¬ ∀ a ∈ (Translator.callSvr 1000 0).frameSpans shortFrame, a.Inside := by
  rw [frameSpans_iff_takes _ announces_longFrame, frameSpans_iff_takes _ announces_longFrame,
    frameSpans_iff_takes _ announces_shortFrame]
  refine ⟨?_, ?_, ?_⟩
  · show ¬ (socketMsgHeadLen + sizeofReqHead + (socketMsgHeadLen + 8050) ≤ sizeofReadSrcBuf)
    decide
  · show ¬ (socketMsgHeadLen + sizeofReqHead + (socketMsgHeadLen + 8050) ≤ sizeofReadSrcBuf)
    decide
  · exact fun h ↦ absurd h.1 (by decide)

end Sunda
