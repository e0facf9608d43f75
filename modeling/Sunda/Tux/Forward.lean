import Sunda.Tux.MsgBounds

/-!
# Forwarded requests

`tux_forward` (`pubfun/tux/tuxmgr.c`) hands the request that a handler is working on to another service. It
queues the handler's data alone; `tux_service` of the other server takes the first bytes of every message for
an `IPCMsgHead`, so the name, the length and the addresses of the reply are all read from the data.

`ForwardPreserved` says what should come of it, and `forward_never_preserved` that it does not, for any data:
a handler would have to get the data from behind its own head, so every byte of it would be the one a head
further on, and behind the end there are zeros; but a head of zeros announces nothing.
-/

namespace Sunda

open Bytes SysV

section Forward

variable (mb : MbCtrl) (k : SndKernel) (realLen errno : ℤ) (q pre post : List Msg)
  (target data : List UInt8) (len : ℤ)

/-- The handler of the request with the head `orig` forwards `data` to `target`, and the server `svrid`
receives it between other messages: it calls the handler of `target` with the data and their length, under a
head from which the reply goes where that of the original request goes. -/
def ForwardPreserved (orig : IPCMsgHead) (svrid : ℤ) : Prop :=
  ∃ (m : Msg) (svc : ServiceTab) (name : List.Vector UInt8 33) (head : IPCMsgHead),
    tuxForward true mb k realLen q (some target) (some data) len = some (.done (q ++ [m])) ∧
    FirstNamed ServiceTab.name mb.tSvcTab target svc ∧
    tuxService mb none errno (pre ++ m :: post) svrid =
      .called svc.sdFun ⟨name, bufRead data 0 len.toNat, len⟩ head (pre ++ post) ∧
    head.reqMsgType = orig.reqMsgType ∧ head.fd = orig.fd ∧ head.ssn = orig.ssn ∧
    head.connSsn = orig.connSsn

end Forward

/-- A message that is forwarded is the data alone. A length 0 stands for the length of the buffer. -/
theorem sent_of_tuxForward {mb : MbCtrl} {k : SndKernel} {realLen len : ℤ} {q q' : List Msg}
    {target data : List UInt8} {mbLongjmp : Bool}
    (h : tuxForward mbLongjmp mb k realLen q (some target) (some data) len = some (.done q')) :
    ∃ (e : ServerTab) (L : ℕ), locatedEntry mb.tSvrTab target = some e ∧ 0 < e.msgType.toInt ∧
      (L : ℤ) = lenOf realLen len ∧
      q' = q ++ [(⟨e.msgType, 0, bufRead data 0 L⟩ : IPCQueMsg).queued L] := by
  simp only [tuxForward, locatedEntry_eq] at h
  rw [lenOf]
  generalize (if len = 0 then realLen else len) = n at h ⊢
  split at h
  · cases h
  split at h
  · cases h
  next hn =>
  have hcast : (n.toNat : ℤ) = n := Int.toNat_of_nonneg (by omega)
  split at h
  · cases h
  · next e he =>
    split at h
    · cases h
    · split at h
      · next q₁ hsnd =>
        rw [← hcast, Int.toNat_natCast] at hsnd
        obtain ⟨rfl, htype, -⟩ := of_msqSnd_zero hsnd
        exact ⟨e, n.toNat, he, htype, hcast, (Forwarded.done.inj (Option.some.inj h)).symm⟩
      · cases h

/-- Data whose length is given. -/
theorem of_tuxForward_done {mb : MbCtrl} {k : SndKernel} {realLen : ℤ} {q q' : List Msg}
    {target data : List UInt8} {L : ℕ} (hL : 0 < L)
    (h : tuxForward true mb k realLen q (some target) (some data) L = some (.done q')) :
    ∃ e, locatedEntry mb.tSvrTab target = some e ∧ 0 < e.msgType.toInt ∧
      q' = q ++ [(⟨e.msgType, 0, bufRead data 0 L⟩ : IPCQueMsg).queued L] := by
  obtain ⟨e, n, he, htype, hn, rfl⟩ := sent_of_tuxForward h
  rw [lenOf, if_neg (by omega)] at hn
  obtain rfl : n = L := by exact_mod_cast hn
  exact ⟨e, he, htype, rfl⟩

/-- What a handler is called with stands behind the first bytes of the message. -/
theorem of_tuxDispatch_called {mb : MbCtrl} {msg : IPCQueMsg} {rest rest' : List Msg} {sdFun : ℕ}
    {info : SdInfo} {head : IPCMsgHead} (h : tuxDispatch mb msg rest = .called sdFun info head rest') :
    head = IPCMsgHead.ofBytes msg.sBuf ∧ info.len = head.len.toInt ∧
      info.data = bufRead msg.sBuf sizeofIPCMsgHead head.len.toInt.toNat := by
  simp only [tuxDispatch] at h
  generalize IPCMsgHead.ofBytes msg.sBuf = hd at h ⊢
  split at h
  · cases h
  · split at h
    · obtain ⟨-, rfl, rfl, -⟩ := Service.called.inj h
      exact ⟨rfl, rfl, rfl⟩
    · cases h

/-- A buffer of zeros is a head without a length. -/
theorem len_ofBytes_zero {bs : List UInt8} (h : ∀ i, bs.getD i 0 = 0) :
    (IPCMsgHead.ofBytes bs).len.toInt = 0 := by
  have hread : bufRead bs 88 8 = bufRead [] 0 8 := bufRead_congr fun i _ ↦ h (88 + i)
  have hlen : (IPCMsgHead.ofBytes bs).len = 0 := leField_eq_of_bufRead (hread.trans (by decide))
  rw [hlen]
  rfl

/-- **Forwarding never preserves a request.** -/
theorem forward_never_preserved {mb : MbCtrl} {target : List UInt8} {e : ServerTab}
    (he : locatedEntry mb.tSvrTab target = some e) {svrid : ℤ}
    (hsvr : e.msgType.toInt = svrid + svrMsgTypeRoot) {len : ℤ} (hlen : 0 < len) {pre : List Msg}
    (hpre : ∀ x ∈ pre, x.mtype ≠ e.msgType.toInt) (post : List Msg) (k : SndKernel)
    (realLen errno : ℤ) (q : List Msg) (data : List UInt8) (orig : IPCMsgHead) :
    ¬ ForwardPreserved mb k realLen errno q pre post target data len orig svrid := by
  rintro ⟨m, svc, name, head, hfwd, -, hcalled, -⟩
  obtain ⟨L, rfl⟩ := Int.eq_ofNat_of_zero_le hlen.le
  rw [Int.toNat_natCast] at hcalled
  obtain ⟨e', he', htype, hq⟩ := of_tuxForward_done (by omega) hfwd
  obtain rfl : e = e' := Option.some.inj (he.symm.trans he')
  obtain rfl := List.singleton_inj.mp (List.append_cancel_left hq)
  -- the message is received, or it is too long
  have hrcv := msqRcv_of_first (m := ⟨e.msgType, 0, bufRead data 0 L⟩) L htype hpre post busMaxMsgLen
    false
  have hsize : (bufRead data 0 L).length = L := bufRead_length ..
  generalize bufRead data 0 L = d at hcalled hrcv hsize
  have hd : bufRead d 0 L = d := hsize ▸ bufRead_zero_length d
  rw [tuxService, ← hsvr, hrcv] at hcalled
  split at hcalled
  · next heq => split at heq <;> cases heq
  · split at hcalled <;> cases hcalled
  · next iMsgLen ipcMsgIn rest heq =>
    split at heq
    · obtain ⟨rfl, rfl, rfl⟩ := MsqRcvd.got.inj heq
      rw [if_neg (by omega)] at hcalled
      obtain ⟨rfl, hhead, hdata⟩ := of_tuxDispatch_called hcalled
      dsimp only at hhead hdata
      rw [hd] at hhead hdata
      -- so every byte of the data is the one a head further on
      rw [← hhead, Int.toNat_natCast, ← hsize] at hdata
      have hzero := getD_of_bufRead_self (by decide) hdata.symm
      rw [len_ofBytes_zero hzero] at hhead
      omega
    · cases heq

/-- Two bytes, forwarded to the service `s`. -/
theorem forward_two_bytes_never_preserved :
    ¬ ForwardPreserved defaultLimitMb ⟨none, none, 8192⟩ 0 0 [] [] [] [115] [65, 66] 2 .zero 1 := by
  have hfound : (locatedEntry defaultLimitMb.tSvrTab [115]).map (·.msgType) = some 300001 := by
    decide +kernel
  obtain ⟨e, he, htype⟩ := Option.map_eq_some_iff.mp hfound
  refine forward_never_preserved he ?_ (by decide) (fun x hx ↦ absurd hx List.not_mem_nil) [] _ _ _ _ _ _
  rw [htype]
  decide

/-- They are sent, and the server that receives them looks for a service of this name. -/
theorem forward_two_bytes_not_called :
    ¬ ∀ (mb : MbCtrl) (k : SndKernel) (realLen errno : ℤ) (q pre post : List Msg)
      (target data : List UInt8) (len : ℤ) (orig : IPCMsgHead) (svrid : ℤ) (e : ServerTab),
      locatedEntry mb.tSvrTab target = some e → e.msgType.toInt = svrid + svrMsgTypeRoot → 0 < len →
      (∀ x ∈ pre, x.mtype ≠ e.msgType.toInt) →
      (∃ q', tuxForward true mb k realLen q (some target) (some data) len = some (.done q')) →
        ForwardPreserved mb k realLen errno q pre post target data len orig svrid := by
  intro hall
  have hfound : (locatedEntry defaultLimitMb.tSvrTab [115]).map (·.msgType) = some 300001 := by
    decide +kernel
  obtain ⟨e, he, htype⟩ := Option.map_eq_some_iff.mp hfound
  have hsent : tuxForward true defaultLimitMb ⟨none, none, 8192⟩ 0 [] (some [115]) (some [65, 66]) 2 =
      some (.done [⟨300001, List.replicate 8 0 ++ [65, 66]⟩]) := by
    decide +kernel
  have hret : tuxService defaultLimitMb none 0 [⟨300001, List.replicate 8 0 ++ [65, 66]⟩] 1 =
      .ret 0 [] := by
    decide +kernel
  obtain ⟨m, svc, name, head, hfwd, -, hcalled, -⟩ := hall defaultLimitMb ⟨none, none, 8192⟩ 0 0 [] []
    [] [115] [65, 66] 2 .zero 1 e he (by rw [htype]; decide) (by decide)
    (fun x hx ↦ absurd hx List.not_mem_nil) ⟨_, hsent⟩
  obtain rfl := List.singleton_inj.mp
    (Forwarded.done.inj (Option.some.inj (hsent.symm.trans hfwd)))
  cases hret.symm.trans hcalled

end Sunda
