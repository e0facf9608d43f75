import Sunda.Base.Noted
import Sunda.Tux.Tuxcall

/-!
# The bus functions in noted queues

What each receiving function of the bus does to a queue whose messages carry notes: it leaves the queue
alone, or it removes one message, whose note `received` returns. There is one lemma for each of
`tux_call`, `tux_service`, `tux_getreply` and `clean_task_msg`.
-/

namespace Sunda

open Bytes SysV

variable {τ : Type*}

/-- A message that a receiver of the bus can take from the queue. -/
def Fits (m : Msg) : Prop := m.mtext.length ≤ busMaxMsgLen

instance (m : Msg) : Decidable (Fits m) := inferInstanceAs (Decidable (_ ≤ _))

/-- The receive of `tux_call` in a noted queue: it leaves the queue alone, and then does not return 0, or
it takes the oldest reply of the type, and if it returns 0, the payload of that reply is stored. -/
theorem tuxCallRcv_cases {τ : Type*} {fault : Option Errno} {expired : Bool} {tuxErrno : ℤ}
    {q : List (Noted Msg τ)} {t : BitVec 64} {r : CallRcvd} (ht : 0 < t.toInt)
    (h : tuxCallRcv fault expired tuxErrno (plain q) t = r) :
    (r = .waiting ∨ r = .fail tuxErrno (plain q) ∧
      (fault ≠ none ∨ ∃ x ∈ q, x.msg.mtype = t.toInt ∧ ¬ Fits x.msg)) ∨
    ∃ pre x post, q = pre ++ x :: post ∧ x.msg.mtype = t.toInt ∧ Fits x.msg ∧
      received t.toInt q (r.rest (plain q)) = (some x.note, pre ++ post) ∧
      ((∃ e, r = .fail e (plain (pre ++ post))) ∨
        ∃ n, r = .got (Msg.payload x.msg) n (plain (pre ++ post))) := by
  rw [tuxCallRcv, msqRcv] at h
  cases hrcv : msgrcv fault (plain q) busMaxMsgLen t.toInt false with
  | waiting =>
    rw [hrcv] at h
    exact .inl (.inl h.symm)
  | fail e =>
    rw [hrcv] at h
    refine .inl (.inr ⟨h.symm, ?_⟩)
    rcases of_msgrcv_fail ht hrcv with hfault | hwait | ⟨m, hm, htype, hlong⟩
    · exact .inl hfault
    · cases hwait
    · obtain ⟨x, hx, rfl⟩ := List.mem_map.1 hm
      exact .inr ⟨x, hx, htype, Nat.not_le.2 hlong⟩
  | got m rest =>
    obtain ⟨pre, x, post, hq, rfl, rfl, hrec, hle, hfirst⟩ := received_of_got hrcv
    rw [hrcv] at h
    dsimp only at h
    refine .inr ⟨pre, x, post, hq, (hfirst ht).1, hle, ?_⟩
    split at h
    · obtain rfl := h
      exact ⟨hrec, .inl ⟨_, rfl⟩⟩
    · split at h
      · obtain rfl := h
        exact ⟨hrec, .inl ⟨_, rfl⟩⟩
      obtain rfl := h
      refine ⟨hrec, .inr ⟨x.msg.mtext.length - sizeofLong, ?_⟩⟩
      -- the payload is as long as the return value says
      have hlen : (x.msg.mtext.length - sizeofLong : ℤ).toNat = (Msg.payload x.msg).length := by
        rw [Msg.payload, List.length_drop]
        omega
      rw [hlen]
      congr 1
      exact bufRead_zero_length (Msg.payload x.msg)

/-- What `tux_service` leaves in the request queue. -/
def Service.rest (q : List Msg) : Service → List Msg
  | .waiting => q
  | .again rest | .ret _ rest | .called _ _ _ rest | .fault _ rest => rest

/-- What `tux_getreply` leaves in the reply queue. -/
def GetReply.rest (q : List Msg) : GetReply → List Msg
  | .got _ _ rest | .fail _ rest => rest
  | .waiting => q

/-- The head that `tux_service` has copied to `gipcMsgHead` when it calls a handler or copies beyond an
array. -/
def Service.head : Service → Option IPCMsgHead
  | .called _ _ head _ | .fault head _ => some head
  | .waiting | .again _ | .ret _ _ => none

/-- One pass of `tux_service` leaves the queue alone, or it removes one request; the head is the one of
that request. -/
theorem tuxService_cases (mb : MbCtrl) (fault : Option Errno) (errno svrid : ℤ)
    (q : List (Noted Msg τ)) {r : Service} (h : tuxService mb fault errno (plain q) svrid = r) :
    (r.rest (plain q) = plain q ∧ r.head = none) ∨
    ∃ pre x post, q = pre ++ x :: post ∧ Fits x.msg ∧
      received (svrid + svrMsgTypeRoot) q (r.rest (plain q)) = (some x.note, pre ++ post) ∧
      (r.head = none ∨ r.head = some (.ofBytes (Msg.payload x.msg))) := by
  rw [tuxService, msqRcv] at h
  cases hrcv : msgrcv fault (plain q) busMaxMsgLen (svrid + svrMsgTypeRoot) false with
  | waiting =>
    rw [hrcv] at h
    obtain rfl := h
    exact .inl ⟨rfl, rfl⟩
  | fail e =>
    rw [hrcv] at h
    dsimp only at h
    split at h
    · obtain rfl := h
      exact .inl ⟨rfl, rfl⟩
    · obtain rfl := h
      exact .inl ⟨rfl, rfl⟩
  | got m rest =>
    obtain ⟨pre, x, post, hq, rfl, rfl, hrec, hle, -⟩ := received_of_got hrcv
    refine .inr ⟨pre, x, post, hq, hle, ?_⟩
    rw [hrcv] at h
    dsimp only at h
    split at h
    · split at h
      · obtain rfl := h
        exact ⟨hrec, .inl rfl⟩
      · obtain rfl := h
        exact ⟨hrec, .inl rfl⟩
    · rw [tuxDispatch] at h
      dsimp only at h
      split at h
      · obtain rfl := h
        exact ⟨hrec, .inl rfl⟩
      · split at h
        · obtain rfl := h
          exact ⟨hrec, .inr rfl⟩
        · obtain rfl := h
          exact ⟨hrec, .inr rfl⟩

/-- A handler is called for a length that is not negative. -/
theorem len_of_tuxService_called {mb : MbCtrl} {fault : Option Errno} {errno svrid : ℤ} {q rest : List Msg}
    {sdFun : ℕ} {sdInfo : SdInfo} {head : IPCMsgHead}
    (h : tuxService mb fault errno q svrid = .called sdFun sdInfo head rest) : 0 ≤ head.len.toInt := by
  rw [tuxService] at h
  split at h
  · cases h
  · split at h <;> cases h
  · split at h
    · split at h <;> cases h
    · rw [tuxDispatch] at h
      dsimp only at h
      split at h
      · cases h
      · split at h
        · next hlen =>
          obtain ⟨-, -, rfl, -⟩ := Service.called.inj h
          exact hlen.1
        · cases h

/-- `tux_getreply` leaves the queue alone or removes one reply. -/
theorem tuxGetreply_cases {attached : Bool} {fault : Option Errno} {errno cd flags : ℤ}
    {q : List (Noted Msg τ)} {r : GetReply} (h : tuxGetreply attached fault errno (plain q) cd flags = r) :
    r.rest (plain q) = plain q ∨
    ∃ pre x post, q = pre ++ x :: post ∧ Takes cd x.msg.mtype ∧
      received cd q (r.rest (plain q)) = (some x.note, pre ++ post) := by
  rw [tuxGetreply] at h
  split at h
  · obtain rfl := h
    exact .inl rfl
  · rw [msqRcv] at h
    cases hrcv : msgrcv fault (plain q) busMaxMsgLen cd (flags ≠ 0) with
    | waiting =>
      rw [hrcv] at h
      obtain rfl := h
      exact .inl rfl
    | fail e =>
      rw [hrcv] at h
      obtain rfl := h
      exact .inl rfl
    | got m rest =>
      obtain ⟨pre, x, post, hq, rfl, rfl, hrec, -⟩ := received_of_got hrcv
      refine .inr ⟨pre, x, post, hq, takes_of_msgrcv_got hrcv, ?_⟩
      rw [hrcv] at h
      dsimp only at h
      split at h
      · obtain rfl := h
        exact hrec
      · obtain rfl := h
        exact hrec

/-- One pass of the loop of `clean_task_msg`: the request queue behind it. -/
def cleanTaskMsg (fault : Option Errno) (q : List Msg) (msgType : ℤ) : List Msg :=
  match msqRcv fault q busMaxMsgLen msgType true with
  | .got _ _ rest => rest
  | _ => q

theorem cleanTaskMsg_cases (fault : Option Errno) (q : List (Noted Msg τ)) (msgType : ℤ) :
    cleanTaskMsg fault (plain q) msgType = plain q ∨
    ∃ pre x post, q = pre ++ x :: post ∧
      received msgType q (cleanTaskMsg fault (plain q) msgType) = (some x.note, pre ++ post) := by
  rw [cleanTaskMsg, msqRcv]
  cases hrcv : msgrcv fault (plain q) busMaxMsgLen msgType true with
  | waiting => exact .inl rfl
  | fail e => exact .inl rfl
  | got m rest =>
    obtain ⟨pre, x, post, hq, rfl, rfl, hrec, -⟩ := received_of_got hrcv
    exact .inr ⟨pre, x, post, hq, hrec⟩

end Sunda
