import Sunda.Common.Funfile
import Sunda.Tux.Tuxcall

/-!
# The array of a queue message

`tux_acall`, `tux_call`, `tux_forward` and `tux_return_reply` (`pubfun/tux/tuxmgr.c`) compare a length with
`max_msg_len` of the shared memory and copy that many bytes to `sBuf`, an array of `BUS_MAX_MSG_LEN` bytes;
the reply goes behind the head of the request. The check should keep every copy in the array (`LenChecked`).

The two limits have nothing to do with each other: `sys_start` stores 4096 by default, which is larger than
the array, and `MsqSnd` compares with the size of the array behind the copy only. `copies_within_iff` gives
the lengths that get through and do not fit. `tux_forward` is modelled here, too; it copies whatever the
state of the server is.
-/

namespace Sunda

open Bytes SysV

/-! ### `tux_forward` -/

/-- How `tux_forward` is left: by `exit(1)`, by `longjmp` with -1 or 1, or by `return -1` behind a message
that was refused. -/
inductive Forwarded
  | exit
  | failed (tuxErrno : ℤ)
  | notSent
  | done (q : List Msg)
  deriving DecidableEq

/-- `tux_forward`; `mbLongjmp` is whether a handler runs. -/
def tuxForward (mbLongjmp : Bool) (mb : MbCtrl) (k : SndKernel) (realLen : ℤ) (q : List Msg)
    (svrName data : Option (List UInt8)) (len : ℤ) : Option Forwarded :=
  if !mbLongjmp then some .exit
  else
    match svrName, data with
    | some svrName, some data =>
      let len := if len = 0 then realLen else len
      if len < 0 ∨ mb.maxMsgLen.toInt < len then some (.failed sysInval)
      else
        match (tuxLocatemb mb svrName).bind fun svrno ↦ mb.tSvrTab[svrno]? with
        | none => some (.failed sysNoent)
        | some e =>
          if busMaxMsgLen < len then none
          else
            match msqSnd k q ⟨e.msgType, 0, bufRead data 0 len.toNat⟩ len .yes with
            | (0, q') => some (.done q')
            | (_, _) => some .notSent
    | _, _ => some (.failed sysInval)

/-! ### The property -/

/-- The check of a length does what it is for: a length that passes it makes no copy beyond the array, and
every other one is rejected before anything is copied. -/
structure LenChecked {α : Type} (maxMsgLen len : ℤ) (rejected : α) (r : Option α) : Prop where
  within : 0 ≤ len → len ≤ maxMsgLen → r ≠ none
  rejects : len < 0 ∨ maxMsgLen < len → r = some rejected

/-- A length gets through the check and does not fit the room that is left in the array. -/
def Overlong (maxMsgLen : ℤ) (room : ℕ) (len : ℤ) : Prop :=
  room < len ∧ len ≤ maxMsgLen

/-- The room for a reply, behind the head. -/
def replyRoom : ℕ := busMaxMsgLen - sizeofIPCMsgHead

/-- The server is called in its state. -/
def ServerTab.Called (e : ServerTab) : Prop :=
  ¬ (e.state = .unavail ∨ e.state = .dead)

section Check

variable {α : Type} {maxMsgLen len : ℤ} {room : ℕ} {rejected : α} {r : Option α} {reached : Prop}

/-- A function with the check, and a copy that is reached under some condition. -/
theorem lenChecked_iff (hrej : len < 0 ∨ maxMsgLen < len → r = some rejected)
    (hcopy : 0 ≤ len → len ≤ maxMsgLen → (r = none ↔ reached ∧ room < len)) :
    LenChecked maxMsgLen len rejected r ↔ ¬ (reached ∧ Overlong maxMsgLen room len) := by
  constructor
  · rintro h ⟨hreach, hroom, hmax⟩
    have h0 : 0 ≤ len := by omega
    exact h.within h0 hmax ((hcopy h0 hmax).2 ⟨hreach, hroom⟩)
  · intro h
    refine ⟨fun h0 hmax hnone ↦ ?_, hrej⟩
    obtain ⟨hreach, hroom⟩ := (hcopy h0 hmax).1 hnone
    exact h ⟨hreach, hroom, hmax⟩

end Check

/-! ### The four functions -/

/-- The length that counts: an argument 0 stands for the length of the allocation. -/
def lenOf (realLen len : ℤ) : ℤ := if len = 0 then realLen else len

/-- A copy in front of something that returns. -/
theorem copy_eq_none_iff {α : Type} {p : Prop} [Decidable p] {o : Option α} (ho : o ≠ none) :
    (if p then none else o) = none ↔ p := by
  split
  · next hp => simp [hp]
  · next hp => simp [hp, ho]

/-- A copy that is made for a server that is called. -/
theorem called_copy_iff {α : Type} {tab : List ServerTab} {svrName : List UInt8} {r : Option α} {p : Prop}
    (hnone : locatedEntry tab svrName = none → r ≠ none)
    (hstopped : ∀ e, locatedEntry tab svrName = some e → ¬ e.Called → r ≠ none)
    (hcalled : ∀ e, locatedEntry tab svrName = some e → e.Called → (r = none ↔ p)) :
    r = none ↔ (∃ e, locatedEntry tab svrName = some e ∧ e.Called) ∧ p := by
  constructor
  · intro hr
    cases he : locatedEntry tab svrName with
    | none => exact absurd hr (hnone he)
    | some e =>
      by_cases h : e.Called
      · exact ⟨⟨e, rfl, h⟩, (hcalled e he h).1 hr⟩
      · exact absurd hr (hstopped e he h)
  · rintro ⟨⟨e, he, h⟩, hp⟩
    exact (hcalled e he h).2 hp

section Functions

variable (mb : MbCtrl) (k : SndKernel) (q : List Msg) (realLen len : ℤ) (svrName buf : List UInt8)

theorem tuxAcall_lenChecked_iff :
    LenChecked mb.maxMsgLen.toInt (lenOf realLen len) (.error sysInval)
        (tuxAcall mb k realLen q (some svrName) (some buf) len) ↔
      ¬ ((∃ e, locatedEntry mb.tSvrTab svrName = some e ∧ e.Called) ∧
        Overlong mb.maxMsgLen.toInt busMaxMsgLen (lenOf realLen len)) := by
  refine lenChecked_iff (fun hrej ↦ if_pos hrej) fun h0 hmax ↦ ?_
  have hpass : ¬ (lenOf realLen len < 0 ∨ mb.maxMsgLen.toInt < lenOf realLen len) := by omega
  simp only [tuxAcall, locatedEntry_eq]
  rw [← lenOf, if_neg hpass]
  refine called_copy_iff (fun he ↦ ?_) (fun e he hstopped ↦ ?_) fun e he hcalled ↦ ?_
  · simp [he]
  · simp [he, not_not.1 hstopped]
  · rw [he]
    dsimp only
    rw [if_neg hcalled]
    exact copy_eq_none_iff (by split <;> simp)

theorem tuxCallSend_lenChecked_iff (tuxErrno : ℤ) :
    LenChecked mb.maxMsgLen.toInt (lenOf realLen len) (.error sysInval)
        (tuxCallSend mb k realLen tuxErrno q (some svrName) (some buf) len true) ↔
      ¬ ((∃ e, locatedEntry mb.tSvrTab svrName = some e ∧ e.Called) ∧
        Overlong mb.maxMsgLen.toInt busMaxMsgLen (lenOf realLen len)) := by
  refine lenChecked_iff (fun hrej ↦ if_pos hrej) fun h0 hmax ↦ ?_
  have hpass : ¬ (lenOf realLen len < 0 ∨ mb.maxMsgLen.toInt < lenOf realLen len) := by omega
  simp only [tuxCallSend, locatedEntry_eq]
  rw [← lenOf, if_neg hpass]
  refine called_copy_iff (fun he ↦ ?_) (fun e he hstopped ↦ ?_) fun e he hcalled ↦ ?_
  · simp [he]
  · simp [he, not_not.1 hstopped]
  · rw [he]
    dsimp only
    rw [if_neg hcalled]
    exact copy_eq_none_iff (by split <;> simp)

/-- `tux_forward` does not look at the state of the server. -/
theorem tuxForward_lenChecked_iff :
    LenChecked mb.maxMsgLen.toInt (lenOf realLen len) (.failed sysInval)
        (tuxForward true mb k realLen q (some svrName) (some buf) len) ↔
      ¬ ((∃ e, locatedEntry mb.tSvrTab svrName = some e) ∧
        Overlong mb.maxMsgLen.toInt busMaxMsgLen (lenOf realLen len)) := by
  refine lenChecked_iff (fun hrej ↦ if_pos hrej) fun h0 hmax ↦ ?_
  have hpass : ¬ (lenOf realLen len < 0 ∨ mb.maxMsgLen.toInt < lenOf realLen len) := by omega
  simp only [tuxForward, locatedEntry_eq]
  rw [if_neg (by decide), ← lenOf, if_neg hpass]
  cases locatedEntry mb.tSvrTab svrName with
  | none => simp
  | some e =>
    dsimp only
    rw [copy_eq_none_iff (by split <;> simp)]
    simp

/-- A reply that is wanted is copied behind the head. -/
theorem tuxReturnReply_lenChecked_iff (head : IPCMsgHead) {flags : ℤ} (hflags : flags ≠ -1) :
    LenChecked mb.maxMsgLen.toInt (lenOf realLen len) (-1, q)
        (tuxReturnReply mb k realLen head q (some buf) len flags) ↔
      ¬ Overlong mb.maxMsgLen.toInt replyRoom (lenOf realLen len) := by
  have hiff : LenChecked mb.maxMsgLen.toInt (lenOf realLen len) (-1, q)
      (tuxReturnReply mb k realLen head q (some buf) len flags) ↔
        ¬ (True ∧ Overlong mb.maxMsgLen.toInt replyRoom (lenOf realLen len)) := by
    simp only [tuxReturnReply, if_neg hflags]
    refine lenChecked_iff (fun hrej ↦ if_pos hrej) fun h0 hmax ↦ ?_
    have hpass : ¬ (lenOf realLen len < 0 ∨ mb.maxMsgLen.toInt < lenOf realLen len) := by omega
    rw [← lenOf, if_neg hpass, copy_eq_none_iff (by split <;> simp), setLen_len head h0 hmax, replyRoom,
      busMaxMsgLen, sizeofIPCMsgHead, true_and]
    omega
  rw [hiff, true_and]

/-- **Copies stay in `sBuf`**, with every limit and for every length: in `tux_acall` and `tux_call` exactly
when no length between the two limits meets a server that is called, in `tux_forward` when it meets any
entry, and in `tux_return_reply` when no reply that is wanted has such a length. -/
theorem copies_within_iff (tuxErrno : ℤ) (head : IPCMsgHead) (flags : ℤ) :
    (LenChecked mb.maxMsgLen.toInt (lenOf realLen len) (.error sysInval)
        (tuxAcall mb k realLen q (some svrName) (some buf) len) ↔
      ¬ ((∃ e, locatedEntry mb.tSvrTab svrName = some e ∧ e.Called) ∧
        Overlong mb.maxMsgLen.toInt busMaxMsgLen (lenOf realLen len))) ∧
    (LenChecked mb.maxMsgLen.toInt (lenOf realLen len) (.error sysInval)
        (tuxCallSend mb k realLen tuxErrno q (some svrName) (some buf) len true) ↔
      ¬ ((∃ e, locatedEntry mb.tSvrTab svrName = some e ∧ e.Called) ∧
        Overlong mb.maxMsgLen.toInt busMaxMsgLen (lenOf realLen len))) ∧
    (LenChecked mb.maxMsgLen.toInt (lenOf realLen len) (.failed sysInval)
        (tuxForward true mb k realLen q (some svrName) (some buf) len) ↔
      ¬ ((∃ e, locatedEntry mb.tSvrTab svrName = some e) ∧
        Overlong mb.maxMsgLen.toInt busMaxMsgLen (lenOf realLen len))) ∧
    (LenChecked mb.maxMsgLen.toInt (lenOf realLen len) (if flags = -1 then 0 else -1, q)
        (tuxReturnReply mb k realLen head q (some buf) len flags) ↔
      ¬ (flags ≠ -1 ∧ Overlong mb.maxMsgLen.toInt replyRoom (lenOf realLen len))) := by
  refine ⟨tuxAcall_lenChecked_iff .., tuxCallSend_lenChecked_iff .., tuxForward_lenChecked_iff .., ?_⟩
  by_cases hflags : flags = -1
  · refine iff_of_true ⟨fun _ _ ↦ ?_, fun _ ↦ ?_⟩ fun h ↦ h.1 hflags
    · rw [tuxReturnReply, if_pos hflags]
      simp
    · rw [tuxReturnReply, if_pos hflags, if_pos hflags]
  · rw [if_neg hflags, and_iff_right hflags]
    exact tuxReturnReply_lenChecked_iff mb k q realLen len buf head hflags

end Functions

/-- A server that offers `s`, with the limit that `sys_start` stores. -/
def defaultLimitMb : MbCtrl where
  maxMsgLen := BitVec.ofInt 32 SysParam.defaults.nmsglen
  tSvrTab := [⟨1, charField 33 [115] 0, .idle, 300001, 20⟩]
  tSvcTab := [⟨0, charField 33 [115] 0, 7⟩]
  nsvrnum_eq := rfl

/-- With the default, a request of 4061 bytes and a reply of 3965 bytes leave the array. -/
theorem default_limit_overruns :
    ¬ LenChecked defaultLimitMb.maxMsgLen.toInt 4061 (.error sysInval)
      (tuxAcall defaultLimitMb ⟨none, none, 8192⟩ 0 [] (some [115]) (some (List.replicate 4061 65)) 4061) ∧
    ¬ LenChecked defaultLimitMb.maxMsgLen.toInt 3965 (-1, [])
      (tuxReturnReply defaultLimitMb ⟨none, none, 8192⟩ 0 .zero [] (some (List.replicate 3965 65)) 3965 0) := by
  have hlimit : defaultLimitMb.maxMsgLen.toInt = 4096 := by decide
  constructor
  · have hfound : (locatedEntry defaultLimitMb.tSvrTab [115]).map (·.state) = some .idle := by
      decide +kernel
    obtain ⟨e, he, hidle⟩ := Option.map_eq_some_iff.1 hfound
    have hcalled : e.Called := by
      rw [ServerTab.Called, hidle]
      decide
    intro h
    refine (tuxAcall_lenChecked_iff defaultLimitMb _ _ 0 4061 _ _).1 h ⟨⟨e, he, hcalled⟩, ?_⟩
    rw [Overlong, hlimit]
    decide
  · intro h
    refine (tuxReturnReply_lenChecked_iff defaultLimitMb _ _ 0 3965 _ _ (by decide)).1 h ?_
    rw [Overlong, hlimit]
    decide

end Sunda
