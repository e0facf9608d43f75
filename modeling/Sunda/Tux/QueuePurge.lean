import Sunda.Common.Funmsq

/-!
# Purging a queue

The loops of `clean_task_msg` (`pubfun/tux/tuxmgr.c`), which removes the messages of one type, and of
`MsqClear` (`pubfun/common/funmsq.c`), which empties a queue. Nobody else uses the queue meanwhile.

Both tell success from failure by the sign of what `MsqRcv` returns, the length of the text less
`sizeof(long)`. It is negative for a failure, and for a message whose text is shorter than the source field,
which is removed all the same: the loop ends behind it. A message whose text is longer than `BUS_MAX_MSG_LEN`
cannot be received and ends the loop, too. `MsqSnd` queues messages of both kinds.

`purge_iff` says that nothing else stands in the way.
-/

namespace Sunda

open SysV

/-- The loop of `clean_task_msg`, which returns 0 whenever it ends: the queue afterwards. `none` is more than
`fuel` passes. -/
def cleanTaskMsgLoop (msgType : ℤ) : ℕ → List Msg → Option (List Msg)
  | 0, _ => none
  | fuel + 1, q =>
    match msqRcv none q busMaxMsgLen msgType true with
    | .got code _ rest => if code < 0 then some rest else cleanTaskMsgLoop msgType fuel rest
    | .fail _ | .waiting => some q

/-- The loop of `MsqClear`, with its counter: the return value and the queue afterwards. -/
def msqClearLoop : ℕ → List Msg → ℤ × List Msg
  | 0, q => (0, q)
  | flag + 1, q =>
    match msqRcv none q busMaxMsgLen 0 true with
    | .got code _ rest => if code < 0 then (-1, rest) else msqClearLoop flag rest
    | .fail _ | .waiting => (-1, q)

/-- `MsqCount`: the number of messages, as an `int`. -/
def msqCount (q : List Msg) : ℤ :=
  (BitVec.ofNat 32 q.length).toInt

/-- `MsqClear`. -/
def msqClear (q : List Msg) : ℤ × List Msg :=
  if msqCount q < 0 then (-1, q) else msqClearLoop (msqCount q).toNat q

/-- The queue contents that successful calls of `MsqSnd` produce. -/
inductive MsqSent : List Msg → Prop
  | nil : MsqSent []
  | snd {k : SndKernel} {q q' : List Msg} {m : IPCQueMsg} {nMsgLen : ℤ} {chk : IPCChkMsq} :
    MsqSent q → msqSnd k q m nMsgLen chk = (0, q') → MsqSent q'

/-! ### One receive -/

/-- The text of the message is not too long to be received. -/
def Receivable (m : Msg) : Prop := m.mtext.length ≤ busMaxMsgLen

/-- The text has a source field, so that its receive looks like a success. -/
def HasSource (m : Msg) : Prop := sizeofLong ≤ m.mtext.length

instance (m : Msg) : Decidable (Receivable m) := inferInstanceAs (Decidable (_ ≤ _))
instance (m : Msg) : Decidable (HasSource m) := inferInstanceAs (Decidable (_ ≤ _))

/-- Both loops take a text without a source field for a failure. -/
theorem received_neg_iff (m : Msg) : (m.mtext.length : ℤ) - sizeofLong < 0 ↔ ¬ HasSource m := by
  rw [HasSource]
  omega

/-- The pass of the loop that comes to the first message of the type. -/
theorem cleanTaskMsgLoop_of_first {t : ℤ} (ht : 0 < t) {pre post : List Msg} {m : Msg}
    (hm : m.mtype = t) (hpre : ∀ x ∈ pre, x.mtype ≠ t) (fuel : ℕ) :
    cleanTaskMsgLoop t (fuel + 1) (pre ++ m :: post) =
      if Receivable m then
        if HasSource m then cleanTaskMsgLoop t fuel (pre ++ post) else some (pre ++ post)
      else some (pre ++ m :: post) := by
  have hrcv := msgrcv_of_first ht hm hpre post busMaxMsgLen true
  rw [cleanTaskMsgLoop, msqRcv, hrcv]
  by_cases hfit : Receivable m
  · have hsize : Message.msize m ≤ busMaxMsgLen := hfit
    rw [if_pos hsize, if_pos hfit]
    simp only [received_neg_iff, ite_not]
  · have hsize : ¬ Message.msize m ≤ busMaxMsgLen := hfit
    rw [if_neg hsize, if_neg hfit]

/-- The last pass. -/
theorem cleanTaskMsgLoop_absent {t : ℤ} (ht : 0 < t) {q : List Msg} (h : ∀ x ∈ q, x.mtype ≠ t)
    (fuel : ℕ) : cleanTaskMsgLoop t (fuel + 1) q = some q := by
  rw [cleanTaskMsgLoop, msqRcv, msgrcv_absent ht h]

/-- A pass of the loop of `MsqClear`. -/
theorem msqClearLoop_cons (flag : ℕ) (m : Msg) (q : List Msg) :
    msqClearLoop (flag + 1) (m :: q) =
      if Receivable m then if HasSource m then msqClearLoop flag q else (-1, q)
      else (-1, m :: q) := by
  rw [msqClearLoop, msqRcv, msgrcv_zero_cons]
  by_cases hfit : Receivable m
  · have hsize : Message.msize m ≤ busMaxMsgLen := hfit
    rw [if_pos hsize, if_pos hfit]
    simp only [received_neg_iff, ite_not]
  · have hsize : ¬ Message.msize m ≤ busMaxMsgLen := hfit
    rw [if_neg hsize, if_neg hfit]

/-! ### The messages of one type -/

/-- The messages of the type, and the others. -/
def ofType (t : ℤ) (q : List Msg) : List Msg := q.filter (·.mtype = t)
def otherTypes (t : ℤ) (q : List Msg) : List Msg := q.filter (·.mtype ≠ t)

/-- Nothing stops the loop before the last message: each can be received, and each but the last has a source
field. -/
def Purgeable (ms : List Msg) : Prop :=
  (∀ m ∈ ms, Receivable m) ∧ ∀ m ∈ ms.dropLast, HasSource m

theorem purgeable_cons {m : Msg} {ms : List Msg} (hfit : Receivable m) :
    Purgeable (m :: ms) ↔ (HasSource m ∨ ms = []) ∧ Purgeable ms := by
  rw [Purgeable, Purgeable, List.forall_mem_cons, and_iff_right hfit]
  cases ms with
  | nil => simp
  | cons m' ms =>
    rw [List.dropLast_cons_cons]
    constructor
    · rintro ⟨hall, hsrc⟩
      exact ⟨.inl (hsrc m List.mem_cons_self), hall,
        fun x hx ↦ hsrc x (List.mem_cons_of_mem m hx)⟩
    · rintro ⟨hm, hall, hrest⟩
      refine ⟨hall, ?_⟩
      exact List.forall_mem_cons.mpr ⟨hm.resolve_right (List.cons_ne_nil _ _), hrest⟩

theorem purgeable_nil : Purgeable [] :=
  ⟨fun _ hm ↦ absurd hm List.not_mem_nil, fun _ hm ↦ absurd hm List.not_mem_nil⟩

/-- Nothing else is there iff nothing of the type is. -/
theorem eq_otherTypes_iff (t : ℤ) (q : List Msg) : q = otherTypes t q ↔ ofType t q = [] := by
  rw [eq_comm, otherTypes, ofType, List.filter_eq_self, List.filter_eq_nil_iff]
  simp

/-- **The loop of `clean_task_msg` ends**, and it has removed all messages of the type, and nothing else, iff
nothing stops it before. -/
theorem cleanTaskMsgLoop_spec {t : ℤ} (ht : 0 < t) (fuel : ℕ) (q : List Msg)
    (hfuel : (ofType t q).length < fuel) :
    ∃ r, cleanTaskMsgLoop t fuel q = some r ∧ (r = otherTypes t q ↔ Purgeable (ofType t q)) := by
  induction fuel generalizing q with
  | zero => exact absurd hfuel (Nat.not_lt_zero _)
  | succ fuel ih =>
    cases hms : ofType t q with
    | nil =>
      have habsent : ∀ x ∈ q, x.mtype ≠ t := by
        intro x hx
        simpa using List.filter_eq_nil_iff.mp hms x hx
      exact ⟨q, cleanTaskMsgLoop_absent ht habsent fuel,
        iff_of_true ((eq_otherTypes_iff t q).mpr hms) purgeable_nil⟩
    | cons m ms =>
      obtain ⟨pre, post, rfl, hpre, hm, hpost⟩ := List.filter_eq_cons_iff.mp hms
      have hpre' : ∀ x ∈ pre, x.mtype ≠ t := by
        intro x hx
        simpa using hpre x hx
      have hmt : m.mtype = t := by simpa using hm
      have hrest : ofType t (pre ++ post) = ms := by
        rw [ofType, List.filter_append, List.filter_eq_nil_iff.mpr hpre, List.nil_append, hpost]
      have hothers : otherTypes t (pre ++ m :: post) = otherTypes t (pre ++ post) := by
        rw [otherTypes, otherTypes, List.filter_append, List.filter_append, List.filter_cons_of_neg]
        simpa using hmt
      rw [cleanTaskMsgLoop_of_first ht hmt hpre', hothers]
      by_cases hfit : Receivable m
      · rw [if_pos hfit, purgeable_cons hfit]
        by_cases hsrc : HasSource m
        · -- the message is removed and the loop goes on
          rw [hms, List.length_cons] at hfuel
          obtain ⟨r, hr, hiff⟩ := ih (pre ++ post) (by rw [hrest]; omega)
          rw [hrest] at hiff
          refine ⟨r, by rw [if_pos hsrc, hr], ?_⟩
          rw [hiff, and_iff_right (Or.inl hsrc)]
        · -- the message is removed and the loop ends
          refine ⟨pre ++ post, if_neg hsrc, ?_⟩
          rw [eq_otherTypes_iff, hrest, or_iff_right hsrc]
          refine ⟨fun hnil ↦ ⟨hnil, hnil ▸ purgeable_nil⟩, And.left⟩
      · -- the message stays
        refine ⟨pre ++ m :: post, if_neg hfit, iff_of_false ?_ ?_⟩
        · intro heq
          have hmem : m ∈ otherTypes t (pre ++ post) := heq ▸ List.mem_append_right pre List.mem_cons_self
          have hne := (List.mem_filter.mp hmem).2
          exact absurd hmt (by simpa using hne)
        · intro hpurge
          exact hfit (hpurge.1 m List.mem_cons_self)

/-- **The loop of `MsqClear` empties the queue** iff it makes a pass for each message and each pass
succeeds. -/
theorem msqClearLoop_eq_iff (flag : ℕ) (q : List Msg) :
    msqClearLoop flag q = (0, []) ↔
      flag = q.length ∧ ∀ m ∈ q, Receivable m ∧ HasSource m := by
  induction q generalizing flag with
  | nil =>
    cases flag with
    | zero => simp [msqClearLoop]
    | succ flag =>
      have hempty : msqClearLoop (flag + 1) [] = (-1, []) := rfl
      rw [hempty]
      simp
  | cons m q ih =>
    cases flag with
    | zero => simp [msqClearLoop]
    | succ flag =>
      rw [msqClearLoop_cons, List.forall_mem_cons, List.length_cons, Nat.add_right_cancel_iff]
      by_cases hfit : Receivable m
      · rw [if_pos hfit]
        by_cases hsrc : HasSource m
        · rw [if_pos hsrc, ih, and_iff_right (And.intro hfit hsrc)]
        · rw [if_neg hsrc]
          simp [hsrc]
      · rw [if_neg hfit]
        simp [hfit]

/-- `MsqClear` makes a pass for each message as long as their number is an `int`. -/
theorem msqClear_eq_iff (q : List Msg) :
    msqClear q = (0, []) ↔ q.length < 2 ^ 31 ∧ ∀ m ∈ q, Receivable m ∧ HasSource m := by
  have hcount : msqCount q = (q.length : ℤ).bmod (2 ^ 32) := by
    rw [msqCount, BitVec.toInt_ofNat']
  rw [Int.bmod_def] at hcount
  rw [msqClear]
  by_cases hneg : msqCount q < 0
  · rw [if_pos hneg]
    refine iff_of_false (by simp) ?_
    rintro ⟨hlen, -⟩
    omega
  · rw [if_neg hneg, msqClearLoop_eq_iff]
    have hlen : (msqCount q).toNat = q.length ↔ q.length < 2 ^ 31 := by omega
    rw [hlen]

/-- **What a purge removes.** `clean_task_msg` always ends, and leaves the other types exactly iff nothing
stops it before the last message of its type; `MsqClear` empties the queue iff every message in it is received
with success. -/
theorem purge_iff {t : ℤ} (ht : 0 < t) (q : List Msg) :
    (∃ r, cleanTaskMsgLoop t (q.length + 1) q = some r) ∧
      (cleanTaskMsgLoop t (q.length + 1) q = some (otherTypes t q) ↔ Purgeable (ofType t q)) ∧
      (msqClear q = (0, []) ↔
        q.length < 2 ^ 31 ∧ ∀ m ∈ q, Receivable m ∧ HasSource m) := by
  have hfuel : (ofType t q).length < q.length + 1 :=
    Nat.lt_succ_of_le (List.length_filter_le _ _)
  obtain ⟨r, hr, hiff⟩ := cleanTaskMsgLoop_spec ht (q.length + 1) q hfuel
  refine ⟨⟨r, hr⟩, ?_, msqClear_eq_iff q⟩
  rw [hr, Option.some_inj]
  exact hiff

/-- Two messages of ten bytes, of which one is purged. -/
theorem purge_iff_two :
    cleanTaskMsgLoop 5 3 [⟨5, List.replicate 10 0⟩, ⟨6, List.replicate 10 0⟩] =
      some [⟨6, List.replicate 10 0⟩] := by
  have hpurge := purge_iff (by decide : (0 : ℤ) < 5)
    [⟨5, List.replicate 10 0⟩, ⟨6, List.replicate 10 0⟩]
  exact hpurge.2.1.mpr ⟨by decide, by decide⟩

/-- A message of 4053 bytes is sent, and neither of the two removes it. -/
theorem long_message_not_purged :
    MsqSent [(⟨5, 0, []⟩ : IPCQueMsg).queued 4053] ∧
      cleanTaskMsgLoop 5 2 [(⟨5, 0, []⟩ : IPCQueMsg).queued 4053] ≠
        some (otherTypes 5 [(⟨5, 0, []⟩ : IPCQueMsg).queued 4053]) ∧
      msqClear [(⟨5, 0, []⟩ : IPCQueMsg).queued 4053] ≠ (0, []) := by
  have hlong : ¬ Receivable ((⟨5, 0, []⟩ : IPCQueMsg).queued 4053) := by
    rw [Receivable, IPCQueMsg.queued_length]
    decide
  refine ⟨.snd .nil (msqSnd_eq_zero (k := ⟨none, none, 8192⟩) ⟨rfl, rfl, by decide, by decide⟩
    (by decide) (by decide) (.inr (by decide))), ?_, ?_⟩
  · intro hclean
    obtain ⟨r, hr, hiff⟩ := cleanTaskMsgLoop_spec (by decide : (0 : ℤ) < 5) 2
      [(⟨5, 0, []⟩ : IPCQueMsg).queued 4053] (by decide +kernel)
    have hpurge := hiff.mp (Option.some.inj (hr.symm.trans hclean))
    exact hlong (hpurge.1 _ (by simp [ofType]))
  · intro hclear
    exact hlong (((msqClear_eq_iff _).mp hclear).2 _ List.mem_cons_self).1

end Sunda
