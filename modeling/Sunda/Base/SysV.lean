import Mathlib.Data.List.Basic
import Mathlib.Data.Int.Notation
import Mathlib.Tactic.Common

/-!
# System V message queues

A queue is a list of messages, oldest first. `msgsnd` appends; `msgrcv` selects by type (`select`)
and removes the selected message, unless its text is longer than the caller allows: then the call
fails with `E2BIG` and the message stays where it is.

Every system call can also fail for reasons the program has no influence on (a signal, a removed
queue, no permission). Such a failure is an argument of the call, `fault`, so that a statement
which quantifies over it covers every behaviour of the kernel.

The queue is generic in the message: anything that has a type and a text length. A run can thus
carry messages that remember where they came from through the very same `msgrcv`.

`msgrcv_of_first` is the rule for a receive by a positive type, `of_msgrcv_got` its inversion.
-/

namespace SysV

/-! ### Error numbers -/

/-- What a failing system call leaves in `errno`, never zero. -/
abbrev Errno := {e : ℤ // 0 < e}

def EINTR : Errno := ⟨4, by decide⟩
def E2BIG : Errno := ⟨7, by decide⟩
def EINVAL : Errno := ⟨22, by decide⟩
def ENOMSG : Errno := ⟨42, by decide⟩

/-- A message, as far as the queue is concerned. -/
class Message (μ : Type*) where
  /-- The type, a positive `long`. -/
  mtype : μ → ℤ
  /-- The length of the text. -/
  msize : μ → ℕ

/-- A message with its text. -/
structure Msg where
  mtype : ℤ
  mtext : List UInt8
  deriving DecidableEq

instance : Message Msg where
  mtype := Msg.mtype
  msize m := m.mtext.length

variable {μ : Type*} [Message μ]

open Message

/-- Which message `msgrcv` takes: the oldest one of the given type, the oldest of all for type 0,
and for a negative type the oldest of the lowest type that is at most its absolute value. -/
def select (typ : ℤ) (q : List μ) : Option ℕ :=
  if typ = 0 then q.findIdx? fun _ ↦ true
  else if 0 < typ then q.findIdx? fun m ↦ mtype m == typ
  else ((q.map mtype).filter (· ≤ -typ)).min?.bind fun t ↦ q.findIdx? fun m ↦ mtype m == t

/-- The outcome of `msgrcv`: a message and the queue without it, an error, or still waiting. -/
inductive Received (μ : Type*)
  | got (m : μ) (rest : List μ)
  | fail (errno : Errno)
  | waiting
  deriving DecidableEq

/-- `msgrcv`, without `MSG_NOERROR`. -/
def msgrcv (fault : Option Errno) (q : List μ) (msgsz : ℕ) (typ : ℤ) (nowait : Bool) : Received μ :=
  match fault with
  | some e => .fail e
  | none =>
    match (select typ q).bind fun k ↦ q[k]?.map fun m ↦ (k, m) with
    | none => if nowait then .fail ENOMSG else .waiting
    | some (k, m) => if msize m ≤ msgsz then .got m (q.eraseIdx k) else .fail E2BIG

/-- `msgsnd`: an error number, or the queue with the message behind all others. `msgmax` is the
kernel's limit for the length of a text. -/
def msgsnd (fault : Option Errno) (msgmax : ℕ) (q : List μ) (m : μ) : Except Errno (List μ) :=
  match fault with
  | some e => .error e
  | none => if mtype m ≤ 0 ∨ msgmax < msize m then .error EINVAL else .ok (q ++ [m])

/-! ### Rules -/

/-- A successful send appended the message, which had a positive type. -/
theorem of_msgsnd_ok {fault : Option Errno} {msgmax : ℕ} {q q' : List μ} {m : μ}
    (h : msgsnd fault msgmax q m = .ok q') : q' = q ++ [m] ∧ 0 < mtype m := by
  cases fault with
  | some e => cases h
  | none =>
    rw [msgsnd] at h
    split at h
    · cases h
    · next hok =>
      cases h
      exact ⟨rfl, by omega⟩

/-- A send that the kernel does not refuse, of a message it can hold. -/
theorem msgsnd_none {msgmax : ℕ} (q : List μ) {m : μ} (ht : 0 < mtype m) (hs : msize m ≤ msgmax) :
    msgsnd none msgmax q m = .ok (q ++ [m]) := by
  rw [msgsnd, if_neg (by omega)]

/-- The oldest message of a positive type is selected, whatever stands around it. -/
theorem select_of_first {typ : ℤ} (htyp : 0 < typ) {pre post : List μ} {m : μ}
    (hm : mtype m = typ) (hpre : ∀ x ∈ pre, mtype x ≠ typ) :
    select typ (pre ++ m :: post) = some pre.length := by
  have hnone : pre.findIdx? (fun x ↦ mtype x == typ) = none :=
    List.findIdx?_eq_none_iff.2 fun x hx ↦ beq_false_of_ne (hpre x hx)
  rw [select, if_neg (by omega), if_pos htyp, List.findIdx?_append, hnone, List.findIdx?_cons]
  simp [hm]

/-- **Receiving by type.** The oldest message of the type is delivered and removed, or refused for
its length; the other messages stay in their order. -/
theorem msgrcv_of_first {typ : ℤ} (htyp : 0 < typ) {pre : List μ} {m : μ}
    (hm : mtype m = typ) (hpre : ∀ x ∈ pre, mtype x ≠ typ) (post : List μ) (msgsz : ℕ)
    (nowait : Bool) :
    msgrcv none (pre ++ m :: post) msgsz typ nowait =
      if msize m ≤ msgsz then .got m (pre ++ post) else .fail E2BIG := by
  have hget : (pre ++ m :: post)[pre.length]? = some m := by simp
  have herase : (pre ++ m :: post).eraseIdx pre.length = pre ++ post := by
    rw [List.eraseIdx_append_of_length_le (Nat.le_refl _), Nat.sub_self, List.eraseIdx_cons_zero]
  rw [msgrcv, select_of_first htyp hm hpre]
  simp only [Option.bind_some, hget, Option.map_some, herase]

/-- Where no message has the type, a receive that does not wait fails. -/
theorem msgrcv_absent {typ : ℤ} (htyp : 0 < typ) {q : List μ} (h : ∀ x ∈ q, mtype x ≠ typ)
    (msgsz : ℕ) : msgrcv none q msgsz typ true = .fail ENOMSG := by
  have hnone : q.findIdx? (fun x ↦ mtype x == typ) = none :=
    List.findIdx?_eq_none_iff.2 fun x hx ↦ beq_false_of_ne (h x hx)
  rw [msgrcv, select, if_neg (by omega), if_pos htyp, hnone]
  rfl

/-- Type 0 takes the oldest message. -/
theorem msgrcv_zero_cons (m : μ) (q : List μ) (msgsz : ℕ) (nowait : Bool) :
    msgrcv none (m :: q) msgsz 0 nowait =
      if msize m ≤ msgsz then .got m q else .fail E2BIG := by
  rw [msgrcv, select, if_pos rfl, List.findIdx?_cons, if_pos rfl]
  rfl

/-- A delivered message was the selected one, and it fitted. -/
theorem select_of_msgrcv_got {fault : Option Errno} {q rest : List μ} {msgsz : ℕ} {typ : ℤ}
    {nowait : Bool} {m : μ} (h : msgrcv fault q msgsz typ nowait = .got m rest) :
    ∃ k, select typ q = some k ∧ q[k]? = some m ∧ rest = q.eraseIdx k ∧ msize m ≤ msgsz := by
  cases fault with
  | some e => cases h
  | none =>
    rw [msgrcv] at h
    split at h
    · split at h <;> cases h
    · next k x hk =>
      split at h
      · next hle =>
        obtain ⟨rfl, rfl⟩ := Received.got.inj h
        obtain ⟨i, hi, hx⟩ := Option.bind_eq_some_iff.1 hk
        obtain ⟨y, hy, heq⟩ := Option.map_eq_some_iff.1 hx
        obtain ⟨rfl, rfl⟩ := Prod.mk.inj heq
        exact ⟨i, hi, hy, rfl, hle⟩
      · cases h

/-- A delivered message was the oldest of its type, and it fitted. -/
theorem of_msgrcv_got {fault : Option Errno} {q rest : List μ} {msgsz : ℕ} {typ : ℤ} {nowait : Bool}
    {m : μ} (htyp : 0 < typ) (h : msgrcv fault q msgsz typ nowait = .got m rest) :
    mtype m = typ ∧ msize m ≤ msgsz ∧ ∃ pre post, q = pre ++ m :: post ∧ rest = pre ++ post ∧
      ∀ x ∈ pre, mtype x ≠ typ := by
  obtain ⟨i, hi, hy, rfl, hle⟩ := select_of_msgrcv_got h
  rw [select, if_neg (by omega), if_pos htyp] at hi
  obtain ⟨hlt, hty, hbefore⟩ := List.findIdx?_eq_some_iff_getElem.1 hi
  have hget : q[i] = m := by
    rw [List.getElem?_eq_getElem hlt] at hy
    exact Option.some.inj hy
  refine ⟨by simpa [hget] using hty, hle, q.take i, q.drop (i + 1), ?_, ?_, ?_⟩
  · rw [← hget, List.getElem_cons_drop, List.take_append_drop]
  · rw [List.eraseIdx_eq_take_drop_succ]
  · intro x hx
    obtain ⟨j, hj, rfl⟩ := List.mem_iff_getElem.1 hx
    rw [List.length_take] at hj
    rw [List.getElem_take]
    simpa using hbefore j (by omega)

/-- A receive by type fails from outside, for want of a message if it does not wait, or because a
message of the type is too long. -/
theorem of_msgrcv_fail {fault : Option Errno} {q : List μ} {msgsz : ℕ} {typ : ℤ} {nowait : Bool}
    {e : Errno} (htyp : 0 < typ) (h : msgrcv fault q msgsz typ nowait = .fail e) :
    fault ≠ none ∨ nowait = true ∨ ∃ m ∈ q, mtype m = typ ∧ msgsz < msize m := by
  cases fault with
  | some e => exact .inl (Option.some_ne_none e)
  | none =>
    rw [msgrcv] at h
    split at h
    · split at h
      · next hwait => exact .inr (.inl hwait)
      · cases h
    · next k x hk =>
      obtain ⟨i, hi, hx⟩ := Option.bind_eq_some_iff.1 hk
      obtain ⟨y, hy, heq⟩ := Option.map_eq_some_iff.1 hx
      obtain ⟨rfl, rfl⟩ := Prod.mk.inj heq
      rw [select, if_neg (by omega), if_pos htyp] at hi
      obtain ⟨hlt, hty, -⟩ := List.findIdx?_eq_some_iff_getElem.1 hi
      obtain ⟨_, rfl⟩ := List.getElem?_eq_some_iff.1 hy
      split at h
      · cases h
      · next hlong =>
        exact .inr (.inr ⟨q[i], List.getElem_mem hlt, by simpa using hty, Nat.lt_of_not_le hlong⟩)

/-! ### Types that a receive takes -/

/-- A receive by `typ` can take a message of the type `t`. -/
def Takes (typ t : ℤ) : Prop :=
  typ = t ∨ typ = 0 ∨ typ < 0 ∧ t ≤ -typ

instance (typ t : ℤ) : Decidable (Takes typ t) := inferInstanceAs (Decidable (_ ∨ _))

theorem takes_of_msgrcv_got {fault : Option Errno} {q rest : List μ} {msgsz : ℕ} {typ : ℤ}
    {nowait : Bool} {m : μ} (h : msgrcv fault q msgsz typ nowait = .got m rest) :
    Takes typ (mtype m) := by
  obtain ⟨k, hk, hget, -, -⟩ := select_of_msgrcv_got h
  obtain ⟨hlt, rfl⟩ := List.getElem?_eq_some_iff.1 hget
  rcases Int.lt_trichotomy typ 0 with hneg | rfl | hpos
  · rw [select, if_neg (by omega), if_neg (by omega)] at hk
    obtain ⟨t, ht, hfind⟩ := Option.bind_eq_some_iff.1 hk
    obtain ⟨_, hty, -⟩ := List.findIdx?_eq_some_iff_getElem.1 hfind
    have hle := (List.mem_filter.1 (List.min?_mem ht)).2
    rw [beq_iff_eq.1 hty]
    exact .inr (.inr ⟨hneg, by simpa using hle⟩)
  · exact .inr (.inl rfl)
  · exact .inl (of_msgrcv_got hpos h).1.symm

/-- The only message in a queue is taken by every such receive. -/
theorem msgrcv_singleton {typ : ℤ} {m : μ} {msgsz : ℕ} (h : Takes typ (mtype m))
    (hle : msize m ≤ msgsz) (nowait : Bool) : msgrcv none [m] msgsz typ nowait = .got m [] := by
  have hselect : select typ [m] = some 0 := by
    rcases Int.lt_trichotomy typ 0 with hneg | rfl | hpos
    · have hfilter : ([m].map mtype).filter (· ≤ -typ) = [mtype m] := by
        rcases h with h | h | h
        · simp only [List.map_singleton, List.filter_singleton]
          rw [decide_eq_true (by omega)]
          rfl
        · omega
        · simp only [List.map_singleton, List.filter_singleton]
          rw [decide_eq_true h.2]
          rfl
      rw [select, if_neg (by omega), if_neg (by omega), hfilter]
      simp
    · rfl
    · have hm : mtype m = typ := by
        rcases h with h | h | h <;> omega
      rw [select, if_neg (by omega), if_pos hpos]
      simp [hm]
  rw [msgrcv, hselect]
  simp [hle]

end SysV
