import Sunda.Comm.Commserver.TimeOuts
import Mathlib.Algebra.Order.Ring.Int

/-!
# How long the event loop waits

`get_wait_time` of `comm/commserver/commserver.c`, which computes the time-out of `epoll_wait`. It
looks at the first connection of each shard. `tmpTime` is what it gets from one, and the largest of
these, in milliseconds and with 50 more, is the result.

`tmpTime` is the time by which the connection has *passed* the idle time (`tmpTime_of_late`), and
nothing for any other one (`tmpTime_of_not_late`). So the loop waits 50 milliseconds while no
connection is late, whatever the others have left, and otherwise as long again as the latest one is
late.
-/

namespace Sunda

variable {m : WordMem} {idletime now : BitVec 32} {i num : ℕ} {l : List ConnectHandle}
  {T : ℕ → List ConnectHandle}

/-- What `get_wait_time` computes from a connection. The sum and the difference are `unsigned`, and
the result is stored into an `int`. -/
def tmpTime (idletime currtime utime : BitVec 32) : ℤ :=
  if utime + idletime ≤ currtime then (currtime - (utime + idletime)).toInt else 0

/-- One pass of the loop of `get_wait_time`, over `number` and `diff_time`. -/
def waitStep (m : WordMem) (idletime currtime : BitVec 32) (s : ℕ × ℤ) (i : ℕ) : ℕ × ℤ :=
  if getCommClientFD m i 0 ≠ -1 then
    let tmp := tmpTime idletime currtime (getCommClientTime m i 0)
    (s.1 + 1, if s.2 ≤ tmp then tmp else s.2)
  else s

/-- The loop of `get_wait_time`. -/
def waitLoop (m : WordMem) (num : ℕ) (idletime currtime : BitVec 32) : ℕ × ℤ :=
  (List.range num).foldl (waitStep m idletime currtime) (0, 0)

/-- `get_wait_time`, the value of `*timeout`. `none` is an overflow of the `int` product, where the
value is undefined. -/
def getWaitTime (m : WordMem) (num : ℕ) (idletime currtime : BitVec 32) : Option ℤ :=
  let s := waitLoop m num idletime currtime
  if s.1 = 0 then some (-1)
  else if s.2 * 1000 + 50 < 2 ^ 31 then some (s.2 * 1000 + 50)
  else none

/-- The time until the connection reaches the idle time, in seconds. -/
def ConnectHandle.remaining (idletime now : BitVec 32) (c : ConnectHandle) : ℕ :=
  idletime.toNat - c.age now

/-- What is claimed of the time-out: it is -1 if and only if there is no connection, and otherwise
the loop does not sleep past the time at which a connection reaches the idle time. -/
structure WaitsInTime (num : ℕ) (idletime now : BitVec 32) (T : ℕ → List ConnectHandle) (t : ℤ) :
    Prop where
  forever : t = -1 ↔ ∀ i < num, T i = []
  nonneg : (∃ i < num, T i ≠ []) → 0 ≤ t
  remaining : ∀ i < num, ∀ c ∈ T i, t ≤ 1000 * c.remaining idletime now + 50
  reached : (∃ i < num, ∃ c ∈ T i, c.aged idletime now) → t ≤ 50

/-- The connection has passed the idle time by a second or more, and by fewer seconds than an `int`
can hold. -/
def ConnectHandle.Late (idletime now : BitVec 32) (c : ConnectHandle) : Prop :=
  idletime.toNat < c.age now ∧ c.age now < idletime.toNat + 2 ^ 31

instance (idletime now : BitVec 32) (c : ConnectHandle) : Decidable (c.Late idletime now) :=
  inferInstanceAs (Decidable (_ ∧ _))

/-! ### One connection -/

theorem ConnectHandle.Late.aged {c : ConnectHandle} (h : c.Late idletime now) :
    c.aged idletime now = true :=
  ConnectHandle.aged_iff.2 (Nat.le_of_lt h.1)

theorem toNat_lt_of_toInt_pos (h : 0 < idletime.toInt) : idletime.toNat < 2 ^ 31 := by
  rw [BitVec.toInt_eq_toNat_cond] at h
  omega

/-- **A late connection** gives the time by which it is late. -/
theorem tmpTime_of_late {c : ConnectHandle} (hidle : 0 < idletime.toInt) (hpast : c.utime ≤ now)
    (h : c.Late idletime now) :
    tmpTime idletime now c.utime = c.age now - idletime.toNat := by
  have hlt := toNat_lt_of_toInt_pos hidle
  obtain ⟨hage, hint⟩ := h
  rw [BitVec.le_def] at hpast
  rw [ConnectHandle.age] at *
  have hsum : (c.utime + idletime).toNat = c.utime.toNat + idletime.toNat := by
    rw [BitVec.toNat_add]
    omega
  have hle : c.utime + idletime ≤ now := by
    rw [BitVec.le_def]
    omega
  have hsub : (now - (c.utime + idletime)).toNat = now.toNat - (c.utime.toNat + idletime.toNat) := by
    rw [BitVec.toNat_sub_of_le hle, hsum]
  rw [tmpTime, if_pos hle, BitVec.toInt_eq_toNat_cond, hsub, if_pos (by omega)]
  omega

/-- Any other connection gives nothing: if `utime + idletime` is past the end of the clock, or the
difference does not fit an `int`, the result is negative. -/
theorem tmpTime_of_not_late {c : ConnectHandle} (hidle : 0 < idletime.toInt)
    (hpast : c.utime ≤ now) (h : ¬ c.Late idletime now) : tmpTime idletime now c.utime ≤ 0 := by
  have hlt := toNat_lt_of_toInt_pos hidle
  rw [BitVec.le_def] at hpast
  rw [ConnectHandle.Late, ConnectHandle.age] at h
  rw [tmpTime]
  split
  · next hle =>
    have hsub := BitVec.toNat_sub_of_le hle
    rw [BitVec.le_def] at hle
    rw [BitVec.toNat_add] at hsub hle
    -- the sum is what it is, or less by the length of the clock
    rw [BitVec.toInt_eq_toNat_cond, hsub]
    split <;> omega
  · exact Int.le_refl 0

/-! ### The loop -/

theorem waitLoop_succ (m : WordMem) (n : ℕ) (idletime now : BitVec 32) :
    waitLoop m (n + 1) idletime now =
      waitStep m idletime now (waitLoop m n idletime now) n := by
  rw [waitLoop, List.range_succ, List.foldl_append, List.foldl_cons, List.foldl_nil, waitLoop]

theorem ShardRep.waitStep_nil (h : ShardRep m i []) (s : ℕ × ℤ) :
    waitStep m idletime now s i = s := by
  rw [waitStep, if_neg (not_not.2 (h.free 0 (Nat.zero_le 0) (by decide)))]

theorem ShardRep.waitStep_cons {c : ConnectHandle} (h : ShardRep m i (c :: l)) (s : ℕ × ℤ) :
    waitStep m idletime now s i = (s.1 + 1, max s.2 (tmpTime idletime now c.utime)) := by
  have htime : getCommClientTime m i 0 = c.utime := h.time_eq (j := 0) (by simp)
  rw [waitStep, if_pos (h.fd_ne (j := 0) (by simp)), htime, max_def]

/-- The state of the loop: whether it has seen a connection, and whether one of the first connections
was late. -/
structure WaitInv (idletime now : BitVec 32) (n : ℕ) (T : ℕ → List ConnectHandle) (s : ℕ × ℤ) :
    Prop where
  number : s.1 = 0 ↔ ∀ i < n, T i = []
  nonneg : 0 ≤ s.2
  late : 0 < s.2 ↔ ∃ i < n, ∃ c ∈ (T i).head?, c.Late idletime now

theorem waitInv_zero : WaitInv idletime now 0 T (0, 0) where
  number := ⟨fun _ i hi ↦ absurd hi (by omega), fun _ ↦ rfl⟩
  nonneg := Int.le_refl 0
  late := by
    refine iff_of_false (by decide) ?_
    rintro ⟨i, hi, -⟩
    omega

namespace WaitInv

variable {n : ℕ} {s : ℕ × ℤ}

/-- A shard without connections. -/
theorem step_nil (h : WaitInv idletime now n T s) (hn : T n = []) :
    WaitInv idletime now (n + 1) T s where
  number := by
    rw [h.number, Nat.forall_lt_succ_right, and_iff_left hn]
  nonneg := h.nonneg
  late := by
    rw [h.late, Nat.exists_lt_succ_right, hn]
    simp

/-- A shard whose first connection is `c`. -/
theorem step_cons {c : ConnectHandle} (h : WaitInv idletime now n T s) (hn : T n = c :: l)
    (hidle : 0 < idletime.toInt) (hpast : c.utime ≤ now) :
    WaitInv idletime now (n + 1) T (s.1 + 1, max s.2 (tmpTime idletime now c.utime)) where
  number := by
    rw [Nat.forall_lt_succ_right, hn]
    simp
  nonneg := Int.le_trans h.nonneg (le_max_left _ _)
  late := by
    have hc : 0 < tmpTime idletime now c.utime ↔ c.Late idletime now := by
      by_cases hlate : c.Late idletime now
      · rw [tmpTime_of_late hidle hpast hlate, iff_true_right hlate]
        have := hlate.1
        omega
      · have := tmpTime_of_not_late hidle hpast hlate
        rw [iff_false_right hlate]
        omega
    rw [lt_max_iff, h.late, hc, Nat.exists_lt_succ_right, hn]
    simp

end WaitInv

/-- **The loop of `get_wait_time`**, over the shards of a table. -/
theorem TableRep.waitInv (h : TableRep m num T) (hidle : 0 < idletime.toInt)
    (hpast : ∀ i < num, ∀ c ∈ T i, c.utime ≤ now) {n : ℕ} (hn : n ≤ num) :
    WaitInv idletime now n T (waitLoop m n idletime now) := by
  induction n with
  | zero => exact waitInv_zero
  | succ n ih =>
    have hrep := h n (by omega)
    have hinv := ih (by omega)
    rw [waitLoop_succ]
    cases hT : T n with
    | nil =>
      rw [hT] at hrep
      rw [hrep.waitStep_nil]
      exact hinv.step_nil hT
    | cons c l =>
      rw [hT] at hrep
      rw [hrep.waitStep_cons]
      exact hinv.step_cons hT hidle (hpast n (by omega) c (by rw [hT]; exact List.mem_cons_self))

/-! ### The result -/

theorem waitsInTime_neg_one (h : ∀ i < num, T i = []) : WaitsInTime num idletime now T (-1) where
  forever := iff_of_true rfl h
  nonneg := by
    rintro ⟨i, hi, hne⟩
    exact absurd (h i hi) hne
  remaining i hi c hc := by
    rw [h i hi] at hc
    cases hc
  reached := fun _ ↦ by decide

/-- 50 milliseconds are never too long. -/
theorem waitsInTime_fifty (h : ¬ ∀ i < num, T i = []) : WaitsInTime num idletime now T 50 where
  forever := iff_of_false (by decide) h
  nonneg _ := by decide
  remaining i hi c hc := by omega
  reached _ := Int.le_refl 50

/-- More than 50 milliseconds are too long with a connection that has reached the idle time. -/
theorem WaitsInTime.le_fifty {t : ℤ} {c : ConnectHandle} (h : WaitsInTime num idletime now T t)
    (hi : i < num) (hc : c ∈ (T i).head?) (hlate : c.Late idletime now) : t ≤ 50 :=
  h.reached ⟨i, hi, c, List.mem_of_mem_head? hc, hlate.aged⟩

/-- **The event loop sleeps in time** if and only if no shard begins with a late connection: then it
waits 50 milliseconds, or for ever if there is no connection. -/
theorem wait_in_time_iff (hidle : 0 < idletime.toInt) (h : TableRep m num T)
    (hpast : ∀ i < num, ∀ c ∈ T i, c.utime ≤ now) :
    (∃ t, getWaitTime m num idletime now = some t ∧ WaitsInTime num idletime now T t) ↔
      ∀ i < num, ∀ c ∈ (T i).head?, ¬ c.Late idletime now := by
  have hinv := h.waitInv hidle hpast (Nat.le_refl num)
  have hnonneg := hinv.nonneg
  constructor
  · rintro ⟨t, ht, hwait⟩ i hi c hc hlate
    have hle := hwait.le_fifty hi hc hlate
    have hpos := hinv.late.2 ⟨i, hi, c, hc, hlate⟩
    have hne : ¬ (waitLoop m num idletime now).1 = 0 := fun h0 ↦ by
      rw [hinv.number.1 h0 i hi] at hc
      cases hc
    -- a whole second of lateness is 1000 milliseconds, and an overflow is no result
    rw [getWaitTime, if_neg hne] at ht
    split at ht
    · have := Option.some.inj ht
      omega
    · cases ht
  · intro hnot
    -- without a late connection the maximum is 0
    by_cases h0 : (waitLoop m num idletime now).1 = 0
    · refine ⟨-1, ?_, waitsInTime_neg_one (hinv.number.1 h0)⟩
      rw [getWaitTime, if_pos h0]
    · have hzero : (waitLoop m num idletime now).2 = 0 := by
        have hlate : ¬ 0 < (waitLoop m num idletime now).2 := fun hpos ↦ by
          obtain ⟨i, hi, c, hc, hlate⟩ := hinv.late.1 hpos
          exact hnot i hi c hc hlate
        omega
      refine ⟨50, ?_, waitsInTime_fifty fun hempty ↦ h0 (hinv.number.2 hempty)⟩
      rw [getWaitTime, if_neg h0, hzero]
      rfl

/-- One connection of 30 seconds, with an idle time of 60. -/
theorem wait_in_time_iff_young : ∃ m T t, T 0 = [⟨4, 0, 100, fdStatReg⟩] ∧
    getWaitTime m 1 60 130 = some t ∧ WaitsInTime 1 60 130 T t := by
  have h4 : 4 < 2 ^ 31 := by decide
  obtain ⟨m, -, hT, -⟩ := (commInit_rep 1).1.newAccept_rep (by decide) h4 (by decide) 0 100
  have hT1 : TableRep m 1 fun _ ↦ [⟨4, 0, 100, fdStatReg⟩] := fun i hi ↦ by
    obtain rfl : i = 0 := by omega
    exact hT 0 hi
  have hidle : 0 < BitVec.toInt (60 : BitVec 32) := by decide
  have hpast : ∀ i < 1, ∀ c ∈ [(⟨4, 0, 100, fdStatReg⟩ : ConnectHandle)], c.utime ≤ 130 := by decide
  obtain ⟨t, ht, hwait⟩ := (wait_in_time_iff hidle hT1 hpast).2 (by decide)
  exact ⟨m, _, t, rfl, ht, hwait⟩

/-- The clock has jumped an hour past the idle time of the only connection: the loop sleeps for an
hour before it closes it. -/
theorem oversleeps_clock_jump : ∃ m T, TableRep m 1 T ∧ (∀ i < 1, ∀ c ∈ T i, c.utime ≤ 3760) ∧
    (∃ c ∈ T 0, c.aged 60 3760) ∧ getWaitTime m 1 60 3760 = some 3600050 ∧
    ¬ ∃ t, getWaitTime m 1 60 3760 = some t ∧ WaitsInTime 1 60 3760 T t := by
  have h4 : 4 < 2 ^ 31 := by decide
  obtain ⟨m, -, hT, -⟩ := (commInit_rep 1).1.newAccept_rep (by decide) h4 (by decide) 0 100
  have hrep : ShardRep m 0 [⟨4, 0, 100, fdStatReg⟩] := hT 0 (by decide)
  have hloop : waitLoop m 1 60 3760 = (1, 3600) := by
    rw [waitLoop_succ, hrep.waitStep_cons]
    rfl
  have htime : getWaitTime m 1 60 3760 = some 3600050 := by
    rw [getWaitTime, hloop]
    rfl
  refine ⟨m, _, hT, fun i hi ↦ ?_, ⟨⟨4, 0, 100, fdStatReg⟩, List.mem_cons_self, by decide⟩, htime, ?_⟩
  · obtain rfl : i = 0 := by omega
    decide
  · rintro ⟨t, ht, hwait⟩
    have hle := hwait.reached ⟨0, by decide, ⟨4, 0, 100, fdStatReg⟩, List.mem_cons_self, by decide⟩
    have hval := Option.some.inj (htime.symm.trans ht)
    omega

end Sunda
