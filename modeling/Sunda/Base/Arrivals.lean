import Mathlib.Data.List.Basic
import Mathlib.Data.List.GetD
import Mathlib.Tactic.Common

/-!
# A non-blocking byte stream that arrives in batches

The receiving end of a stream socket in non-blocking mode. `buf` is what has arrived and was not
read yet; `coming` is the arrival schedule, **indexed by read calls**: its `k`-th entry is what
arrives between the previous read call and the `k`-th further one, possibly nothing. A read call
returns what is there, at most as much as it asked for, and fails when nothing is there.

Nothing else about time is visible to the reader, so a statement for every schedule is a statement
for every way the stream can be split into segments and every timing of them.

The elements are arbitrary; programs use bytes.
-/

namespace Arrivals

variable {α : Type*}

/-- A stream socket, as its reader sees it. -/
structure Sock (α : Type*) where
  /-- Arrived and unread. -/
  buf : List α
  /-- What arrives before each further read call. -/
  coming : List (List α)

/-- Everything the reader can still get, in order. -/
def Sock.stream (s : Sock α) : List α :=
  s.buf ++ s.coming.flatten

/-- What has arrived by the time of the next read call. -/
def Sock.ready (s : Sock α) : List α :=
  s.buf ++ s.coming.headD []

/-- One read call for at most `n` elements; `none` is a failure with nothing to read. -/
def Sock.read (s : Sock α) (n : ℕ) : Option (List α) × Sock α :=
  (if s.ready.isEmpty then none else some (s.ready.take n), ⟨s.ready.drop n, s.coming.tail⟩)

/-- The number of elements that arrive before read call `j`, what arrives just before it
excluded. -/
def arrived (cs : List (List α)) (j : ℕ) : ℕ :=
  (cs.take j).flatten.length

/-- What arrives just before read call `j`. -/
def batch (cs : List (List α)) (j : ℕ) : List α :=
  cs.getD j []

@[simp]
theorem arrived_zero (cs : List (List α)) : arrived cs 0 = 0 := by
  simp [arrived]

theorem arrived_succ (cs : List (List α)) (j : ℕ) :
    arrived cs (j + 1) = (batch cs 0).length + arrived cs.tail j := by
  cases cs <;> simp [arrived, batch]

theorem batch_succ (cs : List (List α)) (j : ℕ) : batch cs (j + 1) = batch cs.tail j := by
  cases cs <;> simp [batch]

theorem arrived_mono (cs : List (List α)) {i j : ℕ} (h : i ≤ j) : arrived cs i ≤ arrived cs j := by
  induction j generalizing cs i with
  | zero =>
    obtain rfl := Nat.le_zero.1 h
    exact Nat.le_refl _
  | succ j ih =>
    cases i with
    | zero => rw [arrived_zero]; exact Nat.zero_le _
    | succ i =>
      rw [arrived_succ, arrived_succ]
      exact Nat.add_le_add_left (ih cs.tail (Nat.le_of_succ_le_succ h)) _

theorem arrived_drop (cs : List (List α)) (m j : ℕ) :
    arrived cs (m + j) = arrived cs m + arrived (cs.drop m) j := by
  rw [arrived, arrived, arrived, List.take_add, List.flatten_append, List.length_append]

theorem batch_drop (cs : List (List α)) (m j : ℕ) : batch (cs.drop m) j = batch cs (m + j) := by
  simp [batch, List.getD]

theorem Sock.ready_eq (s : Sock α) : s.ready = s.buf ++ batch s.coming 0 := by
  cases h : s.coming <;> simp [Sock.ready, batch, h]

theorem Sock.stream_eq (s : Sock α) : s.stream = s.ready ++ s.coming.tail.flatten := by
  cases h : s.coming <;> simp [Sock.ready, Sock.stream, h]

/-! ### One read call -/

/-- A read call that returns takes a non-empty front of the stream. -/
theorem Sock.of_read_some {s s' : Sock α} {n : ℕ} {bs : List α} (hn : 0 < n)
    (h : s.read n = (some bs, s')) :
    bs ≠ [] ∧ bs = s.ready.take n ∧ s' = ⟨s.ready.drop n, s.coming.tail⟩ ∧
      s.stream = bs ++ s'.stream := by
  obtain ⟨h1, rfl⟩ := Prod.mk.inj h
  split at h1
  · cases h1
  · next hne =>
    cases h1
    refine ⟨?_, rfl, rfl, ?_⟩
    · rw [List.isEmpty_iff] at hne
      intro hnil
      rcases List.take_eq_nil_iff.1 hnil with h0 | h0
      · omega
      · exact hne h0
    · rw [s.stream_eq, Sock.stream, ← List.append_assoc, List.take_append_drop]

/-- A read call fails when nothing has arrived since everything was read. -/
theorem Sock.of_read_none {s s' : Sock α} {n : ℕ} (h : s.read n = (none, s')) :
    s.buf = [] ∧ batch s.coming 0 = [] ∧ s' = ⟨[], s.coming.tail⟩ ∧ s'.stream = s.stream := by
  obtain ⟨h1, rfl⟩ := Prod.mk.inj h
  split at h1
  · next hemp =>
    have hnil : s.ready = [] := List.isEmpty_iff.1 hemp
    have hboth := s.ready_eq ▸ hnil
    rw [List.append_eq_nil_iff] at hboth
    refine ⟨hboth.1, hboth.2, by rw [hnil, List.drop_nil], ?_⟩
    rw [s.stream_eq, Sock.stream, hnil, List.drop_nil]
  · cases h1

/-! ### Blocking reads -/

/-- On a blocking socket a read call waits until something is there, so no batch is empty. Where each batch
is what one call returns, the batches are the short counts of the calls, and any such counts are allowed. -/
def Sock.Blocking (s : Sock α) : Prop :=
  ∀ b ∈ s.coming, b ≠ []

instance [DecidableEq α] (s : Sock α) : Decidable s.Blocking :=
  inferInstanceAs (Decidable (∀ b ∈ s.coming, b ≠ []))

/-- Before the end of the stream, every call finds something. -/
theorem Sock.Blocking.batch_ne_nil {s : Sock α} (h : s.Blocking) {j : ℕ}
    (hj : s.buf.length + arrived s.coming j < s.stream.length) : batch s.coming j ≠ [] := by
  by_cases hlt : j < s.coming.length
  · have hmem : batch s.coming j ∈ s.coming := by
      rw [batch, List.getD_eq_getElem _ _ hlt]
      exact List.getElem_mem hlt
    exact h _ hmem
  · have hall : arrived s.coming j = s.coming.flatten.length := by
      rw [arrived, List.take_of_length_le (by omega)]
    rw [hall, Sock.stream, List.length_append] at hj
    omega

/-- Read calls leave the rest of the batches. -/
theorem Sock.Blocking.of_drop {s s' : Sock α} (h : s.Blocking) {m : ℕ}
    (hs : s'.coming = s.coming.drop m) : s'.Blocking := by
  intro b hb
  rw [hs] at hb
  exact h b (List.mem_of_mem_drop hb)

end Arrivals
