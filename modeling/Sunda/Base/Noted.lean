import Sunda.Base.SysV

/-!
# Queued messages with notes

A program sees the messages of a queue and nothing else. To say where a message came from, a model
attaches a note to it that no program reads. `plain` is the queue as the programs see it; they keep
working on that one, and the notes follow: `sent` is the noted queue behind a send, `received` the
one behind a receive, together with the note of the message that left.

Both look only at the plain queue that the program returned. `received_of_got` says that this is
right: for every type, the message that `msgrcv` removes is the one whose note is returned.
-/

namespace SysV

open Message

/-- A message and a note about it. -/
structure Noted (μ τ : Type*) where
  msg : μ
  note : τ
  deriving DecidableEq

variable {μ τ : Type*}

/-- The queue as the programs see it. -/
def plain (q : List (Noted μ τ)) : List μ := q.map Noted.msg

@[simp]
theorem plain_length (q : List (Noted μ τ)) : (plain q).length = q.length := List.length_map ..

/-- The messages by which `q'` is longer than `q`, with a note. -/
def added (q : List (Noted μ τ)) (q' : List μ) (note : τ) : List (Noted μ τ) :=
  (q'.drop q.length).map (⟨·, note⟩)

/-- The noted queue once a program has made `q'` of it by sending. -/
def sent (q : List (Noted μ τ)) (q' : List μ) (note : τ) : List (Noted μ τ) :=
  q ++ added q q' note

@[simp]
theorem added_self (q : List (Noted μ τ)) (note : τ) : added q (plain q) note = [] := by
  rw [added, ← plain_length, List.drop_length, List.map_nil]

@[simp]
theorem added_append (q : List (Noted μ τ)) (m : μ) (note : τ) :
    added q (plain q ++ [m]) note = [⟨m, note⟩] := by
  rw [added, ← plain_length, List.drop_left, List.map_singleton]

/-- Without one message there are only the others. -/
theorem remove_subset {α : Type*} (pre : List α) (x : α) (post : List α) :
    pre ++ post ⊆ pre ++ x :: post :=
  List.append_subset.2 ⟨List.subset_append_left .., fun _ hx ↦
    List.mem_append_right _ (List.mem_cons_of_mem _ hx)⟩

/-- The only message is the one taken out. -/
theorem remove_singleton {α : Type*} {a x : α} {pre post : List α} (h : [a] = pre ++ x :: post) :
    pre = [] ∧ x = a ∧ post = [] := by
  cases pre with
  | nil =>
    obtain ⟨rfl, rfl⟩ := List.cons.inj h
    exact ⟨rfl, rfl, rfl⟩
  | cons b pre => simp at h

variable [Message μ]

instance : Message (Noted μ τ) where
  mtype x := mtype x.msg
  msize x := msize x.msg

/-- A receive by type chooses by the messages alone. -/
theorem select_plain (typ : ℤ) (q : List (Noted μ τ)) : select typ (plain q) = select typ q := by
  have htypes : (plain q).map mtype = q.map mtype := by
    rw [plain, List.map_map]
    rfl
  have hfind (p : ℤ → Bool) :
      (plain q).findIdx? (fun m ↦ p (mtype m)) = q.findIdx? fun m ↦ p (mtype m) := by
    rw [plain, List.findIdx?_map]
    rfl
  rw [select, select, htypes, hfind (· == typ)]
  congr 1
  · exact hfind fun _ ↦ true
  · congr 2
    funext t
    exact hfind (· == t)

/-- What a program that left `rest` in the queue has received by type: the note of the message, and the
noted queue without it. -/
def received (typ : ℤ) (q : List (Noted μ τ)) (rest : List μ) : Option τ × List (Noted μ τ) :=
  if rest.length < q.length then
    match (select typ q).bind fun k ↦ q[k]?.map fun x ↦ (k, x) with
    | some (k, x) => (some x.note, q.eraseIdx k)
    | none => (none, q)
  else (none, q)

@[simp]
theorem received_self (typ : ℤ) (q : List (Noted μ τ)) : received typ q (plain q) = (none, q) := by
  rw [received, plain_length, if_neg (Nat.lt_irrefl _)]

/-- **The note of a received message.** Whatever type a program asks for, the message it gets stood
somewhere in the queue, and `received` takes that one. For a positive type it was the oldest of it. -/
theorem received_of_got {fault : Option Errno} {q : List (Noted μ τ)} {rest : List μ} {msgsz : ℕ}
    {typ : ℤ} {nowait : Bool} {m : μ} (h : msgrcv fault (plain q) msgsz typ nowait = .got m rest) :
    ∃ pre x post, q = pre ++ x :: post ∧ x.msg = m ∧ rest = plain (pre ++ post) ∧
      received typ q rest = (some x.note, pre ++ post) ∧ msize m ≤ msgsz ∧
      (0 < typ → mtype m = typ ∧ ∀ y ∈ pre, mtype y.msg ≠ typ) := by
  obtain ⟨k, hk, hget, rfl, hle⟩ := select_of_msgrcv_got h
  obtain ⟨x, hx, rfl⟩ : ∃ x, q[k]? = some x ∧ x.msg = m := by
    rwa [plain, List.getElem?_map, Option.map_eq_some_iff] at hget
  obtain ⟨hlt, rfl⟩ := List.getElem?_eq_some_iff.1 hx
  have hrest : (plain q).eraseIdx k = plain (q.take k ++ q.drop (k + 1)) := by
    rw [List.eraseIdx_eq_take_drop_succ, plain, plain, List.map_append, List.map_take, List.map_drop]
  have hshorter : ((plain q).eraseIdx k).length < q.length := by
    rw [List.length_eraseIdx, plain_length, if_pos hlt]
    omega
  refine ⟨q.take k, q[k], q.drop (k + 1), ?_, rfl, hrest, ?_, hle, fun htyp ↦ ?_⟩
  · rw [List.getElem_cons_drop, List.take_append_drop]
  · rw [select_plain] at hk
    rw [received, if_pos hshorter, hk]
    simp only [Option.bind_some, hx, Option.map_some, List.eraseIdx_eq_take_drop_succ]
  · -- the oldest message of a positive type is the one that `select` finds
    rw [select, if_neg (by omega), if_pos htyp] at hk
    obtain ⟨_, hty, hbefore⟩ := List.findIdx?_eq_some_iff_getElem.1 hk
    refine ⟨by simpa [plain] using hty, fun y hy ↦ ?_⟩
    obtain ⟨j, hj, rfl⟩ := List.mem_iff_getElem.1 hy
    rw [List.length_take] at hj
    rw [List.getElem_take]
    simpa [plain] using hbefore j (by omega)

end SysV
