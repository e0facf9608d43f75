import Sunda.Base.Noted

/-!
# The history of a queue

What was sent to a queue and what was received from it, next to the messages that are in it, all with the
number under which they were sent. `Ledger.InOrder` says that for each type the messages sent are those
received and then those in the queue, in this order: none is lost, none is there twice, and none overtakes
another one of its type.

Every `msgsnd` and every `msgrcv` keeps it, whatever type is asked for (`Ledger.InOrder.send`,
`Ledger.InOrder.receive`), since `msgrcv` takes the oldest message of the type that it takes
(`notMem_of_select`).

`Traffic` is a queue with what the receiving calls have handed to their callers. `Traffic.Ordered.call` is the
rule for any call that sends or receives once: those who ask for a type are handed messages of that type in
the order in which these were sent, each at most once.
-/

namespace SysV

open Message

variable {μ : Type*}

/-- A call leaves the queue alone or sends a message. -/
def Sends (q q' : List μ) : Prop := q' = q ∨ ∃ m, q' = q ++ [m]

/-- The history of a queue. -/
structure Ledger (μ : Type*) where
  sent : List (Noted μ ℕ)
  got : List (Noted μ ℕ)
  que : List (Noted μ ℕ)

namespace Ledger

/-- The messages of a queue, as if they had just been sent. -/
def start (q : List μ) : Ledger μ :=
  ⟨q.mapIdx fun i m ↦ ⟨m, i⟩, [], q.mapIdx fun i m ↦ ⟨m, i⟩⟩

/-- A program has made `q'` of the queue by sending. -/
def send (l : Ledger μ) (q' : List μ) : Ledger μ where
  sent := l.sent ++ added l.que q' l.sent.length
  got := l.got
  que := SysV.sent l.que q' l.sent.length

/-- The messages are numbered as they were sent. -/
def Numbered (l : Ledger μ) : Prop := l.sent.map Noted.note = List.range l.sent.length

theorem plain_start (q : List μ) : plain (start q).que = q :=
  List.ext_getElem (by simp [plain, start]) fun i _ _ ↦ by simp [plain, start]

theorem numbered_start (q : List μ) : (start q).Numbered :=
  List.ext_getElem (by simp [start]) fun i _ _ ↦ by simp [start]

variable {l : Ledger μ}

theorem plain_send {q' : List μ} (h : Sends (plain l.que) q') : plain (l.send q').que = q' := by
  rw [Ledger.send, SysV.sent, plain, List.map_append]
  rcases h with rfl | ⟨m, rfl⟩
  · rw [added_self, List.map_nil, List.append_nil]
    rfl
  · rw [added_append]
    rfl

theorem Numbered.send (h : l.Numbered) {q' : List μ} (hq : Sends (plain l.que) q') : (l.send q').Numbered := by
  rw [Numbered, Ledger.send]
  dsimp only
  rcases hq with rfl | ⟨m, rfl⟩
  · rwa [added_self, List.append_nil]
  · rw [added_append, List.map_append, h, List.length_append, List.length_singleton, List.range_succ]
    rfl

end Ledger

/-! ### Messages of a type -/

variable [Message μ]

/-- A message that is selected is the oldest of its own type. -/
theorem notMem_of_select {typ : ℤ} {q : List μ} {k : ℕ} {m : μ} (h : select typ q = some k) (hm : q[k]? = some m) :
    ∀ x ∈ q.take k, mtype x ≠ mtype m := by
  have hfirst {t : ℤ} (hfind : q.findIdx? (fun m ↦ mtype m == t) = some k) : ∀ x ∈ q.take k, mtype x ≠ mtype m := by
    obtain ⟨hlt, hty, hbefore⟩ := List.findIdx?_eq_some_iff_getElem.1 hfind
    obtain ⟨_, rfl⟩ := List.getElem?_eq_some_iff.1 hm
    intro x hx
    obtain ⟨j, hj, rfl⟩ := List.mem_iff_getElem.1 hx
    rw [List.length_take] at hj
    have hne := hbefore j (by omega)
    rw [List.getElem_take, beq_iff_eq.1 hty]
    simpa using hne
  rw [select] at h
  split at h
  · obtain ⟨hlt, -, hbefore⟩ := List.findIdx?_eq_some_iff_getElem.1 h
    cases k with
    | zero => exact fun x hx ↦ by cases hx
    | succ k => exact absurd rfl (hbefore 0 (Nat.succ_pos k))
  · split at h
    · exact hfirst h
    · obtain ⟨t, -, hfind⟩ := Option.bind_eq_some_iff.1 h
      exact hfirst hfind

/-- A call leaves the queue alone or receives a message, asking for the type. -/
def Receives (typ : ℤ) (q rest : List μ) : Prop :=
  rest = q ∨ ∃ fault msgsz nowait m, msgrcv fault q msgsz typ nowait = .got m rest

namespace Ledger

/-- The message that a program took which left `rest`, asking for the type. -/
def taken (l : Ledger μ) (typ : ℤ) (rest : List μ) : Option (Noted μ ℕ) :=
  if rest.length < l.que.length then (select typ l.que).bind fun k ↦ l.que[k]? else none

/-- A program has left `rest` in the queue by receiving. -/
def receive (l : Ledger μ) (typ : ℤ) (rest : List μ) : Ledger μ where
  sent := l.sent
  got := l.got ++ (l.taken typ rest).toList
  que := (received typ l.que rest).2

/-- The messages of a type. -/
def ofType (t : ℤ) (q : List (Noted μ ℕ)) : List (Noted μ ℕ) := q.filter fun x ↦ mtype x.msg = t

theorem ofType_append (t : ℤ) (q q' : List (Noted μ ℕ)) : ofType t (q ++ q') = ofType t q ++ ofType t q' :=
  List.filter_append ..

/-- **For each type, the messages sent are those received and those in the queue**, in their order. -/
def InOrder (l : Ledger μ) : Prop := ∀ t, ofType t l.sent = ofType t l.got ++ ofType t l.que

variable {l : Ledger μ}

theorem inOrder_start (q : List μ) : (start q).InOrder := fun _ ↦ rfl

theorem InOrder.send (h : l.InOrder) (q' : List μ) : (l.send q').InOrder := fun t ↦ by
  rw [Ledger.send, SysV.sent, ofType_append, ofType_append, h t, List.append_assoc]

/-- What a receive takes was the oldest message of its type. -/
theorem taken_cases (l : Ledger μ) (typ : ℤ) (rest : List μ) :
    l.taken typ rest = none ∧ (received typ l.que rest).2 = l.que ∨
      ∃ pre x post, l.taken typ rest = some x ∧ l.que = pre ++ x :: post ∧
        (received typ l.que rest).2 = pre ++ post ∧ ∀ y ∈ pre, mtype y.msg ≠ mtype x.msg := by
  rw [taken, received]
  split
  · cases hk : select typ l.que with
    | none => exact .inl ⟨rfl, rfl⟩
    | some k =>
      cases hx : l.que[k]? with
      | none => exact .inl ⟨hx, by simp [hx]⟩
      | some x =>
        obtain ⟨hlt, rfl⟩ := List.getElem?_eq_some_iff.1 hx
        refine .inr ⟨l.que.take k, l.que[k], l.que.drop (k + 1), hx, ?_, ?_, notMem_of_select hk hx⟩
        · rw [List.getElem_cons_drop, List.take_append_drop]
        · simp only [Option.bind_some, hx, Option.map_some, List.eraseIdx_eq_take_drop_succ]
  · exact .inl ⟨rfl, rfl⟩

theorem InOrder.receive (h : l.InOrder) (typ : ℤ) (rest : List μ) : (l.receive typ rest).InOrder := fun t ↦ by
  rw [Ledger.receive]
  dsimp only
  rcases l.taken_cases typ rest with ⟨hnone, hque⟩ | ⟨pre, x, post, hsome, hque, hque', hfirst⟩
  · rw [hnone, hque, Option.toList_none, List.append_nil, h t]
  · rw [hsome, hque', h t, hque, Option.toList_some, ofType_append, ofType_append, ofType_append,
      List.append_assoc, List.append_cancel_left_eq, ← List.singleton_append (l := post), ofType_append]
    by_cases hx : mtype x.msg = t
    · have hpre : ofType t pre = [] := List.filter_eq_nil_iff.2 fun y hy ↦ by simpa [hx] using hfirst y hy
      rw [hpre, List.nil_append, List.nil_append]
    · have hx' : ofType t [x] = [] := List.filter_eq_nil_iff.2 fun y hy ↦ by
        rw [List.mem_singleton.1 hy]
        simpa using hx
      rw [hx', List.nil_append, List.nil_append]

theorem plain_receive {typ : ℤ} {rest : List μ} (h : Receives typ (plain l.que) rest) :
    plain (l.receive typ rest).que = rest := by
  rcases h with rfl | ⟨fault, msgsz, nowait, m, hrcv⟩
  · rw [Ledger.receive, received_self]
  · obtain ⟨pre, x, post, -, -, hrest, hrec, -⟩ := received_of_got hrcv
    rw [Ledger.receive, hrec, hrest]

/-- The message that `msgrcv` returns is the one taken, and it has the type if that is positive. -/
theorem taken_of_got {typ : ℤ} {rest : List μ} {fault : Option Errno} {msgsz : ℕ} {nowait : Bool} {m : μ}
    (h : msgrcv fault (plain l.que) msgsz typ nowait = .got m rest) :
    ∃ x, l.taken typ rest = some x ∧ x.msg = m ∧ (0 < typ → mtype x.msg = typ) := by
  obtain ⟨k, hk, hget, hrest, -⟩ := select_of_msgrcv_got h
  rw [select_plain] at hk
  obtain ⟨x, hx, rfl⟩ : ∃ x, l.que[k]? = some x ∧ x.msg = m := by
    rwa [plain, List.getElem?_map, Option.map_eq_some_iff] at hget
  obtain ⟨hlt, -⟩ := List.getElem?_eq_some_iff.1 hx
  have hshorter : rest.length < l.que.length := by
    rw [hrest, List.length_eraseIdx, plain_length, if_pos hlt]
    omega
  exact ⟨x, by rw [taken, if_pos hshorter, hk, Option.bind_some, hx], rfl, fun htyp ↦ (of_msgrcv_got htyp h).1⟩

end Ledger

/-! ### Calls that use a queue -/

variable {β : Type*}

/-- How a call uses the queue. -/
inductive Use
  | send
  | receive (typ : ℤ)
  deriving DecidableEq

/-- A call makes `q'` of the queue by such a use, and hands over `hand`: nothing, or what `of` makes of the
message that it has received. -/
def Calls (of : μ → β) : Use → List μ → List μ → Option β → Prop
  | .send, q, q', hand => Sends q q' ∧ hand = none
  | .receive typ, q, q', hand => q' = q ∧ hand = none ∨ ∃ fault msgsz nowait m,
      msgrcv fault q msgsz typ nowait = .got m q' ∧ (hand = none ∨ hand = some (of m))

/-- A queue, what was handed over under which type, and the history. -/
structure Traffic (μ β : Type*) where
  que : List μ
  handed : List (ℤ × β)
  ledger : Ledger μ

namespace Traffic

/-- The queue before the first call. -/
def start (q : List μ) : Traffic μ β := ⟨q, [], .start q⟩

/-- A call has used the queue. -/
def call (s : Traffic μ β) (u : Use) (q' : List μ) (hand : Option β) : Traffic μ β :=
  match u with
  | .send => { s with que := q', ledger := s.ledger.send q' }
  | .receive typ =>
    { que := q', handed := s.handed ++ hand.toList.map (typ, ·), ledger := s.ledger.receive typ q' }

/-- What those were handed who asked for the type. -/
def handedTo (t : ℤ) (s : Traffic μ β) : List β := (s.handed.filter (·.1 = t)).map Prod.snd

/-- Nothing is lost, doubled or overtaken, and what is handed over to those who ask for a type are messages of
that type in the order in which they were taken. -/
structure Ordered (of : μ → β) (s : Traffic μ β) : Prop where
  plain : plain s.ledger.que = s.que
  inOrder : s.ledger.InOrder
  numbered : s.ledger.Numbered
  handed : ∀ t, 0 < t → (s.handedTo t).Sublist ((Ledger.ofType t s.ledger.got).map fun x ↦ of x.msg)

theorem ordered_start (of : μ → β) (q : List μ) : Ordered of (start q) where
  plain := Ledger.plain_start q
  inOrder := Ledger.inOrder_start q
  numbered := Ledger.numbered_start q
  handed _ _ := List.Sublist.refl []

variable {of : μ → β} {s : Traffic μ β}

/-- **The rule for a call.** -/
theorem Ordered.call (h : s.Ordered of) {u : Use} {q' : List μ} {hand : Option β}
    (hcall : Calls of u s.que q' hand) : (s.call u q' hand).Ordered of := by
  rw [← h.plain] at hcall
  cases u with
  | send => exact ⟨Ledger.plain_send hcall.1, h.inOrder.send q', h.numbered.send hcall.1, h.handed⟩
  | receive typ =>
    refine ⟨Ledger.plain_receive ?_, h.inOrder.receive typ q', h.numbered, fun t ht ↦ ?_⟩
    · rcases hcall with ⟨rfl, -⟩ | ⟨fault, msgsz, nowait, m, hgot, -⟩
      · exact .inl rfl
      · exact .inr ⟨fault, msgsz, nowait, m, hgot⟩
    · have hnew : ((hand.toList.map (typ, ·)).filter (·.1 = t)).map Prod.snd |>.Sublist
          ((Ledger.ofType t (s.ledger.taken typ q').toList).map fun x ↦ of x.msg) := by
        rcases hcall with ⟨-, rfl⟩ | ⟨fault, msgsz, nowait, m, hgot, rfl | rfl⟩
        · exact List.nil_sublist _
        · exact List.nil_sublist _
        · obtain ⟨x, hx, rfl, htype⟩ := Ledger.taken_of_got hgot
          by_cases hty : typ = t
          · subst hty
            simp [hx, Ledger.ofType, htype ht]
          · simp [hty]
      have hboth := (h.handed t ht).append hnew
      rwa [← List.map_append, ← Ledger.ofType_append, handedTo, ← List.map_append, ← List.filter_append] at hboth

/-- **In the order in which they were sent**, each at most once. -/
theorem Ordered.sublist (h : s.Ordered of) {t : ℤ} (ht : 0 < t) :
    (s.handedTo t).Sublist ((Ledger.ofType t s.ledger.sent).map fun x ↦ of x.msg) := by
  rw [h.inOrder t, List.map_append]
  exact (h.handed t ht).trans (List.sublist_append_left _ _)

end Traffic

end SysV
