import Sunda.Base.Sharded
import Sunda.Comm.Commserver.TableRep

/-!
# What a time-out closes

`clean_time_out_connect` takes a table whose shards are in the order of their accept times, so the
connections that have reached the idle time are a front of their shard. It deletes the first slot
until that is free or holds a young connection.

`CleanWorks` is the condition on a shard under which this is right. `CommClearFd(i, 0)` shifts the
slots up to `MAX_FD_NUM - 1 - i` only: in shard `0` that is all of them, and in another one all that
are occupied as long as the shard is not nearly full. Beyond that the slots from there on never move
(`cleanShard_slots`), so the deletions neither reach the end of the shard nor make it shorter.
-/

namespace Sunda

open WordMem

variable {m : WordMem} {idletime now : BitVec 32} {i k num : ℕ} {l : List ConnectHandle}
  {T : ℕ → List ConnectHandle} {r : WordMem × List (BitVec 32)}

/-- The age of a connection, in seconds, at a time that is not before it was accepted. -/
def ConnectHandle.age (now : BitVec 32) (c : ConnectHandle) : ℕ :=
  now.toNat - c.utime.toNat

/-- The connection has reached the idle time. -/
def ConnectHandle.aged (idletime now : BitVec 32) (c : ConnectHandle) : Bool :=
  idletime.toNat ≤ c.age now

/-- The connections were accepted in this order, and none after `now`. -/
structure AcceptedBy (now : BitVec 32) (l : List ConnectHandle) : Prop where
  order : l.Pairwise (·.utime ≤ ·.utime)
  past : ∀ c ∈ l, c.utime ≤ now

/-- What is claimed: the connections that have reached the idle time are closed, each once, and the
shards hold the younger ones, in order. -/
structure AgedClosed (num : ℕ) (idletime now : BitVec 32) (T : ℕ → List ConnectHandle)
    (r : WordMem × List (BitVec 32)) : Prop where
  closed : r.2.Perm
    ((List.range num).flatMap fun i ↦ ((T i).filter (·.aged idletime now)).map (·.fd))
  left : TableRep r.1 num fun i ↦ (T i).filter (!·.aged idletime now)

/-- The shards that `clean_time_out_connect` cleans: nothing is to be closed, or the block that
`CommClearFd` shifts has all connections in it. What is left is a full shard with one connection to
close, where the slots that are not shifted are all alike. -/
def CleanWorks (idletime now : BitVec 32) (i : ℕ) (l : List ConnectHandle) : Prop :=
  (∀ c ∈ l, c.aged idletime now = false) ∨ i = 0 ∨ l.length + i < maxFdNum ∨
    l.length = maxFdNum ∧ (∀ c ∈ l.tail, c.aged idletime now = false) ∧
      ∃ c, ∀ d ∈ l.drop (maxFdNum - 1 - i), d = c

/-! ### Accept times -/

theorem ConnectHandle.aged_iff {c : ConnectHandle} :
    c.aged idletime now = true ↔ idletime.toNat ≤ c.age now :=
  decide_eq_true_iff

theorem ConnectHandle.expired_eq_aged {c : ConnectHandle} (h : c.utime ≤ now) :
    c.expired idletime now = c.aged idletime now := by
  have hsub : (now - c.utime).toNat = c.age now := by
    rw [BitVec.le_def] at h
    rw [age, BitVec.toNat_sub_of_le h]
  rw [Bool.eq_iff_iff, aged_iff, ← hsub, ← BitVec.le_def]
  exact decide_eq_true_iff

namespace AcceptedBy

theorem tail {c : ConnectHandle} (h : AcceptedBy now (c :: l)) : AcceptedBy now l where
  order := (List.pairwise_cons.1 h.order).2
  past d hd := h.past d (List.mem_cons_of_mem _ hd)

/-- A connection is not younger than those behind it. -/
theorem aged_front (h : AcceptedBy now l) :
    l.Pairwise fun a b ↦ b.aged idletime now → a.aged idletime now :=
  h.order.imp fun {a b} hab hb ↦ by
    rw [BitVec.le_def] at hab
    rw [ConnectHandle.aged_iff, ConnectHandle.age] at hb ⊢
    omega

theorem takeWhile_expired (h : AcceptedBy now l) :
    l.takeWhile (·.expired idletime now) = l.filter (·.aged idletime now) := by
  rw [Sharded.filter_eq_takeWhile h.aged_front]
  induction l with
  | nil => rfl
  | cons c l ih =>
    rw [List.takeWhile_cons, List.takeWhile_cons, ih h.tail,
      ConnectHandle.expired_eq_aged (h.past c List.mem_cons_self)]

theorem dropWhile_expired (h : AcceptedBy now l) :
    l.dropWhile (·.expired idletime now) = l.filter (!·.aged idletime now) := by
  rw [Sharded.filter_not_eq_dropWhile h.aged_front]
  induction l with
  | nil => rfl
  | cons c l ih =>
    rw [List.dropWhile_cons, List.dropWhile_cons, ih h.tail,
      ConnectHandle.expired_eq_aged (h.past c List.mem_cons_self)]

end AcceptedBy

/-! ### Shards that are cleaned -/

namespace ShardRep

/-- In a full shard a deletion is right if the slots it does not shift are all alike. -/
theorem commClearFd_alike {a c : ConnectHandle} (h : ShardRep m i (a :: l)) (hi : i < maxFdNum)
    (hfull : (a :: l).length = maxFdNum) (halike : ∀ d ∈ (a :: l).drop (maxFdNum - 1 - i), d = c) :
    ShardRep (commClearFd m i 0) i l where
  length_le := by
    rw [List.length_cons] at hfull
    omega
  slot t ht := by
    rw [List.length_cons] at hfull
    rw [connect_commClearFd m i 0 (by omega)]
    split
    · exact h.slot (t + 1) (by rw [List.length_cons]; omega)
    · next hout =>
      -- both slots are behind the block
      have hmem : ∀ u, maxFdNum - 1 - i ≤ u → (hu : u < (a :: l).length) → (a :: l)[u] = c :=
        fun u hle hu ↦ halike _ (List.mem_drop_iff_getElem.2
          ⟨u - (maxFdNum - 1 - i), by omega, by simp only [Nat.add_sub_cancel' hle]⟩)
      have hlen : (a :: l).length = maxFdNum := by rw [List.length_cons, hfull]
      rw [h.slot t (by omega), hmem t (by omega) (by omega)]
      exact (hmem (t + 1) (by omega) (by omega)).symm
  open_fd d hd := h.open_fd d (List.mem_cons_of_mem _ hd)
  free t ht ht' := by
    rw [List.length_cons] at hfull
    obtain rfl : t = maxFdNum - 1 := by omega
    exact fd_initConnect _ i (maxFdNum - 1)

/-- Such a shard loses its first connection, if the others have not expired. -/
theorem cleanShard_alike {a c : ConnectHandle} {fuel : ℕ} (h : ShardRep m i (a :: l))
    (hi : i < maxFdNum) (hfuel : (a :: l).length < fuel) (hfull : (a :: l).length = maxFdNum)
    (halike : ∀ d ∈ (a :: l).drop (maxFdNum - 1 - i), d = c)
    (hyoung : ¬ ∃ d ∈ l.head?, d.expired idletime now) :
    ∃ m', cleanShard idletime now i fuel m =
        some (m', ((a :: l).takeWhile (·.expired idletime now)).map (·.fd)) ∧
      ShardRep m' i ((a :: l).dropWhile (·.expired idletime now)) ∧ SameElsewhere m m' i := by
  by_cases ha : a.expired idletime now = true
  · -- one pass that closes it, and one that stops at the next
    obtain ⟨fuel, rfl⟩ : ∃ n, fuel = n + 1 := ⟨fuel - 1, by omega⟩
    have hlt : l.length < fuel := by
      rw [List.length_cons] at hfuel
      omega
    have hrest := h.commClearFd_alike hi hfull halike
    have hfd : getCommClientFD m i 0 = a.fd := h.fd_eq (j := 0) (by simp)
    obtain ⟨m', hclean, hrep, hsame⟩ := hrest.cleanShard_rep hi hlt fun hhead ↦ absurd hhead hyoung
    refine ⟨m', ?_, ?_, (sameElsewhere_commClearFd m (Nat.zero_le i) hi).trans hsame⟩
    · rw [cleanShard, if_pos (h.timedOut_cons.2 ha), hclean, Option.map_some, hfd,
        List.takeWhile_cons_of_pos ha, List.map_cons]
    · rwa [List.dropWhile_cons_of_pos ha]
  · refine h.cleanShard_rep hi hfuel fun hhead ↦ ?_
    obtain ⟨d, hd, hexp⟩ := hhead
    obtain rfl : a = d := Option.some.inj hd
    exact absurd hexp ha

end ShardRep

/-- Where nothing is to be closed, the first connection has not expired. -/
theorem AcceptedBy.not_expired_head (h : AcceptedBy now l)
    (hall : ∀ c ∈ l, c.aged idletime now = false) : ¬ ∃ c ∈ l.head?, c.expired idletime now := by
  rintro ⟨c, hc, hexp⟩
  have hmem := List.mem_of_mem_head? hc
  rw [ConnectHandle.expired_eq_aged (h.past c hmem), hall c hmem] at hexp
  cases hexp

/-- **The inner loop** closes what has reached the idle time, in a shard with `CleanWorks`. -/
theorem ShardRep.cleanShard_aged {fuel : ℕ} (h : ShardRep m i l) (hi : i < maxFdNum)
    (hfuel : l.length < fuel) (hacc : AcceptedBy now l) (hworks : CleanWorks idletime now i l) :
    ∃ m', cleanShard idletime now i fuel m =
        some (m', (l.filter (·.aged idletime now)).map (·.fd)) ∧
      ShardRep m' i (l.filter (!·.aged idletime now)) ∧ SameElsewhere m m' i := by
  rw [← hacc.takeWhile_expired, ← hacc.dropWhile_expired]
  rcases hworks with hall | hzero | hroom | ⟨hfull, htail, c, halike⟩
  · exact h.cleanShard_rep hi hfuel fun hhead ↦ absurd hhead (hacc.not_expired_head hall)
  · exact h.cleanShard_rep hi hfuel fun _ ↦ .inl hzero.symm
  · -- the block has all connections in it, and keeps them as there get fewer
    refine h.cleanShard_rep hi hfuel fun _ ↦ ?_
    rw [ClearInRange]
    omega
  · cases l with
    | nil => cases hfull
    | cons a l =>
      exact h.cleanShard_alike hi hfuel hfull halike (hacc.tail.not_expired_head htail)

/-! ### Shards that are not cleaned -/

/-- The inner loop stays in its shard. -/
theorem sameElsewhere_cleanShard {fuel : ℕ} (h : cleanShard idletime now i fuel m = some r)
    (hi : i < maxFdNum) : SameElsewhere m r.1 i := by
  induction fuel generalizing m r with
  | zero => cases h
  | succ fuel ih =>
    rw [cleanShard] at h
    split at h
    · obtain ⟨r', hr', rfl⟩ := Option.map_eq_some_iff.1 h
      have hrest := ih hr'
      exact (sameElsewhere_commClearFd m (Nat.zero_le i) hi).trans hrest
    · obtain rfl := Option.some.inj h
      exact .refl m i

/-- The slots after the inner loop. Those behind the block are where they were, and the ones in front
hold what came from as many slots further back, but not from behind the block. -/
theorem cleanShard_slots {fuel : ℕ} (h : cleanShard idletime now i fuel m = some r) (hi : 0 < i) :
    ∃ s, ∀ t < maxFdNum - 1,
      connect r.1 i t = connect m i (max t (min (t + s) (maxFdNum - 1 - i))) := by
  induction fuel generalizing m r with
  | zero => cases h
  | succ fuel ih =>
    rw [cleanShard] at h
    split at h
    · obtain ⟨r', hr', rfl⟩ := Option.map_eq_some_iff.1 h
      obtain ⟨s, hs⟩ := ih hr'
      -- this pass is the first one, so it reads the slot that the others lead to
      refine ⟨s + 1, fun t ht ↦ ?_⟩
      rw [hs t ht, connect_commClearFd m i 0 (by rw [maxFdNum] at *; omega)]
      split
      · congr 1
        rw [maxFdNum] at *
        omega
      · congr 1
        rw [maxFdNum] at *
        omega
    · obtain rfl := Option.some.inj h
      refine ⟨0, fun t ht ↦ ?_⟩
      congr 1
      omega

/-- The shards in front of the outer loop stay as they are. -/
theorem cleanShards_front {fuel n t : ℕ} (h : cleanShards idletime now fuel n i m = some r)
    (hn : i + n ≤ maxFdNum) (hk : k < i) (ht : t < maxFdNum) : connect r.1 k t = connect m k t := by
  induction n generalizing m i r with
  | zero =>
    obtain rfl := Option.some.inj h
    rfl
  | succ n ih =>
    obtain ⟨r1, hr1, h⟩ := Option.bind_eq_some_iff.1 h
    obtain ⟨r2, hr2, rfl⟩ := Option.map_eq_some_iff.1 h
    have hsame := sameElsewhere_cleanShard hr1 (by omega)
    exact (ih hr2 (by omega) (by omega)).trans (hsame.connect (by omega) ht)

/-- The slots of a shard after the outer loop. -/
theorem cleanShards_slots {fuel n : ℕ} (h : cleanShards idletime now fuel n i m = some r)
    (hn : i + n ≤ maxFdNum) (hk : i ≤ k) (hk' : k < i + n) (hpos : 0 < k) :
    ∃ s, ∀ t < maxFdNum - 1,
      connect r.1 k t = connect m k (max t (min (t + s) (maxFdNum - 1 - k))) := by
  induction n generalizing m i r with
  | zero => omega
  | succ n ih =>
    obtain ⟨r1, hr1, h⟩ := Option.bind_eq_some_iff.1 h
    obtain ⟨r2, hr2, rfl⟩ := Option.map_eq_some_iff.1 h
    have hsame := sameElsewhere_cleanShard hr1 (by omega)
    rcases Nat.eq_or_lt_of_le hk with rfl | hlt
    · -- the shard is cleaned now, and the rest of the loop leaves it alone
      obtain ⟨s, hs⟩ := cleanShard_slots hr1 hpos
      refine ⟨s, fun t ht ↦ ?_⟩
      have hlast : t < maxFdNum := Nat.lt_of_lt_of_le ht (Nat.sub_le _ _)
      rw [← hs t ht]
      have hfront := cleanShards_front hr2 (by omega) (Nat.lt_succ_self i) hlast
      exact hfront
    · obtain ⟨s, hs⟩ := ih hr2 (by omega) hlt (by omega)
      refine ⟨s, fun t ht ↦ ?_⟩
      have hslot : max t (min (t + s) (maxFdNum - 1 - k)) < maxFdNum := by omega
      rw [hs t ht]
      exact hsame.connect (Nat.ne_of_gt hlt) hslot

namespace ShardRep

variable {m' : WordMem} {s : ℕ} {l' : List ConnectHandle}

/-- A shard whose last connections are behind the block becomes shorter only if it was full, as the
last slot is freed. -/
theorem length_of_slots (h : ShardRep m i l) (h' : ShardRep m' i l')
    (hlong : maxFdNum ≤ l.length + i)
    (hslots : ∀ t < maxFdNum - 1,
      connect m' i t = connect m i (max t (min (t + s) (maxFdNum - 1 - i))))
    (hshort : l'.length < l.length) : l'.length = maxFdNum - 1 := by
  have hle := h.length_le
  by_contra hne
  have hlt : l'.length < maxFdNum - 1 := by omega
  -- the first free slot would have come from an occupied one
  have hoccupied : max l'.length (min (l'.length + s) (maxFdNum - 1 - i)) < l.length := by omega
  have hslot := congrArg ConnectHandle.fd (hslots l'.length hlt)
  exact h.fd_ne hoccupied (hslot.symm.trans (h'.free l'.length (Nat.le_refl _) (by omega)))

/-- If only the first connection of a full shard is gone, the slots from the end of the block on are
all alike. -/
theorem alike_of_slots {a : ConnectHandle} (h : ShardRep m i (a :: l)) (h' : ShardRep m' i l)
    (hfull : (a :: l).length = maxFdNum)
    (hslots : ∀ t < maxFdNum - 1,
      connect m' i t = connect m i (max t (min (t + s) (maxFdNum - 1 - i)))) :
    ∃ c, ∀ d ∈ (a :: l).drop (maxFdNum - 1 - i), d = c := by
  have hlen : l.length = maxFdNum - 1 := by rw [← hfull, List.length_cons, Nat.add_sub_cancel]
  have hstep : ∀ t, maxFdNum - 1 - i ≤ t → t < maxFdNum - 1 →
      connect m i (t + 1) = connect m i t := by
    intro t hle ht
    have hstay : max t (min (t + s) (maxFdNum - 1 - i)) = t := by omega
    rw [← hstay, ← hslots t ht, h'.slot t (by omega), hstay]
    exact h.slot (t + 1) (by omega)
  -- from the end of the block on, each slot is as the one before
  have hall : ∀ t, maxFdNum - 1 - i ≤ t → t < maxFdNum →
      connect m i t = connect m i (maxFdNum - 1 - i) := by
    intro t hle
    induction t, hle using Nat.le_induction with
    | base => exact fun _ ↦ rfl
    | succ t hle ih => exact fun ht ↦ (hstep t hle (by omega)).trans (ih (by omega))
  refine ⟨connect m i (maxFdNum - 1 - i), fun d hd ↦ ?_⟩
  obtain ⟨j, hj, rfl⟩ := List.mem_drop_iff_getElem.1 hd
  have hj' : maxFdNum - 1 - i + j < (a :: l).length := by omega
  rw [← h.slot _ hj']
  exact hall _ (by omega) (by omega)

/-- A shard that ends up with its young connections has `CleanWorks`. -/
theorem cleanWorks_of_slots (h : ShardRep m i l) (hacc : AcceptedBy now l)
    (hslots : ∀ t < maxFdNum - 1,
      connect m' i t = connect m i (max t (min (t + s) (maxFdNum - 1 - i))))
    (h' : ShardRep m' i (l.filter (!·.aged idletime now))) : CleanWorks idletime now i l := by
  by_contra hnot
  simp only [CleanWorks, not_or, not_forall, not_lt, Bool.not_eq_false, exists_prop] at hnot
  obtain ⟨⟨c, hc, haged⟩, hi, hlong, halike⟩ := hnot
  have hle := h.length_le
  have hshort : (l.filter (!·.aged idletime now)).length < l.length :=
    List.length_filter_lt_length_iff_exists.2 ⟨c, hc, by simpa using haged⟩
  have hlast := h.length_of_slots h' hlong hslots hshort
  have hfull : l.length = maxFdNum := by omega
  cases l with
  | nil => cases hc
  | cons a l =>
    -- the aged connections are in front, so the first one is the only one
    have ha : a.aged idletime now = true := by
      rcases List.mem_cons.1 hc with rfl | hmem
      · exact haged
      · exact (List.pairwise_cons.1 hacc.aged_front).1 c hmem haged
    rw [List.filter_cons_of_neg (by simpa using ha)] at h' hlast
    have hyoung : l.filter (!·.aged idletime now) = l :=
      List.filter_sublist.eq_of_length (by rw [hlast, ← hfull, List.length_cons, Nat.add_sub_cancel])
    rw [hyoung] at h'
    refine halike ⟨hfull, fun d hd ↦ ?_, h.alike_of_slots h' hfull hslots⟩
    simpa using List.filter_eq_self.1 hyoung d hd

end ShardRep

/-! ### The table -/

/-- A table that is left with its young connections has `CleanWorks` in each shard. -/
theorem TableRep.cleanWorks {fuel : ℕ} (h : TableRep m num T) (hnum : num ≤ maxTreadNum)
    (hacc : ∀ i < num, AcceptedBy now (T i))
    (hclean : cleanTimeOutConnect m num idletime now fuel = some r)
    (hleft : TableRep r.1 num fun i ↦ (T i).filter (!·.aged idletime now)) (hi : i < num) :
    CleanWorks idletime now i (T i) := by
  rcases Nat.eq_zero_or_pos i with rfl | hpos
  · exact .inr (.inl rfl)
  · rw [maxTreadNum] at hnum
    obtain ⟨s, hslots⟩ := cleanShards_slots hclean (by rw [maxFdNum]; omega) (Nat.zero_le i)
      (by omega) hpos
    exact (h i hi).cleanWorks_of_slots (hacc i hi) hslots (hleft i hi)

/-- **What a time-out closes.** `clean_time_out_connect` ends, closes what has reached the idle time
and keeps the younger connections if and only if every shard has `CleanWorks`. -/
theorem clean_closes_aged_iff (hnum : num ≤ maxTreadNum) (h : TableRep m num T)
    (hacc : ∀ i < num, AcceptedBy now (T i)) :
    (∃ fuel r, cleanTimeOutConnect m num idletime now fuel = some r ∧
      AgedClosed num idletime now T r) ↔ ∀ i < num, CleanWorks idletime now i (T i) := by
  constructor
  · rintro ⟨fuel, r, hclean, hr⟩ i hi
    exact h.cleanWorks hnum hacc hclean hr.left hi
  · intro hworks
    rw [maxTreadNum] at hnum
    have heach : ∀ i < num, ∀ m, ShardRep m i (T i) →
        ∃ m', cleanShard idletime now i (maxFdNum + 1) m =
            some (m', ((T i).filter (·.aged idletime now)).map (·.fd)) ∧
          ShardRep m' i ((T i).filter (!·.aged idletime now)) ∧ SameElsewhere m m' i :=
      fun i hi m1 h1 ↦ h1.cleanShard_aged (by rw [maxFdNum]; omega)
        (Nat.lt_succ_of_le h1.length_le) (hacc i hi) (hworks i hi)
    obtain ⟨m', hclean, hleft, -⟩ := h.cleanTimeOutConnect_each heach
    exact ⟨_, _, hclean, ⟨.refl _, hleft⟩⟩

/-- Two connections in the second of two shards: the first one has reached the idle time and is
closed. -/
theorem clean_closes_aged_iff_two : ∃ m T fuel r,
    T 1 = [⟨1, 0, 100, fdStatReg⟩, ⟨3, 1, 150, fdStatReg⟩] ∧
    cleanTimeOutConnect m 2 60 165 fuel = some r ∧ AgedClosed 2 60 165 T r ∧ r.2 = [1] := by
  have h1 : 1 < 2 ^ 31 := by decide
  have h3 : 3 < 2 ^ 31 := by decide
  obtain ⟨m1, -, hT1, -⟩ := (commInit_rep 2).1.newAccept_rep (by decide) h1 (by decide) 0 100
  obtain ⟨m, -, hT2, -⟩ := hT1.newAccept_rep (by decide) h3 (by decide) 1 150
  have hT : TableRep m 2 (Function.update (fun _ ↦ []) 1
      [⟨1, 0, 100, fdStatReg⟩, ⟨3, 1, 150, fdStatReg⟩]) := fun i hi ↦ by
    obtain rfl | rfl : i = 0 ∨ i = 1 := by omega
    · exact hT2 0 hi
    · exact hT2 1 hi
  have hacc : ∀ i < 2, AcceptedBy 165 (Function.update (fun _ ↦ []) 1
      [⟨1, 0, 100, fdStatReg⟩, ⟨3, 1, 150, fdStatReg⟩] i) := fun i hi ↦ by
    obtain rfl | rfl : i = 0 ∨ i = 1 := by omega
    · exact ⟨List.Pairwise.nil, by decide⟩
    · exact ⟨by decide, by decide⟩
  have hworks : ∀ i < 2, CleanWorks 60 165 i (Function.update (fun _ ↦ []) 1
      [⟨1, 0, 100, fdStatReg⟩, ⟨3, 1, 150, fdStatReg⟩] i) := fun i hi ↦ by
    obtain rfl | rfl : i = 0 ∨ i = 1 := by omega
    · exact .inr (.inl rfl)
    · exact .inr (.inr (.inl (by decide)))
  obtain ⟨fuel, r, hclean, hr⟩ := (clean_closes_aged_iff (by decide) hT hacc).2 hworks
  exact ⟨m, _, fuel, r, rfl, hclean, hr, List.perm_singleton.1 hr.closed⟩

/-! ### A loop without an end -/

/-- The inner loop ends at a slot that is free or holds a young connection. -/
theorem cleanShard_end {fuel : ℕ} (h : cleanShard idletime now i fuel m = some r) :
    ¬ timedOut r.1 idletime now i 0 := by
  induction fuel generalizing m r with
  | zero => cases h
  | succ fuel ih =>
    rw [cleanShard] at h
    split at h
    · obtain ⟨r', hr', rfl⟩ := Option.map_eq_some_iff.1 h
      have hend := ih hr'
      exact hend
    · next hnot =>
      obtain rfl := Option.some.inj h
      exact hnot

/-- In a nearly full shard in which every connection has expired the inner loop does not end. -/
theorem ShardRep.cleanShard_eq_none {fuel : ℕ} (h : ShardRep m i l) (hi : 0 < i) (hi' : i < maxFdNum)
    (hlong : maxFdNum ≤ l.length + i) (hall : ∀ c ∈ l, c.expired idletime now = true) :
    cleanShard idletime now i fuel m = none := by
  refine Option.eq_none_iff_forall_ne_some.2 fun r hr ↦ cleanShard_end hr ?_
  obtain ⟨s, hslots⟩ := cleanShard_slots hr hi
  have hlt : max 0 (min (0 + s) (maxFdNum - 1 - i)) < l.length := by omega
  have hslot := (hslots 0 (by decide)).trans (h.slot _ hlt)
  have hmem := List.getElem_mem hlt
  rw [← hslot] at hmem
  exact ⟨ConnectHandle.fd_ne (h.open_fd _ hmem), of_decide_eq_true (hall _ hmem)⟩

/-- The second of two shards with `n` connections, all accepted at 100. -/
theorem exists_accepted_at_100 {n : ℕ} (hn : n ≤ maxFdNum) :
    ∃ m l, TableRep m 2 (Function.update (fun _ ↦ []) 1 l) ∧ l.length = n ∧
      ∀ c ∈ l, c.utime = 100 := by
  induction n with
  | zero =>
    refine ⟨commInit 2, [], ?_, rfl, fun c hc ↦ absurd hc (by simp)⟩
    rw [Function.update_eq_self]
    exact (commInit_rep 2).1
  | succ n ih =>
    obtain ⟨m, l, hT, hlen, htime⟩ := ih (by omega)
    have hshard : (2 * n + 1) % 2 = 1 := by omega
    have hfd : 2 * n + 1 < 2 ^ 31 := by
      rw [maxFdNum] at hn
      omega
    obtain ⟨m', -, hT', -⟩ := hT.newAccept_rep (by decide) hfd (by
      rw [hshard, Function.update_self]
      omega) 0 100
    rw [hshard, Function.update_self, Function.update_idem] at hT'
    refine ⟨m', _, hT', by rw [List.length_append, hlen, List.length_singleton], fun c hc ↦ ?_⟩
    rcases List.mem_append.1 hc with hc | hc
    · exact htime c hc
    · rw [List.mem_singleton.1 hc]

/-- The second of two shards holds 999 connections, which are all expired: the time-out does not
end. -/
theorem time_out_without_end : ∃ m T, TableRep m 2 T ∧ (∀ i < 2, AcceptedBy 200 (T i)) ∧
    ∀ fuel, cleanTimeOutConnect m 2 60 200 fuel = none := by
  obtain ⟨m, l, hT, hlen, htime⟩ := exists_accepted_at_100 (n := 999) (by decide)
  refine ⟨m, _, hT, fun i hi ↦ ?_, fun fuel ↦ Option.eq_none_iff_forall_ne_some.2 fun r hr ↦ ?_⟩
  · obtain rfl | rfl : i = 0 ∨ i = 1 := by omega
    · exact ⟨List.Pairwise.nil, fun c hc ↦ absurd hc List.not_mem_nil⟩
    · rw [Function.update_self]
      refine ⟨List.pairwise_iff_forall_sublist.2 fun {a b} hab ↦ ?_, fun c hc ↦ ?_⟩
      · rw [htime a (hab.subset (by simp)), htime b (hab.subset (by simp))]
        decide
      · rw [htime c hc]
        decide
  · obtain ⟨r0, hr0, hr⟩ := Option.bind_eq_some_iff.1 hr
    obtain ⟨r1, hr1, -⟩ := Option.map_eq_some_iff.1 hr
    obtain ⟨r2, hr2, -⟩ := Option.bind_eq_some_iff.1 hr1
    have h1 : ShardRep r0.1 1 l := by
      have hrep := (hT 1 (by decide)).frame (sameElsewhere_cleanShard hr0 (by decide)) (by decide)
      rwa [Function.update_self] at hrep
    rw [h1.cleanShard_eq_none (by decide) (by decide) (by rw [hlen]; decide) fun c hc ↦ by
      rw [ConnectHandle.expired, htime c hc]
      decide] at hr2
    cases hr2

end Sunda
