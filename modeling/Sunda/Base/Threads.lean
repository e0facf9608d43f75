import Mathlib.Data.List.Nodup
import Mathlib.Logic.Function.Basic

/-!
# Lists that are threaded through cells

A cell has a list of cells below it, `kids`, and no cell is in two lists. The lists are kept in fields of the
cells:

* `Threaded`: the first cell of a list in a field of the cell above, and the next one in a field of each member;
* `Linked`: the same from both ends, and in each member the cell above.

A list is changed behind a position by `link`, which sets what comes behind the position: in the member in front
of it, or in the cell above where there is none. `Threaded.splice` is the one argument for all changes;
`Linked.remove` and `Linked.insert` use it once from each end.
-/

namespace Threads

open Function

variable {ι : Type*}

/-! ### Lists in fields -/

/-- The lists do not overlap. -/
structure Separate (kids : ι → List ι) : Prop where
  nodup : ∀ p, (kids p).Nodup
  unique : ∀ {p q c}, c ∈ kids p → c ∈ kids q → p = q

/-- The fields hold the lists. -/
structure Threaded (kids : ι → List ι) (first next : ι → Option ι) : Prop where
  head : ∀ p, first p = (kids p).head?
  succ : ∀ {p l c r}, kids p = l ++ c :: r → next c = r.head?
  root : ∀ {c}, (∀ p, c ∉ kids p) → next c = none

/-- The lists are kept from both ends, with the cell above in every member. -/
structure Linked (kids : ι → List ι) (parent child last prev next : ι → Option ι) : Prop where
  nodup : ∀ p, (kids p).Nodup
  parent : ∀ p c, c ∈ kids p ↔ parent c = some p
  down : Threaded kids child next
  up : Threaded (fun p ↦ (kids p).reverse) last prev

section Linked

variable {kids : ι → List ι} {parent child last prev next : ι → Option ι}
  (h : Linked kids parent child last prev next)

include h

theorem Linked.separate : Separate kids where
  nodup := h.nodup
  unique hp hq := Option.some.inj (((h.parent _ _).1 hp).symm.trans ((h.parent _ _).1 hq))

theorem Linked.separate_reverse : Separate fun p ↦ (kids p).reverse where
  nodup p := List.nodup_reverse.2 (h.nodup p)
  unique hp hq := h.separate.unique (List.mem_reverse.1 hp) (List.mem_reverse.1 hq)

variable {p c : ι} {l r : List ι}

theorem Linked.next_eq (hp : kids p = l ++ c :: r) : next c = r.head? := h.down.succ hp

theorem Linked.prev_eq (hp : kids p = l ++ c :: r) : prev c = l.getLast? := by
  have hrev : (kids p).reverse = r.reverse ++ c :: l.reverse := by simp [hp]
  rw [h.up.succ hrev, List.head?_reverse]

/-- The last one of a list. -/
theorem Linked.last_eq (p : ι) : last p = (kids p).getLast? := by
  rw [h.up.head p, List.head?_reverse]

theorem Linked.notMem_of_parent (hc : parent c = none) (q : ι) : c ∉ kids q := fun hq ↦ by
  rw [(h.parent q c).1 hq] at hc
  cases hc

end Linked

/-! ### Changes from one end -/

variable [DecidableEq ι]

/-- What comes behind `prev` in the list of `p`. -/
def link (prev : Option ι) (p : ι) (v : Option ι) (first next : ι → Option ι) :
    (ι → Option ι) × (ι → Option ι) :=
  match prev with
  | some a => (first, update next a v)
  | none => (update first p v, next)

theorem link_next_of_ne {prev : Option ι} {c : ι} (h : prev ≠ some c) (p : ι) (v : Option ι)
    (first next : ι → Option ι) : (link prev p v first next).2 c = next c := by
  cases prev with
  | none => rfl
  | some a => exact update_of_ne (fun heq ↦ h (congrArg some heq.symm)) _ _

theorem Separate.update {kids : ι → List ι} (h : Separate kids) {p : ι} {s : List ι} (hnodup : s.Nodup)
    (hs : ∀ c ∈ s, ∀ q, c ∈ kids q → q = p) : Separate (update kids p s) := by
  constructor
  · intro q
    by_cases hq : q = p
    · rwa [hq, update_self]
    · rw [update_of_ne hq]
      exact h.nodup q
  · intro q q' c hc hc'
    by_cases hq : q = p
    · subst hq
      rw [update_self] at hc
      by_cases hq' : q' = q
      · exact hq'.symm
      · rw [update_of_ne hq'] at hc'
        exact (hs c hc q' hc').symm
    · rw [update_of_ne hq] at hc
      by_cases hq' : q' = p
      · subst hq'
        rw [update_self] at hc'
        exact hs c hc' q hc
      · rw [update_of_ne hq'] at hc'
        exact h.unique hc hc'

/-- **A list that is changed behind a position**: `s` becomes `s'`, whose members have their fields. -/
theorem Threaded.splice {kids : ι → List ι} {first next : ι → Option ι} (h : Threaded kids first next)
    (ha : Separate kids) {p : ι} {l s s' : List ι} (hp : kids p = l ++ s) (hl : ∀ c ∈ s', c ∉ l)
    (hs' : ∀ c ∈ s', ∀ q, c ∈ kids q → q = p) {next' : ι → Option ι}
    (hsame : ∀ q, q ∉ s → q ∉ s' → next' q = (link l.getLast? p s'.head? first next).2 q)
    (hnew : ∀ {x c y}, s' = x ++ c :: y → next' c = y.head?) (hout : ∀ c ∈ s, c ∉ s' → next' c = none) :
    Threaded (update kids p (l ++ s')) (link l.getLast? p s'.head? first next).1 next' := by
  have hnodup := ha.nodup p
  rw [hp] at hnodup
  have hmem {c : ι} (hc : c ∈ l ++ s) : c ∈ kids p := hp ▸ hc
  have hlast {c : ι} (hc : l.getLast? = some c) : c ∈ kids p :=
    hmem (List.mem_append_left _ (List.mem_of_getLast? hc))
  constructor
  · intro q
    by_cases hq : q = p
    · subst hq
      rw [update_self]
      rcases List.eq_nil_or_concat l with rfl | ⟨l, a, rfl⟩
      · exact update_self ..
      · rw [List.concat_eq_append, List.getLast?_concat, link]
        dsimp only
        rw [h.head q, hp]
        simp [List.head?_append]
    · rw [update_of_ne hq, ← h.head q]
      cases hgl : l.getLast? with
      | none => exact update_of_ne hq _ _
      | some a => rfl
  · intro q x c y hq
    by_cases hqp : q = p
    · subst hqp
      rw [update_self] at hq
      rcases List.append_eq_append_iff.1 hq with ⟨x', rfl, rfl⟩ | ⟨y', rfl, hy'⟩
      · exact hnew rfl
      · cases y' with
        | nil =>
          rw [List.nil_append] at hy'
          exact hnew (x := []) hy'.symm
        | cons d y' =>
          obtain ⟨rfl, rfl⟩ := List.cons_eq_cons.1 hy'
          have hcl : c ∈ x ++ c :: y' := by simp
          have hcs : c ∉ s := fun hcs ↦ (List.nodup_append.1 hnodup).2.2 c hcl c hcs rfl
          rw [hsame c hcs fun hcs' ↦ hl c hcs' hcl]
          rcases List.eq_nil_or_concat y' with rfl | ⟨z, a, rfl⟩
          · rw [List.getLast?_concat, link]
            exact update_self ..
          · have hne : c ≠ a := fun heq ↦ by
              have hsub := (List.nodup_append.1 hnodup).1
              rw [List.concat_eq_append, heq] at hsub
              have := (List.nodup_append.1 hsub).2.1
              simp at this
            have hlast' : (x ++ c :: (z ++ [a])).getLast? = some a := by
              rw [← List.cons_append, ← List.append_assoc, List.getLast?_concat]
            rw [List.concat_eq_append, hlast', link_next_of_ne fun heq ↦ hne (Option.some.inj heq).symm,
              h.succ (p := q) (l := x) (r := z ++ [a] ++ s) (by rw [hp]; simp)]
            simp [List.head?_append]
    · rw [update_of_ne hqp] at hq
      have hcq : c ∈ kids q := by rw [hq]; simp
      have hnp : c ∉ kids p := fun hcp ↦ hqp (ha.unique hcq hcp)
      rw [hsame c (fun hcs ↦ hnp (hmem (List.mem_append_right _ hcs))) fun hcs' ↦ hqp (hs' c hcs' q hcq),
        link_next_of_ne fun heq ↦ hnp (hlast heq), h.succ hq]
  · intro c hc
    have hcp := hc p
    rw [update_self] at hcp
    have hcs' : c ∉ s' := fun hcs' ↦ hcp (List.mem_append_right _ hcs')
    by_cases hcs : c ∈ s
    · exact hout c hcs hcs'
    · have hnp : c ∉ kids p := by
        rw [hp]
        exact fun hmem ↦ (List.mem_append.1 hmem).elim (fun hcl ↦ hcp (List.mem_append_left _ hcl)) hcs
      rw [hsame c hcs hcs', link_next_of_ne fun heq ↦ hnp (hlast heq)]
      refine h.root fun q hq ↦ ?_
      have hcq := hc q
      by_cases hqp : q = p
      · exact hnp (hqp ▸ hq)
      · rw [update_of_ne hqp] at hcq
        exact hcq hq

/-- A cell is taken out. -/
theorem Threaded.remove {kids : ι → List ι} {first next : ι → Option ι} (h : Threaded kids first next)
    (ha : Separate kids) {p c : ι} {l r : List ι} (hp : kids p = l ++ c :: r) :
    Threaded (update kids p (l ++ r)) (link l.getLast? p (next c) first next).1
      (update (link l.getLast? p (next c) first next).2 c none) := by
  have hnodup := ha.nodup p
  rw [hp] at hnodup
  obtain ⟨-, hcr, hdisj⟩ := List.nodup_append.1 hnodup
  have hnext := h.succ hp
  have hmem {d : ι} (hd : d ∈ r) : d ∈ kids p := by
    rw [hp]
    exact List.mem_append_right _ (List.mem_cons_of_mem c hd)
  rw [hnext]
  refine h.splice ha hp (fun d hd hdl ↦ hdisj d hdl d (List.mem_cons_of_mem c hd) rfl)
    (fun d hd q hq ↦ ha.unique hq (hmem hd)) ?_ ?_ ?_
  · exact fun q hq _ ↦ update_of_ne (fun heq ↦ hq (by rw [heq]; exact List.mem_cons_self)) _ _
  · intro x d y hr
    have hd : d ∈ r := by rw [hr]; simp
    have hdc : d ≠ c := fun heq ↦ (List.nodup_cons.1 hcr).1 (heq ▸ hd)
    have hdl : l.getLast? ≠ some d := fun hgl ↦
      hdisj d (List.mem_of_getLast? hgl) d (List.mem_cons_of_mem c hd) rfl
    rw [update_of_ne hdc, link_next_of_ne hdl, h.succ (l := l ++ c :: x) (r := y) (by rw [hp, hr]; simp)]
  · intro d hd hdr
    rw [(List.mem_cons.1 hd).resolve_right hdr, update_self]

/-- A cell that is in no list is put in. -/
theorem Threaded.insert {kids : ι → List ι} {first next : ι → Option ι} (h : Threaded kids first next)
    (ha : Separate kids) {p c : ι} {l r : List ι} (hp : kids p = l ++ r) (hc : ∀ q, c ∉ kids q) :
    Threaded (update kids p (l ++ c :: r)) (link l.getLast? p (some c) first next).1
      (update (link l.getLast? p (some c) first next).2 c r.head?) := by
  have hnodup := ha.nodup p
  rw [hp] at hnodup
  obtain ⟨-, hr, hdisj⟩ := List.nodup_append.1 hnodup
  have hcp : c ∉ l ++ r := hp ▸ hc p
  rw [List.mem_append, not_or] at hcp
  have hmem {d : ι} (hd : d ∈ r) : d ∈ kids p := by
    rw [hp]
    exact List.mem_append_right _ hd
  refine h.splice ha hp (show ∀ d ∈ c :: r, d ∉ l from ?_) ?_ ?_ ?_ ?_
  · intro d hd hdl
    rcases List.mem_cons.1 hd with rfl | hd
    · exact hcp.1 hdl
    · exact hdisj d hdl d hd rfl
  · intro d hd q hq
    rcases List.mem_cons.1 hd with rfl | hd
    · exact absurd hq (hc q)
    · exact ha.unique hq (hmem hd)
  · exact fun q _ hq ↦ update_of_ne (fun heq ↦ hq (by rw [heq]; exact List.mem_cons_self)) _ _
  · intro x d y hx
    cases x with
    | nil =>
      obtain ⟨rfl, rfl⟩ := List.cons_eq_cons.1 hx
      exact update_self ..
    | cons e x =>
      obtain ⟨rfl, rfl⟩ := List.cons_eq_cons.1 hx
      have hd : d ∈ x ++ d :: y := by simp
      have hdc : d ≠ c := fun heq ↦ hcp.2 (heq ▸ hd)
      have hdl : l.getLast? ≠ some d := fun hgl ↦ hdisj d (List.mem_of_getLast? hgl) d hd rfl
      rw [update_of_ne hdc, link_next_of_ne hdl, h.succ (l := l ++ x) (r := y) (by rw [hp]; simp)]
  · exact fun d hd hd' ↦ absurd (List.mem_cons_of_mem c hd) hd'

/-! ### Changes from both ends -/

theorem update_reverse (kids : ι → List ι) (p : ι) (s : List ι) :
    (fun q ↦ (update kids p s q).reverse) = update (fun q ↦ (kids q).reverse) p s.reverse := by
  funext q
  by_cases hq : q = p
  · rw [hq, update_self, update_self]
  · rw [update_of_ne hq, update_of_ne hq]

section Changes

variable {kids : ι → List ι} {parent child last prev next : ι → Option ι}
  (h : Linked kids parent child last prev next) {p c : ι} {l r : List ι}

include h

/-- **A cell is taken out of its list.** -/
theorem Linked.remove (hp : kids p = l ++ c :: r) :
    Linked (update kids p (l ++ r)) (update parent c none)
      (link (prev c) p (next c) child next).1 (link (next c) p (prev c) last prev).1
      (update (link (next c) p (prev c) last prev).2 c none)
      (update (link (prev c) p (next c) child next).2 c none) := by
  have hnodup := h.nodup p
  rw [hp] at hnodup
  have hrev : (kids p).reverse = r.reverse ++ c :: l.reverse := by simp [hp]
  have hsub : (l ++ r).Nodup := hnodup.sublist (by simp)
  constructor
  · refine (h.separate.update hsub fun d hd q hq ↦ h.separate.unique hq ?_).nodup
    rw [hp]
    exact List.mem_append.2 ((List.mem_append.1 hd).imp_right (List.mem_cons_of_mem c))
  · intro q d
    by_cases hdc : d = c
    · subst hdc
      rw [update_self]
      refine iff_of_false ?_ nofun
      by_cases hq : q = p
      · subst hq
        rw [update_self]
        have := List.nodup_middle.1 hnodup
        exact (List.nodup_cons.1 this).1
      · rw [update_of_ne hq]
        exact fun hd ↦ hq (h.separate.unique hd (by rw [hp]; simp))
    · rw [update_of_ne hdc, ← h.parent q d]
      by_cases hq : q = p
      · subst hq
        rw [update_self, hp]
        simp [hdc]
      · rw [update_of_ne hq]
  · have hthread := h.down.remove h.separate hp
    rwa [← h.prev_eq hp] at hthread
  · have hthread := h.up.remove h.separate_reverse hrev
    rwa [List.getLast?_reverse, ← h.next_eq hp, ← List.reverse_append, ← update_reverse] at hthread

/-- **A cell is put into a list.** -/
theorem Linked.insert (hp : kids p = l ++ r) (hc : parent c = none) :
    Linked (update kids p (l ++ c :: r)) (update parent c (some p))
      (link l.getLast? p (some c) child next).1 (link r.head? p (some c) last prev).1
      (update (link r.head? p (some c) last prev).2 c l.getLast?)
      (update (link l.getLast? p (some c) child next).2 c r.head?) := by
  have hnodup := h.nodup p
  rw [hp] at hnodup
  have hrev : (kids p).reverse = r.reverse ++ l.reverse := by simp [hp]
  have hnot := h.notMem_of_parent hc
  have hcp : c ∉ l ++ r := hp ▸ hnot p
  have hadd : (l ++ c :: r).Nodup := List.nodup_middle.2 (List.nodup_cons.2 ⟨hcp, hnodup⟩)
  constructor
  · refine (h.separate.update hadd fun d hd q hq ↦ ?_).nodup
    by_cases hdc : d = c
    · exact absurd (hdc ▸ hq) (hnot q)
    · refine h.separate.unique hq ?_
      rw [hp]
      exact List.mem_append.2 ((List.mem_append.1 hd).imp_right fun hd ↦ (List.mem_cons.1 hd).resolve_left hdc)
  · intro q d
    by_cases hdc : d = c
    · subst hdc
      rw [update_self]
      by_cases hq : q = p
      · rw [hq, update_self]
        simp
      · rw [update_of_ne hq]
        exact iff_of_false (hnot q) fun heq ↦ hq (Option.some.inj heq).symm
    · rw [update_of_ne hdc, ← h.parent q d]
      by_cases hq : q = p
      · subst hq
        rw [update_self, hp]
        simp [hdc]
      · rw [update_of_ne hq]
  · exact h.down.insert h.separate hp hnot
  · have hthread := h.up.insert h.separate_reverse hrev fun q hq ↦ hnot q (List.mem_reverse.1 hq)
    rw [List.getLast?_reverse, List.head?_reverse] at hthread
    rwa [show r.reverse ++ c :: l.reverse = (l ++ c :: r).reverse by simp, ← update_reverse] at hthread

end Changes

end Threads
