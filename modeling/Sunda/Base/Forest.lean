import Mathlib.Logic.Relation
import Mathlib.Logic.Function.Basic
import Mathlib.Order.WellFounded

/-!
# Trees below cells

`kids` gives the cells below each cell. Where nothing is below itself (`Grounded`) every cell is the root of a
tree (`Grounded.exists_shape`), and the cells of the tree are those that are `Below` it
(`Shape.mem_preorder_iff`). `Grounded.insert` says when one more edge is allowed.

A step function `Walks` a list if it goes from each member to the next one. `walks_preorder` is the walk
through a tree that goes down first, and `seek_eq_find?` what a search along a walk finds.
-/

namespace Forest

open Function Relation

variable {ι : Type*}

/-- Nothing is below itself. -/
def Grounded (kids : ι → List ι) : Prop := WellFounded fun c p ↦ c ∈ kids p

/-- The cell is below another one, or the same. -/
def Below (kids : ι → List ι) : ι → ι → Prop := ReflTransGen fun c p ↦ c ∈ kids p

theorem Grounded.mono {kids kids' : ι → List ι} (h : Grounded kids) (hsub : ∀ p, ∀ c ∈ kids' p, c ∈ kids p) :
    Grounded kids' :=
  Subrelation.wf (fun {c p} hc ↦ hsub p c hc) h

theorem Below.mono {kids kids' : ι → List ι} (hsub : ∀ p, ∀ c ∈ kids' p, c ∈ kids p) {c p : ι}
    (h : Below kids' c p) : Below kids c p :=
  ReflTransGen.mono (fun c p hc ↦ hsub p c hc) c p h

/-- A cell that is not above the other one may be put under it. -/
theorem Grounded.insert {kids kids' : ι → List ι} (h : Grounded kids) {p c : ι} (hnot : ¬ Below kids p c)
    (hsub : ∀ q, ∀ d ∈ kids' q, d ∈ kids q ∨ q = p ∧ d = c) : Grounded kids' := by
  -- what is not above `p` has nothing new below it
  have hacc (q : ι) : ¬ Below kids p q → Acc (fun c p ↦ c ∈ kids' p) q := by
    induction q using h.induction with
    | h q ih =>
      refine fun hq ↦ ⟨q, fun d hd ↦ ?_⟩
      rcases hsub q d hd with hd | ⟨rfl, -⟩
      · exact ih d hd fun hpd ↦ hq (hpd.tail hd)
      · exact absurd ReflTransGen.refl hq
  refine ⟨fun q ↦ ?_⟩
  induction q using h.induction with
  | h q ih =>
    refine ⟨q, fun d hd ↦ ?_⟩
    rcases hsub q d hd with hd | ⟨-, rfl⟩
    · exact ih d hd
    · exact hacc d hnot

/-! ### Trees -/

/-- A tree of cells. -/
inductive Rose (ι : Type*)
  | node (p : ι) (children : List (Rose ι))

namespace Rose

def root : Rose ι → ι
  | node p _ => p

mutual

/-- The cells, each in front of what is below it. -/
def preorder : Rose ι → List ι
  | node p children => p :: preorders children

def preorders : List (Rose ι) → List ι
  | [] => []
  | t :: ts => preorder t ++ preorders ts

end

theorem preorder_eq_cons (t : Rose ι) : ∃ l, preorder t = t.root :: l := by
  cases t with
  | node p children => exact ⟨preorders children, by rw [preorder]; rfl⟩

end Rose

open Rose

mutual

/-- The tree is the one below its root. -/
def Shape (kids : ι → List ι) : Rose ι → Prop
  | .node p children => kids p = children.map root ∧ Shapes kids children

def Shapes (kids : ι → List ι) : List (Rose ι) → Prop
  | [] => True
  | t :: ts => Shape kids t ∧ Shapes kids ts

end

theorem Grounded.exists_shape {kids : ι → List ι} (h : Grounded kids) (p : ι) :
    ∃ t, root t = p ∧ Shape kids t := by
  induction p using h.induction with
  | h p ih =>
    have hlist (l : List ι) (hl : ∀ c ∈ l, c ∈ kids p) : ∃ ts, ts.map root = l ∧ Shapes kids ts := by
      induction l with
      | nil => exact ⟨[], rfl, trivial⟩
      | cons c l ihl =>
        obtain ⟨t, rfl, ht⟩ := ih c (hl c List.mem_cons_self)
        obtain ⟨ts, rfl, hts⟩ := ihl fun d hd ↦ hl d (List.mem_cons_of_mem _ hd)
        exact ⟨t :: ts, rfl, ht, hts⟩
    obtain ⟨ts, hroots, hts⟩ := hlist (kids p) fun _ hc ↦ hc
    exact ⟨.node p ts, rfl, hroots.symm, hts⟩

mutual

/-- **The cells of a tree are those below its root.** -/
theorem Shape.mem_preorder_iff {kids : ι → List ι} {q : ι} :
    ∀ {t : Rose ι}, Shape kids t → (q ∈ preorder t ↔ Below kids q (root t))
  | .node p children, ⟨hkids, hshapes⟩ => by
    rw [preorder, List.mem_cons, hshapes.mem_preorders_iff, root]
    constructor
    · rintro (rfl | ⟨t, ht, hq⟩)
      · exact ReflTransGen.refl
      · refine ReflTransGen.tail hq ?_
        rw [hkids]
        exact List.mem_map_of_mem ht
    · intro hq
      rcases ReflTransGen.cases_tail hq with rfl | ⟨c, hq, hc⟩
      · exact .inl rfl
      · rw [hkids] at hc
        obtain ⟨t, ht, rfl⟩ := List.mem_map.1 hc
        exact .inr ⟨t, ht, hq⟩

theorem Shapes.mem_preorders_iff {kids : ι → List ι} {q : ι} :
    ∀ {ts : List (Rose ι)}, Shapes kids ts → (q ∈ preorders ts ↔ ∃ t ∈ ts, Below kids q (root t))
  | [], _ => by simp [preorders]
  | t :: ts, ⟨ht, hts⟩ => by
    rw [preorders, List.mem_append, ht.mem_preorder_iff, hts.mem_preorders_iff]
    simp

end

mutual

/-- Only the cells of the tree matter. -/
theorem Shape.congr {kids kids' : ι → List ι} :
    ∀ {t : Rose ι}, Shape kids t → (∀ q ∈ preorder t, kids' q = kids q) → Shape kids' t
  | .node p children, ⟨hkids, hshapes⟩, hsame => by
    rw [preorder] at hsame
    exact ⟨(hsame p List.mem_cons_self).trans hkids,
      hshapes.congr fun q hq ↦ hsame q (List.mem_cons_of_mem p hq)⟩

theorem Shapes.congr {kids kids' : ι → List ι} :
    ∀ {ts : List (Rose ι)}, Shapes kids ts → (∀ q ∈ preorders ts, kids' q = kids q) → Shapes kids' ts
  | [], _, _ => trivial
  | t :: ts, ⟨ht, hts⟩, hsame => by
    rw [preorders] at hsame
    exact ⟨ht.congr fun q hq ↦ hsame q (List.mem_append_left _ hq),
      hts.congr fun q hq ↦ hsame q (List.mem_append_right _ hq)⟩

end

/-! ### Cells with one cell above -/

theorem Grounded.not_below {kids : ι → List ι} (h : Grounded kids) {p c : ι} (hc : c ∈ kids p) :
    ¬ Below kids p c := fun hp ↦ by
  have hcycle : TransGen (fun c p ↦ c ∈ kids p) p p := TransGen.tail' hp hc
  exact h.transGen.irrefl.irrefl p hcycle

section Unique

variable {kids : ι → List ι} (hunique : ∀ {p q c}, c ∈ kids p → c ∈ kids q → p = q)

include hunique

/-- Of two cells above one, one is above the other. -/
theorem Below.total {q a b : ι} (ha : Below kids q a) (hb : Below kids q b) :
    Below kids a b ∨ Below kids b a := by
  induction ha with
  | refl => exact .inl hb
  | @tail c d _ hcd ih =>
    rcases ih with hcb | hbc
    · rcases ReflTransGen.cases_head hcb with rfl | ⟨e, hce, heb⟩
      · exact .inr (ReflTransGen.single hcd)
      · exact .inl (hunique hce hcd ▸ heb)
    · exact .inr (hbc.tail hcd)

/-- Nothing is below two members of one list. -/
theorem Grounded.disjoint (h : Grounded kids) {p q a b : ι} (ha : a ∈ kids p) (hb : b ∈ kids p) (hne : a ≠ b)
    (hqa : Below kids q a) : ¬ Below kids q b := fun hqb ↦ by
  rcases hqa.total hunique hqb with hab | hba
  · rcases ReflTransGen.cases_head hab with rfl | ⟨d, hd, hdb⟩
    · exact hne rfl
    · exact h.not_below hb (hunique hd ha ▸ hdb)
  · rcases ReflTransGen.cases_head hba with rfl | ⟨d, hd, hda⟩
    · exact hne rfl
    · exact h.not_below ha (hunique hd hb ▸ hda)

end Unique

/-! ### Walks -/

/-- The step goes from each member to the next one, and from the last one to the end. `none` is no step. -/
def Walks (step : ι → Option (Option ι)) : List ι → Option ι → Prop
  | [], _ => True
  | x :: l, e => step x = some (l.head?.or e) ∧ Walks step l e

theorem walks_append {step : ι → Option (Option ι)} {l r : List ι} {e : Option ι} :
    Walks step (l ++ r) e ↔ Walks step l (r.head?.or e) ∧ Walks step r e := by
  induction l with
  | nil => simp [Walks]
  | cons x l ih =>
    rw [List.cons_append, Walks, Walks, ih, and_assoc, List.head?_append, Option.or_assoc]

/-- A search along the steps. `none` is no result. -/
def seek (step : ι → Option (Option ι)) (test : ι → Option Bool) : ℕ → Option ι → Option (Option ι)
  | 0, _ => none
  | _ + 1, none => some none
  | n + 1, some x =>
    (test x).bind fun b ↦ if b then some (some x) else (step x).bind (seek step test n)

/-- **A search along a walk finds the first one that passes the test.** -/
theorem seek_eq_find? {step : ι → Option (Option ι)} {test : ι → Option Bool} {p : ι → Bool} {l : List ι}
    (htest : ∀ x ∈ l, test x = some (p x)) (h : Walks step l none) {n : ℕ} (hn : l.length < n) :
    seek step test n l.head? = some (l.find? p) := by
  induction l generalizing n with
  | nil =>
    obtain ⟨n, rfl⟩ := Nat.exists_eq_add_one_of_ne_zero (Nat.ne_of_gt hn)
    rfl
  | cons x l ih =>
    obtain ⟨n, rfl⟩ := Nat.exists_eq_add_one_of_ne_zero (Nat.ne_of_gt (Nat.zero_lt_of_lt hn))
    obtain ⟨hstep, hwalks⟩ := h
    rw [List.head?_cons, seek, htest x List.mem_cons_self, Option.bind_some, List.find?_cons]
    cases p x with
    | true => rfl
    | false =>
      rw [if_neg Bool.false_ne_true, hstep, Option.or_none, Option.bind_some]
      exact ih (fun y hy ↦ htest y (List.mem_cons_of_mem x hy)) hwalks (Nat.lt_of_succ_lt_succ hn)

mutual

/-- **The walk down first.** `follow` is where it goes behind all that is below a cell. -/
theorem walks_preorder {kids : ι → List ι} {step : ι → Option (Option ι)} {follow : ι → Option ι} :
    ∀ {t : Rose ι}, Shape kids t → (∀ p ∈ preorder t, step p = some ((kids p).head?.or (follow p))) →
      (∀ p ∈ preorder t, ∀ {l c r}, kids p = l ++ c :: r → follow c = r.head?.or (follow p)) →
        Walks step (preorder t) (follow (root t))
  | .node p children, ⟨hkids, hshapes⟩, hstep, hfollow => by
    rw [preorder] at hstep hfollow ⊢
    rw [root]
    refine ⟨?_, walks_preorders hshapes (fun q hq ↦ hstep q (List.mem_cons_of_mem p hq))
      (fun q hq ↦ hfollow q (List.mem_cons_of_mem p hq)) (l := []) fun {l c r} h ↦
        hfollow p List.mem_cons_self (hkids.trans h)⟩
    rw [hstep p List.mem_cons_self, hkids]
    cases children with
    | nil => rfl
    | cons t ts =>
      obtain ⟨l, hl⟩ := preorder_eq_cons t
      rw [preorders, hl]
      rfl

theorem walks_preorders {kids : ι → List ι} {step : ι → Option (Option ι)} {follow : ι → Option ι}
    {e : Option ι} : ∀ {ts : List (Rose ι)}, Shapes kids ts →
      (∀ p ∈ preorders ts, step p = some ((kids p).head?.or (follow p))) →
      (∀ p ∈ preorders ts, ∀ {l c r}, kids p = l ++ c :: r → follow c = r.head?.or (follow p)) →
      ∀ {l : List ι}, (∀ {l' c r}, l ++ ts.map root = l' ++ c :: r → follow c = r.head?.or e) →
        Walks step (preorders ts) e
  | [], _, _, _, _, _ => trivial
  | t :: ts, ⟨ht, hts⟩, hstep, hfollow, l, hlist => by
    rw [preorders] at hstep hfollow ⊢
    have hhead : (preorders ts).head? = (ts.map root).head? := by
      cases ts with
      | nil => rfl
      | cons t' ts =>
        obtain ⟨l, hl⟩ := preorder_eq_cons t'
        rw [preorders, hl]
        rfl
    have hroot : follow (root t) = (ts.map root).head?.or e := hlist rfl
    refine walks_append.2 ⟨?_, ?_⟩
    · rw [hhead, ← hroot]
      exact walks_preorder ht (fun p hp ↦ hstep p (List.mem_append_left _ hp)) fun p hp ↦
        hfollow p (List.mem_append_left _ hp)
    · refine walks_preorders hts (fun p hp ↦ hstep p (List.mem_append_right _ hp))
        (fun p hp ↦ hfollow p (List.mem_append_right _ hp)) (l := l ++ [root t]) fun {l' c r} h ↦
          @hlist l' c r ?_
      rw [← h]
      simp

end

end Forest
