import Sunda.Xml.MxmlNodeRuns

/-!
# Searches along pointers

`mxmlWalkNext` goes down first, then to the next node, and where there is none it climbs until an ancestor has
one (`climb`). So from the top of a tree it comes to each node of the tree once, in the order of the document
(`Ok.walks`), and `mxmlFindElement` finds the first node that matches behind the one it starts from
(`mxmlFindElement_descend`), or the first child (`mxmlFindElement_descendFirst`).
-/

namespace Sunda.MxmlHeap

open Forest Function Threads

theorem climb_succ {heap : MxmlHeap} {top n node : ℕ} {r : Option ℕ} (h : climb heap top n node = some r) :
    climb heap top (n + 1) node = some r := by
  induction n generalizing node with
  | zero => cases h
  | succ n ih =>
    rw [climb] at h ⊢
    obtain ⟨u, hu, h⟩ := Option.bind_eq_some_iff.1 h
    refine Option.bind_eq_some_iff.2 ⟨u, hu, ?_⟩
    split at h
    · exact h
    · exact h
    · split at h
      · next htop => rwa [if_pos htop]
      · next hne =>
        rw [if_neg hne]
        exact ih h

theorem climb_mono {heap : MxmlHeap} {top n m node : ℕ} {r : Option ℕ} (hnm : n ≤ m)
    (h : climb heap top n node = some r) : climb heap top m node = some r :=
  Nat.le_induction h (fun _ _ ih ↦ climb_succ ih) m hnm

/-- Where the walk goes from a node that has no children. -/
theorem mxmlWalkNext_eq {fuel : ℕ} {heap : MxmlHeap} {top node : ℕ} (hlive : heap.live node) :
    mxmlWalkNext fuel heap top true node =
      match heap.child node with
      | some child => some (some child)
      | none => if node = top then some none else climb heap top (fuel + 1) node := by
  rw [mxmlWalkNext.eq_def, climb, deref_eq hlive]
  dsimp only [Option.bind_eq_bind, Option.bind_some]
  cases heap.child node <;> rfl

/-- From a child. -/
theorem Ok.climb_child {heap : MxmlHeap} {kids : ℕ → List ℕ} (h : heap.Ok kids) (top n : ℕ) {p c : ℕ}
    {l r : List ℕ} (hp : kids p = l ++ c :: r) :
    climb heap top (n + 1) c =
      match r.head? with
      | some d => some (some d)
      | none => if p = top then some none else climb heap top n p := by
  have hc : c ∈ kids p := by rw [hp]; simp
  rw [climb, deref_eq (h.live p c hc).2]
  dsimp only [Option.bind_eq_bind, Option.bind_some]
  rw [h.linked.next_eq hp, (h.linked.parent p c).1 hc]
  cases r.head? <;> rfl

mutual

/-- The climb from a node of a tree ends, if it ends from the root. -/
theorem Ok.exists_climb {heap : MxmlHeap} {kids : ℕ → List ℕ} (h : heap.Ok kids) {top : ℕ} :
    ∀ {t : Rose ℕ}, Shape kids t → (t.root ≠ top → ∃ n r, climb heap top n t.root = some r) →
      ∃ N, ∀ q ∈ Rose.preorder t, q ≠ top → ∃ r, climb heap top N q = some r
  | .node p children, ⟨hkids, hshapes⟩, hroot => by
    obtain ⟨n, hn⟩ : ∃ n, p ≠ top → ∃ r, climb heap top n p = some r := by
      by_cases hp : p = top
      · exact ⟨0, fun hne ↦ absurd hp hne⟩
      · obtain ⟨n, r, hr⟩ := hroot hp
        exact ⟨n, fun _ ↦ ⟨r, hr⟩⟩
    obtain ⟨N, hN⟩ := h.exists_climbs hn hshapes (l := []) hkids
    refine ⟨max n N, fun q hq hne ↦ ?_⟩
    rw [Rose.preorder] at hq
    rcases List.mem_cons.1 hq with rfl | hq
    · obtain ⟨r, hr⟩ := hn hne
      exact ⟨r, climb_mono (le_max_left ..) hr⟩
    · obtain ⟨r, hr⟩ := hN q hq hne
      exact ⟨r, climb_mono (le_max_right ..) hr⟩

theorem Ok.exists_climbs {heap : MxmlHeap} {kids : ℕ → List ℕ} (h : heap.Ok kids) {top p n : ℕ}
    (hn : p ≠ top → ∃ r, climb heap top n p = some r) :
    ∀ {ts : List (Rose ℕ)}, Shapes kids ts → ∀ {l : List ℕ}, kids p = l ++ ts.map Rose.root →
      ∃ N, ∀ q ∈ Rose.preorders ts, q ≠ top → ∃ r, climb heap top N q = some r
  | [], _, _, _ => ⟨0, fun q hq ↦ by rw [Rose.preorders] at hq; cases hq⟩
  | t :: ts, ⟨ht, hts⟩, l, hkids => by
    have hroot : t.root ≠ top → ∃ n r, climb heap top n t.root = some r := fun _ ↦ by
      refine ⟨n + 1, ?_⟩
      rw [h.climb_child top n hkids]
      cases (ts.map Rose.root).head? with
      | some d => exact ⟨_, rfl⟩
      | none =>
        by_cases hp : p = top
        · exact ⟨none, if_pos hp⟩
        · obtain ⟨r, hr⟩ := hn hp
          exact ⟨r, (if_neg hp).trans hr⟩
    obtain ⟨N1, hN1⟩ := h.exists_climb ht hroot
    obtain ⟨N2, hN2⟩ := h.exists_climbs hn hts (l := l ++ [t.root]) (by rw [hkids]; simp)
    refine ⟨max N1 N2, fun q hq hne ↦ ?_⟩
    rw [Rose.preorders] at hq
    rcases List.mem_append.1 hq with hq | hq
    · obtain ⟨r, hr⟩ := hN1 q hq hne
      exact ⟨r, climb_mono (le_max_left ..) hr⟩
    · obtain ⟨r, hr⟩ := hN2 q hq hne
      exact ⟨r, climb_mono (le_max_right ..) hr⟩

end

section Search

variable {heap : MxmlHeap} {kids : ℕ → List ℕ} (h : heap.Ok kids)

include h

theorem Ok.live_of_below {p q : ℕ} (hp : heap.live p) (hq : Below kids q p) : heap.live q := by
  rcases Relation.ReflTransGen.cases_head hq with rfl | ⟨c, hc, -⟩
  · exact hp
  · exact (h.live c q hc).2

/-- **The walk comes to each node of a tree once**, in the order of the document. -/
theorem Ok.walks {t : Rose ℕ} (ht : Shape kids t) (hlive : heap.live t.root) :
    ∃ N, ∀ fuel ≥ N, Walks (mxmlWalkNext fuel heap t.root true) (Rose.preorder t) none := by
  obtain ⟨N, hN⟩ := h.exists_climb ht fun (hne : t.root ≠ t.root) ↦ absurd rfl hne
  let follow (q : ℕ) : Option ℕ := if q = t.root then none else ((climb heap t.root (N + 1) q).getD none)
  have hclimb {q : ℕ} (hq : q ∈ Rose.preorder t) (hne : q ≠ t.root) {n : ℕ} (hn : N ≤ n) :
      climb heap t.root n q = some (follow q) := by
    obtain ⟨r, hr⟩ := hN q hq hne
    have hfollow : follow q = r := by
      show (if q = t.root then none else _) = r
      rw [if_neg hne, climb_succ hr]
      rfl
    rw [hfollow]
    exact climb_mono hn hr
  have hroot : follow t.root = none := if_pos rfl
  refine ⟨N, fun fuel hfuel ↦ ?_⟩
  rw [← hroot]
  refine walks_preorder ht (fun q hq ↦ ?_) fun p hp l c r hkids ↦ ?_
  · have hq' := h.live_of_below hlive (ht.mem_preorder_iff.1 hq)
    rw [mxmlWalkNext_eq hq', h.linked.down.head]
    cases (kids q).head? with
    | some c => rfl
    | none =>
      dsimp only
      rw [Option.none_or]
      by_cases hne : q = t.root
      · rw [if_pos hne, hne, hroot]
      · rw [if_neg hne, hclimb hq hne (Nat.le_succ_of_le hfuel)]
  · have hc : c ∈ kids p := by rw [hkids]; simp
    have hbelow := ht.mem_preorder_iff.1 hp
    have hcmem : c ∈ Rose.preorder t := ht.mem_preorder_iff.2 (hbelow.head hc)
    have hne : c ≠ t.root := fun heq ↦ h.grounded.not_below hc (heq ▸ hbelow)
    have heq := hclimb hcmem hne (Nat.le_succ N)
    rw [h.climb_child t.root N hkids] at heq
    cases hr : r.head? with
    | some d =>
      rw [hr] at heq
      exact (Option.some.inj heq).symm
    | none =>
      rw [hr] at heq
      rw [Option.none_or]
      by_cases hptop : p = t.root
      · rw [hptop, hroot]
        rw [if_pos hptop] at heq
        exact (Option.some.inj heq).symm
      · rw [if_neg hptop, hclimb hp hptop le_rfl] at heq
        exact (Option.some.inj heq).symm

/-- **A search with `MXML_DESCEND`** finds the first node that matches behind the one it starts from, in the
order of the document, below the top. -/
theorem Ok.mxmlFindElement_descend {t : Rose ℕ} (ht : Shape kids t) (hlive : heap.live t.root) {l r : List ℕ}
    {node : ℕ} (hsplit : Rose.preorder t = l ++ node :: r) (name : Option (List UInt8))
    {attr value : Option (List UInt8)} (hattr : value.isSome → attr.isSome) :
    ∃ N, ∀ fuel ≥ N, heap.mxmlFindElement fuel node t.root name attr value .descend =
      some (r.find? fun q ↦ isMatch name attr value (heap.value q)) := by
  obtain ⟨N, hN⟩ := h.walks ht hlive
  refine ⟨N + r.length + 1, fun fuel hfuel ↦ ?_⟩
  have hwalks := hN fuel (by omega)
  rw [hsplit, walks_append] at hwalks
  obtain ⟨hstep, hwalks⟩ := hwalks.2
  have hnull : (attr.isNone && value.isSome) = false := by
    cases value with
    | none => exact Bool.and_false _
    | some v =>
      obtain ⟨a, rfl⟩ := Option.isSome_iff_exists.1 (hattr rfl)
      rfl
  rw [MxmlHeap.mxmlFindElement, hnull, if_neg Bool.false_ne_true]
  dsimp only [Option.bind_eq_bind]
  rw [show decide (MxmlDescend.descend ≠ .noDescend) = true from rfl, hstep, Option.or_none, Option.bind_some]
  refine seek_eq_find? (fun q hq ↦ ?_) (by simpa using hwalks) (by omega)
  have hmem : q ∈ Rose.preorder t := by
    rw [hsplit]
    exact List.mem_append_right _ (List.mem_cons_of_mem _ hq)
  rw [deref_eq (h.live_of_below hlive (ht.mem_preorder_iff.1 hmem))]
  rfl

/-- **A search with `MXML_DESCEND_FIRST`** below a node finds the first child that matches. -/
theorem Ok.mxmlFindElement_descendFirst {top : ℕ} (hlive : heap.live top) (name : Option (List UInt8))
    {attr value : Option (List UInt8)} (hattr : value.isSome → attr.isSome) {fuel : ℕ}
    (hfuel : (kids top).length < fuel) :
    heap.mxmlFindElement fuel top top name attr value .descendFirst =
      some ((kids top).find? fun q ↦ isMatch name attr value (heap.value q)) := by
  have hnull : (attr.isNone && value.isSome) = false := by
    cases value with
    | none => exact Bool.and_false _
    | some v =>
      obtain ⟨a, rfl⟩ := Option.isSome_iff_exists.1 (hattr rfl)
      rfl
  have hwalks (l r : List ℕ) (hkids : kids top = l ++ r) :
      Walks (fun q ↦ (heap.deref q).map fun _ ↦ heap.next q) r none := by
    induction r generalizing l with
    | nil => trivial
    | cons c r ih =>
      refine ⟨?_, ih (l ++ [c]) (by rw [hkids]; simp)⟩
      dsimp only
      rw [deref_eq (h.live top c (by rw [hkids]; simp)).2, h.linked.next_eq hkids, Option.or_none]
      rfl
  rw [MxmlHeap.mxmlFindElement, hnull, if_neg Bool.false_ne_true]
  dsimp only [Option.bind_eq_bind]
  rw [show decide (MxmlDescend.descendFirst ≠ .noDescend) = true from rfl, mxmlWalkNext_eq hlive, h.linked.down.head]
  have hfirst : (match (kids top).head? with
      | some child => some (some child)
      | none => if top = top then some none else climb heap top (fuel + 1) top) = some (kids top).head? := by
    cases (kids top).head? <;> simp
  rw [hfirst, Option.bind_some]
  refine seek_eq_find? (fun q hq ↦ ?_) ?_ hfuel
  · rw [deref_eq (h.live top q hq).2]
    rfl
  · simp only [if_neg (show MxmlDescend.descendFirst ≠ .descend by decide)]
    exact hwalks [] (kids top) rfl

end Search

/-- Four nodes are made; the search from the first one passes the second and finds the third, below it. -/
theorem mxmlFindElement_descend_third : ∃ N heap, (∀ fuel ≥ N, nodeRun fuel empty
    [.new 1 none (.element [97] []), .new 2 (some 1) (.element [98] []), .new 3 (some 2) (.element [99] []),
      .new 4 (some 1) (.element [99] [])] = some heap) ∧
    ∃ N, ∀ fuel ≥ N, heap.mxmlFindElement fuel 1 1 (some [99]) none none .descend = some (some 3) := by
  obtain ⟨N, heap, hrun, hok, hlive, hvalue⟩ := holds_empty.nodeRun
    (show Nodes.empty.ValidRun [.new 1 none (.element [97] []), .new 2 (some 1) (.element [98] []),
      .new 3 (some 2) (.element [99] []), .new 4 (some 1) (.element [99] [])] by
        simp [Nodes.ValidRun, Nodes.Valid, Nodes.act, Nodes.empty])
  refine ⟨N, heap, hrun, ?_⟩
  have ht : Shape (Nodes.empty.run [.new 1 none (.element [97] []), .new 2 (some 1) (.element [98] []),
      .new 3 (some 2) (.element [99] []), .new 4 (some 1) (.element [99] [])]).kids
      (.node 1 [.node 2 [.node 3 []], .node 4 []]) := by
    simp [Shape, Shapes, Nodes.run, Nodes.act, Nodes.empty, Rose.root, update]
  have hsplit : Rose.preorder (.node 1 [.node 2 [.node 3 []], .node 4 []]) = [] ++ 1 :: [2, 3, 4] := by
    simp [Rose.preorder, Rose.preorders]
  have hattr : (none : Option (List UInt8)).isSome → (none : Option (List UInt8)).isSome := id
  obtain ⟨N', hfind⟩ := hok.mxmlFindElement_descend ht
    (by simp [hlive, Rose.root, Nodes.run, Nodes.act, Nodes.empty, update]) hsplit (some [99]) hattr
  refine ⟨N', fun fuel hfuel ↦ (hfind fuel hfuel).trans ?_⟩
  simp [hvalue, isMatch, Nodes.run, Nodes.act, Nodes.empty, update]

end Sunda.MxmlHeap
