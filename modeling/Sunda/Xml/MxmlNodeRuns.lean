import Sunda.Xml.MxmlPointers

/-!
# Nodes that are made and deleted

The calls of `mxml_new`, `mxmlAdd`, `mxmlRemove` and `mxmlDelete`, one after the other, from an empty memory.
`Nodes` says what they are to do to the nodes and the lists of their children, `Nodes.Valid` what the caller
owes: nodes that are allocated, and a parent that is not below the node that it gets.

`nodeRun_holds` says that the memory is then always what it is to be. `mxmlDelete` frees the node and all that
is below it, and nothing else (`Ok.mxmlDelete`, by induction over the tree that hangs from the node).
-/

namespace Sunda.MxmlHeap

open Forest Function Threads

/-- The lists without nodes that are gone. -/
def cut (kids : ℕ → List ℕ) (gone : List ℕ) : ℕ → List ℕ :=
  fun q ↦ if q ∈ gone then [] else (kids q).filter (· ∉ gone)

/-- The nodes are gone, and the other ones are as they were. -/
structure Deleted (heap : MxmlHeap) (kids : ℕ → List ℕ) (gone : List ℕ) (heap' : MxmlHeap) : Prop where
  ok : heap'.Ok (cut kids gone)
  live : ∀ q, heap'.live q = (heap.live q && decide (q ∉ gone))
  value : heap'.value = heap.value

theorem cut_nil (kids : ℕ → List ℕ) : cut kids [] = kids := by
  funext q
  simp [cut]

theorem cut_cut (kids : ℕ → List ℕ) (gone gone' : List ℕ) :
    cut (cut kids gone) gone' = cut kids (gone ++ gone') := by
  funext q
  by_cases hq' : q ∈ gone'
  · simp [cut, hq']
  · by_cases hq : q ∈ gone
    · simp [cut, hq]
    · simp only [cut, hq, hq', List.mem_append, or_self, if_false, List.filter_filter]
      exact List.filter_congr fun c _ ↦ by simp [Bool.and_comm]

theorem Deleted.trans {heap heap' heap'' : MxmlHeap} {kids : ℕ → List ℕ} {gone gone' : List ℕ}
    (h : Deleted heap kids gone heap') (h' : Deleted heap' (cut kids gone) gone' heap'') :
    Deleted heap kids (gone ++ gone') heap'' where
  ok := cut_cut kids gone gone' ▸ h'.ok
  live q := by
    rw [h'.live, h.live, Bool.and_assoc]
    simp [not_or]
  value := h'.value.trans h.value

/-- The node is freed when nothing is below it. -/
theorem Deleted.free {heap heap' : MxmlHeap} {kids : ℕ → List ℕ} (hok : heap.Ok kids) {p : ℕ} {gone : List ℕ}
    (hp : ∀ c ∈ kids p, c ∈ gone) {heap1 : MxmlHeap} (hlive1 : heap1.live = heap.live)
    (hvalue1 : heap1.value = heap.value) (h : Deleted heap1 (detach kids p) gone heap')  :
    Deleted heap kids (p :: gone) { heap' with live := update heap'.live p false } := by
  have hcut : cut (detach kids p) gone = cut kids (p :: gone) := by
    funext q
    simp only [cut, detach, List.mem_cons, not_or, (hok.linked.nodup q).erase_eq_filter, List.filter_filter]
    by_cases hq : q = p
    · subst hq
      split_ifs with h1 h2 h2
      · rfl
      · exact absurd (.inl rfl) h2
      · exact List.filter_eq_nil_iff.2 fun c hc ↦ by simp [hp c hc]
      · exact absurd (.inl rfl) h2
    · simp only [hq, false_or]
      split_ifs
      · rfl
      · exact List.filter_congr fun c _ ↦ by simp [Bool.and_comm, bne, beq_eq_decide]
  have hlive (q : ℕ) : update heap'.live p false q = (heap.live q && decide (q ∉ p :: gone)) := by
    by_cases hq : q = p
    · rw [hq, update_self]
      simp
    · rw [update_of_ne hq, h.live, hlive1]
      simp [hq]
  refine ⟨?_, hlive, h.value.trans hvalue1⟩
  have hok' := h.ok
  rw [hcut] at hok'
  refine ⟨hok'.linked, fun q c hc ↦ ?_, hok'.grounded⟩
  have hmem := hc
  rw [cut] at hmem
  split at hmem
  · cases hmem
  · next hq =>
    obtain ⟨hc', hgone⟩ := List.mem_filter.1 hmem
    obtain ⟨hlq, hlc⟩ := hok.live q c hc'
    dsimp only
    rw [hlive, hlive, hlq, hlc]
    exact ⟨decide_eq_true hq, hgone⟩

section Delete

variable {heap : MxmlHeap} {kids : ℕ → List ℕ} (h : heap.Ok kids)

include h

theorem Ok.unique {p q c : ℕ} (hp : c ∈ kids p) (hq : c ∈ kids q) : p = q := h.linked.separate.unique hp hq

/-- The first child is gone, with all below it. -/
theorem Ok.cut_first {p : ℕ} {t : Rose ℕ} {ts : List (Rose ℕ)} (hkids : kids p = (t :: ts).map Rose.root)
    (ht : Shape kids t) (hts : Shapes kids ts) :
    cut kids (Rose.preorder t) p = ts.map Rose.root ∧ Shapes (cut kids (Rose.preorder t)) ts := by
  have hroot : t.root ∈ kids p := by rw [hkids]; exact List.mem_cons_self
  have hnodup := h.linked.nodup p
  rw [hkids, List.map_cons, List.nodup_cons] at hnodup
  have hsib {t' : Rose ℕ} (ht' : t' ∈ ts) : t'.root ∈ kids p ∧ t.root ≠ t'.root := by
    rw [hkids]
    have hmem : t'.root ∈ ts.map Rose.root := List.mem_map_of_mem ht'
    exact ⟨List.mem_cons_of_mem _ hmem, fun heq ↦ hnodup.1 (heq ▸ hmem)⟩
  have hnot {q : ℕ} {t' : Rose ℕ} (ht' : t' ∈ ts) (hq : Below kids q t'.root) : q ∉ Rose.preorder t := by
    rw [ht.mem_preorder_iff]
    exact fun hq' ↦ h.grounded.disjoint h.unique hroot (hsib ht').1 (hsib ht').2 hq' hq
  constructor
  · have hp : p ∉ Rose.preorder t := by
      rw [ht.mem_preorder_iff]
      exact h.grounded.not_below hroot
    have hroot' : t.root ∈ Rose.preorder t := ht.mem_preorder_iff.2 Relation.ReflTransGen.refl
    rw [cut, if_neg hp, hkids, List.map_cons, List.filter_cons_of_neg (by simpa using hroot'), List.filter_eq_self]
    intro c hc
    obtain ⟨t', ht', rfl⟩ := List.mem_map.1 hc
    exact decide_eq_true (hnot ht' Relation.ReflTransGen.refl)
  · refine hts.congr fun q hq ↦ ?_
    obtain ⟨t', ht', hq⟩ := hts.mem_preorders_iff.1 hq
    rw [cut, if_neg (hnot ht' hq), List.filter_eq_self]
    exact fun c hc ↦ decide_eq_true (hnot ht' (hq.head hc))

/-- A tree is as it was when its root is taken out of a list. -/
theorem Ok.shape_detach {t : Rose ℕ} (ht : Shape kids t) : Shape (detach kids t.root) t :=
  ht.congr fun _ hq ↦ List.erase_of_not_mem fun hmem ↦
    h.grounded.not_below hmem (ht.mem_preorder_iff.1 hq)

end Delete

mutual

/-- **`mxmlDelete`** frees the node and all that is below it, each of them once, and nothing else. -/
theorem Ok.mxmlDelete : ∀ {t : Rose ℕ} {heap : MxmlHeap} {kids : ℕ → List ℕ}, heap.Ok kids →
    heap.live t.root → Shape kids t →
      ∃ N heap', (∀ fuel ≥ N, MxmlHeap.mxmlDelete fuel heap t.root = some heap') ∧
        Deleted heap kids (Rose.preorder t) heap'
  | .node p children, heap, kids, hok, hlive, ht => by
    obtain ⟨heap1, hremove, hok1, -, hlive1, hvalue1⟩ := hok.mxmlRemove hlive
    have ht1 := hok.shape_detach ht
    have hlive_p : heap1.live p := by rw [hlive1]; exact hlive
    obtain ⟨N, heap', hloop, hdel⟩ := hok1.deleteChildren hlive_p ht1.1 ht1.2
    refine ⟨N + 1, { heap' with live := update heap'.live p false }, fun fuel hfuel ↦ ?_, ?_⟩
    · obtain ⟨fuel, rfl⟩ := Nat.exists_eq_add_one_of_ne_zero (Nat.ne_of_gt (Nat.lt_of_lt_of_le N.succ_pos hfuel))
      have hp : p ∉ Rose.preorders children := fun hp ↦ by
        obtain ⟨t, ht', hp⟩ := ht1.2.mem_preorders_iff.1 hp
        exact hok1.grounded.not_below (by rw [ht1.1]; exact List.mem_map_of_mem ht') hp
      have hderef : heap'.deref p = some () := deref_eq (by rw [hdel.live, hlive_p]; simpa using hp)
      rw [MxmlHeap.mxmlDelete, Rose.root]
      rw [Rose.root] at hremove
      rw [hremove]
      dsimp only [Option.bind_eq_bind, Option.bind_some]
      rw [hloop fuel (Nat.le_of_succ_le_succ hfuel), Option.bind_some, hderef, Option.bind_some]
    · rw [Rose.preorder]
      refine Deleted.free hok (fun c hc ↦ ?_) hlive1 hvalue1 hdel
      rw [ht.1] at hc
      obtain ⟨t, ht', rfl⟩ := List.mem_map.1 hc
      exact ht1.2.mem_preorders_iff.2 ⟨t, ht', Relation.ReflTransGen.refl⟩

/-- The loop over the children. -/
theorem Ok.deleteChildren : ∀ {ts : List (Rose ℕ)} {heap : MxmlHeap} {kids : ℕ → List ℕ}, heap.Ok kids →
    ∀ {p : ℕ}, heap.live p → kids p = ts.map Rose.root → Shapes kids ts →
      ∃ N heap', (∀ fuel ≥ N, MxmlHeap.deleteChildren fuel heap p = some heap') ∧
        Deleted heap kids (Rose.preorders ts) heap'
  | [], heap, kids, hok, p, hlive, hkids, _ => by
    have hchild : heap.child p = none := by rw [hok.linked.down.head, hkids]; rfl
    refine ⟨1, heap, fun fuel hfuel ↦ ?_, ?_⟩
    · obtain ⟨fuel, rfl⟩ := Nat.exists_eq_add_one_of_ne_zero (Nat.ne_of_gt hfuel)
      rw [MxmlHeap.deleteChildren, deref_eq hlive, hchild]
      rfl
    · rw [Rose.preorders]
      exact ⟨(cut_nil kids).symm ▸ hok, fun _ ↦ by simp, rfl⟩
  | t :: ts, heap, kids, hok, p, hlive, hkids, ⟨ht, hts⟩ => by
    have hroot : t.root ∈ kids p := by rw [hkids]; exact List.mem_cons_self
    have hchild : heap.child p = some t.root := by rw [hok.linked.down.head, hkids]; rfl
    obtain ⟨N1, heap1, hdelete, hdel1⟩ := hok.mxmlDelete (hok.live p _ hroot).2 ht
    obtain ⟨hkids1, hts1⟩ := hok.cut_first hkids ht hts
    have hp : p ∉ Rose.preorder t := by
      rw [ht.mem_preorder_iff]
      exact hok.grounded.not_below hroot
    have hlive1 : heap1.live p := by rw [hdel1.live, hlive]; simpa using hp
    obtain ⟨N2, heap', hloop, hdel2⟩ := hdel1.ok.deleteChildren hlive1 hkids1 hts1
    refine ⟨max N1 N2 + 1, heap', fun fuel hfuel ↦ ?_, ?_⟩
    · obtain ⟨fuel, rfl⟩ :=
        Nat.exists_eq_add_one_of_ne_zero (Nat.ne_of_gt (Nat.lt_of_lt_of_le (Nat.succ_pos _) hfuel))
      rw [MxmlHeap.deleteChildren, deref_eq hlive, hchild]
      dsimp only [Option.bind_eq_bind, Option.bind_some]
      rw [hdelete fuel (by omega), Option.bind_some, hloop fuel (by omega)]
    · rw [Rose.preorders]
      exact hdel1.trans hdel2

end

/-! ### New nodes -/

section New

variable {heap : MxmlHeap} {kids : ℕ → List ℕ} (h : heap.Ok kids) {node : ℕ} (hfresh : heap.live node = false)

include h hfresh

/-- A node that is not allocated is in no list, and has none. -/
theorem Ok.of_not_live : kids node = [] ∧ ∀ p, node ∉ kids p := by
  have hnot {b : Bool} (hb : b = true) (hb' : b = false) : False := by
    rw [hb] at hb'
    cases hb'
  refine ⟨List.eq_nil_iff_forall_not_mem.2 fun c hc ↦ hnot (h.live node c hc).1 hfresh, fun p hp ↦ ?_⟩
  exact hnot (h.live p node hp).2 hfresh

theorem Ok.parent_of_not_live : heap.parent node = none := by
  cases hparent : heap.parent node with
  | none => rfl
  | some p => exact absurd ((h.linked.parent p node).2 hparent) ((h.of_not_live hfresh).2 p)

/-- **`mxml_new`** makes a node, behind the other children of its parent. -/
theorem Ok.mxmlNew (parent : Option ℕ) (value : MxmlValue) (hparent : ∀ p ∈ parent, heap.live p) :
    ∃ heap', heap.mxmlNew node parent value = some heap' ∧
      heap'.Ok (parent.elim kids fun p ↦ update kids p (kids p ++ [node])) ∧
      heap'.live = update heap.live node true ∧ heap'.value = update heap.value node value := by
  obtain ⟨hnil, hnot⟩ := h.of_not_live hfresh
  have hroot := h.parent_of_not_live hfresh
  -- the pointers that `calloc` clears are clear
  have hclear : heap.calloc node value =
      { heap with live := update heap.live node true, value := update heap.value node value } := by
    have hchild : heap.child node = none := by rw [h.linked.down.head, hnil]; rfl
    have hlast : heap.lastChild node = none := by rw [h.linked.last_eq, hnil]; rfl
    have hsame {f : ℕ → Option ℕ} (hf : f node = none) : update f node none = f := update_eq_self_iff.2 hf.symm
    rw [calloc, hsame hroot, hsame hchild, hsame hlast, hsame (h.prev_root hroot), hsame (h.next_root hroot)]
  have hok : ({ heap with live := update heap.live node true, value := update heap.value node value } :
      MxmlHeap).Ok kids := by
    refine ⟨h.linked, fun p c hc ↦ ?_, h.grounded⟩
    have hmono {q : ℕ} (hq : heap.live q) : update heap.live node true q = true := by
      by_cases heq : q = node
      · rw [heq, update_self]
      · rw [update_of_ne heq, hq]
    exact ⟨hmono (h.live p c hc).1, hmono (h.live p c hc).2⟩
  rw [MxmlHeap.mxmlNew.eq_def, hclear]
  cases parent with
  | none => exact ⟨_, rfl, hok, rfl, rfl⟩
  | some p =>
    have hp := hparent p rfl
    have hne : p ≠ node := fun heq ↦ by
      rw [heq, hfresh] at hp
      cases hp
    have hbelow : ¬ Below kids p node := fun hbelow ↦ by
      rcases Relation.ReflTransGen.cases_tail hbelow with rfl | ⟨c, -, hc⟩
      · exact hne rfl
      · rw [hnil] at hc
        cases hc
    have hlive_p : update heap.live node true p = true := by rw [update_of_ne hne, hp]
    obtain ⟨heap', hadd, hok', hlive', hvalue'⟩ := hok.mxmlAdd hlive_p (update_self node true heap.live)
      hbelow .after (show ∀ c ∈ none, _ from nofun)
    rw [h.detach_of_root hroot] at hok'
    exact ⟨heap', hadd, by rwa [place_none] at hok', hlive', hvalue'⟩

end New

/-! ### All calls -/

/-- The calls that make, move and delete nodes; a new node is where `calloc` put it. -/
inductive NodeAct
  | new (node : ℕ) (parent : Option ℕ) (value : MxmlValue)
  | add (parent : ℕ) (w : MxmlWhere) (child : Option ℕ) (node : ℕ)
  | remove (node : ℕ)
  | delete (node : ℕ)

def nodeCall (fuel : ℕ) (heap : MxmlHeap) : NodeAct → Option MxmlHeap
  | .new node parent value => heap.mxmlNew node parent value
  | .add parent w child node => heap.mxmlAdd (some parent) w child (some node)
  | .remove node => heap.mxmlRemove (some node)
  | .delete node => mxmlDelete fuel heap node

/-- The calls, one after the other. -/
def nodeRun (fuel : ℕ) : MxmlHeap → List NodeAct → Option MxmlHeap
  | heap, [] => some heap
  | heap, a :: as => (nodeCall fuel heap a).bind fun heap ↦ nodeRun fuel heap as

/-- What the calls work on: the nodes, each with its children in their order. -/
structure Nodes where
  live : ℕ → Bool
  kids : ℕ → List ℕ
  value : ℕ → MxmlValue

namespace Nodes

open Classical in
/-- What the calls are to do. -/
noncomputable def act (s : Nodes) : NodeAct → Nodes
  | .new node parent value =>
    ⟨update s.live node true, parent.elim s.kids fun p ↦ update s.kids p (s.kids p ++ [node]),
      update s.value node value⟩
  | .add parent w child node =>
    { s with kids := update (detach s.kids node) parent (place w child node (detach s.kids node parent)) }
  | .remove node => { s with kids := detach s.kids node }
  | .delete node =>
    { s with
      live := fun q ↦ s.live q && decide (¬ Below s.kids q node)
      kids := fun q ↦ if Below s.kids q node then [] else (s.kids q).filter fun c ↦ ¬ Below s.kids c node }

/-- The calls that a caller may make: with nodes that are allocated, and not so that a node comes below
itself or next to itself. -/
def Valid (s : Nodes) : NodeAct → Prop
  | .new node parent _ => s.live node = false ∧ ∀ p ∈ parent, s.live p
  | .add parent _ child node =>
    s.live parent ∧ s.live node ∧ ¬ Below s.kids parent node ∧ ∀ c ∈ child, s.live c ∧ c ≠ node
  | .remove node | .delete node => s.live node

noncomputable def run (s : Nodes) (as : List NodeAct) : Nodes := as.foldl act s

/-- Calls of which each may be made when it comes. -/
def ValidRun (s : Nodes) : List NodeAct → Prop
  | [] => True
  | a :: as => s.Valid a ∧ (s.act a).ValidRun as

/-- No nodes. -/
def empty : Nodes := ⟨fun _ ↦ false, fun _ ↦ [], fun _ ↦ .text false []⟩

end Nodes

/-- No nodes in memory. -/
def empty : MxmlHeap :=
  ⟨fun _ ↦ false, fun _ ↦ none, fun _ ↦ none, fun _ ↦ none, fun _ ↦ none, fun _ ↦ none, fun _ ↦ .text false []⟩

/-- The nodes in memory are the nodes. -/
structure Holds (heap : MxmlHeap) (s : Nodes) : Prop where
  ok : heap.Ok s.kids
  live : heap.live = s.live
  value : heap.value = s.value

theorem holds_empty : Holds empty Nodes.empty where
  ok := by
    refine ⟨⟨fun _ ↦ List.nodup_nil, fun _ _ ↦ iff_of_false nofun nofun, ?_, ?_⟩, nofun, ⟨fun p ↦ ⟨p, nofun⟩⟩⟩
    · exact ⟨fun _ ↦ rfl, fun h ↦ by simp [Nodes.empty] at h, fun _ ↦ rfl⟩
    · exact ⟨fun _ ↦ rfl, fun h ↦ by simp [Nodes.empty] at h, fun _ ↦ rfl⟩
  live := rfl
  value := rfl

/-- **One call** does what it is to do. -/
theorem Holds.nodeCall {heap : MxmlHeap} {s : Nodes} (h : Holds heap s) {a : NodeAct} (ha : s.Valid a) :
    ∃ N heap', (∀ fuel ≥ N, MxmlHeap.nodeCall fuel heap a = some heap') ∧ Holds heap' (s.act a) := by
  obtain ⟨hok, hlive, hvalue⟩ := h
  cases a with
  | new node parent value =>
    obtain ⟨hfresh, hparent⟩ := ha
    rw [← hlive] at hfresh hparent
    obtain ⟨heap', hnew, hok', hlive', hvalue'⟩ := hok.mxmlNew hfresh parent value hparent
    exact ⟨0, heap', fun _ _ ↦ hnew, hok', by rw [hlive', hlive]; rfl, by rw [hvalue', hvalue]; rfl⟩
  | add parent w child node =>
    obtain ⟨hparent, hnode, hnot, hchild⟩ := ha
    rw [← hlive] at hparent hnode hchild
    obtain ⟨heap', hadd, hok', hlive', hvalue'⟩ := hok.mxmlAdd hparent hnode hnot w hchild
    exact ⟨0, heap', fun _ _ ↦ hadd, hok', hlive'.trans hlive, hvalue'.trans hvalue⟩
  | remove node =>
    obtain ⟨heap', hremove, hok', -, hlive', hvalue'⟩ := hok.mxmlRemove (hlive ▸ ha : heap.live node)
    exact ⟨0, heap', fun _ _ ↦ hremove, hok', hlive'.trans hlive, hvalue'.trans hvalue⟩
  | delete node =>
    classical
    obtain ⟨t, rfl, ht⟩ := hok.grounded.exists_shape node
    obtain ⟨N, heap', hdelete, hok', hlive', hvalue'⟩ := hok.mxmlDelete (hlive ▸ ha : heap.live t.root) ht
    have hgone (q : ℕ) : q ∈ Rose.preorder t ↔ Below s.kids q t.root := ht.mem_preorder_iff
    refine ⟨N, heap', hdelete, ?_, ?_, hvalue'.trans hvalue⟩
    · convert hok' using 1
      funext q
      exact if_congr (hgone q).symm rfl
        (List.filter_congr fun c _ ↦ decide_eq_decide.2 (not_congr (hgone c).symm))
    · funext q
      rw [hlive', hlive]
      exact congrArg (s.live q && ·) (decide_eq_decide.2 (not_congr (hgone q)))

theorem Holds.nodeRun {as : List NodeAct} {heap : MxmlHeap} {s : Nodes} (h : Holds heap s) (has : s.ValidRun as) :
    ∃ N heap', (∀ fuel ≥ N, MxmlHeap.nodeRun fuel heap as = some heap') ∧ Holds heap' (s.run as) := by
  induction as generalizing s heap with
  | nil => exact ⟨0, heap, fun _ _ ↦ rfl, h⟩
  | cons a as ih =>
    obtain ⟨N1, heap1, hcall, h1⟩ := h.nodeCall has.1
    obtain ⟨N2, heap', hrun, h'⟩ := ih h1 has.2
    refine ⟨max N1 N2, heap', fun fuel hfuel ↦ ?_, h'⟩
    rw [MxmlHeap.nodeRun, hcall fuel (by omega), Option.bind_some, hrun fuel (by omega)]

/-- **Every run of the calls** keeps the nodes in memory what they are to be: no pointer is followed to a node
that is not allocated, the pointers stand for lists of children, and no node is below itself. -/
theorem nodeRun_holds {as : List NodeAct} (has : Nodes.empty.ValidRun as) :
    ∃ N heap', (∀ fuel ≥ N, nodeRun fuel empty as = some heap') ∧ Holds heap' (Nodes.empty.run as) :=
  holds_empty.nodeRun has

/-- A node with two children is made, the second child is moved in front of the first, and the first deleted. -/
theorem nodeRun_holds_move : ∃ N heap', (∀ fuel ≥ N, nodeRun fuel empty
    [.new 1 none (.text false []), .new 2 (some 1) (.text true []), .new 3 (some 1) (.element [97] []),
      .add 1 .before (some 2) 3, .delete 2] = some heap') ∧
      Holds heap' (Nodes.empty.run
        [.new 1 none (.text false []), .new 2 (some 1) (.text true []), .new 3 (some 1) (.element [97] []),
          .add 1 .before (some 2) 3, .delete 2]) := by
  refine nodeRun_holds ⟨⟨rfl, nofun⟩, ⟨rfl, by simp [Nodes.act]⟩, ⟨rfl, by simp [Nodes.act]⟩, ?_, rfl, trivial⟩
  refine ⟨rfl, rfl, fun hbelow ↦ ?_, by simp [Nodes.act]⟩
  rcases Relation.ReflTransGen.cases_tail hbelow with h | ⟨c, -, hc⟩
  · cases h
  · simp [Nodes.act, Nodes.empty] at hc

end Sunda.MxmlHeap
