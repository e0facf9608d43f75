import Sunda.Base.Forest
import Sunda.Base.Threads
import Sunda.Xml.Mxml

/-!
# Nodes and pointers

The functions of `pubfun/xml/mxml-node.c` and `mxml-search.c` on nodes in memory, each with pointers to its
parent, its first and its last child and the nodes next to it. A pointer is a natural number, `NULL` is
`none`, and each of the fields is a function of the pointer; a node that is not allocated is not read, written
or freed.

* `mxmlRemove`, `mxmlAdd`, `mxml_new`: the pointers around the node;
* `mxmlDelete`: the node and all that is below it; the argument `fuel` bounds the loop and the recursion;
* `mxmlWalkNext`, `mxmlFindElement`: the walk, and the search along it.

`MxmlHeap.Ok` says which lists of children the pointers stand for.
-/

namespace Sunda

open Forest Function Threads

/-- What a node holds beside its pointers. -/
inductive MxmlValue
  | element (name : List UInt8) (attrs : List (List UInt8 × List UInt8))
  | text (whitespace : Bool) (string : List UInt8)

/-- The nodes in memory. -/
structure MxmlHeap where
  live : ℕ → Bool
  parent : ℕ → Option ℕ
  child : ℕ → Option ℕ
  lastChild : ℕ → Option ℕ
  prev : ℕ → Option ℕ
  next : ℕ → Option ℕ
  value : ℕ → MxmlValue

/-- `MXML_ADD_BEFORE` and `MXML_ADD_AFTER`. -/
inductive MxmlWhere
  | before
  | after

/-- `MXML_DESCEND`, `MXML_NO_DESCEND` and `MXML_DESCEND_FIRST`. -/
inductive MxmlDescend
  | descend
  | noDescend
  | descendFirst
  deriving DecidableEq

namespace MxmlHeap

/-- A node that is read or written. -/
def deref (heap : MxmlHeap) (node : ℕ) : Option Unit := if heap.live node then some () else none

def setParent (heap : MxmlHeap) (node : ℕ) (v : Option ℕ) : MxmlHeap :=
  { heap with parent := update heap.parent node v }

def setChild (heap : MxmlHeap) (node : ℕ) (v : Option ℕ) : MxmlHeap :=
  { heap with child := update heap.child node v }

def setLastChild (heap : MxmlHeap) (node : ℕ) (v : Option ℕ) : MxmlHeap :=
  { heap with lastChild := update heap.lastChild node v }

def setPrev (heap : MxmlHeap) (node : ℕ) (v : Option ℕ) : MxmlHeap :=
  { heap with prev := update heap.prev node v }

def setNext (heap : MxmlHeap) (node : ℕ) (v : Option ℕ) : MxmlHeap :=
  { heap with next := update heap.next node v }

/-- `if (prev) prev->next = v; else parent->child = v;`. -/
def linkNext (heap : MxmlHeap) (prev : Option ℕ) (parent : ℕ) (v : Option ℕ) : Option MxmlHeap :=
  match prev with
  | some prev => (heap.deref prev).map fun _ ↦ heap.setNext prev v
  | none => (heap.deref parent).map fun _ ↦ heap.setChild parent v

/-- `if (next) next->prev = v; else parent->last_child = v;`. -/
def linkPrev (heap : MxmlHeap) (next : Option ℕ) (parent : ℕ) (v : Option ℕ) : Option MxmlHeap :=
  match next with
  | some next => (heap.deref next).map fun _ ↦ heap.setPrev next v
  | none => (heap.deref parent).map fun _ ↦ heap.setLastChild parent v

/-- `!child || child == first || child->parent != parent`. -/
def atEnd (heap : MxmlHeap) (first : Option ℕ) (parent : ℕ) : Option ℕ → Option Bool
  | none => some true
  | some child =>
    if first = some child then some true else (heap.deref child).map fun _ ↦ heap.parent child ≠ some parent

/-- `mxmlRemove`. -/
def mxmlRemove (heap : MxmlHeap) : Option ℕ → Option MxmlHeap
  | none => some heap
  | some node => do
    heap.deref node
    match heap.parent node with
    | none => some heap
    | some parent =>
      let heap ← heap.linkNext (heap.prev node) parent (heap.next node)
      let heap ← heap.linkPrev (heap.next node) parent (heap.prev node)
      some (((heap.setParent node none).setPrev node none).setNext node none)

/-- `mxmlAdd` in front of the other children, when the parent is set. -/
def addFirst (heap : MxmlHeap) (parent node : ℕ) : Option MxmlHeap := do
  let heap := heap.setNext node (heap.child parent)
  let heap ← heap.linkPrev (heap.child parent) parent (some node)
  some (heap.setChild parent (some node))

/-- In front of a child. -/
def addBefore (heap : MxmlHeap) (parent child node : ℕ) : Option MxmlHeap := do
  let heap := heap.setNext node (some child)
  let heap := heap.setPrev node (heap.prev child)
  let heap ← heap.linkNext (heap.prev child) parent (some node)
  some (heap.setPrev child (some node))

/-- Behind the other children. -/
def addLast (heap : MxmlHeap) (parent node : ℕ) : Option MxmlHeap := do
  let heap := heap.setParent node (some parent)
  let heap := heap.setPrev node (heap.lastChild parent)
  let heap ← heap.linkNext (heap.lastChild parent) parent (some node)
  some (heap.setLastChild parent (some node))

/-- Behind a child. -/
def addAfter (heap : MxmlHeap) (parent child node : ℕ) : Option MxmlHeap := do
  let heap := heap.setPrev node (some child)
  let heap := heap.setNext node (heap.next child)
  let heap ← heap.linkPrev (heap.next child) parent (some node)
  some (heap.setNext child (some node))

/-- The switch of `mxmlAdd`. -/
def addAt (heap : MxmlHeap) (parent : ℕ) (child : Option ℕ) (node : ℕ) : MxmlWhere → Option MxmlHeap
  | .before => do
    heap.deref parent
    match child, ← heap.atEnd (heap.child parent) parent child with
    | some child, false => heap.addBefore parent child node
    | _, _ => heap.addFirst parent node
  | .after => do
    heap.deref parent
    match child, ← heap.atEnd (heap.lastChild parent) parent child with
    | some child, false => heap.addAfter parent child node
    | _, _ => heap.addLast parent node

/-- `mxmlAdd`. -/
def mxmlAdd (heap : MxmlHeap) (parent : Option ℕ) (where' : MxmlWhere) (child node : Option ℕ) :
    Option MxmlHeap :=
  match parent, node with
  | some parent, some node => do
    heap.deref node
    let heap ← if (heap.parent node).isSome then mxmlRemove heap (some node) else some heap
    (heap.setParent node (some parent)).addAt parent child node where'
  | _, _ => some heap

/-- A node from `calloc`, with what the caller puts into it. -/
def calloc (heap : MxmlHeap) (node : ℕ) (value : MxmlValue) : MxmlHeap where
  live := update heap.live node true
  parent := update heap.parent node none
  child := update heap.child node none
  lastChild := update heap.lastChild node none
  prev := update heap.prev node none
  next := update heap.next node none
  value := update heap.value node value

/-- `mxml_new`, for the node that `calloc` returned. -/
def mxmlNew (heap : MxmlHeap) (node : ℕ) (parent : Option ℕ) (value : MxmlValue) : Option MxmlHeap :=
  match parent with
  | some parent => (heap.calloc node value).mxmlAdd (some parent) .after none (some node)
  | none => some (heap.calloc node value)

mutual

/-- `mxmlDelete`. -/
def mxmlDelete : ℕ → MxmlHeap → ℕ → Option MxmlHeap
  | 0, _, _ => none
  | fuel + 1, heap, node => do
    let heap ← mxmlRemove heap (some node)
    let heap ← deleteChildren fuel heap node
    heap.deref node
    some { heap with live := update heap.live node false }

/-- `while (node->child) mxmlDelete(node->child)`. -/
def deleteChildren : ℕ → MxmlHeap → ℕ → Option MxmlHeap
  | 0, _, _ => none
  | fuel + 1, heap, node => do
    heap.deref node
    match heap.child node with
    | none => some heap
    | some child =>
      let heap ← mxmlDelete fuel heap child
      deleteChildren fuel heap node

end

/-! ### Searches -/

/-- `while (!node->next)`. -/
def climb (heap : MxmlHeap) (top : ℕ) : ℕ → ℕ → Option (Option ℕ)
  | 0, _ => none
  | fuel + 1, node => do
    heap.deref node
    match heap.next node, heap.parent node with
    | some next, _ => some (some next)
    | none, none => some none
    | none, some parent => if parent = top then some none else climb heap top fuel parent

/-- `mxmlWalkNext`. -/
def mxmlWalkNext (fuel : ℕ) (heap : MxmlHeap) (top : ℕ) (descend : Bool) (node : ℕ) : Option (Option ℕ) := do
  heap.deref node
  match heap.child node, descend with
  | some child, true => some (some child)
  | _, _ =>
    if node = top then some none
    else
      match heap.next node, heap.parent node with
      | some next, _ => some (some next)
      | none, none => some none
      | none, some parent => if parent = top then some none else climb heap top fuel parent

/-- The test in the loop of `mxmlFindElement`; what is `NULL` is not looked at. -/
def isMatch (name attr value : Option (List UInt8)) : MxmlValue → Bool
  | .element name' attrs =>
    name.all (name' == ·) && attr.all fun attr ↦
      ((attrs.find? (isAttr attr)).map Prod.snd).any fun temp ↦ value.all (· == temp)
  | .text .. => false

/-- `mxmlFindElement`. -/
def mxmlFindElement (fuel : ℕ) (heap : MxmlHeap) (node top : ℕ) (name attr value : Option (List UInt8))
    (how : MxmlDescend) : Option (Option ℕ) :=
  if attr.isNone && value.isSome then some none
  else do
    let test (node : ℕ) : Option Bool := (heap.deref node).map fun _ ↦ isMatch name attr value (heap.value node)
    let step (node : ℕ) : Option (Option ℕ) :=
      if how = .descend then mxmlWalkNext fuel heap top true node
      else (heap.deref node).map fun _ ↦ heap.next node
    let node ← mxmlWalkNext fuel heap top (how ≠ .noDescend) node
    seek step test fuel node

/-! ### What the pointers stand for -/

/-- The pointers stand for lists of children, of nodes that are allocated, and no node is below itself. -/
structure Ok (heap : MxmlHeap) (kids : ℕ → List ℕ) : Prop where
  linked : Linked kids heap.parent heap.child heap.lastChild heap.prev heap.next
  live : ∀ p, ∀ c ∈ kids p, heap.live p ∧ heap.live c
  grounded : Grounded kids

theorem deref_eq {heap : MxmlHeap} {node : ℕ} (h : heap.live node) : heap.deref node = some () := if_pos h

theorem linkNext_eq (heap : MxmlHeap) {prev : Option ℕ} {parent : ℕ} (hprev : ∀ p ∈ prev, heap.live p)
    (hparent : heap.live parent) (v : Option ℕ) :
    heap.linkNext prev parent v = some { heap with
      child := (link prev parent v heap.child heap.next).1
      next := (link prev parent v heap.child heap.next).2 } := by
  cases prev with
  | none => rw [linkNext, deref_eq hparent]; rfl
  | some p => rw [linkNext, deref_eq (hprev p rfl)]; rfl

theorem linkPrev_eq (heap : MxmlHeap) {next : Option ℕ} {parent : ℕ} (hnext : ∀ p ∈ next, heap.live p)
    (hparent : heap.live parent) (v : Option ℕ) :
    heap.linkPrev next parent v = some { heap with
      lastChild := (link next parent v heap.lastChild heap.prev).1
      prev := (link next parent v heap.lastChild heap.prev).2 } := by
  cases next with
  | none => rw [linkPrev, deref_eq hparent]; rfl
  | some p => rw [linkPrev, deref_eq (hnext p rfl)]; rfl

/-- The lists without a node. -/
def detach (kids : ℕ → List ℕ) (node : ℕ) : ℕ → List ℕ := fun p ↦ (kids p).erase node

section Ok

variable {heap : MxmlHeap} {kids : ℕ → List ℕ} (h : heap.Ok kids)

include h

theorem Ok.detach_eq {p node : ℕ} {l r : List ℕ} (hp : kids p = l ++ node :: r) :
    detach kids node = update kids p (l ++ r) := by
  have hnodup := h.linked.nodup p
  rw [hp] at hnodup
  have hl : node ∉ l := fun hl ↦ (List.nodup_append.1 hnodup).2.2 node hl node List.mem_cons_self rfl
  funext q
  rw [detach]
  by_cases hq : q = p
  · rw [hq, update_self, hp, List.erase_append_right _ hl, List.erase_cons_head]
  · rw [update_of_ne hq, List.erase_of_not_mem]
    exact fun hmem ↦ hq (h.linked.separate.unique hmem (by rw [hp]; simp))

theorem Ok.detach_of_root {node : ℕ} (hroot : heap.parent node = none) : detach kids node = kids := by
  funext q
  exact List.erase_of_not_mem (h.linked.notMem_of_parent hroot q)

theorem Ok.split {p node : ℕ} (hparent : heap.parent node = some p) : ∃ l r, kids p = l ++ node :: r :=
  List.append_of_mem ((h.linked.parent p node).2 hparent)

/-- Where the child is in the list. -/
theorem Ok.split_mem {p c : ℕ} (hmem : c ∈ kids p) : ∃ l r, kids p = l ++ c :: r ∧ c ∉ l ∧ c ∉ r := by
  obtain ⟨l, r, hp⟩ := List.append_of_mem hmem
  have hnodup := h.linked.nodup p
  rw [hp, List.nodup_append] at hnodup
  exact ⟨l, r, hp, fun hl ↦ hnodup.2.2 c hl c List.mem_cons_self rfl, (List.nodup_cons.1 hnodup.2.1).1⟩

/-- **`mxmlRemove`** takes the node out of its list. -/
theorem Ok.mxmlRemove {node : ℕ} (hlive : heap.live node) :
    ∃ heap', heap.mxmlRemove (some node) = some heap' ∧ heap'.Ok (detach kids node) ∧
      heap'.parent node = none ∧ heap'.live = heap.live ∧ heap'.value = heap.value := by
  cases hparent : heap.parent node with
  | none =>
    rw [h.detach_of_root hparent]
    refine ⟨heap, ?_, h, hparent, rfl, rfl⟩
    rw [MxmlHeap.mxmlRemove, deref_eq hlive, hparent]
    rfl
  | some p =>
    obtain ⟨l, r, hp⟩ := h.split hparent
    have hmem {d : ℕ} (hd : d ∈ l ++ node :: r) : heap.live d := (h.live p d (hp ▸ hd)).2
    have hp_live : heap.live p := (h.live p node (by rw [hp]; simp)).1
    have hprev : ∀ d ∈ heap.prev node, heap.live d := fun d hd ↦ hmem <| by
      rw [h.linked.prev_eq hp] at hd
      exact List.mem_append_left _ (List.mem_of_getLast? hd)
    have hnext : ∀ d ∈ heap.next node, heap.live d := fun d hd ↦ hmem <| by
      rw [h.linked.next_eq hp] at hd
      exact List.mem_append_right _ (List.mem_cons_of_mem _ (List.mem_of_head? hd))
    -- the first write leaves the pointers of the node alone
    have hne : heap.prev node ≠ some node := fun heq ↦ by
      have hnodup := h.linked.nodup p
      rw [hp] at hnodup
      rw [h.linked.prev_eq hp] at heq
      exact (List.nodup_append.1 hnodup).2.2 node (List.mem_of_getLast? heq) node List.mem_cons_self rfl
    have heq : heap.mxmlRemove (some node) = some { heap with
        parent := update heap.parent node none
        child := (link (heap.prev node) p (heap.next node) heap.child heap.next).1
        lastChild := (link (heap.next node) p (heap.prev node) heap.lastChild heap.prev).1
        prev := update (link (heap.next node) p (heap.prev node) heap.lastChild heap.prev).2 node none
        next := update (link (heap.prev node) p (heap.next node) heap.child heap.next).2 node none } := by
      rw [MxmlHeap.mxmlRemove, deref_eq hlive, hparent]
      dsimp only [Option.bind_eq_bind, Option.bind_some]
      rw [linkNext_eq heap hprev hp_live]
      dsimp only [Option.bind_some]
      rw [link_next_of_ne hne, linkPrev_eq]
      · rfl
      · exact hnext
      · exact hp_live
    refine ⟨_, heq, ⟨?_, fun q d hd ↦ h.live q d (List.mem_of_mem_erase hd), ?_⟩, update_self .., rfl, rfl⟩
    · rw [h.detach_eq hp]
      exact h.linked.remove hp
    · exact h.grounded.mono fun q d hd ↦ List.mem_of_mem_erase hd

/-- A node that is put into a list. -/
theorem Ok.insert {p node : ℕ} {l r : List ℕ} (hp : kids p = l ++ r) (hp_live : heap.live p)
    (hlive : heap.live node) (hroot : heap.parent node = none) (hnot : ¬ Below kids p node)
    {heap' : MxmlHeap} (hlive' : heap'.live = heap.live) (hparent : heap'.parent = update heap.parent node (some p))
    (hchild : heap'.child = (link l.getLast? p (some node) heap.child heap.next).1)
    (hlast : heap'.lastChild = (link r.head? p (some node) heap.lastChild heap.prev).1)
    (hprev : heap'.prev = update (link r.head? p (some node) heap.lastChild heap.prev).2 node l.getLast?)
    (hnext : heap'.next = update (link l.getLast? p (some node) heap.child heap.next).2 node r.head?) :
    heap'.Ok (update kids p (l ++ node :: r)) := by
  have hmem {q d : ℕ} (hd : d ∈ update kids p (l ++ node :: r) q) : d ∈ kids q ∨ q = p ∧ d = node := by
    by_cases hq : q = p
    · rw [hq, update_self] at hd
      rw [hq, hp]
      simp only [List.mem_append, List.mem_cons] at hd ⊢
      tauto
    · rw [update_of_ne hq] at hd
      exact .inl hd
  constructor
  · rw [hparent, hchild, hlast, hprev, hnext]
    exact h.linked.insert hp hroot
  · intro q d hd
    rw [hlive']
    rcases hmem hd with hd | ⟨rfl, rfl⟩
    · exact h.live q d hd
    · exact ⟨hp_live, hlive⟩
  · exact h.grounded.insert hnot fun q d hd ↦ hmem hd

end Ok

/-- Where a node comes in the list of its new parent. -/
def addIndex (child : Option ℕ) (l : List ℕ) : MxmlWhere → ℕ
  | .before => match child with
    | some child => if child ∈ l then l.idxOf child else 0
    | none => 0
  | .after => match child with
    | some child => if child ∈ l then l.idxOf child + 1 else l.length
    | none => l.length

/-- The list of the new parent. -/
def place (where' : MxmlWhere) (child : Option ℕ) (node : ℕ) (l : List ℕ) : List ℕ :=
  l.take (addIndex child l where') ++ node :: l.drop (addIndex child l where')

/-- What has been done when a node was added: it is in the list. -/
def Added (heap : MxmlHeap) (kids : ℕ → List ℕ) (p : ℕ) (list : List ℕ) (r : Option MxmlHeap) : Prop :=
  ∃ heap', r = some heap' ∧ heap'.Ok (update kids p list) ∧ heap'.live = heap.live ∧ heap'.value = heap.value

/-- The test on the child that a node is added next to. -/
theorem Ok.atEnd {heap : MxmlHeap} {kids : ℕ → List ℕ} (h : heap.Ok kids) (p node : ℕ) (first : Option ℕ)
    {child : Option ℕ} (hchild : ∀ c ∈ child, heap.live c ∧ c ≠ node) :
    (heap.setParent node (some p)).atEnd first p child = some (child.all fun c ↦ first = some c ∨ c ∉ kids p) := by
  cases child with
  | none => rfl
  | some c =>
    obtain ⟨hc, hne⟩ := hchild c rfl
    have hderef : (heap.setParent node (some p)).deref c = some () := deref_eq hc
    have hparent : (heap.setParent node (some p)).parent c = heap.parent c := update_of_ne hne _ _
    rw [MxmlHeap.atEnd, hderef, hparent, Option.all_some, Option.map_some]
    have hkids := h.linked.parent p c
    by_cases hfirst : first = some c
    · rw [if_pos hfirst]
      simp [hfirst]
    · rw [if_neg hfirst]
      simp [hfirst, hkids]

theorem place_none (node : ℕ) (l : List ℕ) : place .after none node l = l ++ [node] := by
  rw [place, addIndex, List.take_length, List.drop_length]

theorem place_of_notMem {child : ℕ} (node : ℕ) {l : List ℕ} (h : child ∉ l) :
    place .before (some child) node l = node :: l ∧ place .after (some child) node l = l ++ [node] := by
  simp [place, addIndex, h]

theorem place_of_split {child : ℕ} (node : ℕ) {l r : List ℕ} (h : child ∉ l) :
    place .before (some child) node (l ++ child :: r) = l ++ node :: child :: r ∧
      place .after (some child) node (l ++ child :: r) = l ++ child :: node :: r := by
  have hidx : (l ++ child :: r).idxOf child = l.length := by
    rw [List.idxOf_append_of_notMem h, List.idxOf_cons_self, Nat.add_zero]
  have hmem : child ∈ l ++ child :: r := by simp
  simp only [place, addIndex, if_pos hmem, hidx]
  constructor
  · rw [List.take_left, List.drop_left]
  · rw [List.take_length_add_append, List.drop_length_add_append]
    simp

section Add

variable {heap : MxmlHeap} {kids : ℕ → List ℕ} (h : heap.Ok kids) {p node : ℕ} (hp_live : heap.live p)
  (hlive : heap.live node) (hroot : heap.parent node = none) (hnot : ¬ Below kids p node)

include h hroot

theorem Ok.prev_root : heap.prev node = none :=
  h.linked.up.root fun q hq ↦ h.linked.notMem_of_parent hroot q (List.mem_reverse.1 hq)

theorem Ok.next_root : heap.next node = none :=
  h.linked.down.root (h.linked.notMem_of_parent hroot)

theorem Ok.ne_root {q d : ℕ} (hd : d ∈ kids q) : some d ≠ some node := fun heq ↦
  h.linked.notMem_of_parent hroot q (Option.some.inj heq ▸ hd)

include hp_live hlive hnot

theorem Ok.addFirst : Added heap kids p (node :: kids p) ((heap.setParent node (some p)).addFirst p node) := by
  have hhead := h.linked.down.head p
  have hne : heap.child p ≠ some node := fun heq ↦ h.ne_root hroot (List.mem_of_head? (hhead ▸ heq)) rfl
  have heq : (heap.setParent node (some p)).addFirst p node = some { heap with
      parent := update heap.parent node (some p)
      child := update heap.child p (some node)
      lastChild := (link (heap.child p) p (some node) heap.lastChild heap.prev).1
      prev := (link (heap.child p) p (some node) heap.lastChild heap.prev).2
      next := update heap.next node (heap.child p) } := by
    have hmem : ∀ d ∈ heap.child p, heap.live d := fun d hd ↦ (h.live p d (List.mem_of_head? (hhead ▸ hd))).2
    exact congrArg (Option.bind · _)
      (linkPrev_eq ((heap.setParent node (some p)).setNext node (heap.child p)) hmem hp_live (some node))
  refine ⟨_, heq, ?_, rfl, rfl⟩
  refine h.insert (l := []) (r := kids p) rfl hp_live hlive hroot hnot rfl rfl rfl ?_ ?_ ?_
  · rw [← hhead]
  · rw [← hhead]
    refine (update_eq_self_iff.2 (Eq.symm ?_)).symm
    exact (link_next_of_ne hne ..).trans (h.prev_root hroot)
  · rw [← hhead]
    rfl

theorem Ok.addLast : Added heap kids p (kids p ++ [node]) ((heap.setParent node (some p)).addLast p node) := by
  have hlast := h.linked.last_eq p
  have hne : heap.lastChild p ≠ some node := fun heq ↦ h.ne_root hroot (List.mem_of_getLast? (hlast ▸ heq)) rfl
  have heq : (heap.setParent node (some p)).addLast p node = some { heap with
      parent := update heap.parent node (some p)
      child := (link (heap.lastChild p) p (some node) heap.child heap.next).1
      lastChild := update heap.lastChild p (some node)
      prev := update heap.prev node (heap.lastChild p)
      next := (link (heap.lastChild p) p (some node) heap.child heap.next).2 } := by
    have hmem : ∀ d ∈ heap.lastChild p, heap.live d := fun d hd ↦
      (h.live p d (List.mem_of_getLast? (hlast ▸ hd))).2
    refine (congrArg (Option.bind · _) (linkNext_eq (((heap.setParent node (some p)).setParent node
      (some p)).setPrev node (heap.lastChild p)) hmem hp_live (some node))).trans ?_
    simp [setParent, setPrev, setLastChild]
  refine ⟨_, heq, ?_, rfl, rfl⟩
  refine h.insert (l := kids p) (r := []) (List.append_nil _).symm hp_live hlive hroot hnot rfl rfl ?_ rfl ?_ ?_
  · rw [← hlast]
  · rw [← hlast]
    rfl
  · rw [← hlast]
    refine (update_eq_self_iff.2 (Eq.symm ?_)).symm
    exact (link_next_of_ne hne ..).trans (h.next_root hroot)

/-- In front of a child, or behind one. -/
theorem Ok.addBefore {l r : List ℕ} {child : ℕ} (hp : kids p = l ++ child :: r) :
    Added heap kids p (l ++ node :: child :: r) ((heap.setParent node (some p)).addBefore p child node) := by
  have hprev := h.linked.prev_eq hp
  have hmem {d : ℕ} (hd : d ∈ l) : d ∈ kids p := hp ▸ List.mem_append_left _ hd
  have hchild : child ≠ node := fun heq ↦
    h.ne_root hroot (q := p) (d := child) (by rw [hp]; simp) (congrArg some heq)
  have hne : heap.prev child ≠ some node := fun heq ↦
    h.ne_root hroot (hmem (List.mem_of_getLast? (hprev ▸ heq))) rfl
  have heq : (heap.setParent node (some p)).addBefore p child node = some { heap with
      parent := update heap.parent node (some p)
      child := (link (heap.prev child) p (some node) heap.child (update heap.next node (some child))).1
      prev := update (update heap.prev node (heap.prev child)) child (some node)
      next := (link (heap.prev child) p (some node) heap.child (update heap.next node (some child))).2 } := by
    have hlive' : ∀ d ∈ heap.prev child, heap.live d := fun d hd ↦
      (h.live p d (hmem (List.mem_of_getLast? (hprev ▸ hd)))).2
    have hread :
        (((heap.setParent node (some p)).setNext node (some child)).setPrev node (heap.prev child)).prev child =
          heap.prev child := update_of_ne hchild _ _
    rw [MxmlHeap.addBefore]
    rw [show ((heap.setParent node (some p)).setNext node (some child)).prev child = heap.prev child from rfl, hread]
    exact congrArg (Option.bind · _) (linkNext_eq (((heap.setParent node (some p)).setNext node
      (some child)).setPrev node (heap.prev child)) hlive' hp_live (some node))
  refine ⟨_, heq, ?_, rfl, rfl⟩
  refine h.insert (r := child :: r) hp hp_live hlive hroot hnot rfl rfl ?_ rfl ?_ ?_
  · rw [← hprev]
    cases heap.prev child <;> rfl
  · rw [← hprev]
    exact update_comm hchild.symm _ _ _
  · rw [← hprev]
    cases hc : heap.prev child with
    | none => rfl
    | some d =>
      rw [hc] at hne
      exact update_comm (fun heq ↦ hne (congrArg some heq.symm)) _ _ _

theorem Ok.addAfter {l r : List ℕ} {child : ℕ} (hp : kids p = l ++ child :: r) :
    Added heap kids p (l ++ child :: node :: r) ((heap.setParent node (some p)).addAfter p child node) := by
  have hnext := h.linked.next_eq hp
  have hmem {d : ℕ} (hd : d ∈ r) : d ∈ kids p := by
    rw [hp]
    exact List.mem_append_right _ (List.mem_cons_of_mem child hd)
  have hchild : child ≠ node := fun heq ↦
    h.ne_root hroot (q := p) (d := child) (by rw [hp]; simp) (congrArg some heq)
  have hne : heap.next child ≠ some node := fun heq ↦
    h.ne_root hroot (hmem (List.mem_of_head? (hnext ▸ heq))) rfl
  have heq : (heap.setParent node (some p)).addAfter p child node = some { heap with
      parent := update heap.parent node (some p)
      lastChild := (link (heap.next child) p (some node) heap.lastChild (update heap.prev node (some child))).1
      prev := (link (heap.next child) p (some node) heap.lastChild (update heap.prev node (some child))).2
      next := update (update heap.next node (heap.next child)) child (some node) } := by
    have hlive' : ∀ d ∈ heap.next child, heap.live d := fun d hd ↦
      (h.live p d (hmem (List.mem_of_head? (hnext ▸ hd)))).2
    have hread :
        (((heap.setParent node (some p)).setPrev node (some child)).setNext node (heap.next child)).next child =
          heap.next child := update_of_ne hchild _ _
    rw [MxmlHeap.addAfter]
    rw [show ((heap.setParent node (some p)).setPrev node (some child)).next child = heap.next child from rfl, hread]
    exact congrArg (Option.bind · _) (linkPrev_eq (((heap.setParent node (some p)).setPrev node
      (some child)).setNext node (heap.next child)) hlive' hp_live (some node))
  have hp' : kids p = (l ++ [child]) ++ r := by rw [hp]; simp
  have hlast : (l ++ [child]).getLast? = some child := List.getLast?_concat ..
  refine ⟨_, heq, ?_, rfl, rfl⟩
  rw [show l ++ child :: node :: r = (l ++ [child]) ++ node :: r by simp]
  refine h.insert hp' hp_live hlive hroot hnot rfl rfl ?_ ?_ ?_ ?_
  · rw [hlast]
    rfl
  · rw [← hnext]
    cases heap.next child <;> rfl
  · rw [← hnext, hlast]
    cases hc : heap.next child with
    | none => rfl
    | some d =>
      rw [hc] at hne
      exact update_comm (fun heq ↦ hne (congrArg some heq.symm)) _ _ _
  · rw [← hnext, hlast]
    exact update_comm hchild.symm _ _ _

theorem Ok.addAt_before {child : Option ℕ} (hchild : ∀ c ∈ child, heap.live c ∧ c ≠ node) :
    Added heap kids p (place .before child node (kids p))
      ((heap.setParent node (some p)).addAt p child node .before) := by
  have hderef : (heap.setParent node (some p)).deref p = some () := deref_eq hp_live
  have hhead : (heap.setParent node (some p)).child p = (kids p).head? := h.linked.down.head p
  rw [addAt, hderef]
  dsimp only [Option.bind_eq_bind, Option.bind_some]
  rw [hhead, h.atEnd p node _ hchild]
  cases child with
  | none => exact h.addFirst hp_live hlive hroot hnot
  | some c =>
    rw [Option.all_some]
    by_cases hmem : c ∈ kids p
    · obtain ⟨l, r, hp, hl, -⟩ := h.split_mem hmem
      have hplace := (place_of_split node (r := r) hl).1
      rw [← hp] at hplace
      rw [hplace]
      cases l with
      | nil =>
        have hfirst : (kids p).head? = some c := by rw [hp]; rfl
        rw [hfirst, ← List.nil_append (c :: r), ← hp]
        simp only [List.nil_append, true_or, decide_true, Option.bind_some]
        exact h.addFirst hp_live hlive hroot hnot
      | cons d l =>
        have hdc : d ≠ c := fun heq ↦ hl (heq ▸ List.mem_cons_self)
        have hfirst : (kids p).head? = some d := by rw [hp]; rfl
        rw [hfirst]
        simp only [Option.some.injEq, hdc, hmem, not_true_eq_false, or_self, decide_false, Option.bind_some]
        exact h.addBefore hp_live hlive hroot hnot hp
    · rw [(place_of_notMem node hmem).1]
      simp only [hmem, not_false_eq_true, or_true, decide_true, Option.bind_some]
      exact h.addFirst hp_live hlive hroot hnot

theorem Ok.addAt_after {child : Option ℕ} (hchild : ∀ c ∈ child, heap.live c ∧ c ≠ node) :
    Added heap kids p (place .after child node (kids p))
      ((heap.setParent node (some p)).addAt p child node .after) := by
  have hderef : (heap.setParent node (some p)).deref p = some () := deref_eq hp_live
  have hlast : (heap.setParent node (some p)).lastChild p = (kids p).getLast? := h.linked.last_eq p
  rw [addAt, hderef]
  dsimp only [Option.bind_eq_bind, Option.bind_some]
  rw [hlast, h.atEnd p node _ hchild]
  cases child with
  | none =>
    rw [place_none]
    exact h.addLast hp_live hlive hroot hnot
  | some c =>
    rw [Option.all_some]
    by_cases hmem : c ∈ kids p
    · obtain ⟨l, r, hp, hl, hr⟩ := h.split_mem hmem
      have hplace := (place_of_split node (r := r) hl).2
      rw [← hp] at hplace
      rw [hplace]
      rcases List.eq_nil_or_concat r with rfl | ⟨r, d, rfl⟩
      · have hfirst : (kids p).getLast? = some c := by rw [hp, List.getLast?_concat]
        rw [hfirst, show l ++ [c, node] = kids p ++ [node] by rw [hp]; simp]
        simp only [true_or, decide_true, Option.bind_some]
        exact h.addLast hp_live hlive hroot hnot
      · have hdc : d ≠ c := fun heq ↦ hr (by simp [heq])
        have hfirst : (kids p).getLast? = some d := by
          rw [hp, List.concat_eq_append, ← List.cons_append, ← List.append_assoc, List.getLast?_concat]
        rw [hfirst]
        simp only [Option.some.injEq, hdc, hmem, not_true_eq_false, or_self, decide_false, Option.bind_some]
        exact h.addAfter hp_live hlive hroot hnot hp
    · rw [(place_of_notMem node hmem).2]
      simp only [hmem, not_false_eq_true, or_true, decide_true, Option.bind_some]
      exact h.addLast hp_live hlive hroot hnot

end Add

/-- **`mxmlAdd`** takes the node out of its list and puts it under the parent, if it is not above it, and is not
added next to itself. -/
theorem Ok.mxmlAdd {heap : MxmlHeap} {kids : ℕ → List ℕ} (h : heap.Ok kids) {p node : ℕ} (hp_live : heap.live p)
    (hlive : heap.live node) (hnot : ¬ Below kids p node) (w : MxmlWhere) {child : Option ℕ}
    (hchild : ∀ c ∈ child, heap.live c ∧ c ≠ node) :
    Added heap (detach kids node) p (place w child node (detach kids node p))
      (heap.mxmlAdd (some p) w child (some node)) := by
  have hmono : ¬ Below (detach kids node) p node := fun hbelow ↦
    hnot (hbelow.mono fun q c hc ↦ List.mem_of_mem_erase hc)
  obtain ⟨heap', hremove, hok, hroot, hlive', hvalue'⟩ := h.mxmlRemove hlive
  have heq : heap.mxmlAdd (some p) w child (some node) = (heap'.setParent node (some p)).addAt p child node w := by
    rw [MxmlHeap.mxmlAdd, deref_eq hlive]
    dsimp only [Option.bind_eq_bind, Option.bind_some]
    cases hparent : heap.parent node with
    | some q =>
      rw [Option.isSome_some, if_pos rfl, hremove, Option.bind_some]
    | none =>
      have hsame : heap' = heap := by
        rw [MxmlHeap.mxmlRemove, deref_eq hlive, hparent] at hremove
        exact (Option.some.inj hremove).symm
      rw [Option.isSome_none, if_neg Bool.false_ne_true, hsame]
  rw [heq]
  rw [← hlive'] at hp_live hlive hchild
  obtain ⟨heap'', hadd, hok', hlive'', hvalue''⟩ : Added heap' (detach kids node) p
      (place w child node (detach kids node p)) ((heap'.setParent node (some p)).addAt p child node w) := by
    cases w with
    | before => exact hok.addAt_before hp_live hlive hroot hmono hchild
    | after => exact hok.addAt_after hp_live hlive hroot hmono hchild
  exact ⟨heap'', hadd, hok', hlive''.trans hlive', hvalue''.trans hvalue'⟩

end MxmlHeap

end Sunda
