import Sunda.Xml.MxmlNodeSearch
import Sunda.Xml.Xml

/-!
# Elements in memory

The steps that the wrapper of `pubfun/xml/xml.c` is made of, on nodes with pointers: it looks for a child
(`XmlMem.findChild`), makes one where there is none (`XmlMem.findOrNew`), sets an attribute (`XmlMem.setAttr`)
and reads one. Between `XmlInit` and `XmlFree` no node is freed, so `calloc` returns new pointers only:
`calloc n` is what its call number `n` for a node returned.

`Reps` says which tree hangs from a node. `Becomes` says that it has become another tree, and that the nodes
around it are as they were: `Becomes.trans` and `Becomes.child` carry it from one step to the next one and
from a child to its parent.
-/

namespace Sunda

open FirstMatch Forest Function MxmlHeap

/-! ### Trees of nodes -/

mutual

/-- The node, with what is below it, stands for the tree. -/
def Reps (value : ℕ → MxmlValue) (kids : ℕ → List ℕ) : MxmlNode → ℕ → Prop
  | ⟨name, attrs, children⟩, p => value p = .element name attrs ∧ RepsAll value kids children (kids p)

def RepsAll (value : ℕ → MxmlValue) (kids : ℕ → List ℕ) : List MxmlNode → List ℕ → Prop
  | [], ps => ps = []
  | node :: nodes, ps => ∃ q qs, ps = q :: qs ∧ Reps value kids node q ∧ RepsAll value kids nodes qs

end

theorem repsAll_iff {value : ℕ → MxmlValue} {kids : ℕ → List ℕ} {nodes : List MxmlNode} {ps : List ℕ} :
    RepsAll value kids nodes ps ↔ List.Forall₂ (Reps value kids) nodes ps := by
  induction nodes generalizing ps with
  | nil => rw [RepsAll, List.forall₂_nil_left_iff]
  | cons node nodes ih =>
    rw [RepsAll, List.forall₂_cons_left_iff]
    constructor
    · rintro ⟨q, qs, rfl, hq, hqs⟩
      exact ⟨q, qs, hq, ih.1 hqs, rfl⟩
    · rintro ⟨q, qs, hq, hqs, rfl⟩
      exact ⟨q, qs, rfl, hq, ih.2 hqs⟩

theorem reps_iff {value : ℕ → MxmlValue} {kids : ℕ → List ℕ} {node : MxmlNode} {p : ℕ} :
    Reps value kids node p ↔
      value p = .element node.name node.attrs ∧ List.Forall₂ (Reps value kids) node.children (kids p) := by
  cases node
  rw [Reps, repsAll_iff]

mutual

/-- Only the nodes of the tree matter. -/
theorem Reps.congr {value value' : ℕ → MxmlValue} {kids kids' : ℕ → List ℕ} :
    ∀ {node : MxmlNode} {p : ℕ}, Reps value kids node p →
      (∀ q, Below kids q p → value' q = value q ∧ kids' q = kids q) → Reps value' kids' node p
  | ⟨_, _, _⟩, p, ⟨hvalue, hchildren⟩, hsame => by
    obtain ⟨hvalue', hkids'⟩ := hsame p .refl
    refine ⟨hvalue'.trans hvalue, ?_⟩
    rw [hkids']
    exact hchildren.congr fun c hc q hq ↦ hsame q (hq.tail hc)

theorem RepsAll.congr {value value' : ℕ → MxmlValue} {kids kids' : ℕ → List ℕ} :
    ∀ {nodes : List MxmlNode} {ps : List ℕ}, RepsAll value kids nodes ps →
      (∀ p ∈ ps, ∀ q, Below kids q p → value' q = value q ∧ kids' q = kids q) → RepsAll value' kids' nodes ps
  | [], _, h, _ => h
  | _ :: _, _, ⟨q, qs, hps, hq, hqs⟩, hsame => by
    subst hps
    exact ⟨q, qs, rfl, hq.congr (hsame q List.mem_cons_self),
      hqs.congr fun p hp ↦ hsame p (List.mem_cons_of_mem q hp)⟩

end

/-! ### The memory -/

/-- The nodes, and how many were allocated. -/
structure XmlMem where
  heap : MxmlHeap
  allocs : ℕ

namespace XmlMem

/-- `mxmlFindElement(top, top, name, attr, value, MXML_DESCEND_FIRST)`. -/
def findChild (fuel : ℕ) (s : XmlMem) (top : ℕ) (name : List UInt8)
    (attr : Option (List UInt8 × List UInt8)) : Option (Option ℕ) :=
  s.heap.mxmlFindElement fuel top top (some name) (attr.map Prod.fst) (attr.map Prod.snd) .descendFirst

/-- `mxmlElementGetAttr`. -/
def getAttr (s : XmlMem) (node : ℕ) (name : List UInt8) : Option (Option (List UInt8)) :=
  (s.heap.deref node).map fun _ ↦
    match s.heap.value node with
    | .element _ attrs => (attrs.find? (isAttr name)).map Prod.snd
    | .text .. => none

/-- `mxmlElementSetAttr`. -/
def setAttr (s : XmlMem) (node : ℕ) (name value : List UInt8) : Option XmlMem :=
  (s.heap.deref node).map fun _ ↦
    match s.heap.value node with
    | .element elem attrs =>
      let attrs := upsert (isAttr name) (name, value) (fun a ↦ (a.1, value)) attrs
      { s with heap := { s.heap with value := update s.heap.value node (.element elem attrs) } }
    | .text .. => s

variable (calloc : ℕ → ℕ)

/-- `mxmlNewElement`. -/
def newElement (s : XmlMem) (parent : Option ℕ) (name : List UInt8) : Option (XmlMem × ℕ) :=
  (s.heap.mxmlNew (calloc s.allocs) parent (.element name [])).map fun heap ↦
    (⟨heap, s.allocs + 1⟩, calloc s.allocs)

/-- The child with a name, and where it is given an attribute with a value; a new one if there is none. -/
def findOrNew (fuel : ℕ) (s : XmlMem) (tree : ℕ) (name : List UInt8)
    (attr : Option (List UInt8 × List UInt8)) : Option (XmlMem × ℕ) := do
  match ← s.findChild fuel tree name attr with
  | some node => some (s, node)
  | none =>
    let (s, node) ← s.newElement calloc (some tree) name
    match attr with
    | none => some (s, node)
    | some (attr, value) => (s.setAttr node attr value).map fun s ↦ (s, node)

/-- The nodes are those that were allocated. -/
structure Ok (s : XmlMem) (kids : ℕ → List ℕ) : Prop where
  ok : s.heap.Ok kids
  live : ∀ q, s.heap.live q ↔ ∃ n < s.allocs, calloc n = q

end XmlMem

variable {calloc : ℕ → ℕ} {s s' : XmlMem} {kids kids' : ℕ → List ℕ}

/-- A node has at most as many children as there are nodes. -/
theorem XmlMem.Ok.length_le (h : s.Ok calloc kids) (p : ℕ) : (kids p).length ≤ s.allocs := by
  have hsub : kids p ⊆ (List.range s.allocs).map calloc := fun c hc ↦ by
    obtain ⟨n, hn, rfl⟩ := (h.live c).1 (h.ok.live p c hc).2
    exact List.mem_map_of_mem (List.mem_range.2 hn)
  have hle := ((h.ok.linked.nodup p).subperm hsub).length_le
  rwa [List.length_map, List.length_range] at hle

/-- The next node is a new one. -/
theorem XmlMem.Ok.fresh (h : s.Ok calloc kids) (hinj : Injective calloc) :
    s.heap.live (calloc s.allocs) = false := by
  rw [← Bool.not_eq_true, h.live]
  rintro ⟨n, hn, heq⟩
  exact absurd (hinj heq) (Nat.ne_of_lt hn)

/-! ### What becomes of a tree -/

/-- The tree below a node that is allocated has become another one, with at most `k` nodes more; whatever else
is allocated is as it was. -/
structure Becomes (calloc : ℕ → ℕ) (s : XmlMem) (kids : ℕ → List ℕ) (p : ℕ) (s' : XmlMem) (kids' : ℕ → List ℕ)
    (node : MxmlNode) (k : ℕ) : Prop where
  ok : s'.Ok calloc kids'
  allocs : s.allocs ≤ s'.allocs ∧ s'.allocs ≤ s.allocs + k
  /-- No list has lost a node. -/
  keep : ∀ q, kids q ⊆ kids' q
  /-- No list has got a node that was allocated before. -/
  new : ∀ q, ∀ c ∈ kids' q, s.heap.live c → c ∈ kids q
  /-- What was allocated is below the node. -/
  below : ∀ q, s'.heap.live q → s.heap.live q ∨ Below kids' q p
  same : ∀ q, s.heap.live q → ¬ Below kids q p → s'.heap.value q = s.heap.value q ∧ kids' q = kids q
  reps : Reps s'.heap.value kids' node p

namespace Becomes

variable {p : ℕ} {node node' : MxmlNode} {k k' : ℕ}

theorem refl (h : s.Ok calloc kids) (hp : Reps s.heap.value kids node p) :
    Becomes calloc s kids p s kids node 0 where
  ok := h
  allocs := ⟨le_rfl, le_rfl⟩
  keep _ := List.Subset.refl _
  new _ _ hc _ := hc
  below _ hq := .inl hq
  same _ _ _ := ⟨rfl, rfl⟩
  reps := hp

theorem live (h : Becomes calloc s kids p s' kids' node k) (hok : s.Ok calloc kids) {q : ℕ} (hq : s.heap.live q) :
    s'.heap.live q := by
  obtain ⟨n, hn, rfl⟩ := (hok.live q).1 hq
  exact (h.ok.live _).2 ⟨n, hn.trans_le h.allocs.1, rfl⟩

/-- A node that was allocated is below the same ones as before. -/
theorem below_of (h : Becomes calloc s kids p s' kids' node k) (hok : s.Ok calloc kids) {q r : ℕ}
    (hq : s.heap.live q) (hbelow : Below kids' q r) : Below kids q r := by
  induction hbelow using Relation.ReflTransGen.head_induction_on with
  | refl => exact .refl
  | @head a b hab _ ih =>
    have ha := h.new b a hab hq
    exact (ih (hok.ok.live b a ha).1).head ha

theorem trans {s1 s2 : XmlMem} {kids1 kids2 : ℕ → List ℕ} (hok : s.Ok calloc kids)
    (h1 : Becomes calloc s kids p s1 kids1 node k) (h2 : Becomes calloc s1 kids1 p s2 kids2 node' k') :
    Becomes calloc s kids p s2 kids2 node' (k + k') where
  ok := h2.ok
  allocs := by
    have h1 := h1.allocs
    have h2 := h2.allocs
    omega
  keep q _ hc := h2.keep q (h1.keep q hc)
  new q c hc hlive := h1.new q c (h2.new q c hc (h1.live hok hlive)) hlive
  below q hq := by
    rcases h2.below q hq with hq1 | hbelow
    · exact (h1.below q hq1).imp_right (Below.mono fun r c hc ↦ h2.keep r hc)
    · exact .inr hbelow
  same q hq hnot := by
    obtain ⟨hvalue1, hkids1⟩ := h1.same q hq hnot
    obtain ⟨hvalue2, hkids2⟩ := h2.same q (h1.live hok hq) fun hbelow ↦ hnot (h1.below_of hok hq hbelow)
    exact ⟨hvalue2.trans hvalue1, hkids2.trans hkids1⟩
  reps := h2.reps

/-- **From a child to its parent.** -/
theorem child {i q : ℕ} {child' : MxmlNode} (hok : s.Ok calloc kids) (hp : Reps s.heap.value kids node p)
    (hi : (kids p)[i]? = some q) (h : Becomes calloc s kids q s' kids' child' k) :
    Becomes calloc s kids p s' kids' { node with children := node.children.set i child' } k where
  ok := h.ok
  allocs := h.allocs
  keep := h.keep
  new := h.new
  below r hr := (h.below r hr).imp_right fun hbelow ↦ hbelow.tail (h.keep p (List.mem_of_getElem? hi))
  same r hr hnot := h.same r hr fun hbelow ↦ hnot (hbelow.tail (List.mem_of_getElem? hi))
  reps := by
    have hq := List.mem_of_getElem? hi
    obtain ⟨hvalue, hchildren⟩ := reps_iff.1 hp
    obtain ⟨hvalue', hkids'⟩ := h.same p (hok.ok.live p q hq).1 (hok.ok.grounded.not_below hq)
    refine reps_iff.2 ⟨hvalue'.trans hvalue, ?_⟩
    rw [hkids', List.forall₂_iff_get]
    rw [List.forall₂_iff_get] at hchildren
    obtain ⟨hlen, hall⟩ := hchildren
    refine ⟨by rw [List.length_set, hlen], fun j hj hj' ↦ ?_⟩
    obtain ⟨hlt, rfl⟩ := List.getElem?_eq_some_iff.1 hi
    rw [List.get_eq_getElem, List.get_eq_getElem, List.getElem_set]
    split
    · next heq =>
      subst heq
      exact h.reps
    · next hne =>
      -- the other children are not below this one
      rw [List.length_set] at hj
      refine (hall j hj hj').congr fun r hr ↦ ?_
      have hj := List.getElem_mem hj'
      refine h.same r (hok.ok.live_of_below (hok.ok.live p _ hj).2 hr) ?_
      refine hok.ok.grounded.disjoint (fun hp hq ↦ hok.ok.unique hp hq) hj hq (fun heq ↦ hne ?_) hr
      exact ((hok.ok.linked.nodup p).getElem_inj_iff.1 heq).symm

theorem mono (h : Becomes calloc s kids p s' kids' node k) (hle : k ≤ k') :
    Becomes calloc s kids p s' kids' node k' :=
  { h with allocs := ⟨h.allocs.1, h.allocs.2.trans (Nat.add_le_add_left hle _)⟩ }

/-- A child of what has become of the node. -/
theorem exists_child {i q : ℕ} (h : Becomes calloc s kids p s' kids' node k) (hi : (kids' p)[i]? = some q) :
    ∃ child, node.children[i]? = some child ∧ s'.heap.live q ∧ Reps s'.heap.value kids' child q := by
  obtain ⟨hlt, rfl⟩ := List.getElem?_eq_some_iff.1 hi
  obtain ⟨hlen, hall⟩ := List.forall₂_iff_get.1 (reps_iff.1 h.reps).2
  have hlt' : i < node.children.length := hlen ▸ hlt
  exact ⟨_, List.getElem?_eq_getElem hlt', (h.ok.ok.live p _ (List.getElem_mem hlt)).2, hall i hlt' hlt⟩

/-- **A step at a child**, behind another step. -/
theorem modifyChild {s1 s2 : XmlMem} {kids1 kids2 : ℕ → List ℕ} {i q : ℕ} {child : MxmlNode}
    {f : MxmlNode → MxmlNode} (hok : s.Ok calloc kids) (h : Becomes calloc s kids p s1 kids1 node k)
    (hi : (kids1 p)[i]? = some q) (hchild : node.children[i]? = some child)
    (h2 : Becomes calloc s1 kids1 q s2 kids2 (f child) k') :
    Becomes calloc s kids p s2 kids2 (node.modifyChild i f) (k + k') := by
  rw [MxmlNode.modifyChild, List.modify_eq_set_getElem?, hchild]
  exact h.trans hok (h2.child h.ok h.reps hi)

end Becomes

/-! ### Steps -/

theorem isMatch_element (name : List UInt8) (attr : Option (List UInt8 × List UInt8)) (node : MxmlNode) :
    isMatch (some name) (attr.map Prod.fst) (attr.map Prod.snd) (.element node.name node.attrs) =
      node.isElement name attr := by
  cases attr with
  | none => rfl
  | some a =>
    rw [MxmlNode.isElement_some, mxmlElementGetAttr]
    show (node.name == name && ((node.attrs.find? (isAttr a.1)).map Prod.snd).any fun temp ↦ a.2 == temp) = _
    cases (node.attrs.find? (isAttr a.1)).map Prod.snd with
    | none => rfl
    | some v =>
      exact congrArg (node.name == name && ·) (Bool.beq_comm (a := a.2) (b := v))

/-- A search in one of two lists that go together. -/
theorem find?_of_forall₂ {α β : Type} {R : α → β → Prop} {P : α → Bool} {Q : β → Bool} {l : List α} {m : List β}
    (h : List.Forall₂ R l m) (hpq : ∀ {a b}, R a b → Q b = P a) :
    m.find? Q = (l.findIdx? P).bind fun i ↦ m[i]? := by
  have hidx : m.findIdx? Q = l.findIdx? P := by
    induction h with
    | nil => rfl
    | cons hab _ ih => rw [List.findIdx?_cons, List.findIdx?_cons, hpq hab, ih]
  rw [List.find?_eq_bind_findIdx?_getElem?, hidx]

theorem getAttr_eq {p : ℕ} {node : MxmlNode} (hlive : s.heap.live p) (hp : Reps s.heap.value kids node p)
    (name : List UInt8) : s.getAttr p name = some (mxmlElementGetAttr node name) := by
  rw [XmlMem.getAttr, deref_eq hlive, (reps_iff.1 hp).1]
  rfl

section Steps

variable (hok : s.Ok calloc kids) {p : ℕ} {node : MxmlNode} (hlive : s.heap.live p)
  (hp : Reps s.heap.value kids node p)

include hok hlive hp

theorem findChild_eq {fuel : ℕ} (hfuel : s.allocs < fuel) (name : List UInt8)
    (attr : Option (List UInt8 × List UInt8)) :
    s.findChild fuel p name attr = some ((mxmlFindElement node name attr).bind fun i ↦ (kids p)[i]?) := by
  have hattr : (attr.map Prod.snd).isSome → (attr.map Prod.fst).isSome := by
    rw [Option.isSome_map, Option.isSome_map]
    exact id
  rw [XmlMem.findChild, hok.ok.mxmlFindElement_descendFirst hlive (some name) hattr
    ((hok.length_le p).trans_lt hfuel)]
  refine congrArg some (find?_of_forall₂ (reps_iff.1 hp).2 fun {child q} hq ↦ ?_)
  rw [(reps_iff.1 hq).1, isMatch_element]

/-- `mxmlElementSetAttr`. -/
theorem setAttr_becomes (name value : List UInt8) : ∃ s', s.setAttr p name value = some s' ∧
    Becomes calloc s kids p s' kids (mxmlElementSetAttr node name value) 0 := by
  obtain ⟨hvalue, hchildren⟩ := reps_iff.1 hp
  have hset : s.setAttr p name value = some { s with
      heap := { s.heap with
        value := update s.heap.value p (.element node.name (mxmlElementSetAttr node name value).attrs) } } := by
    rw [XmlMem.setAttr, deref_eq hlive, hvalue]
    rfl
  refine ⟨_, hset, ⟨⟨hok.ok.linked, hok.ok.live, hok.ok.grounded⟩, hok.live⟩, ⟨le_rfl, le_rfl⟩,
    fun _ ↦ List.Subset.refl _, fun _ _ hc _ ↦ hc, fun _ hq ↦ .inl hq, fun q _ hnot ↦ ⟨?_, rfl⟩, ?_⟩
  · exact update_of_ne (fun heq ↦ hnot (by rw [heq]; exact .refl)) _ _
  · refine reps_iff.2 ⟨update_self .., ?_⟩
    refine List.forall₂_iff_get.2 ⟨(List.forall₂_iff_get.1 hchildren).1, fun i hi hi' ↦ ?_⟩
    refine ((List.forall₂_iff_get.1 hchildren).2 i hi hi').congr fun q hq ↦ ⟨update_of_ne (fun heq ↦ ?_) _ _, rfl⟩
    exact hok.ok.grounded.not_below (List.getElem_mem hi') (by rwa [heq] at hq)

variable (hinj : Injective calloc)

include hinj

/-- `mxmlNewElement`. -/
theorem newElement_becomes (name : List UInt8) : ∃ s' kids',
    s.newElement calloc (some p) name = some (s', calloc s.allocs) ∧
      Becomes calloc s kids p s' kids' (mxmlNewElement node name).1 1 ∧
      (kids' p)[(mxmlNewElement node name).2]? = some (calloc s.allocs) := by
  have hfresh := hok.fresh hinj
  obtain ⟨heap', hnew, hok', hlive', hvalue'⟩ := hok.ok.mxmlNew hfresh (some p) (.element name [])
    (fun _ h ↦ by cases h; exact hlive)
  have hne {q : ℕ} (hq : s.heap.live q) : q ≠ calloc s.allocs := fun heq ↦ by
    rw [heq, hfresh] at hq
    cases hq
  obtain ⟨hvalue, hchildren⟩ := reps_iff.1 hp
  obtain ⟨hnil, hnot⟩ := hok.ok.of_not_live hfresh
  have hpne := hne hlive
  have hkids {q : ℕ} (hq : q ≠ p) : update kids p (kids p ++ [calloc s.allocs]) q = kids q := update_of_ne hq _ _
  have hmem : calloc s.allocs ∈ update kids p (kids p ++ [calloc s.allocs]) p := by simp
  refine ⟨⟨heap', s.allocs + 1⟩, update kids p (kids p ++ [calloc s.allocs]), ?_, ⟨⟨hok', fun q ↦ ?_⟩,
    ⟨Nat.le_succ _, le_rfl⟩, fun q c hc ↦ ?_, fun q c hc hclive ↦ ?_, fun q hq ↦ ?_, fun q hq hbelow ↦ ?_, ?_⟩, ?_⟩
  · rw [XmlMem.newElement, hnew]
    rfl
  · rw [hlive', Nat.exists_lt_succ_right, ← hok.live]
    by_cases hq : q = calloc s.allocs
    · simp [hq]
    · simp [update_of_ne hq, Ne.symm hq]
  · by_cases hq : q = p
    · subst hq
      rw [update_self]
      exact List.mem_append_left _ hc
    · rwa [hkids hq]
  · by_cases hq : q = p
    · subst hq
      rw [update_self] at hc
      exact (List.mem_append.1 hc).resolve_right fun hnew ↦ hne hclive (List.mem_singleton.1 hnew)
    · rwa [hkids hq] at hc
  · by_cases heq : q = calloc s.allocs
    · rw [heq]
      exact .inr (.single hmem)
    · rw [hlive', update_of_ne heq] at hq
      exact .inl hq
  · rw [hvalue']
    exact ⟨update_of_ne (hne hq) _ _, hkids fun heq ↦ hbelow (by rw [heq]; exact .refl)⟩
  · rw [reps_iff, update_self, hvalue']
    refine ⟨(update_of_ne hpne _ _).trans hvalue, List.rel_append ?_ (.cons ?_ .nil)⟩
    · refine List.forall₂_iff_get.2 ⟨(List.forall₂_iff_get.1 hchildren).1, fun i hi hi' ↦ ?_⟩
      refine ((List.forall₂_iff_get.1 hchildren).2 i hi hi').congr fun q hq ↦ ?_
      have hi' := List.getElem_mem hi'
      exact ⟨update_of_ne (hne (hok.ok.live_of_below (hok.ok.live p _ hi').2 hq)) _ _,
        hkids fun heq ↦ hok.ok.grounded.not_below hi' (heq ▸ hq)⟩
    · refine reps_iff.2 ⟨update_self .., ?_⟩
      rw [hkids hpne.symm, hnil]
      exact .nil
  · have hlen := hchildren.length_eq
    rw [update_self, mxmlNewElement, hlen, List.getElem?_concat_length]

/-- The element with a name, or a new one. -/
theorem findOrNew_becomes {fuel : ℕ} (hfuel : s.allocs < fuel) (name : List UInt8)
    (attr : Option (List UInt8 × List UInt8)) : ∃ s' kids' q,
      s.findOrNew calloc fuel p name attr = some (s', q) ∧
        Becomes calloc s kids p s' kids' (findOrNew node name attr).1 1 ∧
        (kids' p)[(findOrNew node name attr).2]? = some q := by
  have hfind := findChild_eq hok hlive hp hfuel name attr
  rw [XmlMem.findOrNew, findOrNew, hfind]
  cases hi : mxmlFindElement node name attr with
  | some i =>
    have hlt : i < (kids p).length := by
      rw [← (reps_iff.1 hp).2.length_eq]
      exact (List.findIdx?_eq_some_iff_getElem.1 hi).1
    refine ⟨s, kids, (kids p)[i], ?_, ?_, List.getElem?_eq_getElem hlt⟩
    · rw [Option.bind_some, List.getElem?_eq_getElem hlt]
      rfl
    · exact (Becomes.refl hok hp).mono (Nat.zero_le 1)
  | none =>
    obtain ⟨s1, kids1, hnew, h1, hi1⟩ := newElement_becomes hok hlive hp hinj name
    cases attr with
    | none =>
      refine ⟨s1, kids1, _, ?_, h1, hi1⟩
      dsimp only [Option.bind_none, Option.bind_eq_bind, Option.bind_some]
      rw [hnew]
      rfl
    | some a =>
      obtain ⟨child, hchild, hlive1, hp1⟩ := h1.exists_child hi1
      obtain ⟨s2, hset, h2⟩ := setAttr_becomes h1.ok hlive1 hp1 a.1 a.2
      refine ⟨s2, kids1, calloc s.allocs, ?_, h1.modifyChild (f := fun node ↦ mxmlElementSetAttr node a.1 a.2) hok
        hi1 hchild h2, hi1⟩
      dsimp only [Option.bind_none, Option.bind_eq_bind, Option.bind_some]
      rw [hnew]
      dsimp only [Option.bind_some]
      rw [hset]
      rfl

end Steps

end Sunda
