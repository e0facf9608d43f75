import Sunda.Xml.XmlNodes

/-!
# The XML wrapper in memory

The functions of `pubfun/xml/xml.c` that set a value or get one, on nodes with pointers, with `l_pIntXml`
pointing to the first one. `Sunda.Xml.Xml` has them on trees. The two agree: each call makes of the nodes what
it makes of the tree (`Document.call`), and each get returns the same, with the same buffer and error text
(`Document.lookup_eq`).

So what was said of the tree holds of the memory, for every run of calls between `XmlInit` and `XmlFree`
(`xmlPointers_run`): no pointer is followed that does not lead to an allocated node, no search goes on for
longer than there are nodes, and `XmlFree` leaves no node behind.
-/

namespace Sunda

open Bytes Forest Function MxmlHeap

namespace XmlMem

variable (calloc : ℕ → ℕ)

/-- `XmlInit`: the memory, and `l_pIntXml`. -/
def init : Option (XmlMem × ℕ) := do
  let (s, l_pIntXml) ← newElement calloc ⟨.empty, 0⟩ none (text "?xml version=\"1.0\" \"encoding\"=\"GB18030\"?")
  let (s, node) ← s.newElement calloc (some l_pIntXml) (text "Message")
  let (s, _) ← s.newElement calloc (some node) (text "Public")
  some (s, l_pIntXml)

/-- The end of every function that sets a value. -/
def setElement (fuel : ℕ) (s : XmlMem) (tree : ℕ) (name value : List UInt8) : Option XmlMem := do
  let (s, node) ← s.findOrNew calloc fuel tree name none
  s.setAttr node (text "value") value

/-- `XmlAddList` below the `<RecordSet>`. -/
def addElement (fuel : ℕ) (s : XmlMem) (recordset : ℕ) (sRecID psEmName value : List UInt8) : Option XmlMem := do
  let (s, record) ← s.findOrNew calloc fuel recordset (text "Record") (some (text "RecID", sRecID))
  s.setElement calloc fuel record psEmName value

/-- `XmlAddList` below `<Message>`. -/
def addItem (fuel : ℕ) (s : XmlMem) (tree : ℕ) (psRecordSetName sRecID psEmName value : List UInt8) :
    Option XmlMem := do
  let (s, recordset) ← s.findOrNew calloc fuel tree (text "RecordSet") (some (text "name", psRecordSetName))
  s.addElement calloc fuel recordset sRecID psEmName value

/-- The outcome of a function that sets a value: the return value, the memory, and the error text if one was
stored. -/
structure SetRet where
  rc : ℤ
  mem : XmlMem
  error : Option (List UInt8)

/-- `XmlSet`, `XmlCharSet` and `XmlIntSet`, up to the text of the value. -/
def setValue (fuel : ℕ) (s : XmlMem) (l_pIntXml : ℕ) (psTagName : List UInt8) (value : Option (List UInt8)) :
    Option SetRet := do
  match ← s.findChild fuel l_pIntXml (text "Message") none with
  | none => (xmlSetError noMessage).map fun e ↦ ⟨-1, s, some e⟩
  | some tree =>
    match ← s.findChild fuel tree (text "Public") none with
    | none => (xmlSetError noPublic).map fun e ↦ ⟨-1, s, some e⟩
    | some tree =>
      let value ← value
      (s.setElement calloc fuel tree psTagName value).map fun s ↦ ⟨0, s, none⟩

/-- `XmlAddList` and `XmlAddIntList`, up to the text of the value. -/
def addListValue (fuel : ℕ) (s : XmlMem) (l_pIntXml : ℕ) (psRecordSetName : List UInt8) (nRecID : ℤ)
    (psEmName : List UInt8) (value : Option (List UInt8)) : Option SetRet := do
  match ← s.findChild fuel l_pIntXml (text "Message") none with
  | none => (xmlSetError noMessage).map fun e ↦ ⟨-1, s, some e⟩
  | some tree =>
    let sRecID ← sprintfInt nRecID
    let value ← value
    (s.addItem calloc fuel tree psRecordSetName sRecID psEmName value).map fun s ↦ ⟨0, s, none⟩

def call (fuel : ℕ) (s : XmlMem) (l_pIntXml : ℕ) : XmlAct → Option SetRet
  | .set t v => s.setValue calloc fuel l_pIntXml t (some v)
  | .charSet t c => s.setValue calloc fuel l_pIntXml t (some (cstr [c, 0]))
  | .intSet t n => s.setValue calloc fuel l_pIntXml t (sprintfInt n)
  | .addList rs id em v => s.addListValue calloc fuel l_pIntXml rs id em (some v)
  | .addIntList rs id em n => s.addListValue calloc fuel l_pIntXml rs id em (sprintfInt n)

/-- The calls, one after the other. -/
def run (fuel : ℕ) (s : XmlMem) (l_pIntXml : ℕ) : List XmlAct → Option XmlMem
  | [] => some s
  | a :: as => (s.call calloc fuel l_pIntXml a).bind fun r ↦ r.mem.run fuel l_pIntXml as

/-- The end of a get that found the node. -/
def valueAt (s : XmlMem) (node : ℕ) (name : List UInt8) (nBuffSize : ℕ) : Option XmlGetRet := do
  match ← s.getAttr node (text "value") with
  | none => xmlFail (noValue name) nBuffSize
  | some psAttrValue =>
    if nBuffSize = 0 then none
    else
      let n := if nBuffSize ≤ psAttrValue.length then nBuffSize - 1 else psAttrValue.length
      some ⟨(BitVec.ofNat 32 psAttrValue.length).toInt,
        psAttrValue.take n ++ List.replicate (nBuffSize - n) 0, none⟩

/-- `XmlGet`. -/
def get (fuel : ℕ) (s : XmlMem) (l_pIntXml : ℕ) (psTagName : List UInt8) (nBuffSize : ℕ) : Option XmlGetRet := do
  match ← s.findChild fuel l_pIntXml (text "Message") none with
  | none => xmlFail noMessage nBuffSize
  | some tree =>
    match ← s.findChild fuel tree (text "Public") none with
    | none => xmlFail noPublic nBuffSize
    | some tree =>
      match ← s.findChild fuel tree psTagName none with
      | none => xmlFail (noElement psTagName) nBuffSize
      | some node => s.valueAt node psTagName nBuffSize

/-- `XmlFetchList`. -/
def fetchList (fuel : ℕ) (s : XmlMem) (l_pIntXml : ℕ) (psRecordSetName : List UInt8) (nRecID : ℤ)
    (psEmName : List UInt8) (nBuffSize : ℕ) : Option XmlGetRet := do
  match ← s.findChild fuel l_pIntXml (text "Message") none with
  | none => xmlFail noMessage nBuffSize
  | some tree =>
    match ← s.findChild fuel tree (text "RecordSet") (some (text "name", psRecordSetName)) with
    | none => xmlFail (noRecordSet psRecordSetName) nBuffSize
    | some recordset =>
      let sRecID ← sprintfInt nRecID
      match ← s.findChild fuel recordset (text "Record") (some (text "RecID", sRecID)) with
      | none => xmlFail (noRecord nRecID) nBuffSize
      | some record =>
        match ← s.findChild fuel record psEmName none with
        | none => xmlFail (noElement psEmName) nBuffSize
        | some node => s.valueAt node psEmName nBuffSize

/-- `XmlGet` and `XmlFetchList`. -/
def lookup (fuel : ℕ) (s : XmlMem) (l_pIntXml : ℕ) (key : XmlKey) (nBuffSize : ℕ) : Option XmlGetRet :=
  match key with
  | .tag t => s.get fuel l_pIntXml t nBuffSize
  | .item rs id em => s.fetchList fuel l_pIntXml rs id em nBuffSize

end XmlMem

/-! ### Setting -/

section Set

variable {calloc : ℕ → ℕ} (hinj : Injective calloc) {s : XmlMem} {kids : ℕ → List ℕ} (hok : s.Ok calloc kids)
  {p fuel : ℕ} {node : MxmlNode} (hlive : s.heap.live p) (hp : Reps s.heap.value kids node p)

include hinj hok hlive hp

theorem setElement_becomes (hfuel : s.allocs < fuel) (name value : List UInt8) : ∃ s' kids',
    s.setElement calloc fuel p name value = some s' ∧
      Becomes calloc s kids p s' kids' (setElement node name value) 1 := by
  obtain ⟨s1, kids1, q, hfind, h1, hi⟩ := findOrNew_becomes hok hlive hp hinj hfuel name none
  obtain ⟨child, hchild, hlive1, hp1⟩ := h1.exists_child hi
  obtain ⟨s2, hset, h2⟩ := setAttr_becomes h1.ok hlive1 hp1 (text "value") value
  refine ⟨s2, kids1, ?_,
    h1.modifyChild (f := fun node ↦ mxmlElementSetAttr node (text "value") value) hok hi hchild h2⟩
  rw [XmlMem.setElement, hfind]
  exact hset

theorem addElement_becomes (hfuel : s.allocs + 1 < fuel) (sRecID psEmName value : List UInt8) : ∃ s' kids',
    s.addElement calloc fuel p sRecID psEmName value = some s' ∧
      Becomes calloc s kids p s' kids' (addElement node sRecID psEmName value) 2 := by
  obtain ⟨s1, kids1, q, hfind, h1, hi⟩ := findOrNew_becomes hok hlive hp hinj
    (show s.allocs < fuel by omega) (text "Record") (some (text "RecID", sRecID))
  obtain ⟨child, hchild, hlive1, hp1⟩ := h1.exists_child hi
  have hallocs := h1.allocs
  obtain ⟨s2, kids2, hset, h2⟩ := setElement_becomes hinj h1.ok hlive1 hp1 (show s1.allocs < fuel by omega)
    psEmName value
  refine ⟨s2, kids2, ?_, h1.modifyChild (f := fun record ↦ setElement record psEmName value) hok hi hchild h2⟩
  rw [XmlMem.addElement, hfind]
  exact hset

theorem addItem_becomes (hfuel : s.allocs + 2 < fuel) (psRecordSetName sRecID psEmName value : List UInt8) :
    ∃ s' kids', s.addItem calloc fuel p psRecordSetName sRecID psEmName value = some s' ∧
      Becomes calloc s kids p s' kids' (addItem node psRecordSetName sRecID psEmName value) 3 := by
  obtain ⟨s1, kids1, q, hfind, h1, hi⟩ := findOrNew_becomes hok hlive hp hinj
    (show s.allocs < fuel by omega) (text "RecordSet") (some (text "name", psRecordSetName))
  obtain ⟨child, hchild, hlive1, hp1⟩ := h1.exists_child hi
  have hallocs := h1.allocs
  obtain ⟨s2, kids2, hadd, h2⟩ := addElement_becomes hinj h1.ok hlive1 hp1 (show s1.allocs + 1 < fuel by omega)
    sRecID psEmName value
  refine ⟨s2, kids2, ?_,
    h1.modifyChild (f := fun recordset ↦ addElement recordset sRecID psEmName value) hok hi hchild h2⟩
  rw [XmlMem.addItem, hfind]
  exact hadd

end Set

/-! ### Documents -/

/-- `l_pIntXml` points to the document, and nothing else is allocated. -/
structure Document (calloc : ℕ → ℕ) (s : XmlMem) (kids : ℕ → List ℕ) (l_pIntXml : ℕ) (tree : MxmlNode) : Prop where
  ok : s.Ok calloc kids
  live : s.heap.live l_pIntXml
  reps : Reps s.heap.value kids tree l_pIntXml
  all : ∀ q, s.heap.live q → Below kids q l_pIntXml

namespace Document

variable {calloc : ℕ → ℕ} {s s' : XmlMem} {kids kids' : ℕ → List ℕ} {l_pIntXml fuel k : ℕ} {tree tree' : MxmlNode}

theorem becomes (h : Document calloc s kids l_pIntXml tree)
    (hb : Becomes calloc s kids l_pIntXml s' kids' tree' k) : Document calloc s' kids' l_pIntXml tree' where
  ok := hb.ok
  live := hb.live h.ok h.live
  reps := hb.reps
  all q hq := (hb.below q hq).elim (fun hq ↦ (h.all q hq).mono fun r _ hc ↦ hb.keep r hc) id

theorem exists_child (h : Document calloc s kids l_pIntXml tree) {p i q : ℕ} {node : MxmlNode}
    (hp : Reps s.heap.value kids node p) (hi : (kids p)[i]? = some q) :
    ∃ child, node.children[i]? = some child ∧ s.heap.live q ∧ Reps s.heap.value kids child q :=
  (Becomes.refl h.ok hp).exists_child hi

/-- What a search finds in memory, and what it finds in the tree. -/
theorem findChild_cases (h : Document calloc s kids l_pIntXml tree) (hfuel : s.allocs < fuel) {p : ℕ}
    {node : MxmlNode} (hlive : s.heap.live p) (hp : Reps s.heap.value kids node p) (name : List UInt8)
    (attr : Option (List UInt8 × List UInt8)) :
    mxmlFindElement node name attr = none ∧ s.findChild fuel p name attr = some none ∨
      ∃ i q child, mxmlFindElement node name attr = some i ∧ s.findChild fuel p name attr = some (some q) ∧
        (kids p)[i]? = some q ∧ node.children[i]? = some child ∧ s.heap.live q ∧ Reps s.heap.value kids child q := by
  rw [findChild_eq h.ok hlive hp hfuel]
  cases hi : mxmlFindElement node name attr with
  | none => exact .inl ⟨rfl, rfl⟩
  | some i =>
    have hlt : i < (kids p).length := by
      rw [← (reps_iff.1 hp).2.length_eq]
      exact (List.findIdx?_eq_some_iff_getElem.1 hi).1
    have hget := List.getElem?_eq_getElem hlt
    obtain ⟨child, hchild, hrest⟩ := h.exists_child hp hget
    exact .inr ⟨i, _, child, rfl, by rw [Option.bind_some, hget], hget, hchild, hrest⟩

/-! ### Setting -/

section Call

variable (h : Document calloc s kids l_pIntXml tree) (hinj : Injective calloc) (hfuel : s.allocs + 2 < fuel)

include h hinj hfuel

theorem setValue {psTagName : List UInt8} {value : Option (List UInt8)} {r : XmlSetRet}
    (hr : xmlSetValue tree psTagName value = some r) : ∃ s' kids',
      s.setValue calloc fuel l_pIntXml psTagName value = some ⟨r.rc, s', r.error⟩ ∧
        Becomes calloc s kids l_pIntXml s' kids' r.tree 3 := by
  have hsame := (Becomes.refl h.ok h.reps).mono (Nat.zero_le 3)
  rw [xmlSetValue] at hr
  rw [XmlMem.setValue]
  rcases h.findChild_cases (show s.allocs < fuel by omega) h.live h.reps (text "Message") none with ⟨hnone, hfind⟩ |
    ⟨i, q, message, hi, hfind, hiq, hmessage, hlive, hp⟩
  · rw [hnone] at hr
    dsimp only at hr
    obtain ⟨e, he, rfl⟩ := Option.map_eq_some_iff.1 hr
    refine ⟨s, kids, ?_, hsame⟩
    rw [hfind]
    dsimp only [Option.bind_eq_bind, Option.bind_some]
    rw [he]
    rfl
  · rw [hi] at hr
    dsimp only at hr
    rw [hmessage, Option.bind_some] at hr
    rcases h.findChild_cases (show s.allocs < fuel by omega) hlive hp (text "Public") none with ⟨hnone, hfind'⟩ |
      ⟨j, q', pub, hj, hfind', hjq, hpub, hlive', hp'⟩
    · rw [hnone] at hr
      dsimp only at hr
      obtain ⟨e, he, rfl⟩ := Option.map_eq_some_iff.1 hr
      refine ⟨s, kids, ?_, hsame⟩
      rw [hfind]
      dsimp only [Option.bind_eq_bind, Option.bind_some]
      rw [hfind']
      dsimp only [Option.bind_some]
      rw [he]
      rfl
    · rw [hj] at hr
      dsimp only at hr
      obtain ⟨v, rfl, rfl⟩ := Option.map_eq_some_iff.1 hr
      obtain ⟨s', kids', hset, hb⟩ := setElement_becomes hinj h.ok hlive' hp' (show s.allocs < fuel by omega)
        psTagName v
      refine ⟨s', kids', ?_, ?_⟩
      · rw [hfind]
        dsimp only [Option.bind_eq_bind, Option.bind_some]
        rw [hfind']
        dsimp only [Option.bind_some]
        rw [hset]
        rfl
      · have hmessage' := (Becomes.refl h.ok hp).modifyChild (f := fun tree ↦ setElement tree psTagName v) h.ok hjq
          hpub hb
        refine ((Becomes.refl h.ok h.reps).modifyChild (f := fun tree ↦ tree.modifyChild j fun tree ↦
          setElement tree psTagName v) h.ok hiq hmessage hmessage').mono (by omega)

theorem addListValue {psRecordSetName psEmName : List UInt8} {nRecID : ℤ} {value : Option (List UInt8)}
    {r : XmlSetRet} (hr : xmlAddListValue tree psRecordSetName nRecID psEmName value = some r) : ∃ s' kids',
      s.addListValue calloc fuel l_pIntXml psRecordSetName nRecID psEmName value = some ⟨r.rc, s', r.error⟩ ∧
        Becomes calloc s kids l_pIntXml s' kids' r.tree 3 := by
  rw [xmlAddListValue] at hr
  rw [XmlMem.addListValue]
  rcases h.findChild_cases (show s.allocs < fuel by omega) h.live h.reps (text "Message") none with ⟨hnone, hfind⟩ |
    ⟨i, q, message, hi, hfind, hiq, hmessage, hlive, hp⟩
  · rw [hnone] at hr
    dsimp only at hr
    obtain ⟨e, he, rfl⟩ := Option.map_eq_some_iff.1 hr
    refine ⟨s, kids, ?_, (Becomes.refl h.ok h.reps).mono (Nat.zero_le 3)⟩
    rw [hfind]
    dsimp only [Option.bind_eq_bind, Option.bind_some]
    rw [he]
    rfl
  · rw [hi] at hr
    dsimp only at hr
    obtain ⟨sRecID, hid, hr⟩ := Option.bind_eq_some_iff.1 hr
    obtain ⟨v, rfl, rfl⟩ := Option.map_eq_some_iff.1 hr
    obtain ⟨s', kids', hadd, hb⟩ := addItem_becomes hinj h.ok hlive hp hfuel psRecordSetName sRecID psEmName v
    refine ⟨s', kids', ?_, ?_⟩
    · rw [hfind]
      dsimp only [Option.bind_eq_bind, Option.bind_some]
      rw [hid]
      dsimp only [Option.bind_some]
      rw [hadd]
      rfl
    · exact ((Becomes.refl h.ok h.reps).modifyChild (f := fun tree ↦ addItem tree psRecordSetName sRecID psEmName v)
        h.ok hiq hmessage hb).mono (by omega)

/-- **A call** makes of the nodes what it makes of the tree. -/
theorem call {a : XmlAct} {r : XmlSetRet} (hr : xmlCall tree a = some r) : ∃ s' kids',
    s.call calloc fuel l_pIntXml a = some ⟨r.rc, s', r.error⟩ ∧
      Becomes calloc s kids l_pIntXml s' kids' r.tree 3 := by
  cases a with
  | set t v => exact h.setValue hinj hfuel hr
  | charSet t c => exact h.setValue hinj hfuel hr
  | intSet t n => exact h.setValue hinj hfuel hr
  | addList rs id em v => exact h.addListValue hinj hfuel hr
  | addIntList rs id em n => exact h.addListValue hinj hfuel hr

end Call

/-- **A run of calls.** -/
theorem run (hinj : Injective calloc) {as : List XmlAct} (h : Document calloc s kids l_pIntXml tree)
    (has : xmlRun tree as = some tree') (hfuel : s.allocs + 3 * as.length < fuel) : ∃ s' kids',
      s.run calloc fuel l_pIntXml as = some s' ∧ Document calloc s' kids' l_pIntXml tree' ∧
        s'.allocs ≤ s.allocs + 3 * as.length := by
  induction as generalizing s kids tree with
  | nil =>
    obtain rfl := Option.some.inj has
    exact ⟨s, kids, rfl, h, le_rfl⟩
  | cons a as ih =>
    rw [List.length_cons] at hfuel ⊢
    obtain ⟨r, hr, has⟩ := Option.bind_eq_some_iff.1 has
    obtain ⟨s1, kids1, hcall, hb⟩ := h.call hinj (show s.allocs + 2 < fuel by omega) hr
    have hallocs := hb.allocs.2
    obtain ⟨s', kids', hrun, h', hle⟩ := ih (h.becomes hb) has (by omega)
    exact ⟨s', kids', by rw [XmlMem.run, hcall, Option.bind_some, hrun], h', by omega⟩

/-! ### Getting -/

section Lookup

variable (h : Document calloc s kids l_pIntXml tree) (hfuel : s.allocs < fuel)

theorem valueAt_eq {p : ℕ} {node : MxmlNode} (hlive : s.heap.live p) (hp : Reps s.heap.value kids node p)
    (name : List UInt8) (nBuffSize : ℕ) : s.valueAt p name nBuffSize = xmlValue node name nBuffSize := by
  rw [XmlMem.valueAt, getAttr_eq hlive hp, xmlValue]
  rfl

include h hfuel

/-- The child that a search finds. -/
theorem found_cases {p : ℕ} {node : MxmlNode} (hlive : s.heap.live p) (hp : Reps s.heap.value kids node p)
    (name : List UInt8) (attr : Option (List UInt8 × List UInt8)) :
    findChild node name attr = none ∧ s.findChild fuel p name attr = some none ∨
      ∃ q child, findChild node name attr = some child ∧ s.findChild fuel p name attr = some (some q) ∧
        s.heap.live q ∧ Reps s.heap.value kids child q := by
  rcases h.findChild_cases hfuel hlive hp name attr with ⟨hnone, hfind⟩ | ⟨i, q, child, hi, hfind, -, hchild, hq⟩
  · exact .inl ⟨by rw [findChild, hnone]; rfl, hfind⟩
  · exact .inr ⟨q, child, by rw [findChild, hi, Option.bind_some, hchild], hfind, hq⟩

theorem get_eq (psTagName : List UInt8) (nBuffSize : ℕ) :
    s.get fuel l_pIntXml psTagName nBuffSize = xmlGet tree psTagName nBuffSize := by
  rw [XmlMem.get, xmlGet]
  rcases h.found_cases hfuel h.live h.reps (text "Message") none with ⟨hnone, hfind⟩ |
    ⟨q, message, hmessage, hfind, hlive, hp⟩
  · rw [hnone, hfind]
    dsimp only [Option.bind_eq_bind, Option.bind_some]
  rw [hmessage, hfind]
  dsimp only [Option.bind_eq_bind, Option.bind_some]
  rcases h.found_cases hfuel hlive hp (text "Public") none with ⟨hnone, hfind⟩ | ⟨q, pub, hpub, hfind, hlive, hp⟩
  · rw [hnone, hfind]
    dsimp only [Option.bind_eq_bind, Option.bind_some]
  rw [hpub, hfind]
  dsimp only [Option.bind_some]
  rcases h.found_cases hfuel hlive hp psTagName none with ⟨hnone, hfind⟩ | ⟨q, node, hnode, hfind, hlive, hp⟩
  · rw [hnone, hfind]
    dsimp only [Option.bind_eq_bind, Option.bind_some]
  rw [hnode, hfind]
  exact valueAt_eq hlive hp psTagName nBuffSize

theorem fetchList_eq (psRecordSetName : List UInt8) (nRecID : ℤ) (psEmName : List UInt8) (nBuffSize : ℕ) :
    s.fetchList fuel l_pIntXml psRecordSetName nRecID psEmName nBuffSize =
      xmlFetchList tree psRecordSetName nRecID psEmName nBuffSize := by
  rw [XmlMem.fetchList, xmlFetchList]
  rcases h.found_cases hfuel h.live h.reps (text "Message") none with ⟨hnone, hfind⟩ |
    ⟨q, message, hmessage, hfind, hlive, hp⟩
  · rw [hnone, hfind]
    dsimp only [Option.bind_eq_bind, Option.bind_some]
  rw [hmessage, hfind]
  dsimp only [Option.bind_eq_bind, Option.bind_some]
  rcases h.found_cases hfuel hlive hp (text "RecordSet") (some (text "name", psRecordSetName)) with
    ⟨hnone, hfind⟩ | ⟨q, recordset, hset, hfind, hlive, hp⟩
  · rw [hnone, hfind]
    dsimp only [Option.bind_eq_bind, Option.bind_some]
  rw [hset, hfind]
  dsimp only [Option.bind_some]
  congr 1
  funext sRecID
  rcases h.found_cases hfuel hlive hp (text "Record") (some (text "RecID", sRecID)) with
    ⟨hnone, hfind⟩ | ⟨q, record, hrecord, hfind, hlive, hp⟩
  · rw [hnone, hfind]
    dsimp only [Option.bind_eq_bind, Option.bind_some]
  rw [hrecord, hfind]
  dsimp only [Option.bind_some]
  rcases h.found_cases hfuel hlive hp psEmName none with ⟨hnone, hfind⟩ | ⟨q, node, hnode, hfind, hlive, hp⟩
  · rw [hnone, hfind]
    dsimp only [Option.bind_eq_bind, Option.bind_some]
  rw [hnode, hfind]
  exact valueAt_eq hlive hp psEmName nBuffSize

/-- **A get** returns what it returns for the tree. -/
theorem lookup_eq (key : XmlKey) (nBuffSize : ℕ) :
    s.lookup fuel l_pIntXml key nBuffSize = xmlLookup tree key nBuffSize := by
  cases key with
  | tag t => exact h.get_eq hfuel t nBuffSize
  | item rs id em => exact h.fetchList_eq hfuel rs id em nBuffSize

end Lookup

/-! ### From `XmlInit` to `XmlFree` -/

/-- **`XmlFree`** leaves nothing allocated. -/
theorem free (h : Document calloc s kids l_pIntXml tree) : ∃ N heap',
    (∀ fuel ≥ N, mxmlDelete fuel s.heap l_pIntXml = some heap') ∧ ∀ q, heap'.live q = false := by
  obtain ⟨t, rfl, ht⟩ := h.ok.ok.grounded.exists_shape l_pIntXml
  obtain ⟨N, heap', hdelete, hdeleted⟩ := h.ok.ok.mxmlDelete h.live ht
  refine ⟨N, heap', hdelete, fun q ↦ ?_⟩
  rw [hdeleted.live, Bool.and_eq_false_imp]
  intro hq
  simpa using ht.mem_preorder_iff.2 (h.all q hq)

end Document

/-- The first node. -/
theorem document_root {calloc : ℕ → ℕ} (hinj : Injective calloc) (name : List UInt8) : ∃ s kids,
    XmlMem.newElement calloc ⟨.empty, 0⟩ none name = some (s, calloc 0) ∧
      Document calloc s kids (calloc 0) (.new name) ∧ s.allocs = 1 := by
  have hempty : XmlMem.Ok calloc ⟨.empty, 0⟩ Nodes.empty.kids :=
    ⟨holds_empty.ok, fun q ↦ iff_of_false Bool.false_ne_true fun ⟨n, hn, _⟩ ↦ absurd hn (Nat.not_lt_zero n)⟩
  obtain ⟨heap', hnew, hok, hlive, hvalue⟩ := hempty.ok.mxmlNew (hempty.fresh hinj) none (.element name []) nofun
  have hlive_iff (q : ℕ) : heap'.live q ↔ q = calloc 0 := by
    rw [hlive, update_apply]
    by_cases hq : q = calloc 0
    · rw [if_pos hq]
      exact iff_of_true rfl hq
    · rw [if_neg hq]
      exact iff_of_false Bool.false_ne_true hq
  refine ⟨⟨heap', 1⟩, Nodes.empty.kids, ?_, ⟨⟨hok, fun q ↦ ?_⟩, (hlive_iff _).2 rfl, ?_, fun q hq ↦ ?_⟩, rfl⟩
  · rw [XmlMem.newElement, hnew]
    rfl
  · rw [hlive_iff]
    constructor
    · rintro rfl
      exact ⟨0, Nat.one_pos, rfl⟩
    · rintro ⟨n, hn, rfl⟩
      rw [Nat.lt_one_iff.1 hn]
  · refine reps_iff.2 ⟨?_, .nil⟩
    rw [hvalue, update_self]
    rfl
  · rw [(hlive_iff q).1 hq]
    exact .refl

/-- **`XmlInit`.** -/
theorem document_init {calloc : ℕ → ℕ} (hinj : Injective calloc) : ∃ s kids,
    XmlMem.init calloc = some (s, calloc 0) ∧ Document calloc s kids (calloc 0) xmlInit ∧ s.allocs ≤ 3 := by
  obtain ⟨s1, kids1, hnew1, h1, hallocs⟩ :=
    document_root hinj (text "?xml version=\"1.0\" \"encoding\"=\"GB18030\"?")
  obtain ⟨s2, kids2, hnew2, h2, hi⟩ := newElement_becomes h1.ok h1.live h1.reps hinj (text "Message")
  obtain ⟨child, hchild, hlive, hp⟩ := h2.exists_child hi
  obtain ⟨s3, kids3, hnew3, h3, -⟩ := newElement_becomes h2.ok hlive hp hinj (text "Public")
  have hall := h2.modifyChild (f := fun node ↦ (mxmlNewElement node (text "Public")).1) h1.ok hi hchild h3
  refine ⟨s3, kids3, ?_, h1.becomes hall, hall.allocs.2.trans_eq (by rw [hallocs])⟩
  rw [XmlMem.init, hnew1]
  dsimp only [Option.bind_eq_bind, Option.bind_some]
  rw [hnew2]
  dsimp only [Option.bind_some]
  rw [hnew3]
  rfl

/-- **The wrapper in memory does what it does on trees.** Whatever calls set values after `XmlInit`, every get
returns what it returns for the tree, and `XmlFree` frees every node. -/
theorem xmlPointers_run {calloc : ℕ → ℕ} (hinj : Injective calloc) {as : List XmlAct} {tree : MxmlNode}
    (has : xmlRun xmlInit as = some tree) {fuel : ℕ} (hfuel : 3 + 3 * as.length < fuel) :
    ∃ s0 s kids, XmlMem.init calloc = some (s0, calloc 0) ∧ s0.run calloc fuel (calloc 0) as = some s ∧
      s.heap.Ok kids ∧ Reps s.heap.value kids tree (calloc 0) ∧
      (∀ key nBuffSize, s.lookup fuel (calloc 0) key nBuffSize = xmlLookup tree key nBuffSize) ∧
      ∃ N heap, (∀ fuel ≥ N, mxmlDelete fuel s.heap (calloc 0) = some heap) ∧ ∀ q, heap.live q = false := by
  obtain ⟨s0, kids0, hinit, h0, hallocs⟩ := document_init hinj
  obtain ⟨s, kids, hrun, h, hle⟩ := h0.run hinj has (show s0.allocs + 3 * as.length < fuel by omega)
  exact ⟨s0, s, kids, hinit, hrun, h.ok.ok, h.reps, h.lookup_eq (by omega), h.free⟩

/-- A tag and an element of a record. -/
theorem xmlPointers_run_two : ∃ s0 s, XmlMem.init id = some (s0, 0) ∧
    s0.run id 10 0 [.set (text "a") (text "1"), .addList (text "b") 7 (text "c") (text "2")] = some s ∧
    (s.lookup 10 0 (.item (text "b") 7 (text "c")) 8).map (fun r ↦ (r.rc, r.psData)) =
      some (1, [50, 0, 0, 0, 0, 0, 0, 0]) := by
  have has : xmlRun xmlInit [.set (text "a") (text "1"), .addList (text "b") 7 (text "c") (text "2")] =
    some _ := rfl
  obtain ⟨s0, s, kids, hinit, hrun, -, -, hlookup, -⟩ :=
    xmlPointers_run (fun _ _ h ↦ h) has (show 3 + 3 * 2 < 10 by decide)
  exact ⟨s0, s, hinit, hrun, by rw [hlookup]; rfl⟩

end Sunda
