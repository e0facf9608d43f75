import Sunda.Xml.Xml

/-!
# The document of the XML wrapper

`l_pIntXml` and the documents in memory: `XmlInit`, `XmlFree` and `XmlLoadString` create, delete and
replace the document, and the functions that set and get a value find their way from it.

A document is a number that is never used again, so that a pointer to a deleted document stays one.
Whether the library `mxml` finds memory, and what it makes of a text, are arguments. An outcome
`none` is an access to a document that has been deleted, or its deletion.

* `HandleSound` is what the wrapper needs: the documents in memory are the one that `l_pIntXml`
  denotes.
* Two steps break it (`sound_step`). `XmlLoadString` forgets the document that is there, and
  `XmlInit`, where it finds no memory for an element below the root, deletes the document and keeps
  the pointer.
* So it holds throughout a run exactly when the run has neither (`xml_handle_sound_iff`).
-/

namespace Sunda

open Bytes

/-- `l_pIntXml` and the documents in memory. -/
structure XmlDocs where
  l_pIntXml : Option ℕ
  trees : ℕ → Option MxmlNode
  next : ℕ
  fresh : ∀ t, next ≤ t → trees t = none

namespace XmlDocs

/-- Before any call. -/
def start : XmlDocs := ⟨none, fun _ ↦ none, 0, fun _ _ ↦ rfl⟩

/-- Assigning `l_pIntXml`. -/
def point (w : XmlDocs) (p : Option ℕ) : XmlDocs := { w with l_pIntXml := p }

/-- A document without a parent, `w.next`. -/
def create (w : XmlDocs) (tree : MxmlNode) : XmlDocs where
  l_pIntXml := w.l_pIntXml
  trees := Function.update w.trees w.next (some tree)
  next := w.next + 1
  fresh t ht := by
    rw [Function.update_of_ne (by omega)]
    exact w.fresh t (by omega)

/-- `mxmlDelete` of a document, or of a null pointer. -/
def delete (w : XmlDocs) : Option ℕ → Option XmlDocs
  | none => some w
  | some t =>
    if (w.trees t).isSome then
      some
        { w with
          trees := Function.update w.trees t none
          fresh := fun s hs ↦ by
            by_cases hst : s = t
            · rw [hst, Function.update_self]
            · rw [Function.update_of_ne hst]
              exact w.fresh s hs }
    else none

/-- What is done to a document through a pointer to it. -/
def modify (w : XmlDocs) (t : ℕ) (f : MxmlNode → MxmlNode) : Option XmlDocs :=
  if (w.trees t).isSome then
    some
      { w with
        trees := Function.update w.trees t ((w.trees t).map f)
        fresh := fun s hs ↦ by
          by_cases hst : s = t
          · rw [hst, Function.update_self, w.fresh t (hst ▸ hs)]
            rfl
          · rw [Function.update_of_ne hst]
            exact w.fresh s hs }
  else none

end XmlDocs

/-- The name of the root. -/
def xmlDeclaration : List UInt8 := text "?xml version=\"1.0\" \"encoding\"=\"GB18030\"?"

/-- `XmlInit`: the return value and the documents. The arguments say whether there is memory for the
root, for `<Message>` and for `<Public>`. -/
def xmlInitDocs (w : XmlDocs) (root message pub : Bool) : Option (ℤ × XmlDocs) := do
  let w ← w.delete w.l_pIntXml
  if root = false then some (-1, w.point none)
  else do
    let t := w.next
    let w := (w.create (.new xmlDeclaration)).point (some t)
    if message = false then do
      let w ← w.delete w.l_pIntXml
      some (-1, w)
    else do
      let w ← w.modify t fun tree ↦ (mxmlNewElement tree (text "Message")).1
      if pub = false then do
        let w ← w.delete w.l_pIntXml
        some (-1, w)
      else do
        let w ← w.modify t fun tree ↦ tree.modifyChild 0 fun node ↦
          (mxmlNewElement node (text "Public")).1
        some (0, w)

/-- `XmlFree`. -/
def xmlFreeDocs (w : XmlDocs) : Option XmlDocs := do
  let w ← w.delete w.l_pIntXml
  some (w.point none)

/-- `XmlLoadString`; `loaded` is the document that `mxmlLoadString` returns, none for a text that is not
well formed or without memory. -/
def xmlLoadStringDocs (w : XmlDocs) (loaded : Option MxmlNode) : ℤ × XmlDocs :=
  match loaded with
  | some tree => (0, (w.create tree).point (some w.next))
  | none => (-1, w.point none)

/-- A call of the wrapper. Those that set or get a value start from `l_pIntXml`, where a null pointer
makes `mxmlFindElement` fail; what they add is below it, and `f` is what they make of the document, with
whatever memory they find. -/
inductive XmlEvent
  | init (root message pub : Bool)
  | free
  | loadString (loaded : Option MxmlNode)
  | access (f : MxmlNode → MxmlNode)

/-- The documents after a call. -/
def xmlStep (w : XmlDocs) : XmlEvent → Option XmlDocs
  | .init root message pub => (xmlInitDocs w root message pub).map Prod.snd
  | .free => xmlFreeDocs w
  | .loadString loaded => some (xmlLoadStringDocs w loaded).2
  | .access f =>
    match w.l_pIntXml with
    | none => some w
    | some t => w.modify t f

/-! ### What holds between the calls -/

/-- **The document in memory is the one that `l_pIntXml` denotes**: the pointer is null or that of a
document, and there is no other. -/
def HandleSound (w : XmlDocs) : Prop :=
  ∀ t, (w.trees t).isSome ↔ w.l_pIntXml = some t

/-- It holds in every state of a run, and no call touches a document that was deleted. -/
def AlwaysSound : XmlDocs → List XmlEvent → Prop
  | w, [] => HandleSound w
  | w, e :: es => HandleSound w ∧ ∃ w', xmlStep w e = some w' ∧ AlwaysSound w' es

/-- The call is `XmlLoadString` without a document, or `XmlInit` that finds memory for all or for
nothing, or any other. -/
def Careful (w : XmlDocs) : XmlEvent → Prop
  | .init root message pub => root = true → message = true ∧ pub = true
  | .loadString _ => w.l_pIntXml = none
  | .free | .access _ => True

/-- All calls of a run are. -/
def CarefulRun : XmlDocs → List XmlEvent → Prop
  | _, [] => True
  | w, e :: es => Careful w e ∧ ∀ w', xmlStep w e = some w' → CarefulRun w' es

/-- No documents are in memory. -/
def XmlDocs.NoTrees (w : XmlDocs) : Prop :=
  ∀ t, w.trees t = none

section Steps

variable {w : XmlDocs}

theorem XmlDocs.NoTrees.sound (h : w.NoTrees) : HandleSound (w.point none) := fun t ↦ by
  simp [XmlDocs.point, h t]

/-- A pointer that was kept is dangling. -/
theorem XmlDocs.NoTrees.not_sound (h : w.NoTrees) {t : ℕ} (hp : w.l_pIntXml = some t) :
    ¬HandleSound w := fun hs ↦ by
  have hlive := (hs t).2 hp
  rw [h t] at hlive
  cases hlive

/-- What `l_pIntXml` does not denote is not in memory. -/
theorem HandleSound.eq_none (h : HandleSound w) {t : ℕ} (hne : w.l_pIntXml ≠ some t) :
    w.trees t = none := by
  have hnot : ¬(w.trees t).isSome := fun hlive ↦ hne ((h t).1 hlive)
  simpa using hnot

/-- Deleting the document leaves none. -/
theorem HandleSound.delete (h : HandleSound w) :
    ∃ w', w.delete w.l_pIntXml = some w' ∧ w'.NoTrees ∧ w'.l_pIntXml = w.l_pIntXml := by
  cases hp : w.l_pIntXml with
  | none =>
    exact ⟨w, rfl, fun t ↦ h.eq_none (by rw [hp]; exact (Option.some_ne_none t).symm), hp⟩
  | some t =>
    have hlive : (w.trees t).isSome := (h t).2 hp
    refine ⟨_, if_pos hlive, fun s ↦ ?_, hp⟩
    by_cases hst : s = t
    · rw [hst]
      exact Function.update_self ..
    · refine (Function.update_of_ne hst ..).trans (h.eq_none fun hs ↦ ?_)
      exact hst (Option.some.inj (hs.symm.trans hp))

/-- A new document is the only one if there was none. -/
theorem XmlDocs.NoTrees.create (h : w.NoTrees) (tree : MxmlNode) :
    HandleSound ((w.create tree).point (some w.next)) := by
  intro t
  by_cases ht : t = w.next
  · subst ht
    simp [XmlDocs.create, XmlDocs.point]
  · simp [XmlDocs.create, XmlDocs.point, Function.update_of_ne ht, h t, Ne.symm ht]

/-- Changing the document does not change which there are. -/
theorem HandleSound.modify (h : HandleSound w) {t : ℕ} (hp : w.l_pIntXml = some t)
    (f : MxmlNode → MxmlNode) :
    ∃ w', w.modify t f = some w' ∧ HandleSound w' ∧ w'.l_pIntXml = some t ∧
      w'.trees t = (w.trees t).map f := by
  have hlive : (w.trees t).isSome := (h t).2 hp
  refine ⟨_, if_pos hlive, fun s ↦ ?_, hp, Function.update_self ..⟩
  by_cases hst : s = t
  · subst hst
    simpa [hp] using hlive
  · simpa [Function.update_of_ne hst] using h s

/-- `XmlInit` without memory below the root: the root is deleted, and `l_pIntXml` is not cleared. -/
theorem HandleSound.delete_own (h : HandleSound w) {t : ℕ} (hp : w.l_pIntXml = some t) :
    ∃ w', w.delete w.l_pIntXml = some w' ∧ ¬HandleSound w' := by
  obtain ⟨w', hdel, hno, hp'⟩ := h.delete
  exact ⟨w', hdel, hno.not_sound (hp'.trans hp)⟩

/-- **`XmlInit`**: it always comes back, and keeps the documents sound if it finds memory for all or
for nothing. -/
theorem HandleSound.xmlInitDocs (h : HandleSound w) (root message pub : Bool) :
    ∃ rc w', xmlInitDocs w root message pub = some (rc, w') ∧
      (HandleSound w' ↔ Careful w (.init root message pub)) := by
  obtain ⟨w₁, hdel, hno, -⟩ := h.delete
  have hnew := hno.create (.new xmlDeclaration)
  cases root with
  | false =>
    refine ⟨-1, w₁.point none, ?_, iff_of_true hno.sound fun hroot ↦ by cases hroot⟩
    rw [Sunda.xmlInitDocs, hdel]
    rfl
  | true =>
    cases message with
    | false =>
      obtain ⟨w₂, hdel₂, hbad⟩ := hnew.delete_own rfl
      refine ⟨-1, w₂, ?_, iff_of_false hbad fun hcareful ↦ by cases (hcareful rfl).1⟩
      rw [Sunda.xmlInitDocs, hdel]
      simp [hdel₂]
    | true =>
      obtain ⟨w₂, hmod, hsound, hp, -⟩ :=
        hnew.modify rfl fun tree ↦ (mxmlNewElement tree (text "Message")).1
      cases pub with
      | false =>
        obtain ⟨w₃, hdel₃, hbad⟩ := hsound.delete_own hp
        refine ⟨-1, w₃, ?_, iff_of_false hbad fun hcareful ↦ by cases (hcareful rfl).2⟩
        rw [Sunda.xmlInitDocs, hdel]
        simp [hmod, hdel₃]
      | true =>
        obtain ⟨w₃, hmod₃, hsound₃, -⟩ := hsound.modify hp fun tree ↦
          tree.modifyChild 0 fun node ↦ (mxmlNewElement node (text "Public")).1
        refine ⟨0, w₃, ?_, iff_of_true hsound₃ fun _ ↦ ⟨rfl, rfl⟩⟩
        rw [Sunda.xmlInitDocs, hdel]
        simp [hmod, hmod₃]

/-- With memory for all, `l_pIntXml` denotes the tree that the other calls start from. -/
theorem HandleSound.xmlInitDocs_tree (h : HandleSound w) :
    ∃ w' t, Sunda.xmlInitDocs w true true true = some (0, w') ∧ w'.l_pIntXml = some t ∧
      w'.trees t = some xmlInit := by
  obtain ⟨w₁, hdel, hno, -⟩ := h.delete
  obtain ⟨w₂, hmod, hsound, hp, htree⟩ := (hno.create (.new xmlDeclaration)).modify rfl
    fun tree ↦ (mxmlNewElement tree (text "Message")).1
  obtain ⟨w₃, hmod₃, -, hp₃, htree₃⟩ := hsound.modify hp fun tree ↦
    tree.modifyChild 0 fun node ↦ (mxmlNewElement node (text "Public")).1
  refine ⟨w₃, w₁.next, ?_, hp₃, ?_⟩
  · rw [Sunda.xmlInitDocs, hdel]
    simp [hmod, hmod₃]
  · have hroot : ((w₁.create (.new xmlDeclaration)).point (some w₁.next)).trees w₁.next =
        some (.new xmlDeclaration) := Function.update_self ..
    rw [htree₃, htree, hroot]
    rfl

/-- **`XmlLoadString`** keeps the documents sound if there was none. -/
theorem HandleSound.xmlLoadStringDocs_iff (h : HandleSound w) (loaded : Option MxmlNode) :
    HandleSound (xmlLoadStringDocs w loaded).2 ↔ w.l_pIntXml = none := by
  constructor
  · intro hafter
    by_contra hsome
    obtain ⟨t, hp⟩ := Option.ne_none_iff_exists'.1 hsome
    -- the document that was there is still in memory
    have hlive : (w.trees t).isSome := (h t).2 hp
    cases loaded with
    | none =>
      have hlost := (hafter t).1 hlive
      cases hlost
    | some tree =>
      have hne : t ≠ w.next := fun heq ↦ by
        rw [w.fresh t heq.ge] at hlive
        cases hlive
      have hlive' : ((xmlLoadStringDocs w (some tree)).2.trees t).isSome := by
        simpa [xmlLoadStringDocs, XmlDocs.create, XmlDocs.point, Function.update_of_ne hne] using hlive
      have hlost : some w.next = some t := (hafter t).1 hlive'
      exact hne (Option.some.inj hlost).symm
  · intro hp
    have hno : w.NoTrees := fun t ↦ h.eq_none (by rw [hp]; exact (Option.some_ne_none t).symm)
    cases loaded with
    | none => exact hno.sound
    | some tree => exact hno.create tree

/-- **The steps that keep the documents sound** are the careful ones, and every step that starts from
sound documents comes back. -/
theorem sound_step (h : HandleSound w) (e : XmlEvent) :
    ∃ w', xmlStep w e = some w' ∧ (HandleSound w' ↔ Careful w e) := by
  cases e with
  | init root message pub =>
    obtain ⟨rc, w', hinit, hiff⟩ := h.xmlInitDocs root message pub
    exact ⟨w', by rw [xmlStep, hinit]; rfl, hiff⟩
  | free =>
    obtain ⟨w', hdel, hno, -⟩ := h.delete
    refine ⟨w'.point none, ?_, iff_of_true hno.sound trivial⟩
    rw [xmlStep, xmlFreeDocs, hdel]
    rfl
  | loadString loaded => exact ⟨_, rfl, h.xmlLoadStringDocs_iff loaded⟩
  | access f =>
    cases hp : w.l_pIntXml with
    | none => exact ⟨w, by rw [xmlStep, hp], iff_of_true h trivial⟩
    | some t =>
      obtain ⟨w', hmod, hsound, -⟩ := h.modify hp f
      exact ⟨w', by rw [xmlStep, hp]; exact hmod, iff_of_true hsound trivial⟩

end Steps

theorem AlwaysSound.head {w : XmlDocs} {es : List XmlEvent} (h : AlwaysSound w es) :
    HandleSound w := by
  cases es with
  | nil => exact h
  | cons e es => exact h.1

/-- From sound documents on, a run keeps them sound exactly if all its calls are careful. -/
theorem alwaysSound_iff {w : XmlDocs} (h : HandleSound w) (es : List XmlEvent) :
    AlwaysSound w es ↔ CarefulRun w es := by
  induction es generalizing w with
  | nil => exact iff_of_true h trivial
  | cons e es ih =>
    obtain ⟨w', hstep, hiff⟩ := sound_step h e
    constructor
    · rintro ⟨-, w₁, hstep₁, hrest⟩
      cases hstep.symm.trans hstep₁
      refine ⟨hiff.1 hrest.head, fun w₂ hstep₂ ↦ ?_⟩
      cases hstep.symm.trans hstep₂
      exact (ih hrest.head).1 hrest
    · rintro ⟨hcareful, hrest⟩
      have hsound := hiff.2 hcareful
      exact ⟨h, w', hstep, (ih hsound).2 (hrest w' hstep)⟩

theorem handleSound_start : HandleSound .start := fun t ↦ by
  simp [XmlDocs.start]

/-- **In a run of the wrapper the handle is never dangling, no document is lost and none is deleted
twice, if and only if `XmlLoadString` is called without a document only, and no `XmlInit` finds memory for
the root and then none for an element below it.** -/
theorem xml_handle_sound_iff (es : List XmlEvent) :
    AlwaysSound .start es ↔ CarefulRun .start es :=
  alwaysSound_iff handleSound_start es

/-- The second `XmlInit` deletes what the first one, without memory for `<Message>`, deleted. -/
theorem xmlInit_deletes_twice :
    ¬AlwaysSound .start [.init true false true, .init true true true] := by
  rintro ⟨-, w, hstep, hsound, -⟩
  obtain ⟨w', hstep', hiff⟩ := sound_step handleSound_start (.init true false true)
  cases hstep.symm.trans hstep'
  exact absurd ((hiff.1 hsound) rfl).1 (by decide)

end Sunda
