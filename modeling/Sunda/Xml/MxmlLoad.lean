import Sunda.Base.Decimal
import Sunda.Base.Hexadecimal
import Sunda.Xml.MxmlSave

/-!
# Reading an XML tree from a string

`mxmlLoadString` (`pubfun/xml/mxml-file.c`) without a top node and without callbacks, so that every value is a
text. The loops of the source, with the string that is left as an argument:

* `mxmlStringGetc`: a character, or `EOF` at the NUL, where it stays, and at a control character, which it has
  passed then: after such an `EOF` some of the loops go on;
* `mxmlGetEntity`, `mxmlAddChar`: an entity, and what it adds to a buffer;
* `gather`, `gatherQuoted`, `gatherTag`, `gatherRaw`, `skipSpace`: the loops that fill a buffer;
* `mxmlParseElement`: the attributes of an element;
* `loadTag`, `loadChar`, `mxmlLoadData`: the loop over the nodes.

The nodes that are open are a list, the innermost first, each with the children it has so far; a pointer to
`first` is the first node at the top that is complete. Allocations succeed, and a buffer grows before it is
full.

Every function that reads leaves an end of its string (`gather_suffix` and so on), which is why the loops end.
-/

namespace Sunda

open Bytes Decimal Hexadecimal

/-! ### Characters -/

/-- `mxml_bad_char`. -/
def mxmlBadChar (ch : ℤ) : Bool := ch < 32 && ch ≠ 10 && ch ≠ 13 && ch ≠ 9

def mxmlIsspace (c : UInt8) : Bool := c = ch ' ' || c = 9 || c = 13 || c = 10

/-- `mxml_string_getc`: the character, where `none` is `EOF`, and the string behind it. A character from 0x80 on
is one byte. -/
def mxmlStringGetc : List UInt8 → Option UInt8 × List UInt8
  | [] => (none, [])
  | c :: s => if c = 0 then (none, c :: s) else if mxmlBadChar c.toNat then (none, s) else (some c, s)

/-- `mxml_add_char`: what is added to the buffer. -/
def mxmlAddChar (ch : ℕ) : List UInt8 :=
  if ch < 0x80 ∨ ch &&& 0x80 ≠ 0 then [UInt8.ofNat ch]
  else if ch < 0x800 then [UInt8.ofNat (0xc0 ||| ch >>> 6), UInt8.ofNat (0x80 ||| ch &&& 0x3f)]
  else if ch < 0x10000 then
    [UInt8.ofNat (0xe0 ||| ch >>> 12), UInt8.ofNat (0x80 ||| ch >>> 6 &&& 0x3f),
      UInt8.ofNat (0x80 ||| ch &&& 0x3f)]
  else
    [UInt8.ofNat (0xf0 ||| ch >>> 18), UInt8.ofNat (0x80 ||| ch >>> 12 &&& 0x3f),
      UInt8.ofNat (0x80 ||| ch >>> 6 &&& 0x3f), UInt8.ofNat (0x80 ||| ch &&& 0x3f)]

/-- What is left is the end of the string. -/
theorem mxmlStringGetc_suffix {s rest : List UInt8} {c : Option UInt8} (h : mxmlStringGetc s = (c, rest)) :
    rest <:+ s := by
  cases s with
  | nil =>
    obtain ⟨-, rfl⟩ := Prod.mk.inj h
    exact List.suffix_rfl
  | cons d s =>
    rw [mxmlStringGetc] at h
    split_ifs at h <;> obtain ⟨-, rfl⟩ := Prod.mk.inj h
    · exact List.suffix_rfl
    · exact List.suffix_cons d s
    · exact List.suffix_cons d s

/-- Behind a character it is shorter. -/
theorem mxmlStringGetc_length {s rest : List UInt8} {c : UInt8} (h : mxmlStringGetc s = (some c, rest)) :
    rest.length < s.length := by
  cases s with
  | nil => cases h
  | cons d s =>
    rw [mxmlStringGetc] at h
    split_ifs at h
    · cases h
    · cases h
    · obtain ⟨-, rfl⟩ := Prod.mk.inj h
      exact Nat.lt_succ_self _

/-! ### Entities -/

/-- `isalnum` in the C locale. -/
def isAlnum (c : UInt8) : Bool :=
  isDigit c || (65 ≤ c.toNat && c.toNat ≤ 90) || (97 ≤ c.toNat && c.toNat ≤ 122)

/-- The loop of `mxml_get_entity`: the character it ends with, the name, and the string behind. -/
def entityLoop (entity s : List UInt8) : Option UInt8 × List UInt8 × List UInt8 :=
  match _h : mxmlStringGetc s with
  | (none, rest) => (none, entity, rest)
  | (some c, rest) =>
    if 126 < c.toNat || (!isAlnum c && c ≠ ch '#') then (some c, entity, rest)
    else if entity.length < 63 then entityLoop (entity ++ [c]) rest
    else (some c, entity, rest)
termination_by s.length
decreasing_by exact mxmlStringGetc_length _h

/-- The character that a name stands for, as an `int`. -/
def entityChar (entity : List UInt8) : ℤ :=
  if entity[0]? = some (ch '#') then
    if entity[1]? = some (ch 'x') then (BitVec.ofInt 32 (strtol16 (entity.drop 2))).toInt
    else (BitVec.ofInt 32 (atol (entity.drop 1))).toInt
  else
    match mxmlEntityGetValue entity with
    | some val => val
    | none => -1

/-- `mxml_get_entity`; `none` is `EOF`. -/
def mxmlGetEntity (s : List UInt8) : Option ℕ × List UInt8 :=
  let r := entityLoop [] s
  if r.1 = some (ch ';') then
    if mxmlBadChar (entityChar r.2.1) then (none, r.2.2) else (some (entityChar r.2.1).toNat, r.2.2)
  else (none, r.2.2)

theorem entityLoop_suffix (entity s : List UInt8) : (entityLoop entity s).2.2 <:+ s := by
  fun_induction entityLoop entity s with
  | case1 entity s rest h => exact mxmlStringGetc_suffix h
  | case2 entity s c rest h _ => exact mxmlStringGetc_suffix h
  | case3 entity s c rest h _ _ ih => exact ih.trans (mxmlStringGetc_suffix h)
  | case4 entity s c rest h _ _ => exact mxmlStringGetc_suffix h

theorem mxmlGetEntity_suffix {s rest : List UInt8} {c : Option ℕ} (h : mxmlGetEntity s = (c, rest)) :
    rest <:+ s := by
  have hle := entityLoop_suffix [] s
  rw [mxmlGetEntity] at h
  split_ifs at h <;> obtain ⟨-, rfl⟩ := Prod.mk.inj h <;> exact hle

/-- An entity behind a character. -/
theorem mxmlGetEntity_length {s rest rest' : List UInt8} {c : UInt8} {e : Option ℕ}
    (h : mxmlStringGetc s = (some c, rest)) (h' : mxmlGetEntity rest = (e, rest')) :
    rest'.length < s.length :=
  lt_of_le_of_lt (mxmlGetEntity_suffix h').length_le (mxmlStringGetc_length h)

/-! ### The loops that fill a buffer

A result is the character that the loop ended with, `none` for `EOF`, the buffer and the string behind it; no
result is an error. -/

/-- Characters up to one of a kind, with the entities replaced. -/
def gather (stop : UInt8 → Bool) (buf s : List UInt8) : Option (Option UInt8 × List UInt8 × List UInt8) :=
  match _h : mxmlStringGetc s with
  | (none, rest) => some (none, buf, rest)
  | (some c, rest) =>
    if stop c then some (some c, buf, rest)
    else if c = ch '&' then
      match _h' : mxmlGetEntity rest with
      | (none, _) => none
      | (some c, rest') => gather stop (buf ++ mxmlAddChar c) rest'
    else gather stop (buf ++ mxmlAddChar c.toNat) rest
termination_by s.length
decreasing_by
  · exact mxmlGetEntity_length _h _h'
  · exact mxmlStringGetc_length _h

/-- A name in quotes: the quote that ends it is added too. -/
def gatherQuoted (quote : UInt8) (buf s : List UInt8) : Option (Option UInt8 × List UInt8 × List UInt8) :=
  match _h : mxmlStringGetc s with
  | (none, rest) => some (none, buf, rest)
  | (some c, rest) =>
    if c = ch '&' then
      match _h' : mxmlGetEntity rest with
      | (none, _) => none
      | (some c, rest') =>
        if c = quote.toNat then some (some quote, buf ++ mxmlAddChar c, rest')
        else gatherQuoted quote (buf ++ mxmlAddChar c) rest'
    else if c = quote then some (some quote, buf ++ mxmlAddChar c.toNat, rest)
    else gatherQuoted quote (buf ++ mxmlAddChar c.toNat) rest
termination_by s.length
decreasing_by
  · exact mxmlGetEntity_length _h _h'
  · exact mxmlStringGetc_length _h

/-- The names after which the rest of a tag is read in another way. -/
def isTagStart (buf : List UInt8) : Bool := buf = text "?" || buf = text "!--" || buf = text "![CDATA["

/-- The name of a tag. -/
def gatherTag (buf s : List UInt8) : Option (Option UInt8 × List UInt8 × List UInt8) :=
  match _h : mxmlStringGetc s with
  | (none, rest) => some (none, buf, rest)
  | (some c, rest) =>
    if mxmlIsspace c || c = ch '>' || (c = ch '/' && buf ≠ []) then some (some c, buf, rest)
    else if c = ch '<' then none
    else if c = ch '&' then
      match _h' : mxmlGetEntity rest with
      | (none, _) => none
      | (some c, rest') => gatherTag (buf ++ mxmlAddChar c) rest'
    else if isTagStart (buf ++ mxmlAddChar c.toNat) then some (some c, buf ++ mxmlAddChar c.toNat, rest)
    else gatherTag (buf ++ mxmlAddChar c.toNat) rest
termination_by s.length
decreasing_by
  · exact mxmlGetEntity_length _h _h'
  · exact mxmlStringGetc_length _h

/-- The rest of a comment, a `CDATA` section or a processing instruction, up to a `>` behind the characters that
end it; no result is an early `EOF`. -/
def gatherRaw (isEnd : List UInt8 → Bool) (buf s : List UInt8) : Option (List UInt8 × List UInt8) :=
  match _h : mxmlStringGetc s with
  | (none, _) => none
  | (some c, rest) =>
    if c = ch '>' && isEnd buf then some (buf, rest)
    else gatherRaw isEnd (buf ++ mxmlAddChar c.toNat) rest
termination_by s.length
decreasing_by exact mxmlStringGetc_length _h

/-- White space from a character on. -/
def skipSpace (c : Option UInt8) (s : List UInt8) : Option UInt8 × List UInt8 :=
  match c with
  | none => (none, s)
  | some c =>
    if mxmlIsspace c then
      match _h : mxmlStringGetc s with
      | (none, rest) => (none, rest)
      | (some c, rest) => skipSpace (some c) rest
    else (some c, s)
termination_by s.length
decreasing_by exact mxmlStringGetc_length _h

theorem gather_suffix {stop : UInt8 → Bool} {buf s : List UInt8}
    {r : Option UInt8 × List UInt8 × List UInt8} (h : gather stop buf s = some r) :
    r.2.2 <:+ s := by
  fun_induction gather stop buf s with
  | case1 buf s rest hc =>
    obtain rfl := Option.some.inj h
    exact mxmlStringGetc_suffix hc
  | case2 buf s c rest hc _ =>
    obtain rfl := Option.some.inj h
    exact mxmlStringGetc_suffix hc
  | case3 => cases h
  | case4 buf s rest c rest' he hc _ ih =>
    exact (ih h).trans ((mxmlGetEntity_suffix he).trans (mxmlStringGetc_suffix hc))
  | case5 buf s c rest hc _ _ ih => exact (ih h).trans (mxmlStringGetc_suffix hc)

theorem gatherQuoted_suffix {quote : UInt8} {buf s : List UInt8}
    {r : Option UInt8 × List UInt8 × List UInt8} (h : gatherQuoted quote buf s = some r) :
    r.2.2 <:+ s := by
  fun_induction gatherQuoted quote buf s with
  | case1 buf s rest hc =>
    obtain rfl := Option.some.inj h
    exact mxmlStringGetc_suffix hc
  | case2 => cases h
  | case3 buf s rest rest' hc he =>
    obtain rfl := Option.some.inj h
    exact (mxmlGetEntity_suffix he).trans (mxmlStringGetc_suffix hc)
  | case4 buf s rest c rest' he _ hc ih =>
    exact (ih h).trans ((mxmlGetEntity_suffix he).trans (mxmlStringGetc_suffix hc))
  | case5 buf s rest hc _ =>
    obtain rfl := Option.some.inj h
    exact mxmlStringGetc_suffix hc
  | case6 buf s c rest hc _ _ ih => exact (ih h).trans (mxmlStringGetc_suffix hc)

theorem gatherTag_suffix {buf s : List UInt8} {r : Option UInt8 × List UInt8 × List UInt8}
    (h : gatherTag buf s = some r) : r.2.2 <:+ s := by
  fun_induction gatherTag buf s with
  | case1 buf s rest hc =>
    obtain rfl := Option.some.inj h
    exact mxmlStringGetc_suffix hc
  | case2 buf s c rest hc _ =>
    obtain rfl := Option.some.inj h
    exact mxmlStringGetc_suffix hc
  | case3 => cases h
  | case4 => cases h
  | case5 buf s rest c rest' he hc _ _ ih =>
    exact (ih h).trans ((mxmlGetEntity_suffix he).trans (mxmlStringGetc_suffix hc))
  | case6 buf s c rest hc _ _ _ _ =>
    obtain rfl := Option.some.inj h
    exact mxmlStringGetc_suffix hc
  | case7 buf s c rest hc _ _ _ _ ih => exact (ih h).trans (mxmlStringGetc_suffix hc)

theorem gatherRaw_suffix {isEnd : List UInt8 → Bool} {buf s : List UInt8} {r : List UInt8 × List UInt8}
    (h : gatherRaw isEnd buf s = some r) : r.2 <:+ s := by
  fun_induction gatherRaw isEnd buf s with
  | case1 => cases h
  | case2 buf s c rest hc _ =>
    obtain rfl := Option.some.inj h
    exact mxmlStringGetc_suffix hc
  | case3 buf s c rest hc _ ih => exact (ih h).trans (mxmlStringGetc_suffix hc)

theorem skipSpace_suffix {c c' : Option UInt8} {s rest : List UInt8} (h : skipSpace c s = (c', rest)) :
    rest <:+ s := by
  fun_induction skipSpace c s with
  | case1 s =>
    obtain ⟨-, rfl⟩ := Prod.mk.inj h
    exact List.suffix_rfl
  | case2 s c _ rest' hc =>
    obtain ⟨-, rfl⟩ := Prod.mk.inj h
    exact mxmlStringGetc_suffix hc
  | case3 s c _ d rest' hc ih => exact (ih h).trans (mxmlStringGetc_suffix hc)
  | case4 s c _ =>
    obtain ⟨-, rfl⟩ := Prod.mk.inj h
    exact List.suffix_rfl

/-! ### Elements -/

/-- The name of an attribute that begins with a character. -/
def attrName (c : UInt8) (s : List UInt8) : Option (Option UInt8 × List UInt8 × List UInt8) :=
  if isQuote c then gatherQuoted c [c] s
  else gather (fun c ↦ mxmlIsspace c || c = ch '=' || c = ch '/' || c = ch '>' || c = ch '?') [c] s

/-- The value of an attribute, from behind the `=`. -/
def attrValue (s : List UInt8) : Option (Option UInt8 × List UInt8 × List UInt8) :=
  match skipSpace (mxmlStringGetc s).1 (mxmlStringGetc s).2 with
  | (none, _) => none
  | (some c, rest) =>
    if isQuote c then gather (fun d ↦ d = c) [] rest
    else gather (fun c ↦ mxmlIsspace c || c = ch '=' || c = ch '/' || c = ch '>') [c] rest

/-- The `>` behind the `/` or `?` that ends a tag. -/
def tagEnd (s : List UInt8) : Option (List UInt8) :=
  match mxmlStringGetc s with
  | (some c, rest) => if c = ch '>' then some rest else none
  | (none, _) => none

/-- An attribute from its first character on: the attribute, the character that ends it, and the string
behind it. -/
def parseAttr (node : MxmlNode) (c : UInt8) (s : List UInt8) : Option (MxmlNode × Option UInt8 × List UInt8) :=
  (attrName c s).bind fun (c, name, rest) ↦
    if (mxmlElementGetAttr node name).isSome then none
    else
      match skipSpace c rest with
      | (some c, rest) =>
        if c = ch '=' then
          (attrValue rest).map fun (c, value, rest) ↦ (mxmlElementSetAttr node name value, c, rest)
        else none
      | (none, _) => none

theorem attrName_suffix {c : UInt8} {s : List UInt8} {r : Option UInt8 × List UInt8 × List UInt8}
    (h : attrName c s = some r) : r.2.2 <:+ s := by
  rw [attrName] at h
  split at h
  · exact gatherQuoted_suffix h
  · exact gather_suffix h

theorem attrValue_suffix {s : List UInt8} {r : Option UInt8 × List UInt8 × List UInt8}
    (h : attrValue s = some r) : r.2.2 <:+ s := by
  have hs : (mxmlStringGetc s).2 <:+ s := mxmlStringGetc_suffix (Prod.mk.eta).symm
  rw [attrValue] at h
  split at h
  · cases h
  · next c rest hskip =>
    have hle := (skipSpace_suffix hskip).trans hs
    split at h
    · exact (gather_suffix h).trans hle
    · exact (gather_suffix h).trans hle

theorem parseAttr_suffix {node : MxmlNode} {c : UInt8} {s : List UInt8}
    {r : MxmlNode × Option UInt8 × List UInt8} (h : parseAttr node c s = some r) :
    r.2.2 <:+ s := by
  obtain ⟨⟨c, name, rest⟩, hname, h⟩ := Option.bind_eq_some_iff.1 h
  have hle := attrName_suffix hname
  dsimp only at h
  split at h
  · cases h
  split at h
  · next c rest' hskip =>
    split at h
    · obtain ⟨v, hv, rfl⟩ := Option.map_eq_some_iff.1 h
      exact (attrValue_suffix hv).trans ((skipSpace_suffix hskip).trans hle)
    · cases h
  · cases h

/-- `mxml_parse_element`: the character that ends the tag, `none` for `EOF`. -/
def mxmlParseElement (node : MxmlNode) (s : List UInt8) : Option (UInt8 × MxmlNode × List UInt8) :=
  match _h : mxmlStringGetc s with
  | (none, _) => none
  | (some c, rest) =>
    if mxmlIsspace c then mxmlParseElement node rest
    else if c = ch '/' || c = ch '?' then (tagEnd rest).map fun rest ↦ (c, node, rest)
    else if c = ch '<' then none
    else if c = ch '>' then some (c, node, rest)
    else
      match _h' : parseAttr node c rest with
      | none => none
      | some (node, some c, rest) =>
        if c = ch '/' || c = ch '?' then (tagEnd rest).map fun rest ↦ (c, node, rest)
        else if c = ch '>' then some (c, node, rest)
        else mxmlParseElement node rest
      | some (node, none, rest) => mxmlParseElement node rest
termination_by s.length
decreasing_by
  · exact mxmlStringGetc_length _h
  · exact lt_of_le_of_lt (parseAttr_suffix _h').length_le (mxmlStringGetc_length _h)
  · exact lt_of_le_of_lt (parseAttr_suffix _h').length_le (mxmlStringGetc_length _h)

theorem tagEnd_suffix {s rest : List UInt8} (h : tagEnd s = some rest) : rest <:+ s := by
  rw [tagEnd] at h
  split at h
  · next c rest' hc =>
    split at h
    · obtain rfl := Option.some.inj h
      exact mxmlStringGetc_suffix hc
    · cases h
  · cases h

theorem mxmlParseElement_suffix {node : MxmlNode} {s : List UInt8} {r : UInt8 × MxmlNode × List UInt8}
    (h : mxmlParseElement node s = some r) : r.2.2 <:+ s := by
  have hend {c : UInt8} {node : MxmlNode} {rest : List UInt8}
      (h : ((tagEnd rest).map fun rest ↦ (c, node, rest)) = some r) : r.2.2 <:+ rest := by
    obtain ⟨rest', hrest, rfl⟩ := Option.map_eq_some_iff.1 h
    exact tagEnd_suffix hrest
  fun_induction mxmlParseElement node s with
  | case1 => cases h
  | case2 node s c rest hc _ ih => exact (ih h).trans (mxmlStringGetc_suffix hc)
  | case3 node s c rest hc _ _ => exact (hend h).trans (mxmlStringGetc_suffix hc)
  | case4 => cases h
  | case5 node s rest hc _ =>
    obtain rfl := Option.some.inj h
    exact mxmlStringGetc_suffix hc
  | case6 => cases h
  | case7 node s c rest hc _ _ _ _ node' c' rest' hattr _ =>
    exact (hend h).trans ((parseAttr_suffix hattr).trans (mxmlStringGetc_suffix hc))
  | case8 node s c rest hc _ _ _ _ node' rest' hattr _ =>
    obtain rfl := Option.some.inj h
    exact (parseAttr_suffix hattr).trans (mxmlStringGetc_suffix hc)
  | case9 node s c rest hc _ _ _ _ node' c' rest' hattr _ _ ih =>
    exact (ih h).trans ((parseAttr_suffix hattr).trans (mxmlStringGetc_suffix hc))
  | case10 node s c rest hc _ _ _ _ node' rest' hattr ih =>
    exact (ih h).trans ((parseAttr_suffix hattr).trans (mxmlStringGetc_suffix hc))

/-! ### The loop over the nodes -/

/-- A node that is open, with the children it has so far. -/
structure MxmlOpen where
  name : List UInt8
  attrs : List (List UInt8 × List UInt8)
  child : List MxmlContent

def MxmlOpen.content (node : MxmlOpen) : MxmlContent := .element node.name node.attrs node.child

/-- The variables of the loop: the nodes that are open, the innermost first; the first node at the top that is
complete; and what was read of a text. -/
structure MxmlLoad where
  parents : List MxmlOpen
  first : Option MxmlContent
  whitespace : Bool
  buffer : List UInt8

namespace MxmlLoad

/-- A node under the parent. -/
def add (st : MxmlLoad) (node : MxmlContent) : MxmlLoad :=
  match st.parents with
  | [] => { st with first := st.first.or (some node) }
  | parent :: parents => { st with parents := { parent with child := parent.child ++ [node] } :: parents }

/-- A node that becomes the parent. -/
def descend (st : MxmlLoad) (node : MxmlNode) : MxmlLoad :=
  { st with parents := ⟨node.name, node.attrs, []⟩ :: st.parents }

/-- A processing instruction or a declaration becomes the parent if there is none. -/
def addDirective (st : MxmlLoad) (name : List UInt8) : MxmlLoad :=
  if st.parents.isEmpty then st.descend (.new name) else st.add (.element name [] [])

/-- What is returned at the end: the node at the top if no other is open, or the first one. -/
def result (st : MxmlLoad) : Option MxmlContent :=
  match st.parents with
  | [] => st.first
  | [parent] => some parent.content
  | _ => none

end MxmlLoad

/-- How the loop goes on. -/
inductive LoadStep
  | error
  | done (st : MxmlLoad)
  | more (st : MxmlLoad) (s : List UInt8)

/-- The end of a comment, in front of the `>`. -/
def isCommentEnd (buf : List UInt8) : Bool :=
  4 < buf.length && (text "--").isSuffixOf buf && buf[buf.length - 3]? ≠ some (ch '-')

/-- The rest of a declaration, from the character on that ended the name. -/
def gatherDeclaration (c : Option UInt8) (buf s : List UInt8) : Option (List UInt8 × List UInt8) :=
  let rest (buf s : List UInt8) : Option (List UInt8 × List UInt8) :=
    match gather (fun c ↦ c = ch '>') buf s with
    | some (some _, buf, rest) => some (buf, rest)
    | _ => none
  match c with
  -- `mxml_add_char` of `EOF`
  | none => rest (buf ++ [255]) s
  | some c =>
    if c = ch '>' then some (buf, s)
    else if c = ch '&' then
      match mxmlGetEntity s with
      | (none, _) => none
      | (some e, s) => rest (buf ++ mxmlAddChar e) s
    else rest (buf ++ mxmlAddChar c.toNat) s

/-- The rest of a close tag. -/
def skipTag (c : Option UInt8) (s : List UInt8) : List UInt8 :=
  match c with
  | none => s
  | some c =>
    if c = ch '>' then s
    else
      match _h : mxmlStringGetc s with
      | (none, rest) => rest
      | (some c, rest) => skipTag (some c) rest
termination_by s.length
decreasing_by exact mxmlStringGetc_length _h

/-- A close tag. -/
def loadClose (st : MxmlLoad) (c : Option UInt8) (buffer s : List UInt8) : LoadStep :=
  match st.parents with
  | [] => .error
  | parent :: parents =>
    if buffer.tail = parent.name then .more ({ st with parents := parents }.add parent.content) (skipTag c s)
    else .error

/-- An open tag, behind its last character. -/
def opened (st : MxmlLoad) (c : UInt8) (node : MxmlNode) (s : List UInt8) : LoadStep :=
  if c = ch '/' then .more (st.add (.element node.name node.attrs [])) s else .more (st.descend node) s

/-- An open tag. -/
def loadOpen (st : MxmlLoad) (c : Option UInt8) (buffer s : List UInt8) : LoadStep :=
  match c with
  | none => .done (st.add (.element buffer [] []))
  | some c =>
    if mxmlIsspace c then
      match mxmlParseElement (.new buffer) s with
      | none => .error
      | some (c, node, s) => opened st c node s
    else if c = ch '/' then
      match tagEnd s with
      | none => .error
      | some s => opened st c (.new buffer) s
    else opened st c (.new buffer) s

/-- A tag, from behind the `<`. -/
def loadTag (st : MxmlLoad) (s : List UInt8) : LoadStep :=
  match gatherTag [] s with
  | none => .error
  | some (c, buffer, s) =>
    if buffer = text "!--" then
      match gatherRaw isCommentEnd buffer s with
      | none => .error
      | some (buffer, s) => .more (st.add (.element buffer [] [])) s
    else if buffer = text "![CDATA[" then
      match gatherRaw (text "]]").isSuffixOf buffer s with
      | none => .error
      | some (buffer, s) => .more (st.add (.element buffer [] [])) s
    else if buffer.head? = some (ch '?') then
      match gatherRaw (text "?").isSuffixOf buffer s with
      | none => .error
      | some (buffer, s) => .more (st.addDirective buffer) s
    else if buffer.head? = some (ch '!') then
      match gatherDeclaration c buffer s with
      | none => .error
      | some (buffer, s) => .more (st.addDirective buffer) s
    else if buffer.head? = some (ch '/') then loadClose st c buffer s
    else loadOpen st c buffer s

/-- The nodes that a `<` or white space adds: a text that was read, and white space alone in front of a tag. -/
def loadText (st : MxmlLoad) (c : UInt8) : MxmlLoad :=
  let st :=
    if (c = ch '<' || mxmlIsspace c) && !st.buffer.isEmpty then
      { st.add (.text st.whitespace st.buffer) with buffer := [], whitespace := mxmlIsspace c }
    else if mxmlIsspace c then { st with whitespace := true }
    else st
  if c = ch '<' && st.whitespace then { st.add (.text true []) with whitespace := false } else st

/-- The body of the loop of `mxml_load_data`. -/
def loadChar (st : MxmlLoad) (c : UInt8) (s : List UInt8) : LoadStep :=
  let st := loadText st c
  if c = ch '<' then loadTag st s
  else if c = ch '&' then
    match mxmlGetEntity s with
    | (none, _) => .error
    | (some e, s) => .more { st with buffer := st.buffer ++ mxmlAddChar e } s
  else if mxmlIsspace c then .more st s
  else .more { st with buffer := st.buffer ++ mxmlAddChar c.toNat } s

theorem gatherDeclaration_suffix {c : Option UInt8} {buf s : List UInt8} {r : List UInt8 × List UInt8}
    (h : gatherDeclaration c buf s = some r) : r.2 <:+ s := by
  have hrest {buf s : List UInt8} (h : (match gather (fun c ↦ c = ch '>') buf s with
      | some (some _, buf, rest) => some (buf, rest)
      | _ => none) = some r) : r.2 <:+ s := by
    split at h
    · next hg =>
      obtain rfl := Option.some.inj h
      exact gather_suffix hg
    · cases h
  rw [gatherDeclaration.eq_def] at h
  dsimp only at h
  split at h
  · exact hrest h
  · split at h
    · obtain rfl := Option.some.inj h
      exact List.suffix_rfl
    split at h
    · split at h
      · cases h
      · next he => exact (hrest h).trans (mxmlGetEntity_suffix he)
    · exact hrest h

theorem skipTag_suffix (c : Option UInt8) (s : List UInt8) : skipTag c s <:+ s := by
  fun_induction skipTag c s with
  | case1 => exact List.suffix_rfl
  | case2 => exact List.suffix_rfl
  | case3 s c _ rest hc => exact mxmlStringGetc_suffix hc
  | case4 s c _ d rest hc ih => exact ih.trans (mxmlStringGetc_suffix hc)

theorem opened_suffix {st st' : MxmlLoad} {c : UInt8} {node : MxmlNode} {s rest : List UInt8}
    (h : opened st c node s = .more st' rest) : rest <:+ s := by
  rw [opened] at h
  split at h <;> obtain ⟨-, rfl⟩ := LoadStep.more.inj h <;> exact List.suffix_rfl

theorem loadOpen_suffix {st st' : MxmlLoad} {c : Option UInt8} {buffer s rest : List UInt8}
    (h : loadOpen st c buffer s = .more st' rest) : rest <:+ s := by
  rw [loadOpen.eq_def] at h
  split at h
  · cases h
  split at h
  · split at h
    · cases h
    · next hp => exact (opened_suffix h).trans (mxmlParseElement_suffix hp)
  split at h
  · split at h
    · cases h
    · next he => exact (opened_suffix h).trans (tagEnd_suffix he)
  · exact opened_suffix h

theorem loadClose_suffix {st st' : MxmlLoad} {c : Option UInt8} {buffer s rest : List UInt8}
    (h : loadClose st c buffer s = .more st' rest) : rest <:+ s := by
  rw [loadClose] at h
  split at h
  · cases h
  split at h
  · obtain ⟨-, rfl⟩ := LoadStep.more.inj h
    exact skipTag_suffix c s
  · cases h

theorem loadTag_suffix {st st' : MxmlLoad} {s rest : List UInt8} (h : loadTag st s = .more st' rest) :
    rest <:+ s := by
  rw [loadTag] at h
  split at h
  · cases h
  · next c buffer s' hg =>
    refine List.IsSuffix.trans ?_ (gatherTag_suffix hg)
    dsimp only
    split at h
    · split at h
      · cases h
      · next hr =>
        obtain ⟨-, rfl⟩ := LoadStep.more.inj h
        exact gatherRaw_suffix hr
    split at h
    · split at h
      · cases h
      · next hr =>
        obtain ⟨-, rfl⟩ := LoadStep.more.inj h
        exact gatherRaw_suffix hr
    split at h
    · split at h
      · cases h
      · next hr =>
        obtain ⟨-, rfl⟩ := LoadStep.more.inj h
        exact gatherRaw_suffix hr
    split at h
    · split at h
      · cases h
      · next hr =>
        obtain ⟨-, rfl⟩ := LoadStep.more.inj h
        exact gatherDeclaration_suffix hr
    split at h
    · exact loadClose_suffix h
    · exact loadOpen_suffix h

theorem loadChar_suffix {st st' : MxmlLoad} {c : UInt8} {s rest : List UInt8}
    (h : loadChar st c s = .more st' rest) : rest <:+ s := by
  rw [loadChar] at h
  split at h
  · exact loadTag_suffix h
  split at h
  · split at h
    · cases h
    · next he =>
      obtain ⟨-, rfl⟩ := LoadStep.more.inj h
      exact mxmlGetEntity_suffix he
  split at h
  · obtain ⟨-, rfl⟩ := LoadStep.more.inj h
    exact List.suffix_rfl
  · obtain ⟨-, rfl⟩ := LoadStep.more.inj h
    exact List.suffix_rfl

/-- `mxml_load_data` from a point of the loop on. -/
def mxmlLoadData (st : MxmlLoad) (s : List UInt8) : Option MxmlContent :=
  match _h : mxmlStringGetc s with
  | (none, _) => st.result
  | (some c, rest) =>
    match _h' : loadChar st c rest with
    | .error => none
    | .done st => st.result
    | .more st rest => mxmlLoadData st rest
termination_by s.length
decreasing_by exact lt_of_le_of_lt (loadChar_suffix _h').length_le (mxmlStringGetc_length _h)

/-- `mxmlLoadString(NULL, s, MXML_NO_CALLBACK)`; `none` is `NULL`. -/
def mxmlLoadString (s : List UInt8) : Option MxmlContent := mxmlLoadData ⟨[], none, false, []⟩ s

end Sunda
