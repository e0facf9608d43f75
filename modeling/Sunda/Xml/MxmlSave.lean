import Sunda.Xml.Mxml
import Sunda.Xml.MxmlEntity

/-!
# Writing an XML tree to a string

`mxmlSaveString` (`pubfun/xml/mxml-file.c`) without a callback for white space, on trees of elements and text:

* `mxmlWriteString`: a string with the entities of its characters, `mxmlWriteName`: a name, as it is unless it
  begins with a quote;
* `mxmlWriteAttrs`, `mxmlWriteNode`, `mxmlWriteNodes`: the text of a node, with the column behind it;
* `mxmlStringPutc`: one character to a buffer of which the size is known.

A `char` is signed, so the characters that are put are below 0x80 and go to the buffer as they are. The column
is a natural number here; it is beyond an `int` only where the strings of the tree are, taken together.

`mxmlSaveString_eq` says what the buffer holds and what is returned: the whole length, also where the text did
not fit.
-/

namespace Sunda

open Bytes

/-- A node of `mxml_node_t` that is an element, with its attributes and children, or a text, with the flag for
white space in front of it. -/
inductive MxmlContent
  | element (name : List UInt8) (attrs : List (List UInt8 × List UInt8)) (child : List MxmlContent)
  | text (whitespace : Bool) (string : List UInt8)

/-- A tree of elements only. -/
def MxmlNode.content : MxmlNode → MxmlContent
  | ⟨name, attrs, children⟩ => .element name attrs (children.map content)

/-! ### Names and strings -/

/-- The body of the loop of `mxml_write_string`. -/
def mxmlWriteChar (c : UInt8) : List UInt8 :=
  match mxmlEntityGetName c with
  | some name => ch '&' :: name ++ [ch ';']
  | none => [c]

def mxmlWriteString (s : List UInt8) : List UInt8 := s.flatMap mxmlWriteChar

def isQuote (c : UInt8) : Bool := c = ch '"' || c = ch '\''

def mxmlWriteName : List UInt8 → List UInt8
  | [] => []
  | quote :: s =>
    if isQuote quote then quote :: mxmlWriteString (s.takeWhile (· ≠ quote)) ++ [quote] else quote :: s

/-! ### Nodes -/

/-- `global->wrap`, as `mxmlSaveString` sets it. -/
def wrap : ℕ := 0x7F000000

/-- The elements whose name is written as it is. -/
def isRawName (name : List UInt8) : Bool :=
  name.head? = some (ch '?') || (text "!--").isPrefixOf name || (text "![CDATA[").isPrefixOf name

/-- The elements without an end tag. -/
def isSpecialName (name : List UInt8) : Bool :=
  name.head? = some (ch '!') || name.head? = some (ch '?')

/-- The loop over the attributes. -/
def mxmlWriteAttrs : List (List UInt8 × List UInt8) → ℕ → List UInt8 × ℕ
  | [], col => ([], col)
  | (name, value) :: attrs, col =>
    let width := name.length + value.length + 3
    let before := if wrap < col + width then (ch '\n', 0) else (ch ' ', col + 1)
    let rest := mxmlWriteAttrs attrs (before.2 + width)
    (before.1 :: mxmlWriteName name ++ ch '=' :: ch '"' :: mxmlWriteString value ++ ch '"' :: rest.1, rest.2)

mutual

/-- The body of the loop of `mxml_write_node`: the text of the node and the column behind it. -/
def mxmlWriteNode : MxmlContent → ℕ → List UInt8 × ℕ
  | .element name attrs child, col =>
    let tag := ch '<' :: if isRawName name then name else mxmlWriteName name
    let attr := mxmlWriteAttrs attrs (col + (name.length + 1))
    if child.isEmpty then
      if isSpecialName name then (tag ++ attr.1 ++ text ">", attr.2 + 1)
      else (tag ++ attr.1 ++ text " />", attr.2 + 3)
    else
      let inner := mxmlWriteNodes child (attr.2 + 1)
      if isSpecialName name then (tag ++ attr.1 ++ text ">" ++ inner.1, inner.2)
      else (tag ++ attr.1 ++ text ">" ++ inner.1 ++ (text "</" ++ mxmlWriteString name ++ text ">"),
        inner.2 + (name.length + 3))
  | .text whitespace string, col =>
    let before :=
      if whitespace && decide (0 < col) then if wrap < col then ([ch '\n'], 0) else ([ch ' '], col + 1)
      else ([], col)
    (before.1 ++ mxmlWriteString string, before.2 + string.length)

/-- The loop of `mxml_write_node` from a node on over the nodes next to it. -/
def mxmlWriteNodes : List MxmlContent → ℕ → List UInt8 × ℕ
  | [], col => ([], col)
  | node :: next, col =>
    let here := mxmlWriteNode node col
    let rest := mxmlWriteNodes next here.2
    (here.1 ++ rest.1, rest.2)

end

/-- The text that `mxmlSaveString` puts for a node that has no other next to it. -/
def mxmlSaveText (node : MxmlContent) : List UInt8 :=
  let r := mxmlWriteNode node 0
  if 0 < r.2 then r.1 ++ [ch '\n'] else r.1

/-! ### The buffer -/

/-- `mxml_string_putc`: `ptr[0]` as an index, and the buffer. -/
def mxmlStringPutc (bufsize : ℕ) (p : ℕ × List UInt8) (c : UInt8) : ℕ × List UInt8 :=
  (p.1 + 1, if p.1 < bufsize then p.2.set p.1 c else p.2)

/-- `mxmlSaveString`: the return value and the buffer. `none` is a write in front of the buffer. -/
def mxmlSaveString (node : MxmlContent) (buffer : List UInt8) (bufsize : ℕ) : Option (ℤ × List UInt8) :=
  if bufsize = 0 then none
  else
    let p := (mxmlSaveText node).foldl (mxmlStringPutc bufsize) (0, buffer)
    let buffer := if bufsize ≤ p.1 then p.2.set (bufsize - 1) 0 else p.2.set p.1 0
    some ((BitVec.ofNat 32 p.1).toInt, buffer)

theorem mxmlStringPutc_foldl {bufsize : ℕ} {buffer : List UInt8} (h : bufsize ≤ buffer.length)
    (s : List UInt8) (pos : ℕ) :
    s.foldl (mxmlStringPutc bufsize) (pos, buffer) =
      (pos + s.length, patch buffer pos (s.take (bufsize - pos))) := by
  induction s generalizing pos buffer with
  | nil => simp [patch]
  | cons c s ih =>
    rw [List.foldl_cons, mxmlStringPutc, List.length_cons]
    split
    · next hlt =>
      have hlen : pos < buffer.length := by omega
      rw [ih (by rwa [List.length_set]), Nat.add_right_comm, Nat.sub_add_eq,
        show bufsize - pos = bufsize - pos - 1 + 1 by omega, List.take_succ_cons, Nat.add_sub_cancel]
      have htake : (buffer.set pos c).take (pos + 1) = buffer.take pos ++ [c] := by
        rw [List.set_eq_take_append_cons_drop, if_pos hlen]
        simp [List.take_append, List.length_take, Nat.min_eq_left hlen.le]
      have hdrop (k : ℕ) : (buffer.set pos c).drop (pos + 1 + k) = buffer.drop (pos + (k + 1)) := by
        rw [List.drop_set_of_lt (by omega), Nat.add_assoc, Nat.add_comm 1]
      rw [patch, patch, htake, hdrop, List.length_cons, List.append_assoc]
      rfl
    · next hge =>
      rw [ih h, show bufsize - pos = 0 by omega, show bufsize - (pos + 1) = 0 by omega]
      simp [patch, Nat.add_right_comm, Nat.add_assoc]

/-- The NUL behind the characters, or over the last of them. -/
theorem patch_set_zero {buffer s : List UInt8} {k : ℕ} (hs : s.length ≤ k + 1) (hk : k ≤ s.length)
    (hlt : k < buffer.length) : (patch buffer 0 s).set k 0 = patch buffer 0 (s.take k ++ [0]) := by
  have hpatch (t : List UInt8) : patch buffer 0 t = t ++ buffer.drop t.length := by
    rw [patch, List.take_zero, List.nil_append, Nat.zero_add]
  have hlen : k < (s ++ buffer.drop s.length).length := by
    rw [List.length_append, List.length_drop]
    omega
  rw [hpatch, hpatch, List.set_eq_take_append_cons_drop, if_pos hlen, List.take_append_of_le_length hk,
    List.drop_append, List.drop_of_length_le hs, List.nil_append, List.drop_drop, List.length_append,
    List.length_take, Nat.min_eq_left hk, List.append_assoc]
  congr 3
  rw [List.length_singleton]
  omega

/-- **What the buffer holds**: the text, or as much of it as there is room for, and a NUL behind it. What is
returned is the length of the whole text. -/
theorem mxmlSaveString_eq (node : MxmlContent) {buffer : List UInt8} {bufsize : ℕ} (hpos : 0 < bufsize)
    (h : bufsize ≤ buffer.length) :
    mxmlSaveString node buffer bufsize =
      some ((BitVec.ofNat 32 (mxmlSaveText node).length).toInt,
        patch buffer 0 ((mxmlSaveText node).take (bufsize - 1) ++ [0])) := by
  rw [mxmlSaveString, if_neg hpos.ne', mxmlStringPutc_foldl h, Nat.zero_add, Nat.sub_zero]
  dsimp only
  congr 2
  split
  · next hle =>
    rw [patch_set_zero (by rw [List.length_take]; omega) (by rw [List.length_take]; omega) (by omega),
      List.take_take, Nat.min_eq_left (by omega)]
  · next hgt =>
    rw [List.take_of_length_le (by omega), patch_set_zero (by omega) le_rfl (by omega),
      List.take_length, List.take_of_length_le (by omega)]

end Sunda
