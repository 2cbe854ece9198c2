import OracleThin.Image.OsonScalar

/-!
# The tree of an OSON image

The tree is read back node by node: a container finds its children at the positions that it holds, wherever the reader
is. What comes back is the value with each of its scalars read back.
-/

namespace OracleThin.Image

open Lib Wire Ttc Seek

/-! ### Parts of a value -/

namespace OsonValue

/-- Induction over a value, its elements and its members. -/
theorem ind {P : OsonValue → Prop} {Q : List OsonValue → Prop} {R : List (String × OsonValue) → Prop}
    (scalar : ∀ value, value.isScalar → P value) (array : ∀ values, Q values → P (.array values))
    (object : ∀ entries, R entries → P (.object entries)) (nil : Q [])
    (cons : ∀ value values, P value → Q values → Q (value :: values)) (none : R [])
    (entry : ∀ key value entries, P value → R entries → R ((key, value) :: entries)) (value : OsonValue) : P value :=
  @OsonValue.rec P Q R (fun entry => P entry.2) (scalar _ rfl) (fun _ => scalar _ rfl) (fun _ => scalar _ rfl)
    (fun _ => scalar _ rfl) (fun _ => scalar _ rfl) (fun _ => scalar _ rfl) (fun _ => scalar _ rfl)
    (fun _ => scalar _ rfl) (fun _ _ _ _ _ => scalar _ rfl) (fun _ => scalar _ rfl) array object nil cons none
    (fun (key, value) => entry key value) (fun _ _ h => h) value

mutual

/-- The scalars of a value. -/
def leaves : OsonValue → List OsonValue
  | .array values => leavesOfValues values
  | .object entries => leavesOfEntries entries
  | value => [value]

def leavesOfValues : List OsonValue → List OsonValue
  | [] => []
  | value :: values => value.leaves ++ leavesOfValues values

def leavesOfEntries : List (String × OsonValue) → List OsonValue
  | [] => []
  | (_, value) :: entries => value.leaves ++ leavesOfEntries entries

end

mutual

/-- The field names of a value, in the order of their occurrences. -/
def keys : OsonValue → List String
  | .array values => keysOfValues values
  | .object entries => keysOfEntries entries
  | _ => []

def keysOfValues : List OsonValue → List String
  | [] => []
  | value :: values => value.keys ++ keysOfValues values

def keysOfEntries : List (String × OsonValue) → List String
  | [] => []
  | (key, value) :: entries => key :: (value.keys ++ keysOfEntries entries)

end

mutual

/-- How deep containers nest. -/
def depth : OsonValue → Nat
  | .array values => depthOfValues values + 1
  | .object entries => depthOfEntries entries + 1
  | _ => 0

def depthOfValues : List OsonValue → Nat
  | [] => 0
  | value :: values => max value.depth (depthOfValues values)

def depthOfEntries : List (String × OsonValue) → Nat
  | [] => 0
  | (_, value) :: entries => max value.depth (depthOfEntries entries)

end

mutual

/-- The largest number of children of a container. -/
def breadth : OsonValue → Nat
  | .array values => max values.length (breadthOfValues values)
  | .object entries => max entries.length (breadthOfEntries entries)
  | _ => 0

def breadthOfValues : List OsonValue → Nat
  | [] => 0
  | value :: values => max value.breadth (breadthOfValues values)

def breadthOfEntries : List (String × OsonValue) → Nat
  | [] => 0
  | (_, value) :: entries => max value.breadth (breadthOfEntries entries)

end

/-- The bytes of the head of a container. -/
def headerBytes (count : Nat) : Nat := if count < 256 then 2 else if count < 65536 then 3 else 5

mutual

/-- The bytes of the node of a value, with field ids of the given width. -/
def bytes (fieldIdSize : Nat) : OsonValue → Nat
  | .array values => headerBytes values.length + bytesOfValues fieldIdSize values
  | .object entries => headerBytes entries.length + bytesOfEntries fieldIdSize entries
  | value => scalarBytes value

def bytesOfValues (fieldIdSize : Nat) : List OsonValue → Nat
  | [] => 0
  | value :: values => 4 + value.bytes fieldIdSize + bytesOfValues fieldIdSize values

def bytesOfEntries (fieldIdSize : Nat) : List (String × OsonValue) → Nat
  | [] => 0
  | (_, value) :: entries => fieldIdSize + 4 + value.bytes fieldIdSize + bytesOfEntries fieldIdSize entries

end

mutual

/-- What the tree of a value is read back as. -/
def reread (limits : ProtocolLimits) : OsonValue → Result OsonValue
  | .array values => .array <$> rereadValues limits values
  | .object entries => .object <$> rereadEntries limits entries
  | value => rereadScalar limits value

def rereadValues (limits : ProtocolLimits) : List OsonValue → Result (List OsonValue)
  | [] => .ok []
  | value :: values => do
    let value ← value.reread limits
    let values ← rereadValues limits values
    return value :: values

def rereadEntries (limits : ProtocolLimits) : List (String × OsonValue) → Result (List (String × OsonValue))
  | [] => .ok []
  | (key, value) :: entries => do
    let value ← value.reread limits
    let entries ← rereadEntries limits entries
    return (key, value) :: entries

end

end OsonValue

/-! ### The head of a container -/

/-- The width of the number of children. -/
def countWidth (count : Nat) : Nat := if count < 256 then 1 else if count < 65536 then 2 else 4

/-- The type of a container with that many children. -/
def containerType (nodeType : UInt8) (count : Nat) : UInt8 :=
  if count < 256 then nodeType ||| 0x20
  else if count < 65536 then nodeType ||| 0x20 ||| 0x08
  else nodeType ||| 0x20 ||| 0x10

private theorem encodeContainerHeader_eq (nodeType : UInt8) (count : Nat) :
    encodeContainerHeader nodeType count = containerType nodeType count :: toBe (countWidth count) count := by
  unfold encodeContainerHeader containerType countWidth
  by_cases hsmall : count < 256
  · simp only [if_pos hsmall, if_neg (show ¬65535 < count by omega), if_neg (show ¬255 < count by omega)]
  · by_cases hmiddle : count < 65536
    · simp only [if_neg hsmall, if_pos hmiddle, if_neg (show ¬65535 < count by omega),
        if_pos (show 255 < count by omega)]
    · simp only [if_neg hsmall, if_neg hmiddle, if_pos (show 65535 < count by omega)]

private theorem length_encodeContainerHeader (nodeType : UInt8) (count : Nat) :
    (encodeContainerHeader nodeType count).length = OsonValue.headerBytes count := by
  rw [encodeContainerHeader_eq, List.length_cons, length_toBe, countWidth, OsonValue.headerBytes]
  split
  · rfl
  · split <;> rfl

/-- The bits of the type of a container. -/
structure ContainerBits (nodeType : UInt8) (count : Nat) (isObject : Bool) : Prop where
  container : nodeType &&& 0x80 ≠ 0
  object : nodeType &&& 0x40 = 0 ↔ isObject
  wide : nodeType &&& 0x20 ≠ 0
  own : nodeType &&& 0x18 ≠ 0x18
  width : (if nodeType &&& 0x18 = 0 then 1 else if nodeType &&& 0x18 = 0x08 then 2 else 4) = countWidth count

private theorem containerBits (isObject : Bool) (count : Nat) :
    ContainerBits (containerType
      (if isObject then tnsJsonTypeObject else tnsJsonTypeArray) count) count isObject := by
  unfold containerType
  by_cases hsmall : count < 256
  · rw [if_pos hsmall]
    cases isObject <;> exact ⟨by decide, by decide, by decide, by decide, by rw [countWidth, if_pos hsmall]; rfl⟩
  · rw [if_neg hsmall]
    by_cases hmiddle : count < 65536
    · have hwidth : countWidth count = 2 := by rw [countWidth, if_neg hsmall, if_pos hmiddle]
      rw [if_pos hmiddle]
      cases isObject <;> exact ⟨by decide, by decide, by decide, by decide, by rw [hwidth]; rfl⟩
    · have hwidth : countWidth count = 4 := by rw [countWidth, if_neg hsmall, if_neg hmiddle]
      rw [if_neg hmiddle]
      cases isObject <;> exact ⟨by decide, by decide, by decide, by decide, by rw [hwidth]; rfl⟩

private theorem lt_countWidth {count : Nat} (h : count < 2 ^ 32) : count < 256 ^ countWidth count := by
  unfold countWidth
  split
  · omega
  · split <;> omega

section

variable {decoder : OsonDecoder} (hmax : decoder.reader.data.length ≤ decoder.reader.limits.maxResponseBytes)
variable {nodeType : UInt8} {count pos : Nat} {isObject : Bool}

include hmax

private theorem containerLayout_eq (hbits : ContainerBits nodeType count isObject)
    (h : StandsAt decoder.reader.data pos (toBe (countWidth count) count)) (hcount : count < 2 ^ 32)
    (helements : count ≤ decoder.reader.limits.maxObjectElements) :
    decoder.containerLayout nodeType pos =
      .ok ((count, if isObject then pos + countWidth count else 0,
        pos + countWidth count + if isObject then decoder.fieldIdLength * count else 0), pos + countWidth count) := by
  have hread := readUint_standsAt hmax h
  rw [Nat.mod_eq_of_lt (lt_countWidth hcount)] at hread
  have hnum : decoder.getNumChildren nodeType pos = .ok ((count, false), pos + countWidth count) := by
    rw [OsonDecoder.getNumChildren, if_neg hbits.own, hbits.width, Seek.bind_of_ok hread]
    rfl
  have hcheck : decoder.reader.limits.checkObjectElements count = .ok () := if_pos helements
  rw [OsonDecoder.containerLayout, Seek.bind_of_ok hnum]
  cases isObject with
  | true =>
    have hobject := hbits.object.2 rfl
    simp [hcheck, bind, StateT.bind, Except.bind, Except.map, pure, StateT.pure, hobject, Except.pure]
  | false =>
    have hobject : ¬nodeType &&& 0x40 = 0 := fun h => by simpa using hbits.object.1 h
    simp [hcheck, bind, StateT.bind, Except.bind, Except.map, pure, StateT.pure, hobject, Except.pure]

/-- A container gives what its children give. -/
theorem gives_container (depth : Nat) (hbits : ContainerBits nodeType count isObject)
    (h : StandsAt decoder.reader.data pos (nodeType :: toBe (countWidth count) count)) (hcount : count < 2 ^ 32)
    (helements : count ≤ decoder.reader.limits.maxObjectElements)
    {children : Result (List (String × OsonValue))} {result : Result OsonValue}
    (hresult : (children >>= fun found => .ok (if isObject then .object found else .array (found.map Prod.snd))) =
      result)
    (hchildren : ∀ containerOffset pos', Gives
      (decoder.decodeChildren (decoder.decodeNode depth) nodeType containerOffset count
        (if isObject then pos + (countWidth count + 1) else 0)
        (pos + (countWidth count + 1) + if isObject then decoder.fieldIdLength * count else 0)) pos' children) :
    Gives (decoder.decodeNode (depth + 1)) pos result := by
  obtain ⟨hnode, hsize⟩ := StandsAt.append_iff.1 (show StandsAt _ _ ([nodeType] ++ _) from h)
  have hlayout := containerLayout_eq hmax hbits hsize hcount helements
  have hcheck : decoder.reader.limits.checkObjectElements count = .ok () := if_pos helements
  have hpos : pos + 1 + countWidth count = pos + (countWidth count + 1) := by omega
  rw [OsonDecoder.decodeNode, ← hresult]
  refine Gives.of_ok (readU8_standsAt hmax hnode) ?_
  rw [if_pos hbits.container, OsonDecoder.decodeContainerNode]
  refine Gives.of_ok (get_apply _) (Gives.of_ok hlayout ?_)
  dsimp only
  rw [hcheck]
  refine Gives.of_ok rfl ?_
  have hend (found : List (String × OsonValue)) (pos' : Nat) : Gives
      (if nodeType &&& 0x40 = 0 then pure (.object found) else pure (.array (found.map Prod.snd)) :
        OsonRead OsonValue)
      pos' (.ok (if isObject then .object found else .array (found.map Prod.snd))) := by
    cases isObject with
    | true =>
      rw [if_pos (hbits.object.2 rfl)]
      rfl
    | false =>
      rw [if_neg fun h => by simpa using hbits.object.1 h]
      rfl
  rw [List.length_singleton, hpos]
  exact (hchildren _ _).bind hend

/-! ### The children of a container -/

variable (hrelative : decoder.relativeOffsets = false)
    {start fieldIdsPos fieldIdsPos' offsetsPos containerOffset n : Nat}
variable {child : OsonRead OsonValue} {found : Result OsonValue} {key : String}
variable {later : Result (List (String × OsonValue))}

include hrelative in
/-- A child is read at the position that its container holds, and then the children behind it. -/
theorem gives_child (hbits : ContainerBits nodeType count isObject)
    (hname : isObject = false ∧ key = "" ∧ fieldIdsPos' = fieldIdsPos ∨ isObject = true ∧
      fieldIdsPos ≤ decoder.reader.data.length ∧ decoder.readFieldName fieldIdsPos = .ok (key, fieldIdsPos'))
    (h : StandsAt decoder.reader.data offsetsPos (toBe 4 start)) (hstart : start < 2 ^ 32)
    (hwithin : decoder.treeSegPos + start ≤ decoder.reader.data.length)
    (hchild : Gives child (decoder.treeSegPos + start) found)
    (hlater : ∀ pos',
      Gives (decoder.decodeChildren child nodeType containerOffset n fieldIdsPos' (offsetsPos + 4)) pos'
      later)
    {result : Result (List (String × OsonValue))}
    (hresult : (do
      let value ← found
      let values ← later
      return (key, value) :: values) = result) :
    Gives (decoder.decodeChildren child nodeType containerOffset (n + 1) fieldIdsPos offsetsPos) pos result := by
  have hend := h.length_le
  have hread := readUint_standsAt hmax h
  rw [Nat.mod_eq_of_lt (by omega)] at hread
  have hposition : decoder.childPosition containerOffset start = .ok start := by
    rw [OsonDecoder.childPosition, hrelative]
    rfl
  rw [OsonDecoder.decodeChildren, ← hresult]
  rcases hname with ⟨rfl, rfl, rfl⟩ | ⟨rfl, hids, hname⟩
  on_goal 1 =>
    rw [if_neg fun h => by simpa using hbits.object.1 h]
    refine Gives.of_ok (pure_apply _ _) ?_
  on_goal 2 =>
    rw [if_pos (hbits.object.2 rfl)]
    refine Gives.of_ok (seekTo_of_le hids pos) (Gives.of_ok hname (Gives.of_ok (get_apply _) ?_))
    refine Gives.of_ok (pure_apply _ _) ?_
  all_goals
    dsimp only
    refine Gives.of_ok (seekTo_of_le (by omega) _) ?_
    rw [OsonDecoder.getOffset, if_pos hbits.wide]
    refine Gives.of_ok hread ?_
    rw [hposition]
    refine Gives.of_ok rfl (Gives.of_ok (get_apply _) (Gives.of_ok (seekTo_of_le hwithin _) ?_))
    exact hchild.bind fun value pos' => (hlater pos').bind fun values pos'' => gives_pure _ pos''

end

/-! ### The tree -/

section

variable {encoder : OsonEncoder}

theorem encodeNode_of_isScalar {value : OsonValue} (h : value.isScalar) (start : Nat) :
    encodeNode encoder start value = encodeScalar value := by
  cases value <;> first | rfl | cases h

mutual

theorem length_encodeNode : ∀ (value : OsonValue) {start : Nat} {node : List UInt8},
    encodeNode encoder start value = .ok node → node.length = value.bytes encoder.fieldIdSize
  | .array values, start, node, h => by
    obtain ⟨children, hchildren, h⟩ := except_bind_eq_ok.1 h
    cases h
    obtain ⟨hoffsets, hnodes⟩ := length_encodeElements values hchildren
    rw [List.length_append, List.length_append, length_encodeContainerHeader, OsonValue.bytes]
    omega
  | .object entries, start, node, h => by
    obtain ⟨children, hchildren, h⟩ := except_bind_eq_ok.1 h
    cases h
    obtain ⟨hids, hoffsets, hnodes⟩ := length_encodeEntries entries hchildren
    rw [List.length_append, List.length_append, List.length_append, length_encodeContainerHeader, OsonValue.bytes]
    omega
  | .null, _, _, h | .bool _, _, _, h | .number _, _, _, h | .binaryFloat _, _, _, h | .binaryDouble _, _, _, h
  | .string _, _, _, h | .raw _, _, _, h | .dateTime _, _, _, h | .intervalDS .., _, _, h | .vector _, _, _, h =>
    length_encodeScalar ((encodeNode_of_isScalar (by rfl) _).symm.trans h)

theorem length_encodeElements : ∀ (values : List OsonValue) {start : Nat} {children : ChildNodes},
    encodeElements encoder start values = .ok children →
    children.offsets.length = values.length * 4 ∧
      children.offsets.length + children.nodes.length = OsonValue.bytesOfValues encoder.fieldIdSize values
  | [], _, _, h => by
    cases h
    exact ⟨rfl, rfl⟩
  | value :: values, start, children, h => by
    obtain ⟨node, hnode, h⟩ := except_bind_eq_ok.1 h
    obtain ⟨later, hlater, h⟩ := except_bind_eq_ok.1 h
    cases h
    have hlen := length_encodeNode value hnode
    obtain ⟨hoffsets, hnodes⟩ := length_encodeElements values hlater
    simp only [List.length_append, length_toBe, List.length_cons, OsonValue.bytesOfValues]
    omega

theorem length_encodeEntries : ∀ (entries : List (String × OsonValue)) {start : Nat} {children : ChildNodes},
    encodeEntries encoder start entries = .ok children →
    children.fieldIds.length = entries.length * encoder.fieldIdSize ∧ children.offsets.length = entries.length * 4 ∧
      children.fieldIds.length + children.offsets.length + children.nodes.length =
        OsonValue.bytesOfEntries encoder.fieldIdSize entries
  | [], _, _, h => by
    cases h
    simp [OsonValue.bytesOfEntries]
  | (key, value) :: entries, start, children, h => by
    rw [encodeEntries] at h
    split at h
    · cases h
    obtain ⟨node, hnode, h⟩ := except_bind_eq_ok.1 h
    obtain ⟨later, hlater, h⟩ := except_bind_eq_ok.1 h
    cases h
    have hlen := length_encodeNode value hnode
    obtain ⟨hids, hoffsets, hnodes⟩ := length_encodeEntries entries hlater
    simp only [List.length_append, length_toBe, List.length_cons, OsonValue.bytesOfEntries, Nat.add_mul]
    omega

end

theorem OsonValue.reread_of_isScalar {limits : ProtocolLimits} {value : OsonValue} (h : value.isScalar) :
    value.reread limits = rereadScalar limits value := by
  cases value <;> first | rfl | cases h

/-- The decoder knows the names under the ids of the encoder. -/
structure Knows (decoder : OsonDecoder) (encoder : OsonEncoder) : Prop where
  response : decoder.reader.data.length ≤ decoder.reader.limits.maxResponseBytes
  absolute : decoder.relativeOffsets = false
  width : decoder.fieldIdLength = encoder.fieldIdSize
  names : ∀ key fieldName, encoder.lookup key = some fieldName → fieldName.fieldId.toNat ≠ 0 ∧
    fieldName.fieldId.toNat < 256 ^ encoder.fieldIdSize ∧ decoder.fieldNames[fieldName.fieldId.toNat - 1]? = some key

private theorem gives_encodeScalar {decoder : OsonDecoder} (hknows : Knows decoder encoder) (depth : Nat)
    {value : OsonValue}
    {start : Nat} {node : List UInt8} (hvalue : value.isScalar) (h : encodeNode encoder start value = .ok node)
    (hnode : StandsAt decoder.reader.data (decoder.treeSegPos + start) node) (hsize : start + node.length < 2 ^ 32) :
    Gives (decoder.decodeNode depth) (decoder.treeSegPos + start) (value.reread decoder.reader.limits) := by
  rw [encodeNode_of_isScalar hvalue] at h
  rw [Gives, decodeNode_encodeScalar hknows.response depth hvalue h hnode (by omega),
    OsonValue.reread_of_isScalar hvalue]
  cases rereadScalar decoder.reader.limits value <;> rfl

/-- The node of a value is read back. The children of a container are, wherever the reader is. -/
theorem gives_encodeNode {decoder : OsonDecoder} (hknows : Knows decoder encoder) (value : OsonValue)
    {start depth : Nat} {node : List UInt8} (h : encodeNode encoder start value = .ok node)
    (hnode : StandsAt decoder.reader.data (decoder.treeSegPos + start) node) (hsize : start + node.length < 2 ^ 32)
    (hdepth : value.depth ≤ depth) (hbreadth : value.breadth ≤ decoder.reader.limits.maxObjectElements) :
    Gives (decoder.decodeNode depth) (decoder.treeSegPos + start) (value.reread decoder.reader.limits) := by
  induction value using OsonValue.ind
    (Q := fun values => ∀ {start depth count containerOffset offsetsPos pos : Nat} {nodeType : UInt8}
      {children : ChildNodes}, ContainerBits nodeType count false →
      encodeElements encoder start values = .ok children →
      StandsAt decoder.reader.data offsetsPos children.offsets →
      StandsAt decoder.reader.data (decoder.treeSegPos + start) children.nodes →
      start + children.nodes.length < 2 ^ 32 → OsonValue.depthOfValues values ≤ depth →
      OsonValue.breadthOfValues values ≤ decoder.reader.limits.maxObjectElements →
      Gives (decoder.decodeChildren
        (decoder.decodeNode depth) nodeType containerOffset values.length 0 offsetsPos) pos
        ((OsonValue.rereadValues decoder.reader.limits values).map fun values => values.map ("", ·)))
    (R := fun entries => ∀ {start depth count containerOffset fieldIdsPos offsetsPos pos : Nat} {nodeType : UInt8}
      {children : ChildNodes}, ContainerBits nodeType count true →
      encodeEntries encoder start entries = .ok children →
      StandsAt decoder.reader.data fieldIdsPos children.fieldIds →
      StandsAt decoder.reader.data offsetsPos children.offsets →
      StandsAt decoder.reader.data (decoder.treeSegPos + start) children.nodes →
      start + children.nodes.length < 2 ^ 32 → OsonValue.depthOfEntries entries ≤ depth →
      OsonValue.breadthOfEntries entries ≤ decoder.reader.limits.maxObjectElements →
      Gives (decoder.decodeChildren (decoder.decodeNode depth) nodeType containerOffset entries.length fieldIdsPos
        offsetsPos) pos (OsonValue.rereadEntries decoder.reader.limits entries))
    generalizing start depth node with
  | scalar value hvalue => exact gives_encodeScalar hknows depth hvalue h hnode hsize
  | array values ih =>
    obtain ⟨children, hchildren, h⟩ := except_bind_eq_ok.1 h
    cases h
    obtain ⟨hcount, -⟩ := length_encodeElements values hchildren
    rw [encodeContainerHeader_eq] at hchildren hnode hsize
    obtain ⟨hhead, hnodes⟩ := StandsAt.append_iff.1 hnode
    obtain ⟨hheader, hoffsets⟩ := StandsAt.append_iff.1 hhead
    simp only [List.length_append, List.length_cons, length_toBe, hcount] at hsize hoffsets hnodes hchildren
    rw [OsonValue.breadth] at hbreadth
    rw [OsonValue.depth] at hdepth
    obtain ⟨depth, rfl⟩ : ∃ inner, depth = inner + 1 := ⟨depth - 1, by omega⟩
    simp only [Nat.add_assoc] at hnodes hchildren
    refine gives_container hknows.response depth (containerBits false values.length) hheader (by omega) (by omega) ?_
      fun containerOffset pos =>
        ih (containerBits false values.length) hchildren hoffsets hnodes (by omega) (by omega) (by omega)
    rw [OsonValue.reread]
    cases OsonValue.rereadValues decoder.reader.limits values with
    | error e => rfl
    | ok values => simp [Except.map, bind, Except.bind, Function.comp_def, Functor.map]
  | object entries ih =>
    obtain ⟨children, hchildren, h⟩ := except_bind_eq_ok.1 h
    cases h
    obtain ⟨hids, hcount, -⟩ := length_encodeEntries entries hchildren
    rw [encodeContainerHeader_eq] at hchildren hnode hsize
    obtain ⟨hhead, hnodes⟩ := StandsAt.append_iff.1 hnode
    obtain ⟨hhead, hoffsets⟩ := StandsAt.append_iff.1 hhead
    obtain ⟨hheader, hfieldIds⟩ := StandsAt.append_iff.1 hhead
    simp only [List.length_append, List.length_cons, length_toBe, hids, hcount, ← hknows.width,
      Nat.mul_comm entries.length decoder.fieldIdLength] at hsize hfieldIds hoffsets hnodes hchildren
    rw [OsonValue.breadth] at hbreadth
    rw [OsonValue.depth] at hdepth
    obtain ⟨depth, rfl⟩ : ∃ inner, depth = inner + 1 := ⟨depth - 1, by omega⟩
    simp only [Nat.add_assoc] at hnodes hchildren
    rw [← Nat.add_assoc (decoder.treeSegPos + start)] at hoffsets
    refine gives_container hknows.response depth (containerBits true entries.length) hheader (by omega) (by omega) ?_
      fun containerOffset pos => ih (containerBits true entries.length) hchildren hfieldIds hoffsets hnodes (by omega)
        (by omega) (by omega)
    rw [OsonValue.reread]
    cases OsonValue.rereadEntries decoder.reader.limits entries <;> rfl
  | nil | none => exact gives_pure _ _
  | cons value values ih ihs hbits h hoffsets hnodes hsize hdepth hbreadth =>
    obtain ⟨node, hnode, h⟩ := except_bind_eq_ok.1 h
    obtain ⟨later, hlater, h⟩ := except_bind_eq_ok.1 h
    cases h
    obtain ⟨hoffset, hoffsets⟩ := StandsAt.append_iff.1 hoffsets
    obtain ⟨hfirst, hnodes⟩ := StandsAt.append_iff.1 hnodes
    rw [OsonValue.breadthOfValues] at hbreadth
    rw [List.length_append] at hsize
    rw [Nat.add_assoc] at hnodes
    have hwithin := hfirst.length_le
    have hvalue := ih hnode hfirst (by omega) (le_trans (le_max_left ..) hdepth) (by omega)
    refine gives_child hknows.response hknows.absolute hbits (Or.inl ⟨rfl, rfl, rfl⟩) hoffset (by omega)
      (by omega) hvalue
      (fun _ => ihs hbits hlater hoffsets hnodes (by omega) (le_trans (le_max_right ..) hdepth) (by omega)) ?_
    rw [OsonValue.rereadValues]
    cases value.reread decoder.reader.limits with
    | error e => rfl
    | ok value => cases OsonValue.rereadValues decoder.reader.limits values <;> rfl
  | entry key value entries ih ihs hbits h hids hoffsets hnodes hsize hdepth hbreadth =>
    rw [encodeEntries] at h
    split at h
    · cases h
    rename_i fieldName hfield
    obtain ⟨node, hnode, h⟩ := except_bind_eq_ok.1 h
    obtain ⟨later, hlater, h⟩ := except_bind_eq_ok.1 h
    cases h
    obtain ⟨hpositive, hfits, hname⟩ := hknows.names key fieldName hfield
    obtain ⟨hid, hids⟩ := StandsAt.append_iff.1 hids
    obtain ⟨hoffset, hoffsets⟩ := StandsAt.append_iff.1 hoffsets
    obtain ⟨hfirst, hnodes⟩ := StandsAt.append_iff.1 hnodes
    rw [OsonValue.breadthOfEntries] at hbreadth
    rw [List.length_append] at hsize
    rw [Nat.add_assoc] at hnodes
    rw [length_toBe, ← hknows.width] at hids
    rw [← hknows.width] at hid hfits
    have hread := readUint_standsAt hknows.response hid
    rw [Nat.mod_eq_of_lt hfits] at hread
    have hwithin := hfirst.length_le
    have hidWithin := hid.length_le
    have hvalue := ih hnode hfirst (by omega) (le_trans (le_max_left ..) hdepth) (by omega)
    refine gives_child hknows.response hknows.absolute hbits (Or.inr ⟨rfl, by omega, ?_⟩) hoffset (by omega)
      (by omega)
      hvalue (fun _ =>
        ihs hbits hlater hids hoffsets hnodes (by omega) (le_trans (le_max_right ..) hdepth) (by omega)) rfl
    rw [OsonDecoder.readFieldName, Seek.bind_of_ok hread, if_neg hpositive, hname]
    rfl

end

end OracleThin.Image
