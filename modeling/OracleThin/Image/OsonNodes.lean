import OracleThin.Image.OsonNames

/-!
# The nodes of an OSON image

A container holds the positions of its children, and nothing keeps two of them apart. The decoded value has a node for
every offset that is followed, so it may have more nodes than the image has bytes. It has not, if no two nodes begin
at the same position.
-/

namespace OracleThin.Image

open Lib Wire Ttc Seek

/-! ### Scalars -/

section

variable {reader : OsonReader} {P : OsonValue → Prop} {decode : List UInt8 → Result OsonValue}

private theorem onlyGives_decodeRaw (h : ∀ raw value, decode raw = .ok value → P value) (len : Nat) :
    OnlyGives (decodeRaw reader len decode) P := onlyGives_bind fun raw => onlyGives_lift (h raw)

private theorem onlyGives_decodeSized (h : ∀ raw value, decode raw = .ok value → P value) (width : Nat) :
    OnlyGives (decodeSized reader width decode) P := onlyGives_bind fun _ => onlyGives_decodeRaw h _

/-- A node without the bit of a container is a scalar. -/
theorem isScalar_decodeScalar (nodeType : UInt8) :
    OnlyGives (decodeScalarWithNodeType reader nodeType) fun value => value.isScalar := by
  have hdate : ∀ raw value, decodeDatetime raw = .ok value → value.isScalar := fun raw value h => by
    obtain ⟨found, -, h⟩ := except_bind_eq_ok.1 h
    split at h
    · cases h
      rfl
    · obtain ⟨time, -, h⟩ := except_bind_eq_ok.1 h
      cases h
      rfl
    · cases h
    · cases h
  have hinterval : ∀ raw value, decodeInterval raw = .ok value → value.isScalar := fun raw value h => by
    obtain ⟨found, -, h⟩ := except_bind_eq_ok.1 h
    split at h
    · cases h
      rfl
    · cases h
  have hnumber : ∀ raw value, decodeNumber raw = .ok value → value.isScalar := fun raw value h => by
    obtain ⟨number, -, h⟩ := except_bind_eq_ok.1 h
    cases h
    rfl
  have htext : ∀ raw value, decodeString raw = .ok value → value.isScalar := fun raw value h => by
    obtain ⟨text, -, h⟩ := except_bind_eq_ok.1 h
    cases h
    rfl
  have hplain {make : List UInt8 → OsonValue} (hmake : ∀ raw, (make raw).isScalar) :
      ∀ raw value, Except.ok (ε := ProtocolError) (make raw) = .ok value → value.isScalar := by
    rintro raw _ ⟨⟩
    exact hmake raw
  have hextended : OnlyGives (decodeExtended reader) fun value => value.isScalar := by
    refine onlyGives_bind fun _ => onlyGives_ite (onlyGives_bind fun _ => onlyGives_bind fun _ =>
      onlyGives_decodeRaw (fun raw value h => ?_) _) (onlyGives_throw _)
    unfold decodeEmbeddedVector at h
    split at h
    · cases h
      rfl
    · cases h
  have hinline : OnlyGives (decodeNodeTypeWithInlineLength reader nodeType) fun value => value.isScalar :=
    onlyGives_ite (onlyGives_decodeRaw hnumber _) (onlyGives_ite (onlyGives_decodeRaw hnumber _) (onlyGives_ite
      (onlyGives_ite (onlyGives_pure rfl) (onlyGives_decodeRaw htext _)) (onlyGives_throw _)))
  exact onlyGives_ite (onlyGives_pure rfl) (onlyGives_ite (onlyGives_pure rfl) (onlyGives_ite (onlyGives_pure rfl)
    (onlyGives_ite (onlyGives_decodeRaw hdate _) (onlyGives_ite (onlyGives_decodeRaw hdate _) (onlyGives_ite
    (onlyGives_decodeRaw hdate _) (onlyGives_ite (onlyGives_decodeRaw (hplain fun _ => rfl) _) (onlyGives_ite
    (onlyGives_decodeRaw (hplain fun _ => rfl) _) (onlyGives_ite (onlyGives_decodeRaw hinterval _) (onlyGives_ite
    (onlyGives_throw _) (onlyGives_ite (onlyGives_decodeSized htext _) (onlyGives_ite (onlyGives_decodeSized htext _)
    (onlyGives_ite (onlyGives_decodeSized htext _) (onlyGives_ite (onlyGives_decodeSized hnumber _) (onlyGives_ite
    (onlyGives_decodeSized (hplain fun _ => rfl) _) (onlyGives_ite (onlyGives_decodeSized (hplain fun _ => rfl) _)
    (onlyGives_ite (onlyGives_decodeSized (hplain fun _ => rfl) _) (onlyGives_ite hextended hinline)))))))))))))))))

private theorem lt_of_readU8 {byte : UInt8} {pos pos' : Nat} (h : reader.readU8 pos = .ok (byte, pos')) :
    pos < reader.data.length := by
  obtain ⟨raw, pos₁, hraw, -⟩ := Seek.bind_eq_ok.1 h
  exact (readRaw_eq_ok hraw).1

end

/-! ### Positions of nodes -/

namespace OsonValue

mutual

/-- The number of nodes of a value. -/
def nodes : OsonValue → Nat
  | .array values => nodesOfValues values + 1
  | .object entries => nodesOfEntries entries + 1
  | _ => 1

def nodesOfValues : List OsonValue → Nat
  | [] => 0
  | value :: values => value.nodes + nodesOfValues values

def nodesOfEntries : List (String × OsonValue) → Nat
  | [] => 0
  | (_, value) :: entries => value.nodes + nodesOfEntries entries

end

theorem nodes_of_isScalar {value : OsonValue} (h : value.isScalar) : value.nodes = 1 := by
  cases value <;> first | rfl | cases h

theorem nodesOfValues_map_snd (entries : List (String × OsonValue)) :
    nodesOfValues (entries.map Prod.snd) = nodesOfEntries entries := by
  induction entries with
  | nil => rfl
  | cons entry entries ih => rw [List.map_cons, nodesOfValues, nodesOfEntries, ih]

end OsonValue

namespace OsonDecoder

variable (decoder : OsonDecoder)

/-- Where the offsets of a container point. -/
def childPositions (nodeType : UInt8) (containerOffset : Nat) : Nat → Nat → OsonRead (List Nat)
  | 0, _ => return []
  | count + 1, offsetsPos => do
    decoder.reader.seekTo offsetsPos
    let offset ← decoder.getOffset nodeType
    let offset ← liftM (decoder.childPosition containerOffset offset)
    let offsetsPos ← get
    let positions ← childPositions nodeType containerOffset count offsetsPos
    return (decoder.treeSegPos + offset) :: positions

/-- The positions of the children of the node that is next; a scalar has none. -/
def childrenOf : OsonRead (List Nat) := do
  let nodeType ← decoder.reader.readU8
  if nodeType &&& 0x80 ≠ 0 then
    let pos ← get
    let (numChildren, _, offsetsPos) ← decoder.containerLayout nodeType
    decoder.childPositions nodeType ((pos - decoder.treeSegPos - 1) % 2 ^ 32) numChildren offsetsPos
  else return []

/-- Where the nodes of a tree begin, each as often as an offset points to it. -/
def nodeStarts : Nat → Nat → List Nat
  | 0, pos => [pos]
  | depth + 1, pos => pos :: ((decoder.childrenOf pos).toOption.elim [] Prod.fst).flatMap (nodeStarts depth)

end OsonDecoder

section

variable {decoder : OsonDecoder}

/-- The children are read at the positions that the offsets give, wherever the reader is. -/
theorem childPositions_of_decodeChildren {child : OsonRead OsonValue} {nodeType : UInt8}
    {containerOffset count fieldIdsPos offsetsPos pos pos' : Nat} {children : List (String × OsonValue)}
    (h : decoder.decodeChildren child nodeType containerOffset count fieldIdsPos offsetsPos pos =
      .ok (children, pos'))
    (start : Nat) : ∃ positions pos'', decoder.childPositions nodeType containerOffset count offsetsPos start =
        .ok (positions, pos'') ∧
      List.Forall₂ (fun entry position => ∃ pos, child position = .ok (entry.2, pos)) children positions := by
  induction count generalizing fieldIdsPos offsetsPos pos children start with
  | zero =>
    cases h
    exact ⟨[], start, rfl, .nil⟩
  | succ count ih =>
    rw [OsonDecoder.decodeChildren] at h
    split at h
    on_goal 1 =>
      obtain ⟨_, _, -, h⟩ := Seek.bind_eq_ok.1 h
      obtain ⟨_, _, -, h⟩ := Seek.bind_eq_ok.1 h
      obtain ⟨_, _, -, h⟩ := Seek.bind_eq_ok.1 h
    all_goals
      obtain ⟨⟨name, fieldIdsPos'⟩, _, -, h⟩ := Seek.bind_eq_ok.1 h
      obtain ⟨_, pos₁, hseek, h⟩ := Seek.bind_eq_ok.1 h
      obtain ⟨offset, pos₂, hoffset, h⟩ := Seek.bind_eq_ok.1 h
      obtain ⟨position, pos₃, hposition, h⟩ := Seek.bind_eq_ok.1 h
      obtain ⟨_, _, hget, h⟩ := Seek.bind_eq_ok.1 h
      cases hget
      obtain ⟨_, pos₄, hgoto, h⟩ := Seek.bind_eq_ok.1 h
      obtain ⟨value, pos₅, hchild, h⟩ := Seek.bind_eq_ok.1 h
      obtain ⟨rest, pos₆, hrest, h⟩ := Seek.bind_eq_ok.1 h
      cases h
      obtain ⟨-, rfl⟩ := seekTo_eq_ok hgoto
      obtain ⟨hwithin, rfl⟩ := seekTo_eq_ok hseek
      obtain ⟨positions, pos'', hpositions, hall⟩ := ih hrest pos₃
      refine ⟨_ :: positions, pos'', ?_, .cons ⟨pos₅, hchild⟩ hall⟩
      rw [OsonDecoder.childPositions, Seek.bind_of_ok (seekTo_of_le hwithin start), Seek.bind_of_ok hoffset,
        Seek.bind_of_ok hposition, Seek.bind_of_ok (get_apply _), Seek.bind_of_ok hpositions]
      rfl

/-- A value has as many nodes as positions are followed, and they are in the image. -/
theorem nodeStarts_of_decodeNode {depth pos pos' : Nat} {value : OsonValue}
    (h : decoder.decodeNode depth pos = .ok (value, pos')) :
    value.nodes = (decoder.nodeStarts depth pos).length ∧
      ∀ start ∈ decoder.nodeStarts depth pos, start < decoder.reader.data.length := by
  induction depth generalizing pos pos' value with
  | zero =>
    obtain ⟨nodeType, pos₁, htype, h⟩ := Seek.bind_eq_ok.1 h
    have hwithin := lt_of_readU8 htype
    split at h
    · cases h
    · rw [OsonValue.nodes_of_isScalar (isScalar_decodeScalar nodeType _ _ _ h)]
      exact ⟨rfl, fun start hstart => List.mem_singleton.1 hstart ▸ hwithin⟩
  | succ depth ih =>
    obtain ⟨nodeType, pos₁, htype, h⟩ := Seek.bind_eq_ok.1 h
    have hwithin := lt_of_readU8 htype
    unfold OsonDecoder.nodeStarts OsonDecoder.childrenOf
    rw [Seek.bind_of_ok htype]
    split at h
    · rename_i hcontainer
      obtain ⟨_, _, hget, h⟩ := Seek.bind_eq_ok.1 h
      cases hget
      obtain ⟨⟨count, fieldIdsPos, offsetsPos⟩, pos₂, hlayout, h⟩ := Seek.bind_eq_ok.1 h
      obtain ⟨_, _, -, h⟩ := Seek.bind_eq_ok.1 h
      obtain ⟨children, pos₃, hchildren, h⟩ := Seek.bind_eq_ok.1 h
      obtain ⟨positions, pos₄, hpositions, hall⟩ := childPositions_of_decodeChildren hchildren pos₂
      have hnodes : OsonValue.nodesOfEntries children = (positions.flatMap (decoder.nodeStarts depth)).length ∧
          ∀ start ∈ positions.flatMap (decoder.nodeStarts depth), start < decoder.reader.data.length := by
        clear hpositions hchildren h
        induction hall with
        | nil => exact ⟨rfl, nofun⟩
        | cons hchild _ ihs =>
          obtain ⟨pos, hchild⟩ := hchild
          obtain ⟨hfirst, hstarts⟩ := ih hchild
          rw [OsonValue.nodesOfEntries, List.flatMap_cons, List.length_append, hfirst, ihs.1]
          exact ⟨rfl, fun start hstart => (List.mem_append.1 hstart).elim (hstarts start) (ihs.2 start)⟩
      have hvalue : value.nodes = OsonValue.nodesOfEntries children + 1 := by
        split at h
        · cases h
          rfl
        · cases h
          rw [OsonValue.nodes, OsonValue.nodesOfValues_map_snd]
      rw [if_pos hcontainer, Seek.bind_of_ok (get_apply _), Seek.bind_of_ok hlayout]
      dsimp only
      rw [hpositions, hvalue, hnodes.1]
      exact ⟨rfl, List.forall_mem_cons.2 ⟨hwithin, hnodes.2⟩⟩
    · rename_i hscalar
      rw [if_neg hscalar, OsonValue.nodes_of_isScalar (isScalar_decodeScalar nodeType _ _ _ h)]
      exact ⟨rfl, fun start hstart => List.mem_singleton.1 hstart ▸ hwithin⟩

end

/-! ### Images -/

/-- Where the nodes of an image begin, each as often as an offset points to it. -/
def imageNodeStarts (image : List UInt8) (limits : ProtocolLimits) : List Nat :=
  (readDecoder ⟨image, limits⟩ 0).toOption.elim [] fun (decoder, pos) => decoder.nodeStarts limits.maxObjectDepth pos

private theorem reader_readDecoder (reader : OsonReader) :
    OnlyGives (readDecoder reader) fun decoder => decoder.reader = reader :=
  onlyGives_bind fun _ => onlyGives_ite
    (onlyGives_bind fun _ => onlyGives_bind fun _ => onlyGives_bind fun _ => onlyGives_pure rfl)
    (onlyGives_bind fun _ => onlyGives_bind fun _ => onlyGives_bind fun _ => onlyGives_bind fun _ =>
      onlyGives_bind fun _ => onlyGives_bind fun _ => onlyGives_bind fun _ => onlyGives_bind fun _ =>
        onlyGives_bind fun _ => onlyGives_pure rfl)

/-- A value has no more nodes than its image has bytes, if no two nodes begin at the same position. -/
theorem nodes_le_of_nodup {image : List UInt8} {limits : ProtocolLimits} {value : OsonValue}
    (h : decodeOsonWithLimits image limits = .ok value) (hdistinct : (imageNodeStarts image limits).Nodup) :
    value.nodes ≤ image.length := by
  obtain ⟨_, -, h⟩ := except_bind_eq_ok.1 h
  obtain ⟨_, -, h⟩ := except_bind_eq_ok.1 h
  obtain ⟨⟨found, pos'⟩, hfound, h⟩ := except_bind_eq_ok.1 h
  cases h
  obtain ⟨decoder, pos, hdecoder, hfound⟩ := Seek.bind_eq_ok.1 hfound
  obtain ⟨hnodes, hwithin⟩ := nodeStarts_of_decodeNode hfound
  rw [reader_readDecoder _ _ _ _ hdecoder] at hwithin
  have hstarts : imageNodeStarts image limits = decoder.nodeStarts limits.maxObjectDepth pos := by
    rw [imageNodeStarts, hdecoder]
    rfl
  rw [hstarts] at hdistinct
  have hsubset : decoder.nodeStarts limits.maxObjectDepth pos ⊆ List.range image.length :=
    fun start hstart => List.mem_range.2 (hwithin start hstart)
  have hle := hdistinct.length_le_of_subset hsubset
  rwa [List.length_range, ← hnodes] at hle

/-- The image of an array whose first element is an array of two. -/
def nestedArrayImage : List UInt8 :=
  [0xff, 0x4a, 0x5a, 1, 0, 0, 0, 0, 0, 0, 15, 0, 0, 0xc0, 2, 0, 6, 0, 14, 0xc0, 2, 0, 12, 0, 13, 0x30, 0x31, 0x32]

theorem nodes_nestedArray :
    decodeOsonWithLimits nestedArrayImage .default = .ok (.array [.array [.null, .bool true], .bool false]) ∧
    (imageNodeStarts nestedArrayImage .default).Nodup ∧
    (OsonValue.array [.array [.null, .bool true], .bool false]).nodes ≤ nestedArrayImage.length := by
  have hdecode :
      decodeOsonWithLimits nestedArrayImage .default = .ok (.array [.array [.null, .bool true], .bool false]) := rfl
  have hdistinct : (imageNodeStarts nestedArrayImage .default).Nodup := by decide
  exact ⟨hdecode, hdistinct, nodes_le_of_nodup hdecode hdistinct⟩

/-- Two arrays of eight offsets, all of the first to the second and all of the second to one null. -/
def sharedImage : List UInt8 :=
  [0xff, 0x4a, 0x5a, 1, 0, 0, 0, 0, 0, 0, 37, 0, 0, 0xc0, 8, 0, 18, 0, 18, 0, 18, 0, 18, 0, 18, 0, 18, 0, 18, 0, 18,
    0xc0,
    8, 0, 36, 0, 36, 0, 36, 0, 36, 0, 36, 0, 36, 0, 36, 0, 36, 0x30]

set_option maxRecDepth 2000 in
theorem nodes_sharedImage : ∃ value, decodeOson sharedImage = .ok value ∧ value.nodes = 73 ∧
    sharedImage.length = 50 :=
  ⟨.array (List.replicate 8 (.array (List.replicate 8 .null))), rfl, rfl, rfl⟩

end OracleThin.Image
