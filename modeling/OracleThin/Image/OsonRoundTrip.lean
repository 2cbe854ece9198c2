import OracleThin.Image.OsonImage

/-!
# OSON round trip

An image that the encoder makes is decoded to the value again when every size in it fits its field, the wire form of
every number fits, every vector can be counted and every interval is in hours, minutes and seconds of one sign. In all
other cases decoding fails or gives another value.
-/

namespace OracleThin.Image

open Lib Wire Ttc Seek

variable {value : OsonValue} {limits : ProtocolLimits}

/-! ### Values that are the same -/

namespace OsonValue

mutual

/-- The two values are the same, with the members of objects in any order. -/
def Same : OsonValue → OsonValue → Prop
  | .array values, other => ∃ others, other = .array others ∧ SameValues values others
  | .object entries, other => ∃ others, other = .object others ∧ SameEntries entries others
  | value, other => other = value

def SameValues : List OsonValue → List OsonValue → Prop
  | [], others => others = []
  | value :: values, others => ∃ other rest, others = other :: rest ∧ value.Same other ∧ SameValues values rest

def SameEntries : List (String × OsonValue) → List (String × OsonValue) → Prop
  | [], others => others = []
  | (key, value) :: entries, others => ∃ front other back,
    others = front ++ (key, other) :: back ∧ value.Same other ∧ SameEntries entries (front ++ back)

end

theorem same_refl (value : OsonValue) : value.Same value := by
  induction value using ind (Q := fun values => SameValues values values)
    (R := fun entries => SameEntries entries entries)
    with
  | scalar value hvalue => cases value <;> first | rfl | cases hvalue
  | array values ih | object values ih => exact ⟨values, rfl, ih⟩
  | nil | none => rfl
  | cons value values ih ihs => exact ⟨value, values, rfl, ih, ihs⟩
  | entry key value entries ih ihs => exact ⟨[], value, entries, rfl, ih, ihs⟩

theorem leavesOfEntries_append (front back : List (String × OsonValue)) :
    leavesOfEntries (front ++ back) = leavesOfEntries front ++ leavesOfEntries back := by
  induction front with
  | nil => rfl
  | cons entry front ih => rw [List.cons_append, leavesOfEntries, leavesOfEntries, ih, List.append_assoc]

/-- Values that are the same have the same scalars. -/
theorem Same.leaves {value other : OsonValue} (h : value.Same other) : value.leaves.Perm other.leaves := by
  induction value using ind
    (Q := fun values => ∀ others, SameValues values others → (leavesOfValues values).Perm (leavesOfValues others))
    (R := fun entries => ∀ others, SameEntries entries others →
      (leavesOfEntries entries).Perm (leavesOfEntries others))
    generalizing other with
  | scalar value hvalue =>
    have hother : other = value := by
      cases value <;> first | exact h | cases hvalue
    rw [hother]
  | array values ih | object values ih =>
    obtain ⟨others, rfl, h⟩ := h
    exact ih others h
  | nil others h | none others h =>
    cases h
    exact List.Perm.refl _
  | cons value values ih ihs others h =>
    obtain ⟨other, rest, rfl, hvalue, hrest⟩ := h
    exact (ih hvalue).append (ihs rest hrest)
  | entry key value entries ih ihs others h =>
    obtain ⟨front, other, back, rfl, hvalue, hrest⟩ := h
    have hleft := (ih hvalue).append (ihs _ hrest)
    rw [leavesOfEntries_append] at hleft
    rw [leavesOfEntries_append]
    exact hleft.trans (List.perm_append_comm_assoc _ _ _)

end OsonValue

/-! ### Intervals -/

/-- Hours, minutes and seconds of one sign whose sum in seconds is a 32-bit integer. -/
def IsNormalInterval (hours minutes seconds : Int) : Prop :=
  (-2 ^ 31 ≤ hours * 3600 + minutes * 60 + seconds ∧ hours * 3600 + minutes * 60 + seconds < 2 ^ 31) ∧
    (0 ≤ hours ∧ 0 ≤ minutes ∧ minutes < 60 ∧ 0 ≤ seconds ∧ seconds < 60 ∨
      hours ≤ 0 ∧ -60 < minutes ∧ minutes ≤ 0 ∧ -60 < seconds ∧ seconds ≤ 0)

instance (hours minutes seconds : Int) : Decidable (IsNormalInterval hours minutes seconds) :=
  inferInstanceAs (Decidable (_ ∧ _))

/-- The parts of a sum in seconds have its sign. -/
theorem parts_of_total (total : Int) :
    0 ≤ total ∧ total.tdiv 3600 = total / 3600 ∧ (total.tmod 3600).tdiv 60 = total % 3600 / 60 ∧
      total.tmod 60 = total % 60 ∨
    total < 0 ∧ total.tdiv 3600 = -(-total / 3600) ∧ (total.tmod 3600).tdiv 60 = -(-total % 3600 / 60) ∧
      total.tmod 60 = -(-total % 60) := by
  by_cases hsign : 0 ≤ total
  · have hmod : 0 ≤ total % 3600 := Int.emod_nonneg _ (by decide)
    rw [Int.tdiv_eq_ediv_of_nonneg hsign, Int.tmod_eq_emod_of_nonneg hsign, Int.tmod_eq_emod_of_nonneg hsign,
      Int.tdiv_eq_ediv_of_nonneg hmod]
    exact Or.inl ⟨hsign, rfl, rfl, rfl⟩
  · obtain ⟨opposite, rfl⟩ : ∃ opposite, total = -opposite := ⟨-total, by omega⟩
    have hopposite : 0 ≤ opposite := by omega
    have hmod : 0 ≤ opposite % 3600 := Int.emod_nonneg _ (by decide)
    rw [Int.neg_tdiv, Int.neg_tmod, Int.neg_tmod, Int.neg_tdiv, Int.tdiv_eq_ediv_of_nonneg hopposite,
      Int.tmod_eq_emod_of_nonneg hopposite, Int.tmod_eq_emod_of_nonneg hopposite, Int.tdiv_eq_ediv_of_nonneg hmod,
        neg_neg]
    exact Or.inr ⟨by omega, rfl, rfl, rfl⟩

private theorem isNormalInterval_parts {total : Int} (hlow : -2 ^ 31 ≤ total) (hhigh : total < 2 ^ 31) :
    IsNormalInterval (total.tdiv 3600) ((total.tmod 3600).tdiv 60) (total.tmod 60) := by
  unfold IsNormalInterval
  rcases parts_of_total total with ⟨hsign, hhours, hminutes, hseconds⟩ | ⟨hsign, hhours, hminutes, hseconds⟩
  · omega
  · omega

private theorem parts_of_isNormalInterval {hours minutes seconds : Int} (h : IsNormalInterval hours minutes seconds) :
    (totalSeconds hours minutes seconds).tdiv 3600 = hours ∧
      ((totalSeconds hours minutes seconds).tmod 3600).tdiv 60 = minutes ∧
      (totalSeconds hours minutes seconds).tmod 60 = seconds := by
  obtain ⟨⟨hlow, hhigh⟩, hsigns⟩ := h
  have htotal : totalSeconds hours minutes seconds = hours * 3600 + minutes * 60 + seconds :=
    Int.bmod_eq_of_le (by omega) (by omega)
  rw [htotal]
  rcases parts_of_total (hours * 3600 + minutes * 60 + seconds) with
    ⟨hsign, hhours, hminutes, hseconds⟩ | ⟨hsign, hhours, hminutes, hseconds⟩
  · omega
  · omega

/-! ### Scalars that are kept -/

/-- The wire form of a scalar says all that there is to say of it. -/
def OsonValue.IsKept : OsonValue → Prop
  | .number text => ¬IsOverlongNumber text
  | .intervalDS _ hours minutes seconds _ => IsNormalInterval hours minutes seconds
  | .vector found => found.dimensions < 2 ^ 32
  | _ => True

private theorem decodeEmbeddedVector_eq_ok {bytes : List UInt8} :
    decodeEmbeddedVector limits bytes = .ok value ↔
      ∃ vector, decodeVectorWithLimits bytes limits = .ok vector ∧ value = .vector vector := by
  unfold decodeEmbeddedVector
  cases decodeVectorWithLimits bytes limits with
  | error e => simp
  | ok vector => simp [eq_comm]

private theorem decodeNumber_eq_ok {bytes : List UInt8} (h : decodeNumber bytes = .ok value) :
    ∃ text, value = .number text := by
  rw [decodeNumber_eq] at h
  obtain ⟨found, -, rfl⟩ := except_map_eq_ok.1 h
  exact ⟨found.1, rfl⟩

/-- A scalar that is kept comes back. -/
theorem rereadScalar_of_isKept {node : List UInt8}
    (h : encodeScalar value = .ok node) (hnumber : ∀ text, value = .number text → IsNormalNumber text)
    (hvector : ∀ vector image, value = .vector vector → encodeVectorChecked vector = .ok image →
      vector.Within image limits) (hkept : value.IsKept) :
    rereadScalar limits value = .ok value := by
  cases value with
  | number text =>
    rw [encodeScalar] at h
    split at h
    · rename_i wire hwire
      rw [rereadScalar, hwire]
      exact (decodeNumber_encodeNumberText (hnumber text rfl) hwire).1 hkept
    · cases h
  | intervalDS days hours minutes seconds fseconds =>
    obtain ⟨hhours, hminutes, hseconds⟩ := parts_of_isNormalInterval hkept
    simp only [rereadScalar, hhours, hminutes, hseconds]
  | vector vector =>
    obtain ⟨image, himage, -⟩ := except_bind_eq_ok.1 h
    have hdecode := decodeVectorWithLimits_of_dimensions_lt himage (hvector vector image rfl himage) hkept
    rw [rereadScalar, himage]
    exact decodeEmbeddedVector_eq_ok.2 ⟨vector, hdecode, rfl⟩
  | null | bool _ | binaryFloat _ | binaryDouble _ | string _ | raw _ | dateTime _ | array _ | object _ => rfl

/-- The wire form of a number that is read back is not too long. -/
theorem not_isOverlongNumber_of_rereadScalar {text : String}
    (hnormal : IsNormalNumber text) (h : rereadScalar limits (.number text) = .ok value) :
    ¬IsOverlongNumber text := by
  obtain ⟨wire, hwire, h⟩ := except_bind_eq_ok.1 h
  exact fun hlong => (decodeNumber_encodeNumberText hnormal hwire).2 hlong value h

/-- What is read back is a scalar, and kept unless it is a number. -/
theorem rereadScalar_eq_ok {value found : OsonValue} (hvalue : value.isScalar)
    (h : rereadScalar limits value = .ok found) : found.isScalar ∧ (found.IsKept ∨ ∃ text, found = .number text) := by
  cases value with
  | number text =>
    obtain ⟨wire, -, h⟩ := except_bind_eq_ok.1 h
    obtain ⟨text', rfl⟩ := decodeNumber_eq_ok h
    exact ⟨rfl, Or.inr ⟨text', rfl⟩⟩
  | intervalDS days hours minutes seconds fseconds =>
    cases h
    have hlow := Int.le_bmod (x := hours * 3600 + minutes * 60 + seconds) (show 0 < 2 ^ 32 by decide)
    have hhigh := Int.bmod_lt (x := hours * 3600 + minutes * 60 + seconds) (show 0 < 2 ^ 32 by decide)
    exact ⟨rfl, Or.inl (isNormalInterval_parts (by unfold totalSeconds; omega) (by unfold totalSeconds; omega))⟩
  | vector vector =>
    obtain ⟨image, -, h⟩ := except_bind_eq_ok.1 h
    obtain ⟨vector', hvector, rfl⟩ := decodeEmbeddedVector_eq_ok.1 h
    exact ⟨rfl, Or.inl (dimensions_lt_of_decodeVectorWithLimits hvector)⟩
  | array _ | object _ => cases hvalue
  | null | bool _ | binaryFloat _ | binaryDouble _ | string _ | raw _ | dateTime _ =>
    cases h
    exact ⟨rfl, Or.inl trivial⟩

/-! ### Trees that are kept -/

namespace OsonValue

theorem leaves_of_isScalar (h : value.isScalar) : value.leaves = [value] := by
  cases value <;> first | rfl | cases h

theorem isScalar_of_mem_leaves {value leaf : OsonValue} (h : leaf ∈ value.leaves) : leaf.isScalar := by
  induction value using ind (Q := fun values => leaf ∈ leavesOfValues values → leaf.isScalar)
    (R := fun entries => leaf ∈ leavesOfEntries entries → leaf.isScalar) with
  | scalar value hvalue =>
    rw [leaves_of_isScalar hvalue, List.mem_singleton] at h
    rwa [h]
  | array values ih | object values ih => exact ih h
  | nil h | none h => cases h
  | cons value values ih ihs h | entry _ value values ih ihs h => exact (List.mem_append.1 h).elim ih ihs

theorem leaves_of_rereadScalar {value found : OsonValue} (hvalue : value.isScalar)
    (h : rereadScalar limits value = .ok found) :
    List.Forall₂ (fun leaf leaf' => rereadScalar limits leaf = .ok leaf') value.leaves found.leaves := by
  rw [leaves_of_isScalar hvalue, leaves_of_isScalar (rereadScalar_eq_ok hvalue h).1]
  exact List.Forall₂.cons h List.Forall₂.nil

/-- The scalars of what comes back are the scalars as they come back. -/
theorem leaves_of_reread {value found : OsonValue} (h : value.reread limits = .ok found) :
    List.Forall₂ (fun leaf leaf' => rereadScalar limits leaf = .ok leaf') value.leaves found.leaves := by
  induction value using ind
    (Q := fun values => ∀ others, rereadValues limits values = .ok others → List.Forall₂
      (fun leaf leaf' => rereadScalar limits leaf = .ok leaf') (leavesOfValues values) (leavesOfValues others))
    (R := fun entries => ∀ others, rereadEntries limits entries = .ok others → List.Forall₂
      (fun leaf leaf' => rereadScalar limits leaf = .ok leaf') (leavesOfEntries entries) (leavesOfEntries others))
    generalizing found with
  | scalar value hvalue => exact leaves_of_rereadScalar hvalue ((reread_of_isScalar hvalue).symm.trans h)
  | array values ih | object values ih =>
    obtain ⟨others, hothers, rfl⟩ := except_map_eq_ok.1 h
    exact ih others hothers
  | nil others h | none others h =>
    cases h
    exact List.Forall₂.nil
  | cons value values ih ihs others h | entry _ value values ih ihs others h =>
    obtain ⟨other, hother, h⟩ := except_bind_eq_ok.1 h
    obtain ⟨rest, hrest, h⟩ := except_bind_eq_ok.1 h
    cases h
    exact List.rel_append (ih hother) (ihs rest hrest)

/-- If every scalar comes back, the value does. -/
theorem reread_of_leaves (h : ∀ leaf ∈ value.leaves, rereadScalar limits leaf = .ok leaf) :
    value.reread limits = .ok value := by
  induction value using ind
    (Q := fun values => (∀ leaf ∈ leavesOfValues values, rereadScalar limits leaf = .ok leaf) →
      rereadValues limits values = .ok values)
    (R := fun entries => (∀ leaf ∈ leavesOfEntries entries, rereadScalar limits leaf = .ok leaf) →
      rereadEntries limits entries = .ok entries) with
  | scalar value hvalue =>
    rw [leaves_of_isScalar hvalue] at h
    exact (reread_of_isScalar hvalue).trans (h _ (List.mem_singleton_self _))
  | array values ih | object values ih =>
    rw [reread, ih h]
    rfl
  | nil | none => rfl
  | cons value values ih ihs h =>
    rw [rereadValues, ih fun leaf hleaf => h leaf (List.mem_append_left _ hleaf),
      ihs fun leaf hleaf => h leaf (List.mem_append_right _ hleaf)]
    rfl
  | entry key value entries ih ihs h =>
    rw [rereadEntries, ih fun leaf hleaf => h leaf (List.mem_append_left _ hleaf),
      ihs fun leaf hleaf => h leaf (List.mem_append_right _ hleaf)]
    rfl

/-- Every scalar of a value that is encoded has a node. -/
theorem encodeScalar_of_mem_leaves {encoder : OsonEncoder} {value leaf : OsonValue} {start : Nat} {node : List UInt8}
    (h : encodeNode encoder start value = .ok node) (hleaf : leaf ∈ value.leaves) :
    ∃ node', encodeScalar leaf = .ok node' := by
  induction value using ind
    (Q := fun values => ∀ start children, encodeElements encoder start values = .ok children →
      leaf ∈ leavesOfValues values → ∃ node', encodeScalar leaf = .ok node')
    (R := fun entries => ∀ start children, encodeEntries encoder start entries = .ok children →
      leaf ∈ leavesOfEntries entries → ∃ node', encodeScalar leaf = .ok node') generalizing start node with
  | scalar value hvalue =>
    rw [leaves_of_isScalar hvalue, List.mem_singleton] at hleaf
    rw [hleaf]
    exact ⟨node, (encodeNode_of_isScalar hvalue start).symm.trans h⟩
  | array values ih | object values ih =>
    obtain ⟨children, hchildren, -⟩ := except_bind_eq_ok.1 h
    exact ih _ children hchildren hleaf
  | nil start children h hleaf | none start children h hleaf => cases hleaf
  | cons value values ih ihs start children h hleaf =>
    obtain ⟨node, hnode, h⟩ := except_bind_eq_ok.1 h
    obtain ⟨later, hlater, -⟩ := except_bind_eq_ok.1 h
    exact (List.mem_append.1 hleaf).elim (ih hnode) (ihs _ later hlater)
  | entry key value entries ih ihs start children h hleaf =>
    rw [encodeEntries] at h
    split at h
    · cases h
    · obtain ⟨node, hnode, h⟩ := except_bind_eq_ok.1 h
      obtain ⟨later, hlater, -⟩ := except_bind_eq_ok.1 h
      exact (List.mem_append.1 hleaf).elim (ih hnode) (ihs _ later hlater)

end OsonValue

/-! ### Round trip -/

/-- A value is within the limits of the decoder. -/
structure OsonValue.Within (value : OsonValue) (image : List UInt8) (limits : ProtocolLimits) : Prop where
  valid : limits.validate = .ok ()
  bytes : image.length ≤ limits.maxResponseBytes
  names : value.names.length ≤ limits.maxObjectElements
  depth : value.depth ≤ limits.maxObjectDepth
  breadth : value.breadth ≤ limits.maxObjectElements
  vectors : ∀ vector vectorImage, .vector vector ∈ value.leaves → encodeVectorChecked vector = .ok vectorImage →
    vector.Within vectorImage limits

section

variable {supportsLongFnames : Bool} {image : List UInt8}

private theorem encodeScalar_of_encodeOson (h : encodeOson value supportsLongFnames = .ok image) {leaf : OsonValue}
    (hleaf : leaf ∈ value.leaves) : ∃ node, encodeScalar leaf = .ok node := by
  obtain ⟨⟨flags, encoder⟩, -, h⟩ := except_bind_eq_ok.1 h
  obtain ⟨tree, htree, -⟩ := except_bind_eq_ok.1 h
  exact OsonValue.encodeScalar_of_mem_leaves htree hleaf

private theorem decodeOsonWithLimits_eq_ok_iff (hvalid : limits.validate = .ok ())
    (hmax : image.length ≤ limits.maxResponseBytes) {decoded : OsonValue} :
    decodeOsonWithLimits image limits = .ok decoded ↔ ∃ pos, decodeImage ⟨image, limits⟩ 0 = .ok (decoded, pos) := by
  rw [decodeOsonWithLimits, ProtocolLimits.checkResponseBytes, ProtocolLimits.check_eq_ok hmax, hvalid]
  cases decodeImage ⟨image, limits⟩ 0 with
  | error e => simp [bind, Except.bind]
  | ok found => simp [bind, Except.bind, pure, Except.pure, Prod.ext_iff]

/-- The image of a value with numbers in normal form is decoded to the same value, with the members of objects as in a
map, exactly when all its sizes fit and all its scalars are kept. -/
theorem decodeOson_encodeOson_iff (h : encodeOson value supportsLongFnames = .ok image)
    (hnumbers : ∀ text, .number text ∈ value.leaves → IsNormalNumber text) (hwithin : value.Within image limits) :
    (∃ decoded, decodeOsonWithLimits image limits = .ok decoded ∧ value.Same decoded) ↔
      value.Fits ∧ ∀ leaf ∈ value.leaves, leaf.IsKept := by
  obtain ⟨hvalid, hmax, hnames, hdepth, hbreadth, hvectors⟩ := hwithin
  constructor
  · rintro ⟨decoded, hdecoded, hsame⟩
    obtain ⟨pos, hfound⟩ := (decodeOsonWithLimits_eq_ok_iff hvalid hmax).1 hdecoded
    have hfits := fits_of_decodeImage h hmax hfound
    have hreread : value.reread limits = .ok decoded := by
      have hgives := gives_encodeOson h hmax hfits hnames hdepth hbreadth
      rw [Gives, hfound] at hgives
      exact hgives.symm
    have hleaves := OsonValue.leaves_of_reread hreread
    refine ⟨hfits, fun leaf hleaf => ?_⟩
    -- a scalar of the value is one that came back, since the two values have the same scalars
    obtain ⟨origin, horigin, hback⟩ := exists_left_of_forall₂ hleaves (hsame.leaves.subset hleaf)
    rcases (rereadScalar_eq_ok (OsonValue.isScalar_of_mem_leaves horigin) hback).2 with hkept | ⟨text, rfl⟩
    · exact hkept
    · obtain ⟨found, -, hfound⟩ := exists_right_of_forall₂ hleaves hleaf
      exact not_isOverlongNumber_of_rereadScalar (hnumbers text hleaf) hfound
  · rintro ⟨hfits, hkept⟩
    have hreread : value.reread limits = .ok value := OsonValue.reread_of_leaves fun leaf hleaf => by
      obtain ⟨node, hnode⟩ := encodeScalar_of_encodeOson h hleaf
      exact rereadScalar_of_isKept hnode (fun text htext => hnumbers text (htext ▸ hleaf))
        (fun vector vectorImage hvector => hvectors vector vectorImage (hvector ▸ hleaf)) (hkept leaf hleaf)
    have hgives := gives_encodeOson h hmax hfits hnames hdepth hbreadth
    rw [hreread] at hgives
    obtain ⟨found, hfound, hvalue⟩ := except_map_eq_ok.1 hgives
    exact ⟨value, (decodeOsonWithLimits_eq_ok_iff hvalid hmax).2 ⟨found.2, hvalue ▸ hfound⟩,
      OsonValue.same_refl value⟩

end

/-- A value with an object in an array in an object. -/
def nestedValue : OsonValue :=
  .object [("a", .array [.intervalDS 1 2 30 0 0, .number "12.5", .object [("a", .null)]])]

def nestedImage : List UInt8 :=
  [255, 74, 90, 1, 33, 2, 1, 0, 2, 0, 46, 0, 0, 44, 0, 0, 1, 97, 164, 1, 1, 0, 0, 0, 7, 224, 3, 0, 0, 0, 21, 0, 0, 0,
    33,
    0, 0, 0, 38, 62, 128, 0, 0, 1, 62, 90, 60, 128, 0, 0, 0, 52, 3, 193, 13, 51, 164, 1, 1, 0, 0, 0, 45, 48]

private theorem encodeOson_nestedValue : encodeOson nestedValue true = .ok nestedImage := by
  have hseg : shortSegment ["a"] = ⟨[1, 97], [{ plainName "a" with fieldId := 1 }], 1⟩ := by
    rw [shortSegment, FieldNamesSegment.processFieldNames,
      show (segmentOf (List.filter isShortName ["a"])).fieldNames = [plainName "a"] from rfl,
        List.mergeSort_singleton]
    rfl
  have hflags : OsonEncoder.determineFlags { maxFnameSize := 65535 } nestedValue =
      .ok ((numbered 65535 ["a"]).syncFieldIds.namesFlags.1, { (numbered 65535 ["a"]).syncFieldIds with
        fieldIdSize := (numbered 65535 ["a"]).syncFieldIds.namesFlags.2 }) := by
    rw [← processLong_collected]
    rfl
  have hnumbered : numbered 65535 ["a"] =
      ⟨[plainName "a"], some ⟨[1, 97], [{ plainName "a" with fieldId := 1 }], 1⟩, none, 1, 1, 65535⟩ := by
    rw [numbered, hseg]
    rfl
  unfold encodeOson OsonEncoder.encode
  rw [show (if true then maxFnameSizeLong else maxFnameSizeShort) = 65535 from rfl, hflags, hnumbered]
  rfl

theorem decodeOson_nestedValue : encodeOson nestedValue true = .ok nestedImage ∧
    ∃ decoded, decodeOsonWithLimits nestedImage .default = .ok decoded ∧ nestedValue.Same decoded := by
  have hleaves : nestedValue.leaves = [.intervalDS 1 2 30 0 0, .number "12.5", .null] := rfl
  have hnumbers : ∀ text, .number text ∈ nestedValue.leaves → IsNormalNumber text := fun text htext => by
    obtain rfl : text = "12.5" := by simpa [hleaves] using htext
    decide
  have hwithin : nestedValue.Within nestedImage .default :=
    ⟨by decide, by decide, by decide, by decide, by decide, fun vector _ hvector => by simp [hleaves] at hvector⟩
  refine ⟨encodeOson_nestedValue, (decodeOson_encodeOson_iff encodeOson_nestedValue hnumbers hwithin).2 ⟨?_, ?_⟩⟩
  · exact ⟨by decide, by decide, by decide⟩
  · intro leaf hleaf
    rw [hleaves] at hleaf
    simp only [List.mem_cons, List.not_mem_nil, or_false] at hleaf
    rcases hleaf with rfl | rfl | rfl
    · show IsNormalInterval 2 30 0
      decide
    · rintro ⟨parts, hparts, hlong⟩
      cases hparts
      exact absurd hlong (by decide)
    · trivial

/-- Ninety minutes come back as an hour and a half. -/
theorem decodeOson_ninetyMinutes_ne : ∃ image, encodeOson (.intervalDS 0 0 90 0 0) true = .ok image ∧
    decodeOsonWithLimits image .default = .ok (.intervalDS 0 1 30 0 0) ∧
    ¬(OsonValue.intervalDS 0 0 90 0 0).Same (.intervalDS 0 1 30 0 0) :=
  ⟨_, rfl, rfl, fun h => by cases h⟩

end OracleThin.Image
