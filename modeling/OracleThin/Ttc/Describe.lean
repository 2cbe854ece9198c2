import OracleThin.Ttc.Functions
import OracleThin.Ttc.Value

/-!
# Column metadata

A DESCRIBE message carries the metadata of the columns of a query. Which fields there are depends on the version of
the server.
-/

namespace OracleThin.Ttc

open Lib Lib.Parser Wire

/-! ### Fields that depend on the version -/

def tnsCcapFieldVersion122 : Nat := 8
def tnsCcapFieldVersion231 : Nat := 17
def tnsCcapFieldVersion231Ext3 : Nat := 20
def tnsCcapFieldVersion234 : Nat := 24

def carriesOaccolid (ttcFieldVersion : Nat) : Bool := tnsCcapFieldVersion122 ≤ ttcFieldVersion
def readsColumnDomain (ttcFieldVersion : Nat) : Bool := tnsCcapFieldVersion231 ≤ ttcFieldVersion
def readsColumnAnnotations (ttcFieldVersion : Nat) : Bool := tnsCcapFieldVersion231Ext3 ≤ ttcFieldVersion
def readsColumnVectorMetadata (ttcFieldVersion : Nat) : Bool := tnsCcapFieldVersion234 ≤ ttcFieldVersion

/-- A field that is there or has a default. -/
def readIf {α : Type} (present : Bool) (field : Read α) (default : α) : Read α :=
  if present then field else return default

/-! ### Metadata of a column -/

def readDomain (reader : TtcReader) : Read (Option String × Option String) := do
  let domainSchema ← reader.readStringWithLength
  let domainName ← reader.readStringWithLength
  return (domainSchema, domainName)

def readAnnotationEntry (reader : TtcReader) : Read (String × String) := do
  let key ← reader.readStringWithLength
  let value ← reader.readStringWithLength
  let _flags ← reader.readUb4
  return (key.getD "", value.getD "")

def readAnnotations (reader : TtcReader) : Read (Option (List (String × String))) := do
  let numAnnotations ← reader.readUb4
  if 0 < numAnnotations then do
    reader.skip 1
    let numAnnotations ← reader.readUb4
    reader.skip 1
    reader.limits.checkObjectElements numAnnotations
    let collected ← Parser.many (readAnnotationEntry reader) numAnnotations
    let _flags ← reader.readUb4
    return some collected
  else return none

structure VectorMetadata where
  dimensions : Nat
  format : UInt8
  flags : UInt8

def readVectorMetadata (reader : TtcReader) : Read (Option VectorMetadata) := do
  let dimensions ← reader.readUb4
  reader.limits.checkVectorDimensions dimensions
  let format ← readU8
  let flags ← readU8
  return some ⟨dimensions, format, flags⟩

/-- The fields at the end of the metadata of a column that newer servers send. -/
structure ColumnExtras where
  domain : Option String × Option String
  annotations : Option (List (String × String))
  vector : Option VectorMetadata

def readColumnExtras (reader : TtcReader) (ttcFieldVersion : Nat) : Read ColumnExtras := do
  let domain ← readIf (readsColumnDomain ttcFieldVersion) (readDomain reader) (none, none)
  let annotations ← readIf (readsColumnAnnotations ttcFieldVersion) (readAnnotations reader) none
  let vector ← readIf (readsColumnVectorMetadata ttcFieldVersion) (readVectorMetadata reader) none
  return ⟨domain, annotations, vector⟩

def tnsUdsFlagsIsJson : Nat := 0x100
def tnsUdsFlagsIsOson : Nat := 0x800

def parseColumnMetadata (reader : TtcReader) (capabilities : ClientCapabilities) : Read ColumnMetadata := do
  let oraTypeNum ← readU8
  reader.skip 1
  let precision ← readI8
  let scale ← readI8
  let bufferSize ← reader.readUb4
  let _maxArrayElements ← reader.readUb4
  let _contFlags ← reader.readUb8
  let _oid ← reader.readBytesWithLength
  let _version ← reader.readUb2
  let _charsetId ← reader.readUb2
  let csfrm ← readU8
  let maxSize ← reader.readUb4
  let _oaccolid ← readIf (carriesOaccolid capabilities.ttcFieldVersion) reader.readUb4 0
  let nullsAllowed ← readU8
  reader.skip 1
  let name ← reader.readStringWithLength
  let objectSchema ← reader.readStringWithLength
  let objectTypeName ← reader.readStringWithLength
  let _columnPosition ← reader.readUb2
  let udsFlags ← reader.readUb4
  let extras ← readColumnExtras reader capabilities.ttcFieldVersion
  return {
    oraTypeNum, csfrm, precision, scale, bufferSize, objectSchema, objectTypeName
    name := name.getD ""
    maxSize := if oraTypeNum = oraTypeNumRaw then bufferSize else maxSize
    nullsAllowed := nullsAllowed ≠ 0
    isJson := udsFlags &&& tnsUdsFlagsIsJson ≠ 0
    isOson := udsFlags &&& tnsUdsFlagsIsOson ≠ 0
    vectorDimensions := if oraTypeNum = oraTypeNumVector then extras.vector.map VectorMetadata.dimensions else none
    vectorFormat := extras.vector.elim 0 VectorMetadata.format
    vectorFlags := extras.vector.elim 0 VectorMetadata.flags
    domainSchema := extras.domain.1
    domainName := extras.domain.2
    annotations := extras.annotations }

/-! ### DESCRIBE -/

def parseDescribeInfo (reader : TtcReader) (capabilities : ClientCapabilities) : Read (List ColumnMetadata) := do
  let _maxRowSize ← reader.readUb4
  let numColumns ← reader.readUb4
  reader.limits.checkColumns numColumns
  (if 0 < numColumns then reader.skip 1 else pure ())
  let columns ← Parser.many (parseColumnMetadata reader capabilities) numColumns
  let _currentDate ← reader.readBytesWithLength
  let _dcbflag ← reader.readUb4
  let _dcbmdbz ← reader.readUb4
  let _dcbmnpr ← reader.readUb4
  let _dcbmxpr ← reader.readUb4
  let _dcbqcky ← reader.readBytesWithLength
  return columns

def tnsMaxLongLength : Nat := 0x7fffffff

/-- A column that has become a CLOB or BLOB and was fetched as text or bytes before is streamed as LONG or LONG RAW.
The second component says whether this is so. -/
def adjustRefetchMetadata (previous current : ColumnMetadata) : ColumnMetadata × Bool :=
  if current.oraTypeNum = oraTypeNumClob ∧
      (previous.oraTypeNum = oraTypeNumChar ∨ previous.oraTypeNum = oraTypeNumLong ∨
        previous.oraTypeNum = oraTypeNumVarchar) then
    ({ current with
      oraTypeNum := oraTypeNumLong, csfrm := previous.csfrm, bufferSize := tnsMaxLongLength, maxSize := 0 }, true)
  else if current.oraTypeNum = oraTypeNumBlob ∧
      (previous.oraTypeNum = oraTypeNumRaw ∨ previous.oraTypeNum = oraTypeNumLongRaw) then
    ({ current with oraTypeNum := oraTypeNumLongRaw, csfrm := 0, bufferSize := tnsMaxLongLength, maxSize := 0 }, true)
  else (current, false)

/-- Adjusts the columns that were there before. -/
def adjustColumns : List ColumnMetadata → List ColumnMetadata → List (ColumnMetadata × Bool)
  | previous :: previouses, current :: currents =>
    adjustRefetchMetadata previous current :: adjustColumns previouses currents
  | [], currents => currents.map (·, false)
  | _, [] => []

/-! ### On a prefix -/

section

variable {reader : TtcReader}

private theorem lenient_readIf {α : Type} (present : Bool) {q p : Read α} (h : Lenient reader q p) (default : α) :
    Lenient reader (readIf present q default) (readIf present p default) := by
  cases present with
  | true => exact h
  | false => exact .pure default

instance tracks_readIf {α : Type} {strict : Prop} {lax : α → Prop} (present : Bool) {q p : Read α}
    [h : Tracks IsDecode strict lax q p] (default : α) :
    Tracks IsDecode strict lax (readIf present q default) (readIf present p default) := by
  cases present with
  | true => exact h
  | false => exact tracks_pure default

private theorem lenient_readDomain : Lenient reader (readDomain reader) (readDomain reader.driver) := by
  refine ⟨?_, starved_of_eq rfl⟩
  refine loose_readStringWithLength.bind_lax (fun _ => ?_) fun _ _ _ => starved_of_eq rfl
  exact loose_readStringWithLength.bind_lax (fun _ => tracks_pure _) fun _ _ _ => Or.inr ⟨_, trivial, rfl⟩

set_option synthInstance.maxSize 1000 in
instance firm_readAnnotations : Firm reader readAnnotations := by
  have hannotation : Firm reader readAnnotationEntry := by
    refine loose_readStringWithLength.bind_lax (fun _ => ?_) fun _ _ _ => starved_of_eq rfl
    exact loose_readStringWithLength.bind_lax (fun _ => inferInstance) fun _ _ _ => starved_of_eq rfl
  unfold readAnnotations
  infer_instance

instance firm_readVectorMetadata : Firm reader readVectorMetadata := by
  unfold readVectorMetadata
  infer_instance

private theorem lenient_readColumnExtras (version : Nat) :
    Lenient reader (readColumnExtras reader version) (readColumnExtras reader.driver version) := by
  refine (lenient_readIf _ lenient_readDomain _).bind fun _ => ?_
  refine (lenient_readIf _ ⟨firm_readAnnotations.weaken, starved_of_eq rfl⟩ _).bind fun _ => ?_
  exact (lenient_readIf _ ⟨firm_readVectorMetadata.weaken, starved_of_eq rfl⟩ _).bind fun _ => .pure _

private theorem lenient_parseColumnMetadata (capabilities : ClientCapabilities) :
    Lenient reader (parseColumnMetadata reader capabilities) (parseColumnMetadata reader.driver capabilities) := by
  refine ⟨?_, starved_of_eq rfl⟩
  iterate 7 refine Tracks.bind inferInstance fun _ => ?_
  refine loose_readBytesWithLength.bind_lax (fun _ => ?_) fun _ _ _ => starved_of_eq rfl
  iterate 7 refine Tracks.bind inferInstance fun _ => ?_
  refine loose_readStringWithLength.bind_lax (fun _ => ?_) fun _ _ _ => starved_of_eq rfl
  refine loose_readStringWithLength.bind_lax (fun _ => ?_) fun _ _ _ => starved_of_eq rfl
  refine loose_readStringWithLength.bind_lax (fun _ => ?_) fun _ _ _ => starved_of_eq rfl
  iterate 2 refine Tracks.bind inferInstance fun _ => ?_
  exact ((lenient_readColumnExtras _).bind fun _ => .pure _).loose

theorem loose_parseDescribeInfo (capabilities : ClientCapabilities) :
    Loose reader (parseDescribeInfo · capabilities) := by
  have hcolumn : Lenient reader (parseColumnMetadata reader capabilities) _ :=
    lenient_parseColumnMetadata capabilities
  refine Tracks.bind inferInstance fun _ => Tracks.bind inferInstance fun n => ?_
  iterate 2 refine Tracks.bind inferInstance fun _ => ?_
  refine (tracks_many_lax hcolumn.loose (fun _ => hcolumn.nil) n).1.bind_lax (fun _ => ?_)
    fun _ _ _ => starved_of_eq rfl
  refine loose_readBytesWithLength.bind_lax (fun _ => ?_) fun _ _ _ => starved_of_eq rfl
  iterate 4 refine Tracks.bind inferInstance fun _ => ?_
  exact loose_readBytesWithLength.return _

end

end OracleThin.Ttc
