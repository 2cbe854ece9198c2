import OracleThin.Lib.Bytes

/-!
# Writing TTC messages

Each `write_*` method of the writer appends bytes to a buffer; here it is the list of the bytes it appends. The
unsigned numbers are written with a length byte and as many bytes as they need.
-/

namespace OracleThin.Ttc

open Lib

def tnsMsgTypeFunction : UInt8 := 3
def tnsMsgTypePiggyback : UInt8 := 17

def tnsFuncCommit : UInt8 := 14
def tnsFuncCloseCursors : UInt8 := 105
def tnsFuncPipelineBegin : UInt8 := 199
def tnsFuncPipelineEnd : UInt8 := 200

def tnsCcapFieldVersion231Ext1 : Nat := 18

def writesPipelineToken (ttcFieldVersion : Nat) : Bool := tnsCcapFieldVersion231Ext1 ≤ ttcFieldVersion

def writeUb2 (value : Nat) : List UInt8 :=
  if value = 0 then [0]
  else if value ≤ 0xff then 1 :: toBe 1 value
  else 2 :: toBe 2 value

def writeUb4 (value : Nat) : List UInt8 :=
  if value ≤ 0xffff then writeUb2 value else 4 :: toBe 4 value

def writeUb8 (value : Nat) : List UInt8 :=
  if value ≤ 0xffffffff then writeUb4 value else 8 :: toBe 8 value

def writeFunctionCodeWithSeq (functionCode seqNum : UInt8) : List UInt8 := [tnsMsgTypeFunction, functionCode, seqNum]

def writePiggybackHeader (functionCode seqNum : UInt8) (ttcFieldVersion : Nat) : List UInt8 :=
  [tnsMsgTypePiggyback, functionCode, seqNum] ++ if writesPipelineToken ttcFieldVersion then writeUb8 0 else []

/-! ### Messages -/

def buildCloseCursorsPiggyback (cursorIds : List Nat) (seqNum : UInt8) (ttcFieldVersion : Nat) : List UInt8 :=
  writePiggybackHeader tnsFuncCloseCursors seqNum ttcFieldVersion ++ [1] ++
    writeUb4 (min cursorIds.length 0xffffffff) ++ cursorIds.flatMap writeUb4

def buildBeginPipelinePiggyback (seqNum : UInt8) (tokenNum : Nat) (pipelineMode : UInt8) : List UInt8 :=
  [tnsMsgTypePiggyback, tnsFuncPipelineBegin, seqNum] ++ writeUb8 tokenNum ++ writeUb2 0 ++ [0, pipelineMode]

def buildEndPipelinePayloadWithSeq (seqNum : UInt8) : List UInt8 :=
  writeFunctionCodeWithSeq tnsFuncPipelineEnd seqNum ++ writeUb8 0 ++ writeUb4 0

def buildFunctionPayloadWithSeqAndToken (functionCode seqNum : UInt8) (tokenNum ttcFieldVersion : Nat) : List UInt8 :=
  writeFunctionCodeWithSeq functionCode seqNum ++
    if writesPipelineToken ttcFieldVersion then writeUb8 tokenNum else []

/-- The sequence number after `seqNum`; zero is left out. -/
def nextTtcSequence (seqNum : UInt8) : UInt8 := if seqNum + 1 = 0 then 1 else seqNum + 1

end OracleThin.Ttc
