import OracleThin.ConnectString.Parser

/-!
# From the tree of a connect descriptor to its meaning

Keys that are known become fields. The other keys of a node are kept as texts, printed again with their keys in upper
case.
-/

namespace OracleThin.ConnectString

open Lib

/-! ### Descriptors -/

inductive Protocol
  | tcp
  | tcps
deriving DecidableEq, Repr

def Protocol.isTls : Protocol → Bool
  | .tcp => false
  | .tcps => true

def Protocol.asStr : Protocol → Text
  | .tcp => "tcp".toList
  | .tcps => "tcps".toList

def Protocol.fromKeyword (value : Text) : Result Protocol :=
  let keyword := toAsciiLowercase value
  if keyword = "tcp".toList then .ok .tcp
  else if keyword = "tcps".toList then .ok .tcps
  else .error ("invalid protocol \"".toList ++ keyword ++ "\"".toList)

inductive ServerType
  | dedicated
  | shared
  | pooled
deriving DecidableEq, Repr

def ServerType.asStr : ServerType → Text
  | .dedicated => "dedicated".toList
  | .shared => "shared".toList
  | .pooled => "pooled".toList

def ServerType.fromKeyword (value : Text) : Result ServerType :=
  let keyword := toAsciiLowercase value
  if keyword = "dedicated".toList then .ok .dedicated
  else if keyword = "shared".toList then .ok .shared
  else if keyword = "pooled".toList then .ok .pooled
  else .error ("invalid server_type: ".toList ++ keyword)

inductive Purity
  | self
  | new
deriving DecidableEq, Repr

structure Address where
  host : Option Text := none
  port : UInt16 := 1521
  protocol : Protocol := .tcp
  httpsProxy : Option Text := none
  httpsProxyPort : UInt16 := 0
deriving DecidableEq

structure AddressList where
  addresses : List Address := []
  loadBalance : Bool := false
  failover : Bool := false
  sourceRoute : Bool := false
deriving DecidableEq

structure ConnectData where
  serviceName : Option Text := none
  sid : Option Text := none
  instanceName : Option Text := none
  serverType : Option ServerType := none
  cclass : Option Text := none
  purity : Option Purity := none
  poolBoundary : Option Text := none
  poolName : Option Text := none
  connectionIdPrefix : Option Text := none
  useTcpFastOpen : Bool := false
  extra : List (Text × Text) := []
deriving DecidableEq

structure Security where
  sslServerDnMatch : Bool := true
  sslServerCertDn : Option Text := none
  walletLocation : Option Text := none
  extra : List (Text × Text) := []
deriving DecidableEq

/-- A number of seconds as it is written, with the thousandths that one of its units has. -/
structure Duration where
  number : Text
  thousandths : Nat
deriving DecidableEq

structure Description where
  addressLists : List AddressList := []
  connectData : ConnectData := {}
  security : Security := {}
  retryCount : UInt32 := 0
  retryDelay : UInt32 := 1
  expireTime : UInt32 := 0
  tcpConnectTimeout : Duration := ⟨"20.0".toList, 1000⟩
  sdu : UInt32 := 8192
  loadBalance : Bool := false
  failover : Bool := true
  sourceRoute : Bool := false
  useSni : Bool := false
  extra : List (Text × Text) := []
deriving DecidableEq

def Description.addresses (description : Description) : List Address :=
  description.addressLists.flatMap AddressList.addresses

structure Descriptor where
  descriptions : List Description := []
  loadBalance : Bool := false
  failover : Bool := true
  sourceRoute : Bool := false
deriving DecidableEq

def Descriptor.addresses (descriptor : Descriptor) : List Address :=
  descriptor.descriptions.flatMap Description.addresses

/-! ### Values -/

def simple (map : ArgMap) (key : String) : Option Text :=
  match (map.get key.toList).bind List.head? with
  | some (.simple text) => some text
  | _ => none

def parseBool (value : Text) : Bool :=
  toAsciiLowercase (trim value) ∈ ["on".toList, "yes".toList, "true".toList]

/-- The digits of an unsigned number below a bound, which may have a plus sign. -/
def parseUnsigned (bound : Nat) (value : Text) : Option Nat :=
  let digits := if value.head? = some '+' then value.tail else value
  if digits = [] ∨ ¬ digits.all Char.isDigit then none
  else if Nat.ofDigitChars 10 digits 0 < bound then some (Nat.ofDigitChars 10 digits 0)
  else none

def invalidValue (connectString : Text) (key : String) (value : Text) (reason : String) : Text :=
  "invalid connect descriptor \"".toList ++ connectString ++ "\": ".toList ++ key.toList ++ " value \"".toList ++
    value ++
    "\" is not a ".toList ++ reason.toList

def parseUint (connectString : Text) (key : String) (value : Text) : Result UInt32 :=
  match parseUnsigned (2 ^ 32) (trim value) with
  | some n => .ok (UInt32.ofNat n)
  | none => .error (invalidValue connectString key value "non-negative integer")

/-- The text without its ending, if it ends so. -/
def stripEnding (text ending : Text) : Option Text :=
  if ending <:+ text then some (text.take (text.length - ending.length)) else none

variable (lib : Library (Option Descriptor)) (connectString : Text)

def parseDuration (key : String) (value : Text) : Result Duration :=
  let text := toAsciiLowercase (trim value)
  let duration : Duration :=
    match stripEnding text "sec".toList, stripEnding text "ms".toList, stripEnding text "min".toList with
    | some number, _, _ => ⟨trim number, 1000⟩
    | none, some number, _ => ⟨trim number, 1⟩
    | none, none, some number => ⟨trim number, 60000⟩
    | none, none, none => ⟨text, 1000⟩
  if lib.isF64 duration.number then .ok duration
  else .error (invalidValue connectString key value "valid duration")

/-! ### Keys that are not known -/

/-- A printed pair. -/
def pairText (key value : Text) : Text := ['('] ++ toAsciiUppercase key ++ ['='] ++ value ++ [')']

mutual

def valueRepr : ArgValue → Text
  | .simple text => text
  | .node entries => entriesRepr entries

def entriesRepr : List (Text × List ArgValue) → Text
  | [] => []
  | (key, values) :: entries => valuesRepr key values ++ entriesRepr entries

def valuesRepr (key : Text) : List ArgValue → Text
  | [] => []
  | value :: values => pairText key (valueRepr value) ++ valuesRepr key values

end

def collectExtras (map : ArgMap) (allowed : List String) : List (Text × Text) :=
  (map.filter fun entry => entry.1 ∉ allowed.map String.toList).flatMap fun entry =>
    entry.2.map fun value => (toAsciiUppercase entry.1, valueRepr value)

/-! ### Nodes -/

def connectDataParamNames : List String :=
  ["cclass", "connection_id_prefix", "instance_name", "pool_boundary", "pool_name", "purity", "server_type",
    "service_name",
    "sid", "use_tcp_fast_open"]

def securityParamNames : List String :=
  ["ssl_server_cert_dn", "ssl_server_dn_match", "ssl_version", "wallet_location"]

def descriptionParamNames : List String :=
  ["address", "address_list", "connect_data", "expire_time", "failover", "load_balance", "source_route",
    "retry_count",
    "retry_delay", "sdu", "tcp_connect_timeout", "use_sni", "security"]

/-- Reads the value of a key, if there is one. -/
def optional {α : Type} (value : Option Text) (read : Text → Result α) : Result (Option α) :=
  match value with
  | none => .ok none
  | some text => some <$> read text

def parsePort (value : Text) : Option UInt16 := UInt16.ofNat <$> parseUnsigned (2 ^ 16) (trim value)

def readPort (value : Text) : Result UInt16 :=
  match parsePort value with
  | some port => .ok port
  | none => .error ("invalid port: ".toList ++ value)

def buildAddress (addr : ArgMap) : Result Address := do
  let port ← optional (simple addr "port") readPort
  let protocol ← optional (simple addr "protocol") Protocol.fromKeyword
  return {
    host := simple addr "host"
    port := port.getD 1521
    protocol := protocol.getD .tcp
    httpsProxy := simple addr "https_proxy"
    httpsProxyPort := ((simple addr "https_proxy_port").map fun port => (parsePort port).getD 0).getD 0 }

def readPurity (value : Text) : Result Purity :=
  let keyword := toAsciiUppercase value
  if keyword = "SELF".toList then .ok .self
  else if keyword = "NEW".toList then .ok .new
  else
    .error ("invalid connect descriptor \"".toList ++ connectString ++ "\": invalid POOL_PURITY \"".toList ++ value ++
      "\"".toList)

def buildConnectData (cd : ArgMap) : Result ConnectData := do
  let serverType ← optional (simple cd "server_type") ServerType.fromKeyword
  let purity ← optional (simple cd "purity") (readPurity connectString)
  return {
    serviceName := simple cd "service_name"
    sid := simple cd "sid"
    instanceName := simple cd "instance_name"
    serverType := serverType
    cclass := (simple cd "cclass").filter fun cclass => cclass ≠ []
    purity := purity
    poolBoundary := simple cd "pool_boundary"
    poolName := simple cd "pool_name"
    connectionIdPrefix := simple cd "connection_id_prefix"
    useTcpFastOpen := (simple cd "use_tcp_fast_open").elim false parseBool
    extra := collectExtras cd connectDataParamNames }

def buildSecurity (sec : ArgMap) : Security where
  sslServerDnMatch := (simple sec "ssl_server_dn_match").elim true parseBool
  sslServerCertDn := simple sec "ssl_server_cert_dn"
  walletLocation := simple sec "wallet_location"
  extra := collectExtras sec securityParamNames

/-- The nodes among some values. -/
def nodes (values : List ArgValue) : List ArgMap :=
  values.filterMap fun
    | .node entries => some entries
    | .simple _ => none

/-- The first value of a key, if it is a node. -/
def firstNode (map : ArgMap) (key : String) : Option ArgMap :=
  match (map.get key.toList).bind List.head? with
  | some (.node entries) => some entries
  | _ => none

def buildAddressList (list : ArgMap) : Result AddressList := do
  let addresses ← (nodes ((list.get "address".toList).getD [])).mapM buildAddress
  return {
    addresses := addresses
    failover := (simple list "failover").elim true parseBool
    loadBalance := (simple list "load_balance").elim false parseBool
    sourceRoute := (simple list "source_route").elim false parseBool }

/-- The lists of addresses. Without one, the description is the list of its own addresses. -/
def addressListNodes (desc : ArgMap) : List ArgMap := (desc.get "address_list".toList).elim [desc] nodes

def minSdu : UInt32 := 512

def maxSdu : UInt32 := 2097152

def buildDescription (desc : ArgMap) : Result Description := do
  let expireTime ← optional (simple desc "expire_time") (parseUint connectString "EXPIRE_TIME")
  let retryCount ← optional (simple desc "retry_count") (parseUint connectString "RETRY_COUNT")
  let retryDelay ← optional (simple desc "retry_delay") (parseUint connectString "RETRY_DELAY")
  let sdu ← optional (simple desc "sdu") (parseUint connectString "SDU")
  let timeout ← optional (simple desc "tcp_connect_timeout")
    (parseDuration lib connectString "TRANSPORT_CONNECT_TIMEOUT")
  let connectData ← (firstNode desc "connect_data").elim (.ok {}) (buildConnectData connectString)
  let addressLists ← (addressListNodes desc).mapM buildAddressList
  return {
    addressLists := addressLists
    connectData := connectData
    security := (firstNode desc "security").elim {} buildSecurity
    retryCount := retryCount.getD 0
    retryDelay := retryDelay.getD 1
    expireTime := expireTime.getD 0
    tcpConnectTimeout := timeout.getD ⟨"20.0".toList, 1000⟩
    sdu := (sdu.map fun sdu => min (max sdu minSdu) maxSdu).getD 8192
    loadBalance := (simple desc "load_balance").elim false parseBool
    failover := (simple desc "failover").elim true parseBool
    sourceRoute :=
      (desc.get "address_list".toList).isSome && (simple desc "source_route").elim false parseBool
    useSni := (simple desc "use_sni").elim false parseBool
    extra := collectExtras desc descriptionParamNames }

/-- The node of the descriptions: a list of them, or the tree itself. -/
def descriptionContainer (args : ArgMap) : ArgMap := (firstNode args "description_list").getD args

def descriptionNodes (args : ArgMap) : List ArgMap :=
  ((descriptionContainer args).get "description".toList).elim [descriptionContainer args] nodes

def buildDescriptor (args : ArgMap) : Result Descriptor := do
  let descriptions ← (descriptionNodes args).mapM (buildDescription lib connectString)
  let list := (firstNode args "description_list").getD []
  let descriptor : Descriptor := {
    descriptions := descriptions
    loadBalance := (simple list "load_balance").elim false parseBool
    failover := (simple list "failover").elim true parseBool
    sourceRoute := (simple list "source_route").elim false parseBool }
  if descriptor.addresses = [] then
    .error ("no addresses are defined in connect descriptor: ".toList ++ connectString)
  else .ok descriptor

/-! ### Connect strings -/

/-- The tree of a connect string that starts with a parenthesis, and what is left of the string. -/
def parseDescriptor (cs : Text) : Result (ArgMap × Text) := do
  let (pair, rest) ← parseKeyValuePair lib connectString 0 cs
  return (setPair [] pair, rest)

def parse : Result (Option Descriptor) :=
  match trim connectString with
  | [] => .error (errDescriptor connectString 0 "connect string must not be empty")
  | c :: cs =>
    if c = '(' then do
      let (args, rest) ← parseDescriptor lib connectString cs
      let descriptor ← buildDescriptor lib connectString args
      if rest = [] then return some descriptor else .error (errCannotParse connectString)
    else lib.easyConnect connectString

end OracleThin.ConnectString
